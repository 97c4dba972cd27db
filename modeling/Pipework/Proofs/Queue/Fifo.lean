import Mathlib.Algebra.Order.Group.Multiset
import Mathlib.Data.UInt
import Mathlib.Tactic.Abel
import Pipework.Proofs.Queue.Mirror

/-!
# First in, first out

Whatever is done to a queue is entered in a log: which of the parcels that were offered it accepted
and which it handed back, which it gave out, and which were put back. One entry says what the queue
holds afterwards and what its counters have become (`Queue.tells_enter`). So the log, played on a
plain list, gives the contents of the queue, nothing is lost or duplicated, and the depth is what
the counters say (`Queue.fifo`).
-/

namespace Pipework.Queue

variable {α S S' : Type}

/-! ### Logs -/

/-- What can be offered to a queue. -/
inductive Offer (α : Type) where
  | one (a : α)
  | many (xs : List α)

def Offer.parcels : Offer α → List α
  | .one a => [a]
  | .many xs => xs

/-- What can be done to a queue. -/
inductive Act (α : Type) where
  | offer (o : Offer α)
  | pop
  | popMany (n : Nat)
  | popInto (buffer : List α) (n : Nat)
  | requeue (xs : List α)
  | setThreshold (n : Nat)

/-- What became of the parcels in one act, as the one who acts sees it. -/
structure Entry (α : Type) where
  accepted : List α := []
  refused : List α := []
  taken : List α := []
  returned : List α := []

namespace Ops

/-- Acts, and gives the entry. What is offered and not handed back is accepted, and taken is what is
appended to a buffer. -/
def enter (o : Ops α S) (s : S) : Act α → Entry α × S
  | .offer (.one a) =>
    let r := o.push s a
    ({ accepted := if r.1.isNone then [a] else [], refused := r.1.toList }, r.2)
  | .offer (.many xs) =>
    let r := o.pushMany s xs
    ({ accepted := xs.take (xs.length - r.1.length), refused := r.1 }, r.2)
  | .pop =>
    let r := o.pop s
    ({ taken := r.1.toList }, r.2)
  | .popMany n =>
    let r := o.popMany s n
    ({ taken := r.1 }, r.2)
  | .popInto buffer n =>
    let r := o.popInto s buffer n
    ({ taken := r.1.drop buffer.length }, r.2)
  | .requeue xs => ({ returned := xs }, o.requeue s xs)
  | .setThreshold n => ({}, o.setThreshold s n)

/-- Acts again and again, and gives the log. -/
def run (o : Ops α S) : S → List (Act α) → List (Entry α) × S
  | s, [] => ([], s)
  | s, a :: acts =>
    let r := o.enter s a
    let rest := o.run r.2 acts
    (r.1 :: rest.1, rest.2)

variable {o : Ops α S} {o' : Ops α S'} {f : S → S'}

theorem Agree.enter (h : o.Agree o' f) (s : S) (a : Act α) :
    o'.enter (f s) a = ((o.enter s a).1, f (o.enter s a).2) := by
  cases a with
  | offer o => cases o <;> simp only [Ops.enter, h.push, h.pushMany]
  | pop => simp only [Ops.enter, h.pop]
  | popMany n => simp only [Ops.enter, h.popMany]
  | popInto buffer n => simp only [Ops.enter, h.popInto]
  | requeue xs => simp only [Ops.enter, h.requeue]
  | setThreshold n => simp only [Ops.enter, h.setThreshold]

theorem Agree.run (h : o.Agree o' f) (s : S) (acts : List (Act α)) :
    o'.run (f s) acts = ((o.run s acts).1, f (o.run s acts).2) := by
  induction acts generalizing s with
  | nil => rfl
  | cons a acts ih => simp only [Ops.run, h.enter, ih]

end Ops

/-! ### One entry -/

/-- What an entry tells of the queue before and after: what was taken stood in front of the rest,
what was put back stands in front of the rest now, and what was accepted behind it; the counters go
on accordingly. -/
structure Entry.Tells (e : Entry α) (q q' : Queue α) : Prop where
  items : ∃ rest, q.items = e.taken ++ rest ∧ q'.items = e.returned ++ rest ++ e.accepted
  pushed : q'.pushed = q.pushed + e.accepted.length.toUInt64
  popped : q'.popped = q.popped + e.taken.length.toUInt64 - e.returned.length.toUInt64

/-- As many parcels are accepted as there is room for, the first ones, and the others are handed
back. -/
theorem enter_offer (q : Queue α) (o : Offer α) :
    ops.enter q (.offer o) =
      ({ accepted := o.parcels.take q.free, refused := o.parcels.drop q.free },
        (ops.enter q (.offer o)).2) ∧
    (ops.enter q (.offer o)).2.items = q.items ++ o.parcels.take q.free ∧
    (ops.enter q (.offer o)).2.pushed = q.pushed + (o.parcels.take q.free).length.toUInt64 ∧
    (ops.enter q (.offer o)).2.popped = q.popped := by
  cases o with
  | one a =>
    by_cases h : q.threshold ≤ q.depth
    · have hfree : q.free = 0 := Nat.sub_eq_zero_of_le h
      simp [Ops.enter, ops, push, h, hfree, Offer.parcels]
    · obtain ⟨k, hfree⟩ : ∃ k, q.free = k + 1 :=
        Nat.exists_eq_succ_of_ne_zero (Nat.sub_ne_zero_of_lt (Nat.not_le.1 h))
      simp [Ops.enter, ops, push, h, hfree, Offer.parcels]
  | many xs =>
    have htake : xs.take (min q.free xs.length) = xs.take q.free := List.take_eq_take_min.symm
    have hdrop : xs.drop (min q.free xs.length) = xs.drop q.free := List.drop_eq_drop_min.symm
    have hleft : xs.take (xs.length - (xs.drop q.free).length) = xs.take q.free := by
      rw [List.length_drop, ← htake]
      congr 1
      omega
    simp only [Ops.enter, ops, pushMany, Offer.parcels, htake, hdrop, hleft,
      List.length_take, and_self]

/-- **An entry tells what has happened to the queue.** -/
theorem tells_enter (q : Queue α) (a : Act α) : (ops.enter q a).1.Tells q (ops.enter q a).2 := by
  have popping : ∀ n, Entry.Tells { taken := q.items.take n } q (q.popMany n).2 := fun n =>
    ⟨⟨q.items.drop n, (List.take_append_drop n q.items).symm, by simp [popMany]⟩, by simp [popMany],
      by simp [popMany]⟩
  cases a with
  | offer o =>
    obtain ⟨hentry, hitems, hpushed, hpopped⟩ := enter_offer q o
    rw [hentry]
    exact ⟨⟨q.items, rfl, hitems⟩, hpushed, by simp [hpopped]⟩
  | pop =>
    cases h : q.items with
    | nil => refine ⟨⟨[], ?_, ?_⟩, ?_, ?_⟩ <;> simp [Ops.enter, ops, pop, h]
    | cons x rest => refine ⟨⟨rest, ?_, ?_⟩, ?_, ?_⟩ <;> simp [Ops.enter, ops, pop, h]
  | popMany n => exact popping n
  | popInto buffer n =>
    have htaken : (ops.enter q (.popInto buffer n)).1 = { taken := q.items.take n } := by
      simp [Ops.enter, ops, popMany]
    rw [htaken]
    exact popping n
  | requeue xs => refine ⟨⟨q.items, rfl, ?_⟩, ?_, ?_⟩ <;> simp [Ops.enter, ops, requeue]
  | setThreshold n => refine ⟨⟨q.items, rfl, ?_⟩, ?_, ?_⟩ <;> simp [Ops.enter, ops, setThreshold]

/-! ### The front -/

/-- What is popped is what stands in front, the oldest parcel first, and the others stay as they
are. `items` gives the parcels of a state. -/
structure Ops.TakesFront (o : Ops α S) (items : S → List α) (s : S) : Prop where
  pop : (o.pop s).1 = (items s).head? ∧ items (o.pop s).2 = (items s).tail
  popMany : ∀ n, (o.popMany s n).1 = (items s).take n ∧ items (o.popMany s n).2 = (items s).drop n
  popInto : ∀ buffer n,
    (o.popInto s buffer n).1 = buffer ++ (items s).take n ∧
    items (o.popInto s buffer n).2 = (items s).drop n

theorem takesFront (q : Queue α) : ops.TakesFront (·.items) q where
  pop := by
    cases h : q.items with
    | nil => simp [ops, pop, h]
    | cons a rest => simp [ops, pop, h]
  popMany n := ⟨rfl, items_popMany q n⟩
  popInto buffer n := ⟨rfl, items_popMany q n⟩

/-- Operations that agree take the same from the front. -/
theorem Ops.TakesFront.of_agree {o : Ops α S} {o' : Ops α S'} {f : S → S'} {items : S → List α}
    {items' : S' → List α} {s : S} (h : o.TakesFront items s) (agree : o.Agree o' f)
    (hitems : ∀ t, items' (f t) = items t) :
    o'.TakesFront items' (f s) where
  pop := by
    rw [agree.pop, hitems, hitems]
    exact h.pop
  popMany n := by
    rw [agree.popMany, hitems, hitems]
    exact h.popMany n
  popInto buffer n := by
    rw [agree.popInto, hitems, hitems]
    exact h.popInto buffer n

/-! ### Whole logs -/

/-- A log played on a plain list: what is taken comes off the front, what is put back goes in front,
and what is accepted goes to the end. -/
inductive Replays : List α → List (Entry α) → List α → Prop where
  | nil (l : List α) : Replays l [] l
  | cons {e : Entry α} {log : List (Entry α)} {rest l : List α} :
    Replays (e.returned ++ rest ++ e.accepted) log l → Replays (e.taken ++ rest) (e :: log) l

/-- All that was accepted. -/
def acceptedOf (log : List (Entry α)) : List α := log.flatMap (·.accepted)

/-- All that was put back. -/
def returnedOf (log : List (Entry α)) : List α := log.flatMap (·.returned)

/-- All that was taken. -/
def takenOf (log : List (Entry α)) : List α := log.flatMap (·.taken)

theorem replays_run (q : Queue α) (acts : List (Act α)) :
    Replays q.items (ops.run q acts).1 (ops.run q acts).2.items := by
  induction acts generalizing q with
  | nil => exact .nil q.items
  | cons a acts ih =>
    obtain ⟨rest, hbefore, hafter⟩ := (tells_enter q a).items
    have later := ih (ops.enter q a).2
    rw [hafter] at later
    rw [hbefore]
    exact .cons later

/-- What goes into a list and what was in it comes out of it or is in it, each as often. -/
theorem Replays.perm {l l' : List α} {log : List (Entry α)} (h : Replays l log l') :
    (l ++ (acceptedOf log ++ returnedOf log)).Perm (takenOf log ++ l') := by
  induction h with
  | nil l => simp [acceptedOf, returnedOf, takenOf]
  | @cons e log rest l' _ ih =>
    have later : (e.returned ++ rest ++ e.accepted ++ (acceptedOf log ++ returnedOf log)).Perm
        (takenOf log ++ l') := ih
    have here : (rest ++ (acceptedOf (e :: log) ++ returnedOf (e :: log))).Perm
        (e.returned ++ rest ++ e.accepted ++ (acceptedOf log ++ returnedOf log)) := by
      rw [← Multiset.coe_eq_coe]
      simp only [acceptedOf, returnedOf, List.flatMap_cons, ← Multiset.coe_add]
      abel
    rw [List.append_assoc, show takenOf (e :: log) = e.taken ++ takenOf log from List.flatMap_cons,
      List.append_assoc]
    exact (here.trans later).append_left e.taken

/-- The depth is the difference between the counters of a queue. -/
def Balanced (q : Queue α) : Prop := q.depth.toUInt64 = q.pushed - q.popped

theorem balanced_bounded (name : String) (threshold : Nat) :
    (bounded name threshold : Queue α).Balanced := by
  simp [Balanced, bounded, depth]

theorem Balanced.enter {q : Queue α} (h : q.Balanced) (a : Act α) : (ops.enter q a).2.Balanced := by
  obtain ⟨⟨rest, hbefore, hafter⟩, hpushed, hpopped⟩ := tells_enter q a
  unfold Balanced depth at h ⊢
  rw [hbefore] at h
  rw [hafter, hpushed, hpopped]
  simp only [List.length_append, Nat.toUInt64_eq, UInt64.ofNat_add] at h ⊢
  have hsum : q.pushed =
      UInt64.ofNat (ops.enter q a).1.taken.length + UInt64.ofNat rest.length + q.popped := by
    rw [h]
    abel
  rw [hsum]
  abel

theorem balanced_run {q : Queue α} (h : q.Balanced) (acts : List (Act α)) :
    (ops.run q acts).2.Balanced := by
  induction acts generalizing q with
  | nil => exact h
  | cons a acts ih => exact ih (h.enter a)

/-- As long as nothing but offers is made what is accepted goes to the end and nothing is popped. -/
theorem run_offers (q : Queue α) (offers : List (Offer α)) :
    (ops.run q (offers.map .offer)).2.items =
      q.items ++ acceptedOf (ops.run q (offers.map .offer)).1 ∧
      (ops.run q (offers.map .offer)).2.popped = q.popped := by
  induction offers generalizing q with
  | nil => simp [Ops.run, acceptedOf]
  | cons o offers ih =>
    obtain ⟨hentry, hitems, -, hpopped⟩ := enter_offer q o
    obtain ⟨later, laterPopped⟩ := ih (ops.enter q (.offer o)).2
    refine ⟨?_, laterPopped.trans hpopped⟩
    rw [List.map_cons, Ops.run]
    simp only [later, hitems, acceptedOf, List.flatMap_cons, congrArg Prod.fst hentry,
      List.append_assoc]

/-- Parcels are popped, others are accepted, and of the popped ones all but the first `k` are put
back: then they stand in front again, and it is as if only the first ones had been popped. -/
theorem requeue_after (q : Queue α) (n k : Nat) (offers : List (Offer α)) :
    let taken := q.popMany n
    let met := ops.run taken.2 (offers.map .offer)
    let back := met.2.requeue (taken.1.drop k)
    back.items = taken.1.drop k ++ q.items.drop n ++ acceptedOf met.1 ∧
      back.popped = (q.popMany (min k n)).2.popped := by
  intro taken met back
  obtain ⟨hitems, hpopped⟩ := run_offers taken.2 offers
  refine ⟨?_, ?_⟩
  · rw [List.append_assoc]
    exact congrArg (taken.1.drop k ++ ·) hitems
  · have hlength : (q.items.take n).length =
        (q.items.take (min k n)).length + ((q.items.take n).drop k).length := by
      simp only [List.length_take, List.length_drop]
      omega
    change met.2.popped - ((q.items.take n).drop k).length.toUInt64 =
      q.popped + (q.items.take (min k n)).length.toUInt64
    rw [show met.2.popped = q.popped + (q.items.take n).length.toUInt64 from hpopped, hlength]
    simp only [Nat.toUInt64_eq, UInt64.ofNat_add]
    abel

/-- **A queue is first in, first out, and keeps exact accounts.** Start with an empty queue of any
threshold, the unlimited one included, and do anything to it, also put back what was never popped.
Then

- a queue that mirrors its depth has done and answered the same, and its mirror says how many
  parcels there are;
- the contents are what the log leaves of a plain empty list;
- what is popped next is what stands in front, of the queue and of the one that mirrors its depth:
  one parcel, several, or several that are appended to a buffer;
- what was accepted and what was put back is what was taken and what is there, each parcel as often;
- the number of parcels is the difference of the counters in 64 bits;
- of what is offered next the first parcels are accepted, as many as there is room for, and the
  others handed back, so that the depth does not rise above the threshold;
- if parcels are popped next, others accepted and all popped ones but the first put back, these
  stand in front of the rest, that in front of what was accepted, and as many count as popped as if
  only the first ones had been. -/
theorem fifo (name : String) (threshold : Nat) (acts : List (Act α)) :
    let r := ops.run (bounded name threshold : Queue α) acts
    let m := Mirrored.ops.run (bounded name threshold : Queue α).mirrored acts
    let q := r.2
    (m.1 = r.1 ∧ m.2.toQueue = q ∧ m.2.len = q.items.length) ∧
    Replays [] r.1 q.items ∧
    (ops.TakesFront (·.items) q ∧ Mirrored.ops.TakesFront (·.items) m.2) ∧
    (acceptedOf r.1 ++ returnedOf r.1).Perm (takenOf r.1 ++ q.items) ∧
    q.depth.toUInt64 = q.pushed - q.popped ∧
    (∀ o : Offer α,
      let next := ops.enter q (.offer o)
      next.1.accepted = o.parcels.take q.free ∧ next.1.refused = o.parcels.drop q.free ∧
        next.2.items = q.items ++ next.1.accepted ∧ next.2.depth ≤ max q.depth q.threshold) ∧
    ∀ n k (offers : List (Offer α)),
      let taken := q.popMany n
      let met := ops.run taken.2 (offers.map .offer)
      let back := met.2.requeue (taken.1.drop k)
      back.items = taken.1.drop k ++ q.items.drop n ++ acceptedOf met.1 ∧
        back.popped = (q.popMany (min k n)).2.popped := by
  intro r m q
  have replays : Replays [] r.1 q.items := replays_run (bounded name threshold) acts
  have mirror : m = (r.1, q.mirrored) := mirrors.run (bounded name threshold) acts
  have balanced : q.Balanced := balanced_run (balanced_bounded name threshold) acts
  have mirroredFront : Mirrored.ops.TakesFront (·.items) m.2 := by
    rw [mirror]
    exact (takesFront q).of_agree mirrors fun _ => rfl
  refine ⟨by simp [mirror, mirrored, Mirrored.len, depth], replays, ⟨takesFront q, mirroredFront⟩,
    replays.perm, balanced, fun o => ?_, requeue_after q⟩
  obtain ⟨hentry, hitems, -, -⟩ := enter_offer q o
  intro next
  have hentry : next.1 = { accepted := o.parcels.take q.free, refused := o.parcels.drop q.free } :=
    congrArg Prod.fst hentry
  refine ⟨by rw [hentry], by rw [hentry], by rw [hentry]; exact hitems, ?_⟩
  rw [depth, show next.2.items = _ from hitems, List.length_append, List.length_take]
  unfold free depth
  omega

end Pipework.Queue
