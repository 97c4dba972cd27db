import Mathlib.Data.List.Forall2
import Mathlib.Data.List.Infix
import Pipework.Proofs.Body.Work

/-!
# What a body moves

A call of a body moves parcels from its input queue to its output queue, and nothing is lost or
added on the way. A source puts its parcels behind those that are there already
(`Source.feeds_execute`): those that it polls, one of which may have to wait
(`Source.contents_execute`). A map turns parcels from the front of its input into results, and what
is not pushed is left over (`Map.shifts_execute`). A sink shows parcels from the front of its input
to its processors (`Sink.shows_execute`). Functions and processors may fail, and a parcel on which
one of them does is gone; they are supposed not to panic. Where it is known on which parcels they
fail it is known what comes out (`Map.moves_execute`, `Sink.takes_execute`).
-/

namespace Pipework

/-- The answer is a certain value, or a failure where there is none; it is no panic. -/
def Reply.Gives {β : Type} (o : Option β) : Reply β → Prop
  | .ok b => o = some b
  | .failed _ => o = none
  | .panicked _ => False

theorem Reply.Gives.unique {β : Type} {r : Reply β} {o o' : Option β} (h : r.Gives o)
    (h' : r.Gives o') : o = o' := by
  cases r with
  | ok b => exact Eq.trans h (Eq.symm h')
  | failed e => exact Eq.trans h (Eq.symm h')
  | panicked p => exact h.elim

theorem Reply.gives_ok_iff {u : Unit} {c : Bool} :
    (Reply.ok u).Gives (if c then some () else none) ↔ c = true := by
  cases c <;> simp [Gives]

theorem Reply.gives_failed_iff {e : StageError} {c : Bool} :
    (Reply.failed e : Reply Unit).Gives (if c then some () else none) ↔ c = false := by
  cases c <;> simp [Gives]

variable {α σ : Type}

/-! ### Contents of queues -/

namespace Queue

/-- A parcel that is offered ends up in the queue or comes back. -/
theorem items_push_append (q : Queue α) (a : α) :
    (q.push a).2.items ++ (q.push a).1.toList = q.items ++ [a] := by
  unfold push
  split
  · rfl
  · exact List.append_nil _

theorem pop_append_items (q : Queue α) : q.pop.1.toList ++ q.pop.2.items = q.items := by
  unfold pop
  split
  · rfl
  · next h => exact h.symm

theorem popMany_append_items (q : Queue α) (n : Nat) :
    (q.popMany n).1 ++ (q.popMany n).2.items = q.items :=
  List.take_append_drop n q.items

end Queue

namespace Store

variable {s s' s'' : Store α σ} {i j q : QueueId}

/-- The parcels in a queue, the oldest first. -/
def contents (s : Store α σ) (q : QueueId) : List α := (s.queue q).items

theorem contents_of_queues (h : s'.queues = s.queues) (q : QueueId) :
    s'.contents q = s.contents q := by
  unfold contents queue
  rw [h]

theorem contents_setQueue_self (hi : i < s.queues.length) (x : Queue α) :
    (s.setQueue i x).contents i = x.items := by
  unfold contents
  rw [queue_setQueue, if_pos ⟨rfl, hi⟩]

theorem contents_setQueue_ne (h : q ≠ i) (x : Queue α) :
    (s.setQueue i x).contents q = s.contents q :=
  congrArg Queue.items (queue_setQueue_ne (Ne.symm h) x)

theorem contents_push {a : α} {back : Option α} (hi : i < s.queues.length)
    (h : s.push i a = (back, s')) :
    s'.contents i ++ back.toList = s.contents i ++ [a] := by
  cases h
  rw [contents_setQueue_self hi]
  exact Queue.items_push_append _ a

/-- What comes back is what was offered. -/
theorem eq_of_push_eq_some {a a' : α} (h : s.push i a = (some a', s')) : a' = a := by
  unfold push Queue.push at h
  split at h <;> cases h
  rfl

/-- What a queue takes of some parcels that are offered to it. -/
def fitting (s : Store α σ) (q : QueueId) (xs : List α) : List α := xs.take (s.queue q).free

theorem fitting_eq (s : Store α σ) (q : QueueId) (xs : List α) :
    s.fitting q xs = xs.take (min (s.queue q).free xs.length) := by
  unfold fitting
  rw [List.take_eq_take_iff]
  omega

@[simp] theorem fitting_nil (s : Store α σ) (q : QueueId) : s.fitting q [] = [] := List.take_nil

theorem contents_pushMany_fitting {xs left : List α} (hi : i < s.queues.length)
    (h : s.pushMany i xs = (left, s')) :
    s'.contents i = s.contents i ++ s.fitting i xs := by
  cases h
  rw [contents_setQueue_self hi, fitting_eq]
  exact Queue.items_pushMany _ xs

theorem fitting_append_left {xs left : List α} (h : s.pushMany i xs = (left, s')) :
    s.fitting i xs ++ left = xs := by
  cases h
  rw [fitting_eq]
  exact List.take_append_drop _ xs

theorem length_fitting (s : Store α σ) (i : QueueId) (xs : List α) :
    (s.fitting i xs).length = xs.length - (s.pushMany i xs).1.length := by
  have : s.fitting i xs ++ (s.pushMany i xs).1 = xs := fitting_append_left rfl
  rw [← Nat.add_sub_cancel (s.fitting i xs).length, ← List.length_append, this]

theorem contents_pop {back : Option α} (hi : i < s.queues.length) (h : s.pop i = (back, s')) :
    s.contents i = back.toList ++ s'.contents i := by
  cases h
  rw [contents_setQueue_self hi]
  exact (Queue.pop_append_items _).symm

/-- Only a queue that exists has something to give. -/
theorem lt_of_pop {a : α} (h : s.pop i = (some a, s')) : i < s.queues.length := by
  refine Nat.lt_of_not_le fun hle => ?_
  have hqueue : s.queue i = default := by
    unfold queue
    rw [List.getD_eq_getElem?_getD, List.getElem?_eq_none hle]
    rfl
  unfold pop at h
  rw [hqueue] at h
  cases h

theorem contents_popMany {n : Nat} {batch : List α} (hi : i < s.queues.length)
    (h : s.popMany i n = (batch, s')) :
    s.contents i = batch ++ s'.contents i := by
  cases h
  rw [contents_setQueue_self hi]
  exact (Queue.popMany_append_items _ n).symm

theorem contents_requeue (hi : i < s.queues.length) (xs : List α) :
    (s.requeue i xs).contents i = xs ++ s.contents i := by
  unfold requeue
  rw [contents_setQueue_self hi]
  rfl

theorem contents_requeue_ne (h : q ≠ i) (xs : List α) :
    (s.requeue i xs).contents q = s.contents q :=
  contents_setQueue_ne h _

/-- Nothing has happened to the queues but to those listed. -/
structure Apart (s s' : Store α σ) (qs : List QueueId) : Prop where
  length : s'.queues.length = s.queues.length
  contents : ∀ q ∉ qs, s'.contents q = s.contents q

namespace Apart

variable {qs : List QueueId}

theorem refl (s : Store α σ) (qs : List QueueId) : Apart s s qs := ⟨rfl, fun _ _ => rfl⟩

theorem trans (h : Apart s s' qs) (h' : Apart s' s'' qs) : Apart s s'' qs :=
  ⟨h'.length.trans h.length, fun q hq => (h'.contents q hq).trans (h.contents q hq)⟩

theorem mono {qs' : List QueueId} (h : Apart s s' qs) (hs : qs ⊆ qs') : Apart s s' qs' :=
  ⟨h.length, fun q hq => h.contents q fun hm => hq (hs hm)⟩

theorem of_queues (h : s'.queues = s.queues) : Apart s s' qs :=
  ⟨by rw [h], fun q _ => contents_of_queues h q⟩

theorem setQueue (s : Store α σ) (hi : i ∈ qs) (x : Queue α) : Apart s (s.setQueue i x) qs :=
  ⟨length_queues_setQueue s i x, fun q hq => contents_setQueue_ne (fun h => hq (by rwa [h])) x⟩

theorem push {a : α} {back : Option α} (hi : i ∈ qs) (h : s.push i a = (back, s')) :
    Apart s s' qs := by
  have hs' : s' = (s.push i a).2 := by rw [h]
  rw [hs']
  exact setQueue s hi _

theorem pop {back : Option α} (hi : i ∈ qs) (h : s.pop i = (back, s')) : Apart s s' qs := by
  have hs' : s' = (s.pop i).2 := by rw [h]
  rw [hs']
  exact setQueue s hi _

theorem popMany {n : Nat} {batch : List α} (hi : i ∈ qs) (h : s.popMany i n = (batch, s')) :
    Apart s s' qs := by
  have hs' : s' = (s.popMany i n).2 := by rw [h]
  rw [hs']
  exact setQueue s hi _

theorem pushMany {xs left : List α} (hi : i ∈ qs) (h : s.pushMany i xs = (left, s')) :
    Apart s s' qs := by
  have hs' : s' = (s.pushMany i xs).2 := by rw [h]
  rw [hs']
  exact setQueue s hi _

end Apart

/-- No queue is removed, and the contents of a certain one stay as they are. -/
structure Keeps (q : QueueId) (s s' : Store α σ) : Prop where
  length : s.queues.length ≤ s'.queues.length
  contents : s'.contents q = s.contents q

namespace Keeps

theorem refl (q : QueueId) (s : Store α σ) : Keeps q s s := ⟨Nat.le_refl _, rfl⟩

theorem trans (h : Keeps q s s') (h' : Keeps q s' s'') : Keeps q s s'' :=
  ⟨h.length.trans h'.length, h'.contents.trans h.contents⟩

theorem setQueue (s : Store α σ) (h : q ≠ i) (x : Queue α) : Keeps q s (s.setQueue i x) :=
  ⟨Nat.le_of_eq (length_queues_setQueue s i x).symm, contents_setQueue_ne h x⟩

end Keeps

end Store

/-! ### Sources -/

/-- The parcels that a producer yields while up to `budget` of them are polled and pushed to a
queue. A parcel that finds the queue full is the last one. -/
def Producer.yields (p : Producer α σ) (out : QueueId) (s : Store α σ) : Nat → List α
  | 0 => []
  | budget + 1 =>
    match p.poll s with
    | (.item a, s) =>
      match s.push out a with
      | (none, s) => a :: p.yields out s budget
      | (some _, _) => [a]
    | _ => []

namespace Source

/-- The parcels that are polled up to a budget. -/
def polls (b : Source α σ) (s : Store α σ) (budget : Nat) : List α :=
  if b.exhausted then [] else b.producer.yields b.output s budget

/-- The parcels that are polled in a call: none as long as another one waits. -/
def polled (b : Source α σ) (v : Visit) (s : Store α σ) : List α :=
  match b.overflow with
  | none => b.polls s v.chunk
  | some a =>
    match s.push b.output a with
    | (none, s) => b.polls s (v.chunk - 1)
    | (some _, _) => []

/-- The producer leaves the queues alone. -/
def Discreet (b : Source α σ) : Prop := ∀ s, (b.producer.poll s).2.queues = s.queues

/-- Parcels have been put into a queue, and nothing else has happened to the queues. -/
structure Feeds (out : QueueId) (s s' : Store α σ) : Prop where
  apart : s.Apart s' [out]
  grows : s.contents out <+: s'.contents out

namespace Feeds

variable {out : QueueId} {s s' s'' : Store α σ}

theorem refl (out : QueueId) (s : Store α σ) : Feeds out s s := ⟨.refl s _, List.prefix_refl _⟩

theorem trans (h : Feeds out s s') (h' : Feeds out s' s'') : Feeds out s s'' :=
  ⟨h.apart.trans h'.apart, h.grows.trans h'.grows⟩

theorem of_queues (h : s'.queues = s.queues) : Feeds out s s' :=
  ⟨.of_queues h, by rw [Store.contents_of_queues h]⟩

theorem push {a : α} {r : Option α} (h : s.push out a = (r, s')) : Feeds out s s' := by
  cases h
  refine ⟨.setQueue s (List.mem_singleton_self out) _, ?_⟩
  by_cases hout : out < s.queues.length
  · rw [Store.contents_setQueue_self hout]
    unfold Queue.push
    split
    · exact List.prefix_refl _
    · exact List.prefix_append _ _
  · unfold Store.contents
    rw [Store.queue_setQueue, if_neg fun h => hout h.2]

end Feeds

variable {b : Source α σ} (hb : b.Discreet)
include hb

theorem feeds_pull (pushed : Nat) (s : Store α σ) (budget : Nat) :
    Feeds b.output s (b.pull pushed s budget).store := by
  have polled : ∀ {s s' : Store α σ} {p : Poll α}, b.producer.poll s = (p, s') →
      Feeds b.output s s' := by
    intro s s' p hp
    refine .of_queues ?_
    rw [← hb s, hp]
  fun_induction pull b pushed s budget with
  | case1 => exact .refl _ _
  | case2 _ s _ a _ hp _ hpush ih => exact ((polled hp).trans (.push hpush)).trans ih
  | case3 _ s _ a _ hp _ _ hpush => exact (polled hp).trans (.push hpush)
  | case4 _ s _ _ hp => exact polled hp
  | case5 _ s _ _ hp => exact polled hp
  | case6 _ s _ _ _ hp => exact polled hp

theorem feeds_feed (v : Visit) (pushed : Nat) (s : Store α σ) :
    Feeds b.output s (b.feed v pushed s).store :=
  feed_induction (P := fun _ store => Feeds b.output s store) b v pushed s (fun _ => .refl _ _)
    (fun _ => feeds_pull hb pushed s _) fun _ _ _ h => h

/-- A call of a source puts parcels into its output queue, behind those that are there. -/
theorem feeds_execute (v : Visit) (s : Store α σ) : Feeds b.output s (b.execute v s).store := by
  fun_cases execute b v s with
  | case1 src => exact feeds_feed (b := src) hb v 0 s
  | case2 _ a _ _ _ hpush => exact .push hpush
  | case3 src a _ s' hpush =>
    exact (Feeds.push hpush).trans (feeds_feed (b := { src with overflow := none }) hb v 1 s')

theorem contents_pull (hw : b.overflow = none) (pushed : Nat) {s : Store α σ}
    (ho : b.output < s.queues.length) (budget : Nat) :
    (b.pull pushed s budget).store.contents b.output ++
      (b.pull pushed s budget).body.overflow.toList =
      s.contents b.output ++ b.producer.yields b.output s budget := by
  have asked : ∀ {s s' : Store α σ} {p : Poll α}, b.producer.poll s = (p, s') →
      s'.contents b.output = s.contents b.output ∧ s'.queues.length = s.queues.length := by
    intro s s' p hp
    have hq : s'.queues = s.queues := by rw [← hb s, hp]
    exact ⟨Store.contents_of_queues hq _, congrArg List.length hq⟩
  fun_induction pull b pushed s budget with
  | case1 => simp [hw, Producer.yields]
  | case2 pushed s budget a s₁ hp s₂ hpush ih =>
    obtain ⟨hc, hl⟩ := asked hp
    have hgrows := Store.contents_push (hl ▸ ho) hpush
    have hlen : s₂.queues.length = s₁.queues.length :=
      (Store.Apart.push (List.mem_singleton_self _) hpush).length
    rw [ih (by rw [hlen, hl]; exact ho), Producer.yields, hp]
    simp only [hpush]
    rw [List.append_cons, ← hc, ← hgrows]
    exact congrArg (· ++ _) (List.append_nil _).symm
  | case3 pushed s budget a s₁ hp a' s₂ hpush =>
    obtain ⟨hc, hl⟩ := asked hp
    rw [Producer.yields, hp]
    simp only [hpush]
    rw [← hc]
    exact Store.contents_push (hl ▸ ho) hpush
  | case4 pushed s budget s₁ hp => simp [Producer.yields, hp, hw, (asked hp).1]
  | case5 pushed s budget s₁ hp => simp [Producer.yields, hp, hw, (asked hp).1]
  | case6 pushed s budget p s₁ hp => simp [Producer.yields, hp, hw, (asked hp).1]

theorem contents_feed (hw : b.overflow = none) (v : Visit) (pushed : Nat) {s : Store α σ}
    (ho : b.output < s.queues.length) :
    (b.feed v pushed s).store.contents b.output ++ (b.feed v pushed s).body.overflow.toList =
      s.contents b.output ++ b.polls s (v.chunk - pushed) := by
  refine feed_induction
    (P := fun body store => store.contents b.output ++ body.overflow.toList =
      s.contents b.output ++ b.polls s (v.chunk - pushed))
    b v pushed s (fun hx => ?_) (fun hx => ?_) fun _ _ _ h => h
  · simp [polls, hx, hw]
  · rw [contents_pull hb hw pushed ho]
    simp [polls, hx]

/-- **A source loses nothing.** What it polls in a call goes behind what waits, and that behind what
is in the queue. -/
theorem contents_execute (v : Visit) {s : Store α σ} (ho : b.output < s.queues.length) :
    (b.execute v s).store.contents b.output ++ (b.execute v s).body.overflow.toList =
      s.contents b.output ++ b.overflow.toList ++ b.polled v s := by
  unfold polled
  fun_cases execute b v s with
  | case1 src hw =>
    rw [contents_feed (b := src) hb hw v 0 ho, show b.overflow = none from hw]
    simp [src, polls]
  | case2 src a hw a' s₁ hpush =>
    have hgrows := Store.contents_push ho hpush
    have hw : b.overflow = some a := hw
    have hpush : s.push b.output a = (some a', s₁) := hpush
    simp only [hw, hpush]
    rw [List.append_nil]
    exact hgrows
  | case3 src a hw s₁ hpush =>
    have hgrows := Store.contents_push ho hpush
    have hlen : s₁.queues.length = s.queues.length :=
      (Store.Apart.push (List.mem_singleton_self _) hpush).length
    have hw : b.overflow = some a := hw
    have hpush : s.push b.output a = (none, s₁) := hpush
    simp only [hw, hpush]
    rw [contents_feed (b := { src with overflow := none }) hb rfl v 1 (by rw [hlen]; exact ho)]
    exact congrArg (· ++ _) ((List.append_nil _).symm.trans hgrows)

omit hb in
theorem feed_ne_suspended (b : Source α σ) (v : Visit) (pushed : Nat) (s : Store α σ) :
    (b.feed v pushed s).ending ≠ .suspended := by
  fun_cases feed b v pushed s <;> simp

omit hb in
theorem execute_ne_suspended (b : Source α σ) (v : Visit) (s : Store α σ) :
    (b.execute v s).ending ≠ .suspended := by
  fun_cases execute b v s with
  | case1 => exact feed_ne_suspended _ v 0 s
  | case2 => simp
  | case3 => exact feed_ne_suspended _ v 1 _

end Source

/-! ### Maps -/

namespace Map

/-- The map applies a function that fails where it has no value but does not panic, and leaves the
queues alone. -/
def Answers (m : Map α σ) (f : α → Option α) : Prop :=
  ∀ a s, (m.apply a s).1.Gives (f a) ∧ (m.apply a s).2.queues = s.queues

/-- The map applies a total function and leaves the queues alone. -/
def Computes (m : Map α σ) (f : α → α) : Prop :=
  ∀ a s, (m.apply a s).1 = .ok (f a) ∧ (m.apply a s).2.queues = s.queues

theorem Computes.answers {m : Map α σ} {f : α → α} (h : m.Computes f) :
    m.Answers fun a => some (f a) := fun a s => by
  obtain ⟨hok, hq⟩ := h a s
  rw [hok]
  exact ⟨rfl, hq⟩

/-- The function does not panic, and leaves the queues alone. -/
def Quiet (m : Map α σ) : Prop :=
  ∀ a s, (∀ p, (m.apply a s).1 ≠ .panicked p) ∧ (m.apply a s).2.queues = s.queues

/-- The function does not panic. -/
def Sober (m : Map α σ) : Prop := ∀ a s p, (m.apply a s).1 ≠ .panicked p

theorem Quiet.sober {m : Map α σ} (h : m.Quiet) : m.Sober := fun a s => (h a s).1

theorem Answers.quiet {m : Map α σ} {f : α → Option α} (h : m.Answers f) : m.Quiet := fun a s => by
  obtain ⟨hf, hq⟩ := h a s
  refine ⟨fun p hp => ?_, hq⟩
  rw [hp] at hf
  exact hf

/-- The parcels of a batch to which a function is applied, up to the first one on which it fails,
each with its result. -/
def trials (apply : α → Store α σ → Reply α × Store α σ) : List α → Store α σ → List (α × Option α)
  | [], _ => []
  | a :: batch, s =>
    match apply a s with
    | (.ok b, s) => (a, some b) :: trials apply batch s
    | _ => [(a, none)]

/-- The batch that is taken in a call, and the store by then. -/
def batch (m : Map α σ) (v : Visit) (s : Store α σ) : List α × Store α σ :=
  let r := s.pushMany m.output m.overflow
  if r.1.isEmpty then
    let budget := min v.chunk (r.2.queue m.output).free
    if reserveLimit ≤ budget then ([], r.2) else r.2.popMany m.input budget
  else ([], r.2)

/-- The parcels to which the function is applied in a call, each with its result. -/
def tries (m : Map α σ) (v : Visit) (s : Store α σ) : List (α × Option α) :=
  trials m.apply (m.batch v s).1 (m.batch v s).2

/-- What the function makes of the batch that is taken in a call. -/
def answered (m : Map α σ) (v : Visit) (s : Store α σ) : Applied α σ :=
  m.applyAll (m.batch v s).1 (m.batch v s).2

/-- What is pushed in a call of what was left over before. -/
def flushed (m : Map α σ) (s : Store α σ) : List α := s.fitting m.output m.overflow

/-- What is pushed in a call of the results of its batch. -/
def delivered (m : Map α σ) (v : Visit) (s : Store α σ) : List α :=
  (m.answered v s).store.fitting m.output (m.answered v s).results

/-- What a call does around the function: it pushes what was left over and takes a batch; then it
pushes the results and gives back what the function has not been applied to. -/
structure Serves (m : Map α σ) (v : Visit) (s : Store α σ) : Prop where
  before : s.Apart (m.batch v s).2 [m.input, m.output]
  taken : s.contents m.input = (m.batch v s).1 ++ (m.batch v s).2.contents m.input
  flushed : (m.batch v s).2.contents m.output = s.contents m.output ++ m.flushed s
  after : (m.answered v s).store.Apart (m.execute v s).store [m.input, m.output]
  back : (m.execute v s).store.contents m.input =
    (m.answered v s).rest ++ (m.answered v s).store.contents m.input
  delivered : (m.execute v s).store.contents m.output =
    (m.answered v s).store.contents m.output ++ m.delivered v s
  left : m.flushed s ++ m.delivered v s ++ (m.execute v s).body.overflow =
    m.overflow ++ (m.answered v s).results

/-- Parcels have been taken from the front of the input, and their results follow the earlier
ones. -/
structure Shifts (m : Map α σ) (s : Store α σ) (m' : Map α σ) (s' : Store α σ)
    (tries : List (α × Option α)) : Prop where
  apart : s.Apart s' [m.input, m.output]
  input : s.contents m.input = tries.map (·.1) ++ s'.contents m.input
  output : s'.contents m.output ++ m'.overflow =
    s.contents m.output ++ m.overflow ++ tries.filterMap (·.2)

/-- The same, where the results are known. -/
structure Moves (m : Map α σ) (f : α → Option α) (s : Store α σ) (m' : Map α σ) (s' : Store α σ)
    (taken : List α) :
    Prop where
  apart : s.Apart s' [m.input, m.output]
  input : s.contents m.input = taken ++ s'.contents m.input
  output : s'.contents m.output ++ m'.overflow =
    s.contents m.output ++ m.overflow ++ taken.filterMap f

variable {m : Map α σ} {f : α → Option α}

/-- The function is applied from the front of a batch up to a parcel on which it fails, and to all
of it if there is none. -/
theorem applyAll_of_sober (hm : m.Sober) (batch : List α) (s : Store α σ) :
    batch = (trials m.apply batch s).map (·.1) ++ (m.applyAll batch s).rest ∧
      (m.applyAll batch s).results = (trials m.apply batch s).filterMap (·.2) ∧
      ((m.applyAll batch s).stop = .ok () ∧ (m.applyAll batch s).rest = [] ∨
        ∃ e, (m.applyAll batch s).stop = .failed e) := by
  fun_induction applyAll m batch s with
  | case1 => exact ⟨rfl, rfl, .inl ⟨rfl, rfl⟩⟩
  | case2 a batch s b s' ha r ih =>
    obtain ⟨htaken, hresults, hstop⟩ := ih
    simp only [trials, ha]
    exact ⟨congrArg (a :: ·) htaken, congrArg (b :: ·) hresults, hstop⟩
  | case3 a batch s e s' ha =>
    simp only [trials, ha]
    exact ⟨rfl, rfl, .inr ⟨e, rfl⟩⟩
  | case4 a batch s p s' ha => exact absurd (congrArg Prod.fst ha) (hm a s p)

/-- What is left over makes no difference to what the function does. -/
theorem applyAll_overflow (m : Map α σ) (xs batch : List α) (s : Store α σ) :
    ({ m with overflow := xs } : Map α σ).applyAll batch s = m.applyAll batch s := by
  induction batch generalizing s with
  | nil => rfl
  | cons a batch ih => simp only [applyAll, ih]

/-- The results on a batch are pushed or left over, and what has not been tried goes back. -/
theorem handle_of_sober (hm : m.Sober) (hio : m.input ≠ m.output) (v : Visit) (batch : List α)
    {s : Store α σ} (hi : m.input < (m.applyAll batch s).store.queues.length)
    (ho : m.output < (m.applyAll batch s).store.queues.length) :
    let a := m.applyAll batch s
    let r := m.handle v batch s
    a.store.Apart r.store [m.input, m.output] ∧
      r.store.contents m.input = a.rest ++ a.store.contents m.input ∧
      r.store.contents m.output = a.store.contents m.output ++ a.store.fitting m.output a.results ∧
      ∃ left, r.body.overflow = m.overflow ++ left ∧
        a.store.fitting m.output a.results ++ left = a.results := by
  obtain ⟨-, -, hstop⟩ := applyAll_of_sober hm batch s
  have pushed : ∀ {left : List α} {s' : Store α σ},
      (m.applyAll batch s).store.pushMany m.output (m.applyAll batch s).results = (left, s') →
        (m.applyAll batch s).store.Apart s' [m.input, m.output] ∧
          s'.contents m.input = (m.applyAll batch s).store.contents m.input ∧
          s'.contents m.output = (m.applyAll batch s).store.contents m.output ++
            (m.applyAll batch s).store.fitting m.output (m.applyAll batch s).results := by
    intro left s' hpush
    refine ⟨.pushMany (by simp) hpush, ?_, Store.contents_pushMany_fitting ho hpush⟩
    cases hpush
    exact Store.contents_setQueue_ne hio _
  fun_cases handle m v batch s with
  | case1 r p hp =>
    rcases hstop with ⟨hok, -⟩ | ⟨e, he⟩
    · exact absurd (hp.symm.trans hok) (by simp)
    · exact absurd (hp.symm.trans he) (by simp)
  | case2 r a hok left s' hpush =>
    obtain ⟨hapart, hinput, houtput⟩ := pushed hpush
    have hrest : (m.applyAll batch s).rest = [] := by
      rcases hstop with ⟨-, hrest⟩ | ⟨e, he⟩
      · exact hrest
      · exact absurd (hok.symm.trans he) (by simp)
    refine ⟨hapart, ?_, houtput, left, rfl, Store.fitting_append_left hpush⟩
    rw [hrest]
    exact hinput
  | case3 r e he left s' hpush =>
    obtain ⟨hapart, hinput, houtput⟩ := pushed hpush
    refine ⟨hapart.trans (.setQueue s' (by simp) _), ?_, ?_, left, rfl,
      Store.fitting_append_left hpush⟩
    · rw [Store.contents_requeue (by rwa [hapart.length]), hinput]
    · rw [Store.contents_requeue_ne (Ne.symm hio), houtput]

/-- What was left over is pushed before a batch is taken. -/
theorem batch_spec (hio : m.input ≠ m.output) (v : Visit) {s : Store α σ}
    (hi : m.input < s.queues.length) (ho : m.output < s.queues.length) :
    s.Apart (m.batch v s).2 [m.input, m.output] ∧
      s.contents m.input = (m.batch v s).1 ++ (m.batch v s).2.contents m.input ∧
      (m.batch v s).2.contents m.output = s.contents m.output ++ m.flushed s := by
  unfold batch
  rcases hpush : s.pushMany m.output m.overflow with ⟨left, s₁⟩
  have hapart : s.Apart s₁ [m.input, m.output] := .pushMany (by simp) hpush
  have hinput : s₁.contents m.input = s.contents m.input := by
    cases hpush
    exact Store.contents_setQueue_ne hio _
  have houtput : s₁.contents m.output = s.contents m.output ++ m.flushed s :=
    Store.contents_pushMany_fitting ho hpush
  have untaken : s.Apart s₁ [m.input, m.output] ∧ s.contents m.input = [] ++ s₁.contents m.input ∧
      s₁.contents m.output = s.contents m.output ++ m.flushed s := ⟨hapart, hinput.symm, houtput⟩
  simp only
  split
  · split
    · exact untaken
    · rcases hpop : s₁.popMany m.input (min v.chunk (s₁.queue m.output).free) with ⟨batch, s₂⟩
      have htaken := Store.contents_popMany (by rwa [hapart.length]) hpop
      refine ⟨hapart.trans (.popMany (by simp) hpop), hinput.symm.trans htaken, ?_⟩
      cases hpop
      exact (Store.contents_setQueue_ne (Ne.symm hio) _).trans houtput
  · exact untaken

/-- A call takes nothing, or nothing is left over any more and it handles its batch. -/
theorem execute_cases (m : Map α σ) (v : Visit) (s : Store α σ) :
    (m.batch v s).1 = [] ∧ (m.execute v s).store = (m.batch v s).2 ∧
        m.flushed s ++ (m.execute v s).body.overflow = m.overflow ∨
      m.flushed s = m.overflow ∧
        m.execute v s =
          ({ m with overflow := [] } : Map α σ).handle v (m.batch v s).1 (m.batch v s).2 := by
  unfold batch
  fun_cases execute m v s with
  | case1 left s₁ hpush m' hempty budget hlimit =>
    have hlimit : reserveLimit ≤ min v.chunk (s₁.queue m.output).free := hlimit
    simp only [hpush, hempty, hlimit, if_true]
    exact .inl ⟨trivial, trivial, Store.fitting_append_left hpush⟩
  | case2 left s₁ hpush _ m' hempty budget hlimit s₂ hpop =>
    have hlimit : ¬ reserveLimit ≤ min v.chunk (s₁.queue m.output).free := hlimit
    have hpop : s₁.popMany m.input (min v.chunk (s₁.queue m.output).free) = ([], s₂) := hpop
    simp only [hpush, hempty, hlimit, hpop, if_true, if_false]
    exact .inl ⟨trivial, trivial, Store.fitting_append_left hpush⟩
  | case3 left s₁ hpush m' hempty budget hlimit batch s₂ hne hpop =>
    have hlimit : ¬ reserveLimit ≤ min v.chunk (s₁.queue m.output).free := hlimit
    have hpop : s₁.popMany m.input (min v.chunk (s₁.queue m.output).free) = (batch, s₂) := hpop
    simp only [hpush, hempty, hlimit, hpop, if_true, if_false]
    have hleft : left = [] := List.isEmpty_iff.1 hempty
    have hfit := Store.fitting_append_left hpush
    rw [hleft, List.append_nil] at hfit
    refine .inr ⟨hfit, ?_⟩
    rw [show m' = { m with overflow := left } from rfl, hleft]
  | case4 left s₁ hpush _ m' hempty =>
    simp only [hpush, if_neg hempty]
    exact .inl ⟨trivial, trivial, Store.fitting_append_left hpush⟩

/-- **Every call of a map goes this way**, whatever its function does to the queues, so long as it
removes none. -/
theorem serves_execute (hm : m.Sober) (hk : ∀ a s, s.queues.length ≤ (m.apply a s).2.queues.length)
    (hio : m.input ≠ m.output) (v : Visit) {s : Store α σ} (hi : m.input < s.queues.length)
    (ho : m.output < s.queues.length) : m.Serves v s := by
  obtain ⟨hbefore, htaken, hflushed⟩ := batch_spec hio v hi ho
  have hlong : s.queues.length ≤ (m.answered v s).store.queues.length :=
    applyAll_stable (P := fun s' => s.queues.length ≤ s'.queues.length)
      (fun a s' h => h.trans (hk a s')) (m.batch v s).1 (Nat.le_of_eq hbefore.length.symm)
  rcases m.execute_cases v s with ⟨hnone, hstore, hleft⟩ | ⟨hall, he⟩
  · have hidle : m.answered v s = ⟨[], .ok (), [], (m.batch v s).2⟩ := by
      unfold answered
      rw [hnone]
      rfl
    have hnothing : m.delivered v s = [] := by
      unfold Map.delivered
      rw [hidle]
      exact Store.fitting_nil _ _
    refine ⟨hbefore, htaken, hflushed, ?_, ?_, ?_, ?_⟩
    · rw [hidle, hstore]
      exact .refl _ _
    · rw [hidle, hstore]
      rfl
    · rw [hnothing, hidle, hstore, List.append_nil]
    · rw [hnothing, hidle, List.append_nil, List.append_nil]
      exact hleft
  · have hsame := m.applyAll_overflow [] (m.batch v s).1 (m.batch v s).2
    obtain ⟨hafter, hback, hdelivered, left, hover, hfit⟩ :=
      handle_of_sober (m := { m with overflow := [] }) hm hio v (m.batch v s).1
        (by rw [hsame]; exact hi.trans_le hlong) (by rw [hsame]; exact ho.trans_le hlong)
    rw [hsame] at hafter hback hdelivered hfit
    rw [← he] at hafter hback hdelivered hover
    refine ⟨hbefore, htaken, hflushed, hafter, hback, hdelivered, ?_⟩
    rw [hall, hover, List.nil_append, List.append_assoc]
    exact congrArg (m.overflow ++ ·) hfit

/-- **A map loses nothing but the parcels on which its function fails.** A call takes parcels from
the front of the input; the results, behind those left over from before, are pushed or left over. -/
theorem shifts_execute (hm : m.Quiet) (hio : m.input ≠ m.output) (v : Visit) {s : Store α σ}
    (hi : m.input < s.queues.length) (ho : m.output < s.queues.length) :
    m.Shifts s (m.execute v s).body (m.execute v s).store (m.tries v s) := by
  have serves := serves_execute hm.sober
    (fun a s => Nat.le_of_eq (congrArg List.length (hm a s).2).symm) hio v hi ho
  obtain ⟨htried, hresults, -⟩ := applyAll_of_sober hm.sober (m.batch v s).1 (m.batch v s).2
  have hq : (m.answered v s).store.queues = (m.batch v s).2.queues :=
    applyAll_stable (P := fun s' => s'.queues = (m.batch v s).2.queues)
      (fun a s' h => ((hm a s').2).trans h) _ rfl
  refine ⟨serves.before.trans (.trans (.of_queues hq) serves.after), ?_, ?_⟩
  · rw [serves.back, Store.contents_of_queues hq, ← List.append_assoc, serves.taken]
    exact congrArg (· ++ _) htried
  · rw [serves.delivered, Store.contents_of_queues hq, serves.flushed, List.append_assoc,
      List.append_assoc, ← List.append_assoc (m.flushed s), serves.left, List.append_assoc]
    exact congrArg (fun xs => _ ++ (m.overflow ++ xs)) hresults

/-- Each result is what the function has answered. -/
theorem gives_of_mem_trials (hm : m.Sober) {batch : List α} {s : Store α σ} {t : α × Option α}
    (ht : t ∈ trials m.apply batch s) : ∃ s', (m.apply t.1 s').1.Gives t.2 := by
  induction batch generalizing s with
  | nil => cases ht
  | cons a batch ih =>
    rcases ha : m.apply a s with ⟨r, s'⟩
    cases r with
    | ok b =>
      simp only [trials, ha, List.mem_cons] at ht
      rcases ht with rfl | ht
      · exact ⟨s, by rw [ha]; rfl⟩
      · exact ih ht
    | failed e =>
      simp only [trials, ha, List.mem_singleton] at ht
      subst ht
      exact ⟨s, by rw [ha]; rfl⟩
    | panicked p => exact absurd (congrArg Prod.fst ha) (hm a s p)

/-- Where the results are known they are those of the parcels that are tried. -/
theorem filterMap_tried {tried : List (α × Option α)} (hf : ∀ a s, (m.apply a s).1.Gives (f a))
    (ht : ∀ t ∈ tried, ∃ s, (m.apply t.1 s).1.Gives t.2) :
    tried.filterMap (·.2) = (tried.map (·.1)).filterMap f := by
  rw [List.filterMap_map]
  refine List.filterMap_congr fun t hmem => ?_
  obtain ⟨s, hgives⟩ := ht t hmem
  exact hgives.unique (hf t.1 s)

theorem filterMap_trials (hm : m.Answers f) (batch : List α) (s : Store α σ) :
    (trials m.apply batch s).filterMap (·.2) = ((trials m.apply batch s).map (·.1)).filterMap f :=
  filterMap_tried (fun a s => (hm a s).1) fun _ => gives_of_mem_trials hm.quiet.sober

/-- So it is with the results that a map answers. -/
theorem moves_execute (hm : m.Answers f) (hio : m.input ≠ m.output) (v : Visit) {s : Store α σ}
    (hi : m.input < s.queues.length) (ho : m.output < s.queues.length) :
    ∃ taken, m.Moves f s (m.execute v s).body (m.execute v s).store taken := by
  have shifts := shifts_execute hm.quiet hio v hi ho
  refine ⟨(m.tries v s).map (·.1), shifts.apart, shifts.input, ?_⟩
  rw [shifts.output, tries, filterMap_trials hm]

theorem execute_ne_suspended (m : Map α σ) (v : Visit) (s : Store α σ) :
    (m.execute v s).ending ≠ .suspended := by
  fun_cases execute m v s with
  | case3 _ _ _ m' _ _ _ batch s' => fun_cases handle m' v batch s' <;> simp
  | _ => simp

end Map

/-! ### Sinks -/

/-- A processor fails on the parcels that do not pass a test and on no others; it neither panics nor
touches the queues. -/
def Processor.Applies (p : Processor α σ) (t : α → Bool) : Prop :=
  ∀ a s, (p.process a s).1.Gives (if t a then some () else none) ∧
    (p.process a s).2.queues = s.queues

/-- A processor does not panic, and leaves the queues alone. -/
def Processor.Quiet (p : Processor α σ) : Prop :=
  ∀ a s, (∀ e, (p.process a s).1 ≠ .panicked e) ∧ (p.process a s).2.queues = s.queues

theorem Processor.Applies.quiet {p : Processor α σ} {t : α → Bool} (h : p.Applies t) : p.Quiet :=
  fun a s => by
  obtain ⟨hgives, hq⟩ := h a s
  refine ⟨fun e he => ?_, hq⟩
  rw [he] at hgives
  exact hgives

namespace Sink

/-- Each processor has its test. -/
def Judges (b : Sink α σ) (tests : List (α → Bool)) : Prop :=
  List.Forall₂ Processor.Applies b.processors tests

/-- Whether a parcel passes all tests. -/
def passes (tests : List (α → Bool)) (a : α) : Bool := tests.all (· a)

/-- No processor ever fails, and none touches the queues. -/
def Accepts (b : Sink α σ) : Prop :=
  ∀ p ∈ b.processors, ∀ a s, (p.process a s).1 = .ok () ∧ (p.process a s).2.queues = s.queues

theorem Accepts.judges {b : Sink α σ} (h : b.Accepts) :
    b.Judges (b.processors.map fun _ _ => true) := by
  unfold Judges
  rw [List.forall₂_map_right_iff, List.forall₂_same]
  intro p hp a s
  obtain ⟨hok, hq⟩ := h p hp a s
  rw [hok]
  exact ⟨rfl, hq⟩

/-- No processor panics, and none touches the queues. -/
def Quiet (b : Sink α σ) : Prop := ∀ p ∈ b.processors, p.Quiet

/-- The parcels of a batch that are shown to processors: those up to the first one that they do not
accept. -/
def shownOf (b : Sink α σ) : List α → Store α σ → List α
  | [], _ => []
  | a :: batch, s =>
    match show? a b.processors s with
    | (.ok _, s) => a :: b.shownOf batch (b.retire a s)
    | _ => [a]

/-- The parcels that are shown to processors in a call. -/
def shown (b : Sink α σ) (v : Visit) (s : Store α σ) : List α :=
  if reserveLimit ≤ v.chunk then []
  else
    let r := s.popMany b.input v.chunk
    b.shownOf r.1 r.2

/-- The parcels of a batch that all processors accept, up to the first one that they do not. -/
def acceptedOf (b : Sink α σ) : List α → Store α σ → List α
  | [], _ => []
  | a :: batch, s =>
    match show? a b.processors s with
    | (.ok _, s) => a :: b.acceptedOf batch (b.retire a s)
    | _ => []

/-- The parcels that all processors accept in a call. -/
def accepted (b : Sink α σ) (v : Visit) (s : Store α σ) : List α :=
  if reserveLimit ≤ v.chunk then []
  else
    let r := s.popMany b.input v.chunk
    b.acceptedOf r.1 r.2

theorem acceptedOf_consume (b : Sink α σ) (n : UInt64) (batch : List α) (s : Store α σ) :
    ({ b with consumed := n } : Sink α σ).acceptedOf batch s = b.acceptedOf batch s := by
  induction batch generalizing s with
  | nil => rfl
  | cons a batch ih =>
    simp only [acceptedOf]
    split
    · exact congrArg (a :: ·) (ih _)
    · rfl

/-- What a sink has accepted is what it counts. -/
theorem consumed_handle (b : Sink α σ) (v : Visit) (batch : List α) (s : Store α σ) :
    (b.handle v batch s).body.consumed =
      b.consumed + UInt64.ofNat (b.acceptedOf batch s).length := by
  fun_induction handle b v batch s with
  | case1 => simp [acceptedOf]
  | case2 b v a batch s _ s' hs ih =>
    rw [ih, acceptedOf_consume]
    simp only [acceptedOf, hs, List.length_cons, UInt64.ofNat_add]
    rw [UInt64.add_assoc, UInt64.add_comm 1]
    rfl
  | case3 b v a batch s _ s' hs => simp [acceptedOf, hs]
  | case4 b v a batch s _ s' hs => simp [acceptedOf, hs]

theorem consumed_execute (b : Sink α σ) (v : Visit) (s : Store α σ) :
    (b.execute v s).body.consumed = b.consumed + UInt64.ofNat (b.accepted v s).length := by
  fun_cases execute b v s with
  | case1 h => simp [accepted, h]
  | case2 h s' hpop => simp [accepted, h, hpop, acceptedOf]
  | case3 h batch s' hne hpop =>
    rw [consumed_handle]
    simp only [accepted, h, if_false, hpop]

/-- If no processor panics, nor do all of them together. -/
theorem show_of_forall_quiet {ps : List (Processor α σ)}
    (hps : ∀ p ∈ ps, p.Quiet) (a : α) (s : Store α σ) :
    (∀ e, (show? a ps s).1 ≠ .panicked e) ∧ (show? a ps s).2.queues = s.queues := by
  induction ps generalizing s with
  | nil => exact ⟨nofun, rfl⟩
  | cons p ps ih =>
    obtain ⟨hp, hq⟩ := hps p (List.mem_cons_self ..) a s
    unfold show?
    rcases hproc : p.process a s with ⟨r, s'⟩
    rw [hproc] at hp hq
    cases r with
    | ok _ =>
      obtain ⟨hshow, hqs⟩ := ih (fun x hx => hps x (List.mem_cons_of_mem _ hx)) s'
      exact ⟨hshow, hqs.trans hq⟩
    | failed e => exact ⟨hp, hq⟩
    | panicked e => exact ⟨hp, hq⟩

theorem show_of_quiet {b : Sink α σ} (hb : b.Quiet) (a : α) (s : Store α σ) :
    (∀ e, (show? a b.processors s).1 ≠ .panicked e) ∧
    (show? a b.processors s).2.queues = s.queues :=
  show_of_forall_quiet hb a s

/-- A parcel is accepted if it passes all tests. -/
theorem show_of_judges {a : α} {ps : List (Processor α σ)} {tests : List (α → Bool)}
    (hps : List.Forall₂ Processor.Applies ps tests) (s : Store α σ) :
    (show? a ps s).1.Gives (if passes tests a then some () else none) ∧
    (show? a ps s).2.queues = s.queues := by
  induction hps generalizing s with
  | nil => exact ⟨rfl, rfl⟩
  | @cons p t ps tests hp hps ih =>
    obtain ⟨hgives, hq⟩ := hp a s
    unfold show?
    rcases hproc : p.process a s with ⟨r, s'⟩
    rw [hproc] at hgives hq
    cases r with
    | ok _ =>
      obtain ⟨hshow, hqs⟩ := ih s'
      refine ⟨?_, hqs.trans hq⟩
      rw [passes, List.all_cons, Reply.gives_ok_iff.1 hgives, Bool.true_and]
      exact hshow
    | failed e =>
      refine ⟨?_, hq⟩
      rw [passes, List.all_cons, Reply.gives_failed_iff.1 hgives, Bool.false_and]
      rfl
    | panicked p => exact hgives.elim

@[simp] theorem queues_retire (b : Sink α σ) (a : α) (s : Store α σ) :
    (b.retire a s).queues = s.queues := by
  unfold retire Store.release
  split
  · split <;> rfl
  · rfl

theorem Judges.quiet {b : Sink α σ} {tests : List (α → Bool)} (hb : b.Judges tests) : b.Quiet := by
  have key : ∀ {ps : List (Processor α σ)} {ts : List (α → Bool)},
      List.Forall₂ Processor.Applies ps ts → ∀ p ∈ ps, p.Quiet := by
    intro ps ts hps
    induction hps with
    | nil => exact fun _ hp => absurd hp List.not_mem_nil
    | cons hp _ ih => exact List.forall_mem_cons.2 ⟨hp.quiet, ih⟩
  exact key hb

theorem shownOf_consume (b : Sink α σ) (n : UInt64) (batch : List α) (s : Store α σ) :
    ({ b with consumed := n } : Sink α σ).shownOf batch s = b.shownOf batch s := by
  induction batch generalizing s with
  | nil => rfl
  | cons a batch ih =>
    simp only [shownOf]
    split
    · exact congrArg (a :: ·) (ih _)
    · rfl

/-- Parcels from the front of a batch are shown, and what has not been shown goes back. -/
theorem handle_of_quiet {b : Sink α σ} (hb : b.Quiet) (v : Visit) (batch : List α) {s : Store α σ}
    (hi : b.input < s.queues.length) :
    s.Apart (b.handle v batch s).store [b.input] ∧
      batch ++ s.contents b.input =
        b.shownOf batch s ++ (b.handle v batch s).store.contents b.input := by
  fun_induction handle b v batch s with
  | case1 => exact ⟨.refl _ _, rfl⟩
  | case2 b v a batch s _ s' hs ih =>
    have hretired : (b.retire a s').queues = s.queues := by
      rw [queues_retire, ← (show_of_quiet hb a s).2, hs]
    obtain ⟨hapart, hshown⟩ := ih hb (by rwa [hretired])
    refine ⟨.trans (.of_queues hretired) hapart, ?_⟩
    rw [shownOf_consume, Store.contents_of_queues hretired] at hshown
    simp only [shownOf, hs]
    exact congrArg (a :: ·) hshown
  | case3 b v a batch s e s' hs =>
    have hretired : (b.retire a s').queues = s.queues := by
      rw [queues_retire, ← (show_of_quiet hb a s).2, hs]
    refine ⟨.trans (.of_queues hretired) (.setQueue _ (by simp) _), ?_⟩
    simp only [shownOf, hs]
    rw [Store.contents_requeue (by rwa [hretired]), Store.contents_of_queues hretired]
    rfl
  | case4 b v a batch s p s' hs => exact absurd (congrArg Prod.fst hs) ((show_of_quiet hb a s).1 p)

/-- Where processors judge, those of the parcels that are shown are accepted that pass all tests. -/
theorem acceptedOf_of_judges {b : Sink α σ} {tests : List (α → Bool)} (hb : b.Judges tests)
    (batch : List α) (s : Store α σ) :
    b.acceptedOf batch s = (b.shownOf batch s).filter (passes tests) := by
  induction batch generalizing s with
  | nil => rfl
  | cons a batch ih =>
    obtain ⟨hgives, -⟩ := show_of_judges (a := a) hb s
    unfold acceptedOf shownOf
    rcases hs : show? a b.processors s with ⟨r, s'⟩
    rw [hs] at hgives
    cases r with
    | ok _ => rw [List.filter_cons_of_pos (Reply.gives_ok_iff.1 hgives), ← ih]
    | failed e =>
      rw [List.filter_cons_of_neg (Bool.eq_false_iff.1 (Reply.gives_failed_iff.1 hgives)),
        List.filter_nil]
    | panicked p => exact hgives.elim

/-- **A sink loses nothing.** A call takes parcels from the front of the input and shows them. -/
theorem shows_execute {b : Sink α σ} (hb : b.Quiet) (v : Visit) {s : Store α σ}
    (hi : b.input < s.queues.length) :
    s.Apart (b.execute v s).store [b.input] ∧
      s.contents b.input = b.shown v s ++ (b.execute v s).store.contents b.input := by
  unfold shown
  fun_cases execute b v s with
  | case1 h =>
    rw [if_pos h]
    exact ⟨.refl s _, rfl⟩
  | case2 h s₁ hpop =>
    simp only [if_neg h, hpop, shownOf]
    exact ⟨.popMany (by simp) hpop, Store.contents_popMany hi hpop⟩
  | case3 h batch s₁ hne hpop =>
    have hapart : s.Apart s₁ [b.input] := .popMany (by simp) hpop
    obtain ⟨hafter, hshown⟩ := handle_of_quiet hb v batch (by rwa [hapart.length])
    simp only [if_neg h, hpop]
    exact ⟨hapart.trans hafter, (Store.contents_popMany hi hpop).trans hshown⟩

theorem accepted_of_judges {b : Sink α σ} {tests : List (α → Bool)} (hb : b.Judges tests)
    (v : Visit) (s : Store α σ) :
    b.accepted v s = (b.shown v s).filter (passes tests) := by
  unfold accepted shown
  split
  · rfl
  · exact acceptedOf_of_judges hb _ _

/-- Where processors judge, those that pass all tests are accepted. -/
theorem takes_execute {b : Sink α σ} {tests : List (α → Bool)} (hb : b.Judges tests) (v : Visit)
    {s : Store α σ} (hi : b.input < s.queues.length) :
    s.Apart (b.execute v s).store [b.input] ∧ ∃ taken,
      s.contents b.input = taken ++ (b.execute v s).store.contents b.input ∧
        b.accepted v s = taken.filter (passes tests) := by
  obtain ⟨hapart, hshown⟩ := shows_execute hb.quiet v hi
  exact ⟨hapart, b.shown v s, hshown, accepted_of_judges hb v s⟩

/-- If no processor ever fails all parcels that are taken are accepted. -/
theorem takes_of_accepts {b : Sink α σ} (hb : b.Accepts) (v : Visit) {s : Store α σ}
    (hi : b.input < s.queues.length) :
    s.Apart (b.execute v s).store [b.input] ∧
      s.contents b.input = b.accepted v s ++ (b.execute v s).store.contents b.input := by
  obtain ⟨hapart, taken, htaken, hacc⟩ := takes_execute hb.judges v hi
  have hpass : ∀ a : α, passes (b.processors.map fun _ _ => true) a = true := fun a => by
    simp [passes]
  rw [List.filter_eq_self.2 fun a _ => hpass a] at hacc
  exact ⟨hapart, hacc ▸ htaken⟩

theorem handle_ne_suspended (b : Sink α σ) (v : Visit) (batch : List α) (s : Store α σ) :
    (b.handle v batch s).ending ≠ .suspended := by
  fun_induction handle b v batch s with
  | case2 _ _ _ _ _ _ _ _ ih => exact ih
  | _ => simp

theorem execute_ne_suspended (b : Sink α σ) (v : Visit) (s : Store α σ) :
    (b.execute v s).ending ≠ .suspended := by
  fun_cases execute b v s with
  | case3 => exact handle_ne_suspended b v _ _
  | _ => simp

end Sink

end Pipework
