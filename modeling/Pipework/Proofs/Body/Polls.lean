import Pipework.Proofs.Body.GroupEnd
import Pipework.Proofs.Body.Transfer

/-!
# The deeds of a source

What a source does in its calls is to ask its producer, and to offer to its output what it is given
(`Source.deeds`). It asks only when nothing waits and the producer has not said that it is exhausted
(`Source.Orderly`); so what it pushes is what it is given, in order, and it is finished exactly when
the producer is and all has been pushed (`Source.emits_polls`).
-/

namespace Pipework

variable {α σ : Type}

namespace Source

/-! ### Deeds -/

/-- What a source does: it asks its producer, or offers a parcel to its output, which takes or
refuses it. -/
inductive Deed (α : Type) where
  | asked (answer : Poll α)
  | pushed (a : α)
  | refused (a : α)

/-- The parcel that the producer gives. -/
def Deed.polled? : Deed α → Option α
  | .asked (.item a) => some a
  | _ => none

/-- The parcel that the output takes. -/
def Deed.pushed? : Deed α → Option α
  | .pushed a => some a
  | _ => none

/-- The panic of the producer. -/
def Deed.panic? : Deed α → Option Panic
  | .asked (.panicked p) => some p
  | _ => none

def polledOf (log : List (Deed α)) : List α := log.filterMap Deed.polled?

def pushedOf (log : List (Deed α)) : List α := log.filterMap Deed.pushed?

/-- The panic that has ended a call which did so. -/
def panicOf (log : List (Deed α)) : Option Panic := log.findSome? Deed.panic?

/-- What is done while up to `budget` parcels are polled and pushed. -/
def pullDeeds (b : Source α σ) (s : Store α σ) : Nat → List (Deed α)
  | 0 => []
  | budget + 1 =>
    match b.producer.poll s with
    | (.item a, s) =>
      match s.push b.output a with
      | (none, s) => .asked (.item a) :: .pushed a :: b.pullDeeds s budget
      | (some _, _) => [.asked (.item a), .refused a]
    | (p, _) => [.asked p]

def feedDeeds (b : Source α σ) (v : Visit) (pushed : Nat) (s : Store α σ) : List (Deed α) :=
  if b.exhausted then [] else b.pullDeeds s (v.chunk - pushed)

/-- What is done in one call. -/
def deeds (b : Source α σ) (v : Visit) (s : Store α σ) : List (Deed α) :=
  match b.overflow with
  | none => b.feedDeeds v 0 s
  | some a =>
    match s.push b.output a with
    | (some _, _) => [.refused a]
    | (none, s) => .pushed a :: b.feedDeeds v 1 s

/-! ### Logs of deeds -/

/-- All that was polled has been pushed. -/
def Clear (log : List (Deed α)) : Prop := pushedOf log = polledOf log

/-- The producer has said that it is exhausted. -/
def Ended (log : List (Deed α)) : Prop := .asked .exhausted ∈ log

/-- The producer is asked only if all that it has given before has been pushed and it has not said
that it is exhausted. -/
def Orderly (log : List (Deed α)) : Prop :=
  ∀ before p after, log = before ++ .asked p :: after → Clear before ∧ ¬ Ended before

variable {log : List (Deed α)} {d : Deed α}

theorem Orderly.concat (h : Orderly log) (hd : ∀ p, d = .asked p → Clear log ∧ ¬ Ended log) :
    Orderly (log ++ [d]) := by
  intro before p after he
  rcases List.eq_nil_or_concat after with rfl | ⟨after', x, rfl⟩
  · obtain ⟨rfl, hlast⟩ := List.append_inj' he rfl
    exact hd p (List.singleton_injective hlast)
  · rw [List.concat_eq_append, ← List.cons_append, ← List.append_assoc] at he
    exact h before p after' (List.append_inj' he rfl).1

theorem pushedOf_append (log log' : List (Deed α)) :
    pushedOf (log ++ log') = pushedOf log ++ pushedOf log' :=
  List.filterMap_append

theorem polledOf_append (log log' : List (Deed α)) :
    polledOf (log ++ log') = polledOf log ++ polledOf log' :=
  List.filterMap_append

theorem panicOf_append (log log' : List (Deed α)) :
    panicOf (log ++ log') = (panicOf log).or (panicOf log') :=
  List.findSome?_append

theorem ended_append (log log' : List (Deed α)) : Ended (log ++ log') ↔ Ended log ∨ Ended log' :=
  List.mem_append

/-- The source as it is between its deeds, and its log. -/
structure Booked (b₀ : Source α σ) (log : List (Deed α)) (b : Source α σ) : Prop where
  core : b.core = b₀.core
  parcels : pushedOf log ++ b.overflow.toList = polledOf log
  ended_iff : b.exhausted = true ↔ Ended log
  tidy : b.Tidy
  orderly : Orderly log

namespace Booked

variable {b₀ b b' : Source α σ}

theorem clear_iff (h : Booked b₀ log b) : Clear log ↔ b.overflow = none := by
  unfold Clear
  rw [← h.parcels]
  cases b.overflow <;> simp

/-- The source is done when the producer is and nothing waits. -/
theorem done_iff (h : Booked b₀ log b) :
    (b.exhausted && b.overflow.isNone) = true ↔ Ended log ∧ Clear log := by
  rw [h.clear_iff, ← h.ended_iff]
  simp

/-- One more deed is booked: a parcel that is given waits until it is pushed. -/
theorem concat (h : Booked b₀ log b) (d : Deed α) (hcore : b'.core = b.core)
    (hparcels : d.pushed?.toList ++ b'.overflow.toList = b.overflow.toList ++ d.polled?.toList)
    (hended : b'.exhausted = true ↔ b.exhausted = true ∨ d = .asked .exhausted) (htidy : b'.Tidy)
    (hasked : ∀ p, d = .asked p → b.overflow = none ∧ b.exhausted = false) :
    Booked b₀ (log ++ [d]) b' := by
  refine ⟨hcore.trans h.core, ?_, ?_, htidy, h.orderly.concat fun p hp => ?_⟩
  · have hpushed : pushedOf [d] = d.pushed?.toList := by
      cases hd : d.pushed? <;> simp [pushedOf, hd]
    have hpolled : polledOf [d] = d.polled?.toList := by
      cases hd : d.polled? <;> simp [polledOf, hd]
    rw [pushedOf_append, polledOf_append, hpushed, hpolled, List.append_assoc, hparcels,
      ← List.append_assoc, h.parcels]
  · rw [hended, ended_append, h.ended_iff]
    simp [Ended, eq_comm]
  · obtain ⟨hw, hx⟩ := hasked p hp
    refine ⟨h.clear_iff.2 hw, ?_⟩
    rw [← h.ended_iff, hx]
    decide

variable {a : α}

/-- A parcel that waits is pushed. -/
theorem pushed (h : Booked b₀ log b) (ha : b.overflow = some a) :
    Booked b₀ (log ++ [.pushed a]) { b with overflow := none } :=
  h.concat _ rfl (by simp [ha, Deed.pushed?, Deed.polled?]) (by simp) (fun _ => rfl) nofun

/-- A parcel that waits finds no room. -/
theorem refused (h : Booked b₀ log b) (a : α) : Booked b₀ (log ++ [.refused a]) b :=
  h.concat _ rfl (by simp [Deed.pushed?, Deed.polled?]) (by simp) h.tidy nofun

section Asked

variable (h : Booked b₀ log b) (hw : b.overflow = none) (hx : b.exhausted = false)
include h hw hx

/-- The producer gives a parcel, which waits for the moment. -/
theorem given (a : α) : Booked b₀ (log ++ [.asked (.item a)]) { b with overflow := some a } :=
  h.concat _ rfl (by simp [hw, Deed.pushed?, Deed.polled?]) (by simp)
    (fun he => absurd (hx.symm.trans he) (by decide)) fun _ _ => ⟨hw, hx⟩

/-- The producer has nothing to give. -/
theorem empty : Booked b₀ (log ++ [.asked .empty]) b :=
  h.concat _ rfl (by simp [Deed.pushed?, Deed.polled?]) (by simp) h.tidy fun _ _ => ⟨hw, hx⟩

/-- The producer says that it is exhausted. -/
theorem exhausted : Booked b₀ (log ++ [.asked .exhausted]) { b with exhausted := true } :=
  h.concat _ rfl (by simp [Deed.pushed?, Deed.polled?]) (by simp) (fun _ => hw) fun _ _ => ⟨hw, hx⟩

/-- Polling books what it does. -/
theorem pull (hp : ∀ s p, (b.producer.poll s).1 ≠ .panicked p) (pushed : Nat) (s : Store α σ)
    (budget : Nat) :
    let r := b.pull pushed s budget
    Booked b₀ (log ++ b.pullDeeds s budget) r.body ∧ r.panic = none ∧
    (pushedOf (b.pullDeeds s budget)).length ≤ budget := by
  fun_induction Source.pull b pushed s budget generalizing log with
  | case1 pushed s =>
    simp only [pullDeeds, List.append_nil]
    exact ⟨h, trivial, Nat.le_refl _⟩
  | case2 pushed s budget a s₁ hpoll s₂ hpush ih =>
    have next := (h.given hw hx a).pushed rfl
    -- the parcel waited for no longer than it took to push it
    rw [show ({ ({ b with overflow := some a } : Source α σ) with overflow := none } : Source α σ) =
      b by rw [← hw]] at next
    obtain ⟨hbooked, hpanic, hle⟩ := ih next
    have hcount : (pushedOf (.asked (.item a) :: .pushed a :: b.pullDeeds s₂ budget)).length =
        (pushedOf (b.pullDeeds s₂ budget)).length + 1 := rfl
    simp only [pullDeeds, hpoll, hpush, hcount]
    rw [List.append_assoc, List.append_assoc] at hbooked
    exact ⟨hbooked, hpanic, by omega⟩
  | case3 pushed s budget a s₁ hpoll a' s₂ hpush =>
    have next := (h.given hw hx a).refused a
    obtain rfl := Store.eq_of_push_eq_some hpush
    simp only [pullDeeds, hpoll, hpush]
    rw [List.append_assoc] at next
    exact ⟨next, trivial, Nat.zero_le _⟩
  | case4 pushed s budget s₁ hpoll =>
    simp only [pullDeeds, hpoll]
    exact ⟨h.empty hw hx, trivial, Nat.zero_le _⟩
  | case5 pushed s budget s₁ hpoll =>
    simp only [pullDeeds, hpoll]
    exact ⟨h.exhausted hw hx, trivial, Nat.zero_le _⟩
  | case6 pushed s budget p s₁ hpoll => exact absurd (congrArg Prod.fst hpoll) (hp s p)

end Asked

/-- What is counted does not matter to the log. -/
theorem counted (h : Booked b₀ log b) (produced : UInt64) (chunkHint : Nat) :
    Booked b₀ log { b with produced, chunkHint } :=
  ⟨h.core, h.parcels, h.ended_iff, h.tidy, h.orderly⟩

end Booked

/-! ### One call -/

theorem produced_pull (b : Source α σ) (pushed : Nat) (s : Store α σ) (budget : Nat) :
    (b.pull pushed s budget).body.produced = b.produced := by
  fun_induction pull b pushed s budget with
  | case2 _ _ _ _ _ _ _ _ ih => exact ih
  | _ => rfl

/-- All that is pushed is counted, also if the producer panics after that. -/
theorem pushed_pull (b : Source α σ) (pushed : Nat) (s : Store α σ) (budget : Nat) :
    (b.pull pushed s budget).pushed = pushed + (pushedOf (b.pullDeeds s budget)).length := by
  fun_induction pull b pushed s budget with
  | case1 => rfl
  | case2 pushed s budget a s₁ hpoll s₂ hpush ih =>
    have hcount : (pushedOf (.asked (.item a) :: .pushed a :: b.pullDeeds s₂ budget)).length =
        (pushedOf (b.pullDeeds s₂ budget)).length + 1 := rfl
    simp only [pullDeeds, hpoll, hpush, hcount]
    omega
  | case3 _ _ _ _ _ hpoll _ _ hpush =>
    simp only [pullDeeds, hpoll, hpush]
    rfl
  | case4 _ _ _ _ hpoll | case5 _ _ _ _ hpoll | case6 _ _ _ _ _ hpoll =>
    simp only [pullDeeds, hpoll]
    rfl

theorem panic_pull (b : Source α σ) (pushed : Nat) (s : Store α σ) (budget : Nat) :
    (b.pull pushed s budget).panic = panicOf (b.pullDeeds s budget) := by
  fun_induction pull b pushed s budget with
  | case1 => rfl
  | case2 _ _ _ _ _ hpoll _ hpush ih =>
    simp only [pullDeeds, hpoll, hpush]
    exact ih
  | case3 _ _ _ _ _ hpoll _ _ hpush =>
    simp only [pullDeeds, hpoll, hpush]
    rfl
  | case4 _ _ _ _ hpoll | case5 _ _ _ _ hpoll | case6 _ _ _ _ _ hpoll =>
    simp only [pullDeeds, hpoll]
    rfl

/-- The outcome of a call that leaves the source so and has pushed some parcels. -/
def outcome (b : Source α σ) (pushed : Nat) : Outcome :=
  if b.exhausted && b.overflow.isNone then .finished else if pushed > 0 then .success
    else .comeBackLater

theorem outcome_ne_failed (b : Source α σ) (pushed : Nat) (e : StageError) :
    b.outcome pushed ≠ .failed e := by
  unfold outcome
  split
  · nofun
  · split <;> nofun

/-- A call counts all that it has pushed or, if the producer has panicked, nothing; and it fails
only then. -/
structure Counts (b : Source α σ) (log : List (Deed α)) (v : Visit) (r : Run (Source α σ) α σ) :
    Prop where
  panicked : ∀ p, panicOf log = some p → r.ending = .panicked p ∧ r.visit = v ∧
    r.body.produced = b.produced
  returned : panicOf log = none → (∃ o, r.ending = .returned o ∧ ∀ e, o ≠ .failed e) ∧
    r.visit = v.record (pushedOf log).length ∧
    r.body.produced = b.produced + UInt64.ofNat (pushedOf log).length

variable {b₀ b : Source α σ}

theorem counts_feed (before : List (Deed α)) (hbefore : panicOf before = none) (b : Source α σ)
    (v : Visit) (s : Store α σ) :
    Counts b (before ++ b.feedDeeds v (pushedOf before).length s) v
      (b.feed v (pushedOf before).length s) := by
  unfold feed feedDeeds
  cases hx : b.exhausted with
  | true =>
    simp only [if_true, List.append_nil]
    refine ⟨fun p hp => ?_,
      fun _ => ⟨⟨_, rfl, outcome_ne_failed { b with produced := _ } _⟩, rfl, rfl⟩⟩
    rw [hbefore] at hp
    cases hp
  | false =>
    simp only [Bool.false_eq_true, if_false]
    generalize hn : (pushedOf before).length = pushed
    have hpushed := b.pushed_pull pushed s (v.chunk - pushed)
    have hproduced := b.produced_pull pushed s (v.chunk - pushed)
    have hpanic := b.panic_pull pushed s (v.chunk - pushed)
    have hcount : (pushedOf (before ++ b.pullDeeds s (v.chunk - pushed))).length =
        (b.pull pushed s (v.chunk - pushed)).pushed := by
      rw [pushedOf_append, List.length_append, hn, hpushed]
    have hcut : panicOf (before ++ b.pullDeeds s (v.chunk - pushed)) =
        (b.pull pushed s (v.chunk - pushed)).panic := by
      rw [panicOf_append, hbefore, Option.none_or, hpanic]
    constructor
    · intro p hp
      rw [hcut] at hp
      rw [hp]
      exact ⟨rfl, rfl, hproduced⟩
    · intro hp
      rw [hcut] at hp
      rw [hp, hcount]
      exact ⟨⟨_, rfl,
        outcome_ne_failed { (b.pull pushed s (v.chunk - pushed)).body with produced := _ } _⟩, rfl,
        congrArg (· + _) hproduced⟩

/-- What is done while it polls does not depend on what waits, nor on the chunk of the last call. -/
theorem feedDeeds_eq (b : Source α σ) (overflow : Option α) (chunkHint : Nat) (v : Visit)
    (pushed : Nat) (s : Store α σ) :
    ({ b with overflow, chunkHint } : Source α σ).feedDeeds v pushed s =
      b.feedDeeds v pushed s := by
  have same : ∀ budget s, ({ b with overflow, chunkHint } : Source α σ).pullDeeds s budget =
      b.pullDeeds s budget := by
    intro budget
    induction budget with
    | zero => exact fun _ => rfl
    | succ budget ih =>
      intro s
      simp only [pullDeeds, ih]
  unfold feedDeeds
  rw [same]

/-! What a call begins with: nothing waits, or what waits is taken by the output or refused. -/

variable {v : Visit} {s s₁ : Store α σ} {a : α}

theorem execute_of_none (hw : b.overflow = none) :
    b.execute v s = ({ b with chunkHint := max v.chunk 1 } : Source α σ).feed v 0 s := by
  unfold execute
  simp only [hw]

theorem deeds_of_none (hw : b.overflow = none) :
    b.deeds v s = ({ b with chunkHint := max v.chunk 1 } : Source α σ).feedDeeds v 0 s := by
  refine Eq.trans ?_ (b.feedDeeds_eq b.overflow _ v 0 s).symm
  unfold deeds
  rw [hw]

theorem execute_of_taken (hw : b.overflow = some a) (hpush : s.push b.output a = (none, s₁)) :
    b.execute v s = ({ b with chunkHint := max v.chunk 1, overflow := none } : Source α σ).feed
      v 1 s₁ := by
  unfold execute
  simp only [hw, hpush]

theorem deeds_of_taken (hw : b.overflow = some a) (hpush : s.push b.output a = (none, s₁)) :
    b.deeds v s =
      .pushed a :: ({ b with chunkHint := max v.chunk 1, overflow := none } : Source α σ).feedDeeds
        v 1 s₁ := by
  rw [b.feedDeeds_eq none]
  unfold deeds
  simp only [hw, hpush]

theorem execute_of_refused (hw : b.overflow = some a) (hpush : s.push b.output a = (some a, s₁)) :
    b.execute v s = ⟨.returned .comeBackLater, v, { b with chunkHint := max v.chunk 1 }, s₁⟩ := by
  unfold execute
  simp only [hw, hpush]

theorem deeds_of_refused (hw : b.overflow = some a) (hpush : s.push b.output a = (some a, s₁)) :
    b.deeds v s = [.refused a] := by
  unfold deeds
  simp only [hw, hpush]

/-- **What a call counts.** What waited is pushed first, and lost to the counters like the rest if
the producer panics. -/
theorem counts_execute (b : Source α σ) (v : Visit) (s : Store α σ) :
    Counts b (b.deeds v s) v (b.execute v s) := by
  cases hw : b.overflow with
  | none =>
    rw [execute_of_none hw, deeds_of_none hw]
    obtain ⟨hcut, hwhole⟩ :=
      counts_feed [] rfl ({ b with chunkHint := max v.chunk 1 } : Source α σ) v s
    exact ⟨hcut, hwhole⟩
  | some a =>
    rcases hpush : s.push b.output a with ⟨_ | a', s₁⟩
    · rw [execute_of_taken hw hpush, deeds_of_taken hw hpush]
      obtain ⟨hcut, hwhole⟩ :=
        counts_feed [.pushed a] rfl
          ({ b with chunkHint := max v.chunk 1, overflow := none } : Source α σ) v s₁
      exact ⟨hcut, hwhole⟩
    · obtain rfl := Store.eq_of_push_eq_some hpush
      rw [execute_of_refused hw hpush, deeds_of_refused hw hpush]
      refine ⟨nofun, fun _ => ⟨⟨_, rfl, nofun⟩, ?_, (UInt64.add_zero _).symm⟩⟩
      exact congrArg (fun items => { v with items }) (UInt64.add_zero v.items).symm

/-- What one call adds to the log, and what it says of that. -/
structure Adds (b₀ : Source α σ) (log : List (Deed α)) (b : Source α σ) (v : Visit)
    (s : Store α σ) : Prop where
  booked : Booked b₀ (log ++ b.deeds v s) (b.execute v s).body
  ending : (b.execute v s).ending =
    .returned ((b.execute v s).body.outcome (pushedOf (b.deeds v s)).length)
  few : (pushedOf (b.deeds v s)).length ≤ v.chunk
  items : (b.execute v s).visit.items = v.items + UInt64.ofNat (pushedOf (b.deeds v s)).length
  produced : (b.execute v s).body.produced =
    b.produced + UInt64.ofNat (pushedOf (b.deeds v s)).length

/-- A call that returns has counted what it has pushed. -/
theorem Adds.of_returned (hbooked : Booked b₀ (log ++ b.deeds v s) (b.execute v s).body)
    (hending : (b.execute v s).ending =
      .returned ((b.execute v s).body.outcome (pushedOf (b.deeds v s)).length))
    (hfew : (pushedOf (b.deeds v s)).length ≤ v.chunk) : Adds b₀ log b v s := by
  have counts := b.counts_execute v s
  have sober : panicOf (b.deeds v s) = none := by
    cases hp : panicOf (b.deeds v s) with
    | none => rfl
    | some p => cases hending.symm.trans (counts.panicked p hp).1
  obtain ⟨-, hvisit, hproduced⟩ := counts.returned sober
  exact ⟨hbooked, hending, hfew, congrArg Visit.items hvisit, hproduced⟩

theorem feed_spec (h : Booked b₀ log b) (hp : ∀ s p, (b.producer.poll s).1 ≠ .panicked p)
    (hw : b.overflow = none) (v : Visit) (pushed : Nat) (s : Store α σ) :
    let r := b.feed v pushed s
    Booked b₀ (log ++ b.feedDeeds v pushed s) r.body ∧
      r.ending = .returned (r.body.outcome (pushed + (pushedOf (b.feedDeeds v pushed s)).length)) ∧
      (pushedOf (b.feedDeeds v pushed s)).length ≤ v.chunk - pushed := by
  unfold feed feedDeeds
  cases hx : b.exhausted with
  | true =>
    simp only [if_true, List.append_nil]
    exact ⟨h.counted _ _, rfl, Nat.zero_le _⟩
  | false =>
    obtain ⟨hbooked, hpanic, hle⟩ := h.pull hw hx hp pushed s (v.chunk - pushed)
    have hpushed := b.pushed_pull pushed s (v.chunk - pushed)
    simp only [Bool.false_eq_true, if_false]
    rw [hpanic]
    simp only [hpushed]
    exact ⟨hbooked.counted _ _, rfl, hle⟩

/-- A call that goes on to ask the producer adds to what it has done before what is done then. -/
theorem Adds.of_feed {before : List (Deed α)} {n : Nat} {b' : Source α σ}
    (h : Booked b₀ (log ++ before) b') (hp : ∀ s p, (b'.producer.poll s).1 ≠ .panicked p)
    (hw : b'.overflow = none) (hn : (pushedOf before).length = n) (hv : n ≤ v.chunk)
    (hexecute : b.execute v s = b'.feed v n s₁)
    (hdeeds : b.deeds v s = before ++ b'.feedDeeds v n s₁) :
    Adds b₀ log b v s := by
  have hcount : n + (pushedOf (b'.feedDeeds v n s₁)).length = (pushedOf (b.deeds v s)).length := by
    rw [hdeeds, pushedOf_append, List.length_append, hn]
  obtain ⟨hbooked, hending, hle⟩ := feed_spec h hp hw v n s₁
  rw [← hexecute] at hbooked hending
  rw [List.append_assoc, ← hdeeds] at hbooked
  rw [hcount] at hending
  exact .of_returned hbooked hending (by omega)

/-- **A call adds to the log what it does**, and its answer goes by that. -/
theorem adds_execute (h : Booked b₀ log b) (hp : ∀ s p, (b.producer.poll s).1 ≠ .panicked p)
    (hv : 0 < v.chunk) (s : Store α σ) : Adds b₀ log b v s := by
  have hinted := h.counted b.produced (max v.chunk 1)
  cases hw : b.overflow with
  | none =>
    rw [← List.append_nil log] at hinted
    exact .of_feed hinted hp hw rfl (Nat.zero_le _) (execute_of_none hw) (deeds_of_none hw)
  | some a =>
    rcases hpush : s.push b.output a with ⟨_ | a', s₁⟩
    · exact .of_feed (hinted.pushed hw) hp rfl rfl hv (execute_of_taken hw hpush)
        (deeds_of_taken hw hpush)
    · obtain rfl := Store.eq_of_push_eq_some hpush
      have hdeeds : b.deeds v s = [.refused a'] := deeds_of_refused hw hpush
      have hnone : (pushedOf (b.deeds v s)).length = 0 := by
        rw [hdeeds]
        rfl
      have hexecute : b.execute v s =
          ⟨.returned .comeBackLater, v, { b with chunkHint := max v.chunk 1 }, s₁⟩ :=
        execute_of_refused hw hpush
      refine .of_returned ?_ ?_ (hnone ▸ Nat.zero_le _)
      · rw [hdeeds, hexecute]
        exact hinted.refused a'
      · rw [hnone, hexecute]
        simp [outcome, hw]

/-! ### What is done to the store -/

/-- Deeds are done to a store one after the other, and nothing else is. -/
inductive Does (p : Producer α σ) (out : QueueId) (s : Store α σ) :
    List (Deed α) → Store α σ → Prop where
  | start : Does p out s [] s
  | asks {log : List (Deed α)} {s₁ s₂ : Store α σ} {answer : Poll α} : Does p out s log s₁ →
      p.poll s₁ = (answer, s₂) →
      Does p out s (log ++ [.asked answer]) s₂
  | pushes {log : List (Deed α)} {s₁ s₂ : Store α σ} {a : α} : Does p out s log s₁ →
      s₁.push out a = (none, s₂) →
      Does p out s (log ++ [.pushed a]) s₂
  | refuses {log : List (Deed α)} {s₁ s₂ : Store α σ} {a : α} : Does p out s log s₁ →
      s₁.push out a = (some a, s₂) →
      Does p out s (log ++ [.refused a]) s₂

namespace Does

variable {s s' : Store α σ}

theorem pull (h : Does b.producer b.output s log s') (pushed budget : Nat) :
    Does b.producer b.output s (log ++ b.pullDeeds s' budget) (b.pull pushed s' budget).store := by
  fun_induction Source.pull b pushed s' budget generalizing log with
  | case1 => simpa [pullDeeds] using h
  | case2 pushed s' budget a s₁ hpoll s₂ hpush ih =>
    have next := ih ((h.asks hpoll).pushes hpush)
    simp only [pullDeeds, hpoll, hpush]
    rwa [List.append_assoc, List.append_assoc] at next
  | case3 pushed s' budget a s₁ hpoll a' s₂ hpush =>
    obtain rfl := Store.eq_of_push_eq_some hpush
    have next := (h.asks hpoll).refuses hpush
    simp only [pullDeeds, hpoll, hpush]
    rwa [List.append_assoc] at next
  | case4 pushed s' budget s₁ hpoll =>
    simp only [pullDeeds, hpoll]
    exact h.asks hpoll
  | case5 pushed s' budget s₁ hpoll =>
    simp only [pullDeeds, hpoll]
    exact h.asks hpoll
  | case6 pushed s' budget p s₁ hpoll =>
    simp only [pullDeeds, hpoll]
    exact h.asks hpoll

theorem feed (h : Does b.producer b.output s log s') (v : Visit) (pushed : Nat) :
    Does b.producer b.output s (log ++ b.feedDeeds v pushed s') (b.feed v pushed s').store := by
  unfold feedDeeds
  have fed : (b.feed v pushed s').store =
      if b.exhausted then s' else (b.pull pushed s' (v.chunk - pushed)).store := by
    unfold Source.feed
    cases b.exhausted with
    | true => rfl
    | false =>
      simp only [Bool.false_eq_true, if_false]
      split <;> rfl
  rw [fed]
  split
  · rwa [List.append_nil]
  · exact h.pull pushed _

/-- What is pushed goes behind what is in the queue, if the producer leaves that alone. -/
theorem contents {p : Producer α σ} {out : QueueId} (h : Does p out s log s')
    (hp : ∀ s : Store α σ, s.Keeps out (p.poll s).2) (ho : out < s.queues.length) :
    out < s'.queues.length ∧ s'.contents out = s.contents out ++ pushedOf log := by
  induction h with
  | start => exact ⟨ho, (List.append_nil _).symm⟩
  | @asks log s₁ s₂ answer _ hpoll ih =>
    obtain ⟨hlt, hcontents⟩ := ih
    have hkeeps := hp s₁
    rw [hpoll] at hkeeps
    refine ⟨hlt.trans_le hkeeps.length, ?_⟩
    rw [hkeeps.contents, hcontents, pushedOf_append]
    exact congrArg _ (List.append_nil _).symm
  | @pushes log s₁ s₂ a _ hpush ih =>
    obtain ⟨hlt, hcontents⟩ := ih
    have hgrows := Store.contents_push hlt hpush
    refine ⟨(Store.Apart.push (List.mem_singleton_self _) hpush).length ▸ hlt, ?_⟩
    rw [pushedOf_append, ← List.append_assoc, ← hcontents]
    exact (List.append_nil _).symm.trans hgrows
  | @refuses log s₁ s₂ a _ hpush ih =>
    obtain ⟨hlt, hcontents⟩ := ih
    have hgrows := Store.contents_push hlt hpush
    refine ⟨(Store.Apart.push (List.mem_singleton_self _) hpush).length ▸ hlt, ?_⟩
    rw [pushedOf_append]
    have hsame : s₂.contents out = s₁.contents out := List.append_cancel_right hgrows
    rw [hsame, hcontents]
    exact congrArg _ (List.append_nil _).symm

end Does

/-- **A call does to the store what is logged**, and nothing else. -/
theorem does_execute (b : Source α σ) (v : Visit) (s : Store α σ) :
    Does b.producer b.output s (b.deeds v s) (b.execute v s).store := by
  cases hw : b.overflow with
  | none =>
    rw [execute_of_none hw, deeds_of_none hw]
    exact Does.feed (b := { b with chunkHint := max v.chunk 1 }) .start v 0
  | some a =>
    rcases hpush : s.push b.output a with ⟨_ | a', s₁⟩
    · rw [execute_of_taken hw hpush, deeds_of_taken hw hpush]
      exact Does.feed (b := { b with chunkHint := max v.chunk 1, overflow := none })
        (.pushes .start hpush) v 1
    · obtain rfl := Store.eq_of_push_eq_some hpush
      rw [execute_of_refused hw hpush, deeds_of_refused hw hpush]
      exact .refuses .start hpush

/-! ### Any number of calls -/

/-- A source is called again and again, and between the calls others do to the store what they like.
The parcels that the calls have counted are added up. -/
inductive Operated (b₀ : Source α σ) : List (Deed α) → UInt64 → Source α σ → Prop where
  | start : Operated b₀ [] 0 b₀
  | call {log : List (Deed α)} {items : UInt64} {b : Source α σ} (w : WorkerId)
      (location chunk : Nat) (s : Store α σ) : Operated b₀ log items b →
      Operated b₀ (log ++ b.deeds (.start w location chunk) s)
        (items + (b.execute (.start w location chunk) s).visit.items)
        (b.execute (.start w location chunk) s).body

/-- What a call comes to, given what was done before: it pushes no more than its chunk, and counts
what it pushes. It says that the source is finished if the producer is exhausted and all has been
pushed, and otherwise whether it has pushed something. It does to the store what is logged, so that
what it pushes goes behind what is in the output, if the producer leaves that alone. -/
structure Serves (log : List (Deed α)) (b : Source α σ) (v : Visit) (s : Store α σ) : Prop where
  few : (pushedOf (b.deeds v s)).length ≤ v.chunk
  items : (b.execute v s).visit.items = UInt64.ofNat (pushedOf (b.deeds v s)).length
  answers : ∃ o, (b.execute v s).ending = .returned o ∧
    (o = .finished ↔ Ended (log ++ b.deeds v s) ∧ Clear (log ++ b.deeds v s)) ∧
    (o = .success ↔ ¬ (Ended (log ++ b.deeds v s) ∧ Clear (log ++ b.deeds v s)) ∧
      pushedOf (b.deeds v s) ≠ []) ∧
    (o = .comeBackLater ↔ ¬ (Ended (log ++ b.deeds v s) ∧ Clear (log ++ b.deeds v s)) ∧
      pushedOf (b.deeds v s) = [])
  does : Does b.producer b.output s (b.deeds v s) (b.execute v s).store
  pushes : b.output < s.queues.length → (∀ s : Store α σ, s.Keeps b.output (b.producer.poll s).2) →
    (b.execute v s).store.contents b.output = s.contents b.output ++ pushedOf (b.deeds v s)

/-- The source as it is between two calls, its log, and what the calls have counted. -/
structure Kept (b₀ : Source α σ) (log : List (Deed α)) (items : UInt64) (b : Source α σ) :
    Prop extends Booked b₀ log b where
  produced : b.produced = UInt64.ofNat (pushedOf log).length
  counted : items = b.produced

theorem outcome_iff (h : Booked b₀ log b) (pushed : List α) :
    (b.outcome pushed.length = .finished ↔ Ended log ∧ Clear log) ∧
      (b.outcome pushed.length = .success ↔ ¬ (Ended log ∧ Clear log) ∧ pushed ≠ []) ∧
      (b.outcome pushed.length = .comeBackLater ↔ ¬ (Ended log ∧ Clear log) ∧ pushed = []) := by
  have hdone := h.done_iff
  unfold outcome
  cases hd : b.exhausted && b.overflow.isNone with
  | true =>
    have := hdone.1 hd
    simp [this]
  | false =>
    have : ¬ (Ended log ∧ Clear log) := fun he => absurd (hd.symm.trans (hdone.2 he)) (by decide)
    cases pushed <;> simp [this]

namespace Kept

variable {items : UInt64}

theorem start (fresh : b₀.core = b₀) : Kept b₀ [] 0 b₀ := by
  have hw : b₀.overflow = none := (congrArg Source.overflow fresh).symm
  have hx : b₀.exhausted = false := (congrArg Source.exhausted fresh).symm
  have hproduced : b₀.produced = 0 := (congrArg Source.produced fresh).symm
  refine ⟨⟨rfl, ?_, ?_, fun _ => hw, ?_⟩, hproduced, hproduced.symm⟩
  · rw [hw]
    rfl
  · rw [hx]
    simp [Ended]
  · intro before p after he
    simp at he

theorem adds (h : Kept b₀ log items b) (hp : ∀ s p, (b₀.producer.poll s).1 ≠ .panicked p)
    {v : Visit} (hv : 0 < v.chunk) (s : Store α σ) : Adds b₀ log b v s := by
  have hproducer := congrArg Source.producer h.core
  simp only [core] at hproducer
  exact adds_execute h.toBooked (by rwa [hproducer]) hv s

theorem call (h : Kept b₀ log items b) (hp : ∀ s p, (b₀.producer.poll s).1 ≠ .panicked p)
    (w : WorkerId) (location chunk : Nat) (s : Store α σ) :
    Kept b₀ (log ++ b.deeds (.start w location chunk) s)
      (items + (b.execute (.start w location chunk) s).visit.items)
      (b.execute (.start w location chunk) s).body := by
  have adds := h.adds hp (v := .start w location chunk)
    (Nat.lt_of_lt_of_le Nat.one_pos (Nat.le_max_right chunk 1)) s
  refine ⟨adds.booked, ?_, ?_⟩
  · rw [adds.produced, h.produced, pushedOf_append, List.length_append, UInt64.ofNat_add]
  · rw [adds.produced, adds.items, h.counted]
    exact congrArg (b.produced + ·) (UInt64.zero_add _)

theorem serves (h : Kept b₀ log items b) (hp : ∀ s p, (b₀.producer.poll s).1 ≠ .panicked p)
    (w : WorkerId) (location chunk : Nat) (s : Store α σ) :
    Serves log b (.start w location chunk) s := by
  have adds := h.adds hp (v := .start w location chunk)
    (Nat.lt_of_lt_of_le Nat.one_pos (Nat.le_max_right chunk 1)) s
  have does := b.does_execute (.start w location chunk) s
  refine ⟨adds.few, ?_, ⟨_, adds.ending, outcome_iff adds.booked _⟩, does,
    fun ho hk => (does.contents hk ho).2⟩
  rw [adds.items]
  exact UInt64.zero_add _

end Kept

theorem Operated.kept {items : UInt64} (h : Operated b₀ log items b) (fresh : b₀.core = b₀)
    (hp : ∀ s p, (b₀.producer.poll s).1 ≠ .panicked p) : Kept b₀ log items b := by
  induction h with
  | start => exact .start fresh
  | call w location chunk s _ ih => exact ih.call hp w location chunk s

/-- **A source emits what its producer gives, in order.** Others may do to the output what they
like. What has been pushed, followed by the parcel that waits, is what the producer has given. The
source counts what it has pushed, up to the size of the counter, and so do the calls together. The
producer is asked only when all that it has given has been pushed and it has not said that it is
exhausted. Every further call pushes no more than its chunk, and says that the source is finished
exactly when the producer is exhausted and all has been pushed. -/
theorem emits_polls (fresh : b₀.core = b₀) (hp : ∀ s p, (b₀.producer.poll s).1 ≠ .panicked p)
    {items : UInt64} (h : Operated b₀ log items b) :
    pushedOf log ++ b.overflow.toList = polledOf log ∧
      b.produced = UInt64.ofNat (pushedOf log).length ∧
      items = b.produced ∧
      Orderly log ∧
      ∀ w location chunk s, Serves log b (.start w location chunk) s := by
  have kept := h.kept fresh hp
  exact ⟨kept.parcels, kept.produced, kept.counted, kept.orderly, kept.serves hp⟩

/-- A source whose producer gives 5, has nothing to give once, and gives 6 and 7. The environment
counts its answers. -/
def halting : Source Nat Nat where
  producer.poll s :=
    (([.item 5, .empty, .item 6, .item 7] : List (Poll Nat)).getD s.env .exhausted,
      { s with env := s.env + 1 })
  output := 0

/-- A parcel waits in a queue that takes no more than one. -/
def narrow : Store Nat Nat where
  queues := [{ name := "out", items := [1], threshold := 1 }]
  env := 0

/-- A call of the source, after which others take what is in the output. -/
def turn (r : Source Nat Nat × Store Nat Nat) : Source Nat Nat × Store Nat Nat :=
  let r' := r.1.execute (.start 0 0 3) r.2
  (r'.body, (r'.store.popMany 0 1).2)

/-- The first parcel is refused in the first call and the third in the third; in the fourth call
that one is pushed, and the producer is exhausted. -/
theorem emits_polls_narrow :
    let r := turn (turn (turn (halting, narrow)))
    r.1.overflow = some 7 ∧ (r.1.execute (.start 0 0 3) r.2).ending = .returned .finished ∧
      ∃ log items, Operated halting log items r.1 ∧ pushedOf log = [5, 6] ∧
        polledOf log = [5, 6] ++ [7] ∧ items = 2 ∧
        Orderly log ∧ Ended (log ++ r.1.deeds (.start 0 0 3) r.2) ∧
        Clear (log ++ r.1.deeds (.start 0 0 3) r.2) := by
  intro r
  have sober : ∀ s p, (halting.producer.poll s).1 ≠ .panicked p := by
    intro s p
    change ([.item 5, .empty, .item 6, .item 7] : List (Poll Nat)).getD s.env .exhausted ≠
      .panicked p
    rcases s.env with _ | _ | _ | _ | n <;> simp
  have history : Operated halting _ _ r.1 :=
    .call 0 0 3 _ (.call 0 0 3 _ (.call 0 0 3 narrow .start))
  obtain ⟨hparcels, -, hitems, horderly, hserves⟩ := emits_polls rfl sober history
  have waits : r.1.overflow = some 7 := by decide +kernel
  have finishes : (r.1.execute (.start 0 0 3) r.2).ending = .returned .finished := by decide +kernel
  obtain ⟨o, ho, hfinished, -⟩ := (hserves 0 0 3 r.2).answers
  have hdone := hfinished.1 (by
    rw [finishes] at ho
    cases ho
    rfl)
  refine ⟨waits, finishes, _, _, history, by decide +kernel, ?_, by decide +kernel, horderly,
    hdone.1, hdone.2⟩
  rw [← hparcels, waits]
  decide +kernel

end Source

end Pipework
