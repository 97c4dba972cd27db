import Pipework.Proofs.Network.Changes

/-!
# Picking and handing out

What `Scheduler.pick` gives is eligible, no eligible stage is above it in rank (`below_of_pick`),
and it gives something as soon as something is eligible. A worker that asks keeps its stage
(`assign_cases`), or is given one, or finds nothing (`handOut_cases`).
-/

namespace Pipework

/-! ### Ranks -/

namespace Rank

variable {a b c : Rank}

/-- The first rank is no higher than the second as far as waiting work and load go. -/
def below (a b : Rank) : Prop :=
  (a.waiting = false ∧ b.waiting = true) ∨ (a.waiting = b.waiting ∧ a.load ≤ b.load)

namespace below

theorem refl (a : Rank) : a.below a := .inr ⟨rfl, Nat.le_refl _⟩

theorem trans (h : a.below b) (h' : b.below c) : a.below c := by
  rcases h with ⟨ha, hb⟩ | ⟨hw, hl⟩
  · rcases h' with ⟨hb', -⟩ | ⟨hw', -⟩
    · rw [hb] at hb'
      cases hb'
    · exact .inl ⟨ha, hw' ▸ hb⟩
  · rcases h' with ⟨hb, hc⟩ | ⟨hw', hl'⟩
    · exact .inl ⟨hw.trans hb, hc⟩
    · exact .inr ⟨hw.trans hw', Nat.le_trans hl hl'⟩

/-- What is above a rank with waiting work has waiting work and no smaller load. -/
theorem of_waiting (h : a.below b) (ha : a.waiting = true) :
    b.waiting = true ∧ a.load ≤ b.load := by
  rcases h with ⟨hf, -⟩ | ⟨hw, hl⟩
  · rw [ha] at hf
    cases hf
  · exact ⟨hw ▸ ha, hl⟩

end below

theorem below_of_beats (h : a.beats b = true) : b.below a := by
  unfold beats at h
  split at h
  · next hw => exact .inl ⟨by simpa [h] using Ne.symm hw, h⟩
  · next hw =>
    have hw : a.waiting = b.waiting := by simpa using hw
    split at h
    · exact .inr ⟨hw.symm, Nat.le_of_lt (by simpa using h)⟩
    · next hl => exact .inr ⟨hw.symm, Nat.le_of_eq (by simpa using Eq.symm (not_not.1 hl))⟩

theorem below_of_not_beats (h : a.beats b = false) : a.below b := by
  unfold beats at h
  split at h
  · next hw => exact .inl ⟨h, by simpa [h] using Ne.symm hw⟩
  · next hw =>
    have hw : a.waiting = b.waiting := by simpa using hw
    split at h
    · exact .inr ⟨hw, by simpa using h⟩
    · next hl => exact .inr ⟨hw, Nat.le_of_eq (not_not.1 hl)⟩

end Rank

/-! ### Picking -/

namespace Scheduler

variable {W : Type} {B : Bodies W} {n : Network W} {w : WorkerId} {i : StageId} {sc : Scheduler}

theorem foldl_better_mem {is : List StageId} {best : Option StageId}
    (h : is.foldl (better B n w) best = some i) :
    best = some i ∨ i ∈ is := by
  induction is generalizing best with
  | nil => exact .inl h
  | cons k is ih =>
    rcases ih h with hb | hm
    · unfold better at hb
      split at hb
      · exact .inr (by simp [Option.some.inj hb])
      · split at hb
        · exact .inr (by simp [Option.some.inj hb])
        · exact .inl hb
    · exact .inr (List.mem_cons_of_mem _ hm)

theorem foldl_better_isSome {is : List StageId} {best : Option StageId}
    (h : is ≠ [] ∨ best.isSome = true) :
    (is.foldl (better B n w) best).isSome = true := by
  induction is generalizing best with
  | nil => simpa using h
  | cons k is ih =>
    refine ih (.inr ?_)
    unfold better
    split
    · rfl
    · split <;> rfl

/-- The best of some stages is not below any of them. -/
theorem below_of_foldl_better {is : List StageId} {best : Option StageId}
    (h : is.foldl (better B n w) best = some i) :
    (∀ k, best = some k → (rank B n w k).below (rank B n w i)) ∧
    ∀ k ∈ is, (rank B n w k).below (rank B n w i) := by
  induction is generalizing best with
  | nil =>
    refine ⟨fun k hk => ?_, fun k hk => absurd hk List.not_mem_nil⟩
    have hki : k = i := Option.some.inj (hk.symm.trans h)
    rw [hki]
    exact .refl _
  | cons l is ih =>
    obtain ⟨hbest, his⟩ := ih h
    -- whichever is the better one, neither the former best stage nor the new one is above it
    have step : (∀ k, best = some k → (rank B n w k).below (rank B n w i)) ∧
        (rank B n w l).below (rank B n w i) := by
      cases best with
      | none => exact ⟨nofun, hbest l rfl⟩
      | some b =>
        simp only [better] at hbest
        cases hbeats : (rank B n w l).beats (rank B n w b) with
        | true =>
          have hl := hbest l (by simp [hbeats])
          refine ⟨fun k hk => ?_, hl⟩
          cases hk
          exact (Rank.below_of_beats hbeats).trans hl
        | false =>
          have hb := hbest b (by simp [hbeats])
          refine ⟨fun k hk => ?_, (Rank.below_of_not_beats hbeats).trans hb⟩
          cases hk
          exact hb
    refine ⟨step.1, fun k hk => ?_⟩
    rcases List.mem_cons.1 hk with rfl | hk
    · exact step.2
    · exact his k hk

/-- What is picked is a stage that can be handed out. -/
theorem eligible_of_pick (h : pick B n w = some i) : i < n.graph.size ∧ eligible B n i = true := by
  rcases foldl_better_mem h with h | h
  · cases h
  · simpa using h

/-- Nothing is picked only if nothing can be handed out. -/
theorem not_eligible_of_pick (h : pick B n w = none) (hi : i < n.graph.size) :
    eligible B n i = false := by
  by_contra he
  have hm : i ∈ (List.range n.graph.size).filter (eligible B n) := by simpa [hi] using he
  have hp : (pick B n w).isSome = true := foldl_better_isSome (.inl (List.ne_nil_of_mem hm))
  rw [h] at hp
  cases hp

/-- Nothing that can be handed out is above what is picked. -/
theorem below_of_pick {j : StageId} (h : pick B n w = some i) (hj : j < n.graph.size)
    (he : eligible B n j = true) :
    (rank B n w j).below (rank B n w i) :=
  (below_of_foldl_better h).2 j (by simpa [hj] using he)

theorem eligible_iff :
    eligible B n i = true ↔
      (n.graph.stage i).state = .running ∧
        ((n.graph.stage i).holders = 0 ∨ (n.graph.stage i).parallel = true) ∧
        n.exhausted B i = false := by
  simp [eligible, and_assoc]

/-- The network after a worker has let go of what it held. -/
def freed (sc : Scheduler) (B : Bodies W) (n : Network W) (w : WorkerId) (previous : Option StageId)
    (result : Option Outcome) : Network W :=
  match previous with
  | none => n.mapGraph (·.clearStreak w)
  | some i => sc.giveBack B n w i result

/-- The stages that wait for nobody but to be settled. -/
def idle (B : Bodies W) (n : Network W) : List StageId :=
  (List.range n.graph.size).filter (n.settled B)

/-- A free worker is given a stage, finds nothing after a failure, or finds nothing and settles the
rest. -/
theorem handOut_cases (sc : Scheduler) (B : Bodies W) (n : Network W) (w : WorkerId) :
    (∃ i, i < n.graph.size ∧ eligible B n i = true ∧ n.graph.failure = none ∧
        sc.handOut B n w = (some i, take n w i)) ∨
      (n.graph.failure.isSome = true ∧ sc.handOut B n w = (none, n)) ∨
      (n.graph.failure = none ∧ (∀ i, i < n.graph.size → eligible B n i = false) ∧
        sc.handOut B n w = (none, (n.settle B (idle B n) (some (sc.caller w))).2)) := by
  unfold handOut
  by_cases hf : n.graph.failure.isSome = true
  · rw [if_pos hf]
    exact .inr (.inl ⟨hf, rfl⟩)
  · have hf' : n.graph.failure = none := by simpa using hf
    rw [if_neg hf]
    cases hp : pick B n w with
    | some i =>
      obtain ⟨hi, he⟩ := eligible_of_pick hp
      exact .inl ⟨i, hi, he, hf', rfl⟩
    | none => exact .inr (.inr ⟨hf', fun i hi => not_eligible_of_pick hp hi, rfl⟩)

/-- What is handed out is what is picked. -/
theorem pick_of_handOut (h : (sc.handOut B n w).1 = some i) : pick B n w = some i := by
  unfold handOut at h
  split at h
  · cases h
  · cases hp : pick B n w with
    | none =>
      rw [hp] at h
      cases h
    | some k =>
      rw [hp] at h
      exact h

/-- A worker that does not keep its stage lets go of it and is treated like a free one. -/
theorem assign_of_not_keep {previous : Option StageId} {result : Option Outcome}
    (h : ∀ i, previous = some i → sc.mayKeep B n w i result = false) :
    sc.assign B n w previous result = sc.handOut B (sc.freed B n w previous result) w := by
  cases previous with
  | none => rfl
  | some i => exact if_neg (by simp [h i rfl])

/-- A worker that asks for a stage keeps its own, or lets go of it and is treated like a free
one. -/
theorem assign_cases (sc : Scheduler) (B : Bodies W) (n : Network W) (w : WorkerId)
    (previous : Option StageId) (result : Option Outcome) :
    (∃ i, previous = some i ∧ sc.mayKeep B n w i result = true ∧
        sc.assign B n w previous result = (some i, keep n w i)) ∨
      sc.assign B n w previous result = sc.handOut B (sc.freed B n w previous result) w := by
  cases previous with
  | none => exact .inr (assign_of_not_keep nofun)
  | some i =>
    by_cases hk : sc.mayKeep B n w i result = true
    · exact .inl ⟨i, rfl, hk, if_pos hk⟩
    · exact .inr (assign_of_not_keep fun j hj => by simpa [← Option.some.inj hj] using hk)

end Scheduler

end Pipework
