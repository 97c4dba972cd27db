import Pipework.Proofs.Network.Counters

/-!
# Networks in which nothing fails

Where hooks succeed nothing that is done to stages leaves a failure, and of the world it leaves what
hooks leave (`Healthy`). Where nobody pauses a stage none is ever paused by settling either: a
settled stage has finished feeders, and finishes (`Graph.Alive`).
-/

namespace Pipework

/-! ### Hooks that succeed -/

/-- In such a world every hook succeeds, and leaves such a world. -/
def Bodies.Welcomes {W : Type} (B : Bodies W) (Q : W → Prop) : Prop :=
  ∀ hook i w, Q w → (B.hook hook i w).1 = .ok () ∧ Q (B.hook hook i w).2

/-- Nothing has failed, and the world is such that no hook will. -/
structure Network.Healthy {W : Type} (Q : W → Prop) (n : Network W) : Prop where
  world : Q n.world
  failure : n.graph.failure = none

section

variable {W : Type} {B : Bodies W} {Q : W → Prop} {n : Network W} {sc : Scheduler} {w : WorkerId}
  {result : Option Outcome}

theorem Network.Healthy.mapGraph (h : n.Healthy Q) {f : Graph → Graph}
    (hf : (f n.graph).failure = n.graph.failure) :
    (n.mapGraph f).Healthy Q := ⟨h.world, hf.trans h.failure⟩

variable (hB : B.Welcomes Q)
include hB

/-- To be healthy is a matter of the failure and the world, and welcome hooks do not change it. -/
theorem Bodies.Welcomes.aloof : Aloof B fun n : Network W => n.Healthy Q where
  maps h hf := h.mapGraph hf
  hooks {n} hook i c h := by
    obtain ⟨ho, hw⟩ := hB hook i n.world h.world
    have hg : (n.runHook B hook i c).2.graph = n.graph := by
      unfold Network.runHook
      cases hook <;> (simp only [Bodies.hook] at ho; simp only [ho, Reply.toExcept])
    exact ⟨by rwa [Network.world_runHook], by rw [hg, h.failure]⟩

namespace Network.Healthy

theorem stable : Stable B fun n : Network W => n.Healthy Q := hB.aloof.stable

theorem freed (h : n.Healthy Q) (previous : Option StageId) :
    (sc.freed B n w previous result).Healthy Q :=
  hB.aloof.freed h previous

theorem assign (h : n.Healthy Q) (previous : Option StageId) :
    (sc.assign B n w previous result).2.Healthy Q :=
  hB.aloof.assign h previous

end Network.Healthy

end

/-! ### Stages that are not paused -/

namespace Graph

variable {g g' : Graph} {i : StageId}

/-- Every stage runs or has finished. -/
def Alive (g : Graph) : Prop :=
  ∀ i < g.size, (g.stage i).state = .running ∨ (g.stage i).state = .finished

theorem Alive.alike (h : g.Alive) (ha : g.Alike g') : g'.Alive := by
  intro i hi
  rw [ha.state]
  exact h i (by rwa [← size_of_bare ha.bare])

end Graph

section

variable {W : Type} {B : Bodies W} {n : Network W} {i : StageId} {c : Option Caller}

theorem Graph.Alive.complete (h : n.graph.Alive) (hi : i < n.graph.size) :
    (n.complete B i c).2.graph.Alive := by
  intro j hj
  rw [Network.state_complete hi]
  split
  · exact .inr rfl
  · exact h j (by rwa [Network.size_complete] at hj)

theorem Graph.Alive.completeEach {is : List StageId} (h : n.graph.Alive)
    (hi : ∀ i ∈ is, i < n.graph.size) :
    (Network.completeEach B is n).2.graph.Alive := by
  induction is generalizing n with
  | nil => exact h
  | cons i is ih =>
    refine ih (h.complete (hi i (List.mem_cons_self ..))) fun k hk => ?_
    rw [Network.size_complete]
    exact hi k (List.mem_cons_of_mem _ hk)

theorem Graph.Alive.surrender (h : n.graph.Alive) (hi : i < n.graph.size) (caller : Caller)
    (result : Option Outcome) :
    (n.surrender B i caller result).2.graph.Alive := by
  have hgo : (n.mapGraph (·.letGo i ⟨caller.worker, result == some .comeBackLater⟩)).graph.Alive :=
    h.alike (.letGo _ _ _)
  unfold Network.surrender
  refine Graph.Alive.alike ?_ (Network.alike_closeDue _ B i _)
  split
  · exact hgo.complete (by simpa [Graph.letGo] using hi)
  · exact hgo

/-- A settled stage has finished feeders, as no stage is paused. -/
theorem Graph.Alive.feeders_finished (h : n.graph.Alive) (wd : n.graph.Wired) (hc : n.graph.Counted)
    (hs : n.settled B i = true) :
    ∀ u ∈ (n.graph.stage i).feeders, (n.graph.stage u).state = .finished := by
  intro u hu
  have hrf := hc.feeders i
  rw [(Network.settled_iff.1 hs).2.2.2.1] at hrf
  have hur : (n.graph.stage u).state ≠ .running :=
    fun hr => List.countP_eq_zero.1 hrf.symm u hu (by simp [hr])
  exact (h u (wd.lt_size_of_mem_feeders hu)).resolve_left hur

/-! ### Activation -/

/-- A stage runs, or is going to once the stages of a list have been activated. -/
def Graph.Due (g : Graph) (i : StageId) (work : List StageId) : Prop :=
  (g.stage i).state = .running ∨ (i < g.size ∧ (g.stage i).dormant = true ∧ i ∈ work)

theorem Network.due_activateEach {work rest : List StageId} (h : n.graph.Due i (work ++ rest)) :
    (n.activateEach B c work).2.graph.Due i rest := by
  refine Network.activateEach_induction (P := fun work m => m.graph.Due i (work ++ rest))
    (fun m k work hm hk _ => ?_) (fun m k work hm hk => ?_) h
  · have hs := m.state_openOne hk B i c
    by_cases hki : k = i
    · rw [if_pos hki] at hs
      exact .inl hs
    · rw [if_neg hki] at hs
      rcases hm with hr | ⟨hi, hd, hw⟩
      · exact .inl (hs.trans hr)
      · refine .inr ⟨by rwa [Network.size_openOne], ?_, ?_⟩
        · rwa [Stage.dormant, hs]
        · rw [List.append_assoc]
          exact List.mem_append_right _ ((List.mem_cons.1 hw).resolve_left (Ne.symm hki))
  · rcases hm with hr | ⟨hi, hd, hw⟩
    · exact .inl hr
    · refine .inr ⟨hi, hd, (List.mem_cons.1 hw).resolve_left fun hik => hk ?_⟩
      rw [← hik]
      exact ⟨hi, hd⟩

/-- Every source runs once the sources have been activated. -/
theorem Network.running_activateSources {is : List StageId} (h : n.graph.Due i is) :
    ((Network.activateSources B is n).2.graph.stage i).state = .running := by
  induction is generalizing n with
  | nil => exact h.resolve_right fun h => absurd h.2.2 List.not_mem_nil
  | cons k is ih => exact ih (Network.due_activateEach (show n.graph.Due i ([k] ++ is) from h))

end

end Pipework
