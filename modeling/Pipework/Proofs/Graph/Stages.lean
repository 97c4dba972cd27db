import Mathlib.Data.List.Basic
import Mathlib.Data.List.Count
import Mathlib.Data.List.GetD
import Mathlib.Tactic.Common
import Pipework.Graph

/-!
# Stages of a graph after a change

A graph is read through `Graph.stage`. For each change of status this module says what every stage
looks like afterwards: `stage_enterRunning`, `stage_leaveRunning`, `stage_halt`, `stage_retire`.
What concerns no stage (the failure, the clock, the streaks) does not show.
-/

namespace Pipework.Graph

variable {g : Graph} {i j : StageId}

/-! ### Reading -/

theorem stage_of_size_le (h : g.size ≤ i) : g.stage i = default := by
  unfold stage
  rw [List.getD_eq_default _ _ h]

theorem stages_eq_map_range (g : Graph) : g.stages = (List.range g.size).map g.stage := by
  apply List.ext_getElem
  · simp [size]
  · intro k h₁ h₂
    simp [stage, h₁]

/-- Counting stages is counting their numbers. -/
theorem countP_stages (g : Graph) (p : Stage → Bool) :
    g.stages.countP p = (List.range g.size).countP fun i => p (g.stage i) := by
  conv_lhs => rw [stages_eq_map_range g]
  rw [List.countP_map]
  rfl

theorem lt_size_of_state_ne (h : (g.stage i).state ≠ .unopened) : i < g.size := by
  by_contra hi
  rw [stage_of_size_le (Nat.le_of_not_lt hi)] at h
  exact h rfl

/-! ### Changing one stage -/

@[simp] theorem size_modify (g : Graph) (i : StageId) (f : Stage → Stage) :
    (g.modify i f).size = g.size := by
  simp [modify, size]

theorem stage_modify (g : Graph) (i j : StageId) (f : Stage → Stage) :
    (g.modify i f).stage j = if i = j ∧ j < g.size then f (g.stage j) else g.stage j := by
  unfold modify stage size
  by_cases hj : j < g.stages.length
  · by_cases h : i = j <;> simp [List.getD_eq_getElem?_getD, hj, h]
  · simp [List.getD_eq_getElem?_getD, hj]

theorem stage_modify_self (h : i < g.size) (f : Stage → Stage) :
    (g.modify i f).stage i = f (g.stage i) := by
  rw [stage_modify, if_pos ⟨rfl, h⟩]

theorem stage_modify_ne (h : i ≠ j) (f : Stage → Stage) : (g.modify i f).stage j = g.stage j := by
  rw [stage_modify, if_neg fun hc => h hc.1]

/-- Two changes of one stage are one. -/
theorem modify_modify (g : Graph) (i : StageId) (f f' : Stage → Stage) :
    (g.modify i f).modify i f' = g.modify i fun s => f' (f s) :=
  congrArg (fun l => { g with stages := l }) (List.modify_modify_eq f f' i g.stages)

/-- What a change does with other stages does not matter. -/
theorem modify_congr {f f' : Stage → Stage} (h : f (g.stage i) = f' (g.stage i)) :
    g.modify i f = g.modify i f' := by
  have hstage : (g.modify i f).stage = (g.modify i f').stage := by
    funext j
    rw [stage_modify, stage_modify]
    by_cases hij : i = j
    · rw [← hij, h]
    · rw [if_neg fun hc => hij hc.1, if_neg fun hc => hij hc.1]
  have hstages : (g.modify i f).stages = (g.modify i f').stages := by
    rw [stages_eq_map_range, stages_eq_map_range (g.modify i f'), size_modify, size_modify, hstage]
  exact congrArg (fun l => { g with stages := l }) hstages

theorem modify_id (g : Graph) (i : StageId) : g.modify i id = g :=
  congrArg (fun l => { g with stages := l }) (List.modify_id i g.stages)

/-- What a change of one stage leaves alone, it leaves alone everywhere. -/
theorem map_stage_modify {β : Type} (φ : Stage → β) {f : Stage → Stage} (h : ∀ s, φ (f s) = φ s)
    (i j : StageId) :
    φ ((g.modify i f).stage j) = φ (g.stage j) := by
  rw [stage_modify]
  split
  · exact h _
  · rfl

/-! ### The failure -/

/-- A graph with another failure, or none. -/
def withFailure (g : Graph) (f : Option Failure) : Graph := { g with failure := f }

section WithFailure

variable (g : Graph) (f : Option Failure)

@[simp] theorem stage_withFailure (i : StageId) : (g.withFailure f).stage i = g.stage i := rfl

@[simp] theorem size_withFailure : (g.withFailure f).size = g.size := rfl

@[simp] theorem stage_recordFailure (e : Failure) (i : StageId) :
    (g.recordFailure e).stage i = g.stage i := by
  unfold stage
  rw [stages_recordFailure]

theorem modify_withFailure (i : StageId) (h : Stage → Stage) :
    (g.withFailure f).modify i h = (g.modify i h).withFailure f := rfl

end WithFailure

/-! ### Changing the stages of a list -/

@[simp] theorem modifyAll_cons (g : Graph) (i : StageId) (is : List StageId) (f : Stage → Stage) :
    g.modifyAll (i :: is) f = (g.modify i f).modifyAll is f := rfl

@[simp] theorem size_modifyAll (g : Graph) (is : List StageId) (f : Stage → Stage) :
    (g.modifyAll is f).size = g.size := by
  induction is generalizing g with
  | nil => rfl
  | cons i is ih => rw [modifyAll_cons, ih, size_modify]

theorem map_stage_modifyAll {β : Type} (φ : Stage → β) {f : Stage → Stage} (h : ∀ s, φ (f s) = φ s)
    (is : List StageId) (j : StageId) : φ ((g.modifyAll is f).stage j) = φ (g.stage j) := by
  induction is generalizing g with
  | nil => rfl
  | cons i is ih => rw [modifyAll_cons, ih, map_stage_modify φ h]

theorem modifyAll_withFailure (g : Graph) (f : Option Failure) (is : List StageId)
    (h : Stage → Stage) :
    (g.withFailure f).modifyAll is h = (g.modifyAll is h).withFailure f := by
  induction is generalizing g with
  | nil => rfl
  | cons i is ih => exact ih (g.modify i h)

@[simp] theorem failure_modifyAll (g : Graph) (is : List StageId) (f : Stage → Stage) :
    (g.modifyAll is f).failure = g.failure := by
  induction is generalizing g with
  | nil => rfl
  | cons i is ih => exact ih (g.modify i f)

/-- A stage is told as often as it is listed. -/
theorem stage_modifyAll_succ (is : List StageId) (hj : j < g.size) :
    (g.modifyAll is fun s => { s with runningFeeders := s.runningFeeders + 1 }).stage j =
      { g.stage j with runningFeeders := (g.stage j).runningFeeders + is.count j } := by
  induction is generalizing g with
  | nil => rfl
  | cons i is ih =>
    rw [modifyAll_cons, ih (by simpa using hj), stage_modify]
    by_cases h : i = j
    · subst h
      simp [hj]
      omega
    · simp [h]

theorem stage_modifyAll_pred (is : List StageId) (hj : j < g.size) :
    (g.modifyAll is fun s => { s with runningFeeders := s.runningFeeders - 1 }).stage j =
      { g.stage j with runningFeeders := (g.stage j).runningFeeders - is.count j } := by
  induction is generalizing g with
  | nil => rfl
  | cons i is ih =>
    rw [modifyAll_cons, ih (by simpa using hj), stage_modify]
    by_cases h : i = j
    · subst h
      simp [hj]
      omega
    · simp [h]

/-! ### Entering and leaving the running state -/

@[simp] theorem size_enterRunning (g : Graph) (i : StageId) : (g.enterRunning i).size = g.size :=
  (size_modifyAll _ _ _).trans (size_modify _ _ _)

@[simp] theorem running_enterRunning (g : Graph) (i : StageId) :
    (g.enterRunning i).running = g.running + 1 := rfl

@[simp] theorem failure_enterRunning (g : Graph) (i : StageId) :
    (g.enterRunning i).failure = g.failure :=
  failure_modifyAll _ _ _

@[simp] theorem size_leaveRunning (g : Graph) (i : StageId) : (g.leaveRunning i).size = g.size :=
  size_modifyAll _ _ _

@[simp] theorem failure_leaveRunning (g : Graph) (i : StageId) :
    (g.leaveRunning i).failure = g.failure :=
  failure_modifyAll _ _ _

/-- Every stage after one has been set running. -/
theorem stage_enterRunning (hj : j < g.size) :
    (g.enterRunning i).stage j =
      { g.stage j with
        state := if i = j then .running else (g.stage j).state
        opened := (g.stage j).opened || decide (i = j)
        runningFeeders := (g.stage j).runningFeeders + (g.stage i).listeners.count j } := by
  refine (stage_modifyAll_succ (g.stage i).listeners (by simpa using hj)).trans ?_
  rw [stage_modify]
  by_cases hij : i = j <;> simp [hij, hj]

/-- Every stage after one has told its listeners that it does not run any more. -/
theorem stage_leaveRunning (hj : j < g.size) :
    (g.leaveRunning i).stage j =
      { g.stage j with
        runningFeeders := (g.stage j).runningFeeders - (g.stage i).listeners.count j } :=
  stage_modifyAll_pred _ hj

theorem leaveRunning_withFailure (g : Graph) (f : Option Failure) (i : StageId) :
    (g.withFailure f).leaveRunning i = (g.leaveRunning i).withFailure f := by
  unfold leaveRunning
  rw [modifyAll_withFailure]
  rfl

theorem halt_of_ne (h : (g.stage i).state ≠ .running) : g.halt i = g := if_neg h

theorem halt_of_running (h : (g.stage i).state = .running) :
    g.halt i = (g.modify i fun s => { s with state := .paused }).leaveRunning i := if_pos h

@[simp] theorem size_halt (g : Graph) (i : StageId) : (g.halt i).size = g.size := by
  unfold halt
  split <;> simp

@[simp] theorem failure_halt (g : Graph) (i : StageId) : (g.halt i).failure = g.failure := by
  unfold halt
  split
  · exact failure_leaveRunning _ i
  · rfl

/-- Every stage after a running one has been paused. -/
theorem stage_halt (h : (g.stage i).state = .running) (hj : j < g.size) :
    (g.halt i).stage j =
      { g.stage j with
        state := if i = j then .paused else (g.stage j).state
        runningFeeders := (g.stage j).runningFeeders - (g.stage i).listeners.count j } := by
  have hi : i < g.size := lt_size_of_state_ne (by simp [h])
  rw [halt_of_running h, stage_leaveRunning (by simpa using hj), stage_modify_self hi, stage_modify]
  by_cases hij : i = j <;> simp [hij, hj]

/-! ### Finishing -/

@[simp] theorem size_retire (g : Graph) (i : StageId) : (g.retire i).size = g.size := by
  unfold retire
  simp only
  split <;> simp

@[simp] theorem failure_retire (g : Graph) (i : StageId) : (g.retire i).failure = g.failure := by
  unfold retire
  simp only
  split
  · exact failure_leaveRunning _ i
  · rfl

theorem running_retire (g : Graph) (i : StageId) :
    (g.retire i).running = if (g.stage i).state = .running then g.running - 1 else g.running := by
  unfold retire
  simp only
  split <;> rfl

theorem retire_withFailure (g : Graph) (f : Option Failure) (i : StageId) :
    (g.withFailure f).retire i = (g.retire i).withFailure f := by
  unfold retire
  simp only [stage_withFailure, modify_withFailure, leaveRunning_withFailure]
  split <;> rfl

/-- Every stage after one has been finished. -/
theorem stage_retire (hj : j < g.size) :
    (g.retire i).stage j =
      { g.stage j with
        state := if i = j then .finished else (g.stage j).state
        opened := (g.stage j).opened || decide (i = j)
        closingDue := (g.stage j).closingDue || (decide (i = j) && decide (0 < (g.stage j).holders))
        runningFeeders :=
          if (g.stage i).state = .running then
            (g.stage j).runningFeeders - (g.stage i).listeners.count j
          else (g.stage j).runningFeeders } := by
  unfold retire
  by_cases hr : (g.stage i).state = .running
  · rw [if_pos hr, stage_leaveRunning (by simpa using hj),
      stage_modify_self (lt_size_of_state_ne (by simp [hr])), stage_modify]
    by_cases hij : i = j
    · subst hij
      simp [hr, hj]
    · simp [hr, hij]
  · rw [if_neg hr, stage_modify]
    by_cases hij : i = j
    · subst hij
      simp [hr, hj]
    · simp [hr, hij]

/-! ### Readings -/

/-- A reading of stages to which it does not matter whether they run: it does not depend on states,
nor on what is noted about them. -/
def Inert {β : Type} (φ : Stage → β) : Prop :=
  ∀ (s : Stage) (state : State) (runningFeeders : Nat) (opened closingDue : Bool),
    φ { s with state, runningFeeders, opened, closingDue } = φ s

section

variable {β : Type} {φ : Stage → β} (hφ : Inert φ)
include hφ

theorem reading_enterRunning (g : Graph) (i j : StageId) :
    φ ((g.enterRunning i).stage j) = φ (g.stage j) :=
  (map_stage_modifyAll φ (f := fun s => { s with runningFeeders := s.runningFeeders + 1 })
    (fun s => hφ s ..) _ j).trans
    (map_stage_modify φ (f := fun s => { s with state := .running, opened := true })
      (fun s => hφ s ..) i j)

theorem reading_leaveRunning (g : Graph) (i j : StageId) :
    φ ((g.leaveRunning i).stage j) = φ (g.stage j) :=
  map_stage_modifyAll φ (f := fun s => { s with runningFeeders := s.runningFeeders - 1 })
    (fun s => hφ s ..) _ j

theorem reading_halt (g : Graph) (i j : StageId) : φ ((g.halt i).stage j) = φ (g.stage j) := by
  unfold halt
  split
  · rw [reading_leaveRunning hφ]
    exact map_stage_modify φ (f := fun s => { s with state := .paused }) (fun s => hφ s ..) i j
  · rfl

theorem reading_retire (g : Graph) (i j : StageId) : φ ((g.retire i).stage j) = φ (g.stage j) := by
  have h := map_stage_modify (g := g) φ (f := fun s =>
    { s with
      state := .finished, opened := true, closingDue := s.closingDue || decide (0 < s.holders) })
    (fun s => hφ s ..) i j
  unfold retire
  simp only
  split
  · rw [reading_leaveRunning hφ, h]
  · exact h

end

theorem inert_holders : Inert Stage.holders := fun _ _ _ _ _ => rfl

@[simp] theorem holders_enterRunning (g : Graph) (i j : StageId) :
    ((g.enterRunning i).stage j).holders = (g.stage j).holders :=
      reading_enterRunning inert_holders g i j

@[simp] theorem holders_halt (g : Graph) (i j : StageId) :
    ((g.halt i).stage j).holders = (g.stage j).holders :=
  reading_halt inert_holders g i j

@[simp] theorem holders_retire (g : Graph) (i j : StageId) :
    ((g.retire i).stage j).holders = (g.stage j).holders :=
  reading_retire inert_holders g i j

end Pipework.Graph

/-! ### Lives -/

namespace Pipework

/-- What workers and hooks have to do with a stage. -/
structure Stage.Life where
  state : State
  opened : Bool
  closingDue : Bool
  holders : Nat

def Stage.life (s : Stage) : Stage.Life := ⟨s.state, s.opened, s.closingDue, s.holders⟩

/-- The life of a stage that is finished now. -/
def Stage.Life.retired (l : Stage.Life) : Stage.Life :=
  { l with
    state := .finished, opened := true, closingDue := l.closingDue || decide (0 < l.holders) }

namespace Graph

variable {g : Graph} {i : StageId}

theorem life_enterRunning (hi : i < g.size) (j : StageId) :
    ((g.enterRunning i).stage j).life =
      if i = j then { (g.stage i).life with state := .running, opened := true }
        else (g.stage j).life := by
  refine (map_stage_modifyAll Stage.life
    (f := fun s => { s with runningFeeders := s.runningFeeders + 1 }) (fun _ => rfl) _ j).trans ?_
  by_cases hij : i = j
  · subst hij
    rw [if_pos rfl, stage_modify_self hi]
    rfl
  · rw [if_neg hij, stage_modify_ne hij]

theorem life_leaveRunning (g : Graph) (i j : StageId) :
    ((g.leaveRunning i).stage j).life = (g.stage j).life :=
  map_stage_modifyAll Stage.life (f := fun s => { s with runningFeeders := s.runningFeeders - 1 })
    (fun _ => rfl) _ j

theorem life_halt (h : (g.stage i).state = .running) (j : StageId) :
    ((g.halt i).stage j).life = if i = j then { (g.stage i).life with state := .paused }
      else (g.stage j).life := by
  rw [halt_of_running h, life_leaveRunning]
  by_cases hij : i = j
  · subst hij
    rw [if_pos rfl, stage_modify_self (lt_size_of_state_ne (by simp [h]))]
    rfl
  · rw [if_neg hij, stage_modify_ne hij]

theorem state_halt (h : (g.stage i).state = .running) (j : StageId) :
    ((g.halt i).stage j).state = if i = j then .paused else (g.stage j).state := by
  have life := congrArg Stage.Life.state (life_halt h j)
  by_cases hij : i = j
  · rw [if_pos hij] at life ⊢
    exact life
  · rw [if_neg hij] at life ⊢
    exact life

theorem life_retire (hi : i < g.size) (j : StageId) :
    ((g.retire i).stage j).life = if i = j then (g.stage i).life.retired else (g.stage j).life := by
  have key : ((g.modify i fun s =>
        { s with
          state := .finished
          opened := true
          closingDue := s.closingDue || decide (0 < s.holders) }).stage j).life =
      if i = j then (g.stage i).life.retired else (g.stage j).life := by
    by_cases hij : i = j
    · subst hij
      rw [if_pos rfl, stage_modify_self hi]
      rfl
    · rw [if_neg hij, stage_modify_ne hij]
  unfold retire
  simp only
  split
  · rw [life_leaveRunning, key]
  · exact key

end Graph

end Pipework
