import Pipework.Proofs.Network.Stable

/-!
# Who holds a stage

The life of stages does not touch what does not depend on it (`stable_reading`). The graph counts
for each stage how many workers hold it, which is of that kind (`stable_holders`); a worker that
gives a stage back takes one away, and a worker that is given one adds one.
-/

namespace Pipework

variable {W : Type} {B : Bodies W} {n : Network W} {i j : StageId} {w : WorkerId}

namespace Graph

theorem holders_letGo (g : Graph) (i j : StageId) (y : Yield) :
    ((g.letGo i y).stage j).holders = (g.stage j).holders - if i = j then 1 else 0 := by
  unfold letGo
  rw [stage_modify]
  by_cases hj : j < g.size
  · by_cases hi : i = j <;> simp [hi, hj]
  · rw [if_neg fun h => hj h.2, stage_of_size_le (Nat.le_of_not_lt hj)]
    exact (Nat.zero_sub _).symm

end Graph

/-! ### Readings -/

section

variable {β : Type} {φ : Stage → β} (hφ : Graph.Inert φ)
include hφ

namespace Network

theorem reading_complete (n : Network W) (B : Bodies W) (i j : StageId) (c : Option Caller) :
    φ ((n.complete B i c).2.graph.stage j) = φ (n.graph.stage j) := by
  by_cases hf : (n.graph.stage i).state = .finished
  · rw [complete_of_finished hf]
  · obtain ⟨f, hg⟩ := complete_graph (B := B) (c := c) hf
    rw [hg, Graph.stage_withFailure, Graph.reading_retire hφ]

theorem reading_closeDue (n : Network W) (B : Bodies W) (i j : StageId) (c : Option Caller) :
    φ ((n.closeDue B i c).2.graph.stage j) = φ (n.graph.stage j) := by
  obtain ⟨f, hf⟩ := n.closeDue_graph B i c
  rw [hf, Graph.stage_withFailure]
  split
  · exact Graph.map_stage_modify φ (f := fun s => { s with closingDue := false })
      (fun s => hφ s ..) i j
  · rfl

end Network

/-- What does not depend on the life of stages is not touched by it. -/
theorem stable_reading (B : Bodies W) (f : StageId → β) :
    Stable B fun n => ∀ j, φ (n.graph.stage j) = f j where
  opens {n i} c h _ _ j := by
    obtain ⟨e, he⟩ := n.openOne_graph B i c
    rw [he, Graph.stage_withFailure, Graph.reading_enterRunning hφ, h]
  halts {n i} h _ j := by rw [Network.graph_mapGraph, Graph.reading_halt hφ, h]
  completes {n i} c h _ _ j := by rw [Network.reading_complete hφ, h]

end

/-! ### Holders -/

namespace Network

theorem holders_complete (n : Network W) (B : Bodies W) (i j : StageId) (c : Option Caller) :
    ((n.complete B i c).2.graph.stage j).holders = (n.graph.stage j).holders :=
  reading_complete Graph.inert_holders n B i j c

theorem holders_closeDue (n : Network W) (B : Bodies W) (i j : StageId) (c : Option Caller) :
    ((n.closeDue B i c).2.graph.stage j).holders = (n.graph.stage j).holders :=
  reading_closeDue Graph.inert_holders n B i j c

theorem holders_surrender (n : Network W) (B : Bodies W) (i j : StageId) (caller : Caller)
    (result : Option Outcome) :
    ((n.surrender B i caller result).2.graph.stage j).holders =
      (n.graph.stage j).holders - if i = j then 1 else 0 := by
  unfold surrender
  rw [holders_closeDue]
  split
  · rw [holders_complete]
    exact n.graph.holders_letGo i j _
  · exact n.graph.holders_letGo i j _

theorem holders_call (n : Network W) (B : Bodies W) (i : StageId) (v : Visit) (j : StageId) :
    ((n.call B i v).2.2.graph.stage j).holders = (n.graph.stage j).holders := by
  obtain ⟨m, hm⟩ := n.call_graph B i v
  rw [hm]
  exact Graph.map_stage_modify Stage.holders (f := fun s => { s with metrics := m s.metrics })
    (fun _ => rfl) i j

end Network

/-- The life of stages does not touch what workers hold. -/
theorem stable_holders (B : Bodies W) (f : StageId → Nat) :
    Stable B fun n => ∀ j, (n.graph.stage j).holders = f j :=
  stable_reading Graph.inert_holders B f

namespace Scheduler

theorem holders_giveBack (sc : Scheduler) (B : Bodies W) (n : Network W) (w : WorkerId)
    (i j : StageId) (result : Option Outcome) :
    ((sc.giveBack B n w i result).graph.stage j).holders =
      (n.graph.stage j).holders - if i = j then 1 else 0 :=
  (stable_holders B fun j => (n.graph.stage j).holders - if i = j then 1 else 0).settling.handBack
    (n.holders_surrender B i · (sc.caller w) result) j

theorem holders_keep (n : Network W) (w : WorkerId) (i j : StageId) :
    ((keep n w i).graph.stage j).holders = (n.graph.stage j).holders :=
  Graph.map_stage_modify (g := n.graph) Stage.holders
    (f := fun s => { s with lastPicked := n.graph.tick + 1 }) (fun _ => rfl) i j

/-- Every stage after one has been given to a worker. -/
theorem stage_take (hi : i < n.graph.size) (w : WorkerId) (j : StageId) :
    (take n w i).graph.stage j =
      if i = j then
        { n.graph.stage i with
          holders := (n.graph.stage i).holders + 1, lastPicked := n.graph.tick + 1 }
      else n.graph.stage j := by
  refine (Graph.stage_modify n.graph i j _).trans ?_
  by_cases hij : i = j
  · subst hij
    rw [if_pos ⟨rfl, hi⟩, if_pos rfl]
  · rw [if_neg fun h => hij h.1, if_neg hij]

theorem holders_take (hi : i < n.graph.size) (w : WorkerId) (j : StageId) :
    ((take n w i).graph.stage j).holders = (n.graph.stage j).holders + if i = j then 1 else 0 := by
  rw [stage_take hi]
  by_cases hij : i = j <;> simp [hij]

end Scheduler

end Pipework
