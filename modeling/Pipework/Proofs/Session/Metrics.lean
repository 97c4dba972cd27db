import Mathlib.Algebra.BigOperators.Group.List.Basic
import Mathlib.Data.UInt
import Pipework.Proofs.Session.Ledger

/-!
# What the metrics of a stage count

Nothing but the calls of a stage touches its metrics (`Session.metrics_perform`), and each call adds
what it has handled, if it comes to an end (`Network.items_call`). So the items of a stage are what
its calls have handled, all together (`Ledger.Run.items`).
-/

namespace Pipework

variable {W : Type} {B : Bodies W}

/-! ### What does not touch them -/

theorem Graph.inert_metrics : Inert Stage.metrics := fun _ _ _ _ _ => rfl

namespace Network

theorem metrics_surrender (n : Network W) (B : Bodies W) (i j : StageId) (caller : Caller)
    (result : Option Outcome) :
    ((n.surrender B i caller result).2.graph.stage j).metrics = (n.graph.stage j).metrics := by
  have hgo : ∀ y, ((n.graph.letGo i y).stage j).metrics = (n.graph.stage j).metrics := fun y =>
    Graph.map_stage_modify Stage.metrics
      (f := fun s => { s with holders := s.holders - 1, lastYield := some y }) (fun _ => rfl) i j
  unfold surrender
  rw [reading_closeDue Graph.inert_metrics]
  split
  · rw [reading_complete Graph.inert_metrics]
    exact hgo _
  · exact hgo _

end Network

namespace Scheduler

theorem metrics_giveBack (sc : Scheduler) (B : Bodies W) (n : Network W) (w : WorkerId)
    (i j : StageId) (result : Option Outcome) :
    ((sc.giveBack B n w i result).graph.stage j).metrics = (n.graph.stage j).metrics :=
  (stable_reading Graph.inert_metrics B fun j => (n.graph.stage j).metrics).settling.handBack
    (n.metrics_surrender B i · (sc.caller w) result) j

theorem metrics_assign (sc : Scheduler) (B : Bodies W) (n : Network W) (w : WorkerId)
    (previous : Option StageId) (result : Option Outcome) (j : StageId) :
    ((sc.assign B n w previous result).2.graph.stage j).metrics = (n.graph.stage j).metrics := by
  have freed : ∀ k, ((sc.freed B n w previous result).graph.stage k).metrics =
      (n.graph.stage k).metrics := by
    intro k
    cases previous with
    | none => rfl
    | some i => exact sc.metrics_giveBack B n w i k result
  rcases sc.assign_cases B n w previous result with ⟨i, -, -, he⟩ | he <;> rw [he]
  · exact Graph.map_stage_modify (g := n.graph) Stage.metrics
      (f := fun s => { s with lastPicked := n.graph.tick + 1 }) (fun _ => rfl) i j
  · refine (stable_reading Graph.inert_metrics B fun j =>
      (n.graph.stage j).metrics).settling.handOut freed (fun i hi _ k => ?_) j
    rw [stage_take hi]
    split
    · next hik =>
      subst hik
      exact freed i
    · exact freed k

end Scheduler

namespace Session

/-- Nothing but calls touches the metrics of stages. -/
theorem metrics_perform {s : Session W} {e : Event W}
    (hsources : ∀ i ∈ s.network.graph.sources, i < s.network.graph.size) (he : s.Sound e)
    (hne : ∀ w, e ≠ .exec w) (j : StageId) :
    ((s.perform B e).network.graph.stage j).metrics = (s.network.graph.stage j).metrics := by
  cases e with
  | order call =>
    refine (stable_reading Graph.inert_metrics B fun j => (s.network.graph.stage j).metrics).order
      hsources he (fun f k => ?_) (fun i f k => ?_) (fun _ _ _ => rfl) (fun _ => rfl) j
    · rw [Network.graph_mapGraph, Graph.stage_recordFailure]
    · exact Graph.map_stage_modify Stage.metrics (f := fun s => { s with knobs := f s.knobs })
        (fun _ => rfl) i k
  | next w => exact Scheduler.metrics_assign ..
  | exec w => exact absurd rfl (hne w)
  | release w =>
    cases hh : s.holdOf w with
    | none => rw [perform, release_of_none hh]
    | some h =>
      rw [perform, release_of_some hh]
      exact Scheduler.metrics_giveBack ..
  | report w result => rfl

end Session

/-! ### What calls add -/

/-- How many parcels a call has handled, if it has come to an end. -/
def CallRecord.handled (B : Bodies W) (r : CallRecord W) : UInt64 :=
  match (B.call r.stage r.visit r.world).1.outcome? with
  | some _ => (B.call r.stage r.visit r.world).2.1.items
  | none => 0

theorem StageMetrics.items_record (m : StageMetrics) (o : Outcome) (items : UInt64)
    (elapsed : Duration) :
    (m.record o items elapsed).items = m.items + items := by
  cases o <;> rfl

/-- A call adds what it has handled to the items of its stage. -/
theorem Network.items_call {n : Network W} {i : StageId} (hi : i < n.graph.size) (v : Visit)
    (j : StageId) :
    ((n.call B i v).2.2.graph.stage j).metrics.items =
      (n.graph.stage j).metrics.items +
        if i = j then CallRecord.handled B ⟨i, v, n.world⟩ else 0 := by
  rcases h : B.call i v n.world with ⟨ending, v', world⟩
  simp only [call, CallRecord.handled, h]
  cases ending.outcome? with
  | none => simp
  | some o =>
    by_cases hij : i = j
    · subst hij
      rw [Graph.stage_modify_self hi, if_pos rfl, StageMetrics.items_record]
    · rw [Graph.stage_modify_ne hij, if_neg hij, add_zero]

namespace Ledger

/-- What some calls of a stage come to, all together, given what each of them comes to. -/
def sumOf (f : CallRecord W → UInt64) (i : StageId) (calls : List (CallRecord W)) : UInt64 :=
  ((calls.filter (·.stage == i)).map f).sum

theorem sumOf_append (f : CallRecord W → UInt64) (i : StageId) (calls : List (CallRecord W))
    (r : CallRecord W) :
    sumOf f i (calls ++ [r]) = sumOf f i calls + if r.stage = i then f r else 0 := by
  unfold sumOf
  rw [List.filter_append, List.map_append, List.sum_append]
  by_cases h : r.stage = i <;> simp [h]

variable {Tuned : W → W → Prop} {l₀ l : Ledger W}

/-- **The items of a stage are what its calls have handled.** -/
theorem Run.items (hr : Run B Tuned l₀ l) (wd : l₀.session.network.graph.Wired)
    (t : l₀.session.Tallied) (i : StageId)
    (h₀ : (l₀.session.network.graph.stage i).metrics.items = sumOf (·.handled B) i l₀.calls) :
    (l.session.network.graph.stage i).metrics.items = sumOf (·.handled B) i l.calls := by
  induction hr with
  | start => exact h₀
  | @step l e hr he ht ih =>
    obtain ⟨bare, tallied⟩ := hr.tallied wd t
    by_cases hexec : ∃ k, e = .exec k
    · obtain ⟨k, rfl⟩ := hexec
      cases hh : l.session.holdOf k with
      | none => rwa [perform_exec_of_none hh]
      | some x =>
        obtain ⟨hm, hk⟩ := Session.mem_of_holdOf hh
        have hgraph : (l.perform B (.exec k)).session.network =
            (l.session.network.call B x.stage (l.session.visit x)).2.2 := by
          simp only [perform, Session.perform, Session.exec_of_some hh hk]
        rw [hgraph, Network.items_call (tallied.lt_size hm), ih, calls_perform_exec hh,
          sumOf_append]
    · have hne : ∀ k, e ≠ .exec k := fun k hk => hexec ⟨k, hk⟩
      rw [calls_perform_of_ne hne, ← ih]
      exact congrArg StageMetrics.items
        (Session.metrics_perform (fun _ => (wd.of_bare bare).lt_size_of_mem_sources) he hne i)

end Ledger

end Pipework
