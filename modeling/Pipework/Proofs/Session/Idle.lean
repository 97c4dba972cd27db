import Pipework.Proofs.Session.Reached
import Pipework.Proofs.Session.WindDown

/-!
# A worker that finds nothing

A stage that runs and is not handed out is held by somebody, or exhausted. So if nobody holds any
stage, a worker that finds nothing to do leaves every running stage to the pass that settles what is
idle, and that pass settles them all: a settled stage stays settled while others are dealt with, in
whatever order and however they are wired. Unless there is a failure, finding nothing means that
nothing is left running (`drained_of_idle`).
-/

namespace Pipework

variable {W : Type} {B : Bodies W} {s : Session W} {w : WorkerId}

/-- What runs, is held by nobody and cannot be handed out is settled. -/
theorem Network.settled_of_not_eligible {n : Network W} {i : StageId}
    (hr : (n.graph.stage i).state = .running) (hh : (n.graph.stage i).holders = 0)
    (he : Scheduler.eligible B n i = false) : n.settled B i = true := by
  have exhausted : n.exhausted B i = true := by
    by_contra hx
    have heligible := Scheduler.eligible_iff.2 ⟨hr, .inl hh, by simpa using hx⟩
    rw [he] at heligible
    cases heligible
  simp [Network.settled, hh, exhausted]

namespace Session

/-- A worker that finds nothing although there is no failure has let go of what it held, could be
given nothing, and has settled what was idle. -/
theorem next_of_idle (hn : (s.next B w).1 = none)
    (hf : (s.next B w).2.network.graph.failure = none) :
    (∀ i, i < (s.freed B w).graph.size → Scheduler.eligible B (s.freed B w) i = false) ∧
      (s.next B w).2.network =
        ((s.freed B w).settle B (Scheduler.idle B (s.freed B w))
          (some (s.scheduler.caller w))).2 := by
  rcases s.next_cases B w with ⟨h, -, -, he⟩ | ⟨i, -, -, -, he⟩ | ⟨hfailed, he⟩ | ⟨-, hel, he⟩
  · rw [he] at hn
    cases hn
  · rw [he] at hn
    cases hn
  · rw [he] at hf
    simp only at hf
    rw [hf] at hfailed
    cases hfailed
  · rw [he]
    exact ⟨hel, rfl⟩

/-- Nobody holds a stage once the last worker has let go. -/
theorem Tallied.freed_of_deserted (t : s.Tallied) (hn : (s.next B w).1 = none)
    (hh : (s.next B w).2.holds = []) (i : StageId) : ((s.freed B w).graph.stage i).holders = 0 := by
  have others : s.others w = [] := by
    rw [holds_next, hn] at hh
    simpa using hh
  rw [t.freed, others]
  rfl

end Session

/-- **Finding nothing means that nothing is left running.** Let stages and edges be added at any
time, and let workers that hand back what they hold ask, call and leave in any order. If a worker
asks and is given nothing, no failure is on record, and nobody holds a stage by then, no stage is
running, and the graph says so. -/
theorem drained_of_idle {W : Type} (B : Bodies W) (hB : B.BringNoWork) (world : W) (sc : Scheduler)
    (s : Session W) (hs : Session.Reached B (fun _ _ => True) world sc s) (w : WorkerId)
    (hn : (s.next B w).1 = none) (hf : (s.next B w).2.network.graph.failure = none)
    (hh : (s.next B w).2.holds = []) :
    (∀ i, ((s.next B w).2.network.graph.stage i).state ≠ .running) ∧
    (s.next B w).2.network.graph.running = 0 := by
  obtain ⟨notEligible, hnext⟩ := Session.next_of_idle hn hf
  have free := hs.tallied.freed_of_deserted (B := B) hn hh
  have settled : ∀ i, ((s.freed B w).graph.stage i).state = .running →
      (s.freed B w).settled B i = true := by
    intro i hr
    have hi : i < (s.freed B w).graph.size := Graph.lt_size_of_state_ne (by simp [hr])
    exact Network.settled_of_not_eligible hr (free i) (notEligible i hi)
  have idle : ∀ i, ((s.next B w).2.network.graph.stage i).state ≠ .running := by
    intro i
    rw [hnext]
    exact hB.idle_settle settled i
  have counts : (s.next B w).2.network.graph.CountsRunning :=
    (stable_countsRunning B).toLasting.assign (fun _ _ => .alike) hs.countsRunning
  exact ⟨idle, counts.eq_zero idle⟩

/-- Two stages that are no sources and run, and an edge between them that came late. -/
def lateEdge : Session Unit :=
  let n : Network Unit := ⟨.ofParts [.stage "a" .interior true, .stage "b" .interior true], ()⟩
  let opened := ((n.openOne .inert 0 none).2.openOne .inert 1 none).2
  ⟨opened.mapGraph (·.add (.edge 0 1)), ⟨.roundRobin, 1⟩, []⟩

theorem reached_lateEdge :
    Session.Reached .inert (fun _ _ => True) () ⟨.roundRobin, 1⟩ lateEdge := by
  have built := Session.Reached.parts .inert (fun _ _ => True) () ⟨.roundRobin, 1⟩
    [.stage "a" .interior true, .stage "b" .interior true]
  have running := (built.opens 0 trivial (by decide) (by decide) rfl).opens 1 trivial (by decide)
    (by decide) rfl
  exact running.build (.edge 0 1)

theorem bringNoWork_inert : Bodies.inert.BringNoWork := fun _ _ _ _ _ => rfl

/-- The first worker that asks for a stage finds nothing, and the edge that came late keeps no stage
running. -/
theorem drained_of_idle_lateEdge :
    (lateEdge.next .inert 0).1 = none ∧ (lateEdge.next .inert 0).2.network.graph.failure = none ∧
      (lateEdge.next .inert 0).2.holds = [] ∧ (lateEdge.network.graph.running = 2) ∧
      (∀ i, ((lateEdge.next .inert 0).2.network.graph.stage i).state ≠ .running) ∧
      (lateEdge.next .inert 0).2.network.graph.running = 0 := by
  have hn : (lateEdge.next .inert 0).1 = none := by decide
  have hh : (lateEdge.next .inert 0).2.holds = [] := by
    rw [Session.holds_next, hn]
    rfl
  have healthy : lateEdge.network.Healthy Bodies.inert.Idle := ⟨idle_inert (), rfl⟩
  have hf : (lateEdge.next .inert 0).2.network.graph.failure = none :=
    (healthy.assign welcomes_inert _).failure
  exact ⟨hn, hf, hh, rfl, drained_of_idle .inert bringNoWork_inert () _ lateEdge
    reached_lateEdge 0 hn hf hh⟩

end Pipework
