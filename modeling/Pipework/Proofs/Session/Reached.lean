import Pipework.Proofs.Network.Calm
import Pipework.Proofs.Network.LateEdges
import Pipework.Proofs.Session.Hooks

/-!
# Sessions that grow

A session need not begin with a graph that is built to the end: stages and edges may be added at any
time. `Reached` collects the sessions that can be reached in this way from one without stages. Their
graphs are wired, the holders of every stage are counted, and so are the running stages
(`Reached.tallied`, `Reached.countsRunning`); only the number of running feeders may be out of date,
if an edge comes late, and then it is behind (`Reached.lags`). Where hooks and calls are noted, they
frame the life of every stage (`Reached.inOrder`).
-/

namespace Pipework.Session

variable {W : Type} {B : Bodies W} {allowed : Session W → Event W → Prop} {world : W}
  {sc : Scheduler} {s : Session W}

/-- The sessions that can be reached from one without stages by building and by sound events, if
these are allowed. -/
inductive Reached (B : Bodies W) (allowed : Session W → Event W → Prop) (world : W)
    (sc : Scheduler) : Session W → Prop where
  | start : Reached B allowed world sc ⟨⟨.empty, world⟩, sc, []⟩
  | build {s : Session W} (p : Graph.Part) : Reached B allowed world sc s →
      Reached B allowed world sc (s.perform B (.order (.build p)))
  | step {s : Session W} (e : Event W) : Reached B allowed world sc s → s.Sound e → allowed s e →
      Reached B allowed world sc (s.perform B e)

/-- What holds at the start and survives building and every sound and allowed event holds
throughout. -/
theorem Reached.invariant {P : Session W → Prop} (h : Reached B allowed world sc s)
    (h₀ : P ⟨⟨.empty, world⟩, sc, []⟩) (hb : ∀ s p, P s → P (s.perform B (.order (.build p))))
    (hs : ∀ s e, P s → s.Sound e → allowed s e → P (s.perform B e)) : P s := by
  induction h with
  | start => exact h₀
  | build p _ ih => exact hb _ p ih
  | step e _ hsound hallowed ih => exact hs _ e ih hsound hallowed

/-- Where less is allowed, no more is reached. -/
theorem Reached.mono {allowed' : Session W → Event W → Prop} (h : Reached B allowed world sc s)
    (ha : ∀ s e, allowed s e → allowed' s e) : Reached B allowed' world sc s :=
  h.invariant .start (fun _ p h => h.build p) fun s e h he hallowed => h.step e he (ha s e hallowed)

theorem Tallied.build (t : s.Tallied) (p : Graph.Part) :
    (s.perform B (.order (.build p))).Tallied where
  workers := t.workers
  holders i := (Graph.holders_add s.network.graph p i).trans (t.holders i)

namespace Reached

/-- The graph may have been built before anything is done. -/
theorem parts (B : Bodies W) (allowed : Session W → Event W → Prop) (world : W) (sc : Scheduler)
    (parts : List Graph.Part) :
    Reached B allowed world sc ⟨⟨.ofParts parts, world⟩, sc, []⟩ :=
  Graph.ofParts_induction (P := fun g => Reached B allowed world sc ⟨⟨g, world⟩, sc, []⟩) .start
    (fun _ p h => h.build p) parts

variable (h : Reached B allowed world sc s)
include h

theorem run {s' : Session W} (hr : Run B allowed s s') : Reached B allowed world sc s' :=
  hr.invariant h fun _ e h he ha => h.step e he ha

/-- A stage without listeners may be set running. -/
theorem opens (i : StageId) (ha : allowed s (.order (.activate i))) (hi : i < s.network.graph.size)
    (hd : (s.network.graph.stage i).dormant = true)
    (hl : (s.network.graph.stage i).listeners = []) :
    Reached B allowed world sc { s with network := (s.network.openOne B i none).2 } := by
  have activated := h.step (.order (.activate i)) rfl ha
  rwa [perform, Network.perform, Network.activate_of_no_listeners hi hd hl] at activated

/-- A stage without listeners may be finished. -/
theorem finishes (i : StageId) (ha : allowed s (.order (.finish i))) (hi : i < s.network.graph.size)
    (hl : (s.network.graph.stage i).listeners = []) :
    Reached B allowed world sc { s with network := (s.network.complete B i none).2 } := by
  have finished := h.step (.order (.finish i)) rfl ha
  rwa [perform, Network.perform, Network.finish_of_no_listeners hi hl] at finished

/-- Graphs are wired and holders are counted throughout. -/
theorem wired_and_tallied : s.network.graph.Wired ∧ s.Tallied := by
  refine h.invariant (P := fun s => s.network.graph.Wired ∧ s.Tallied) ?_ ?_ ?_
  · exact ⟨Graph.wired_empty, List.nodup_nil, fun i => by
      rw [Graph.stage_of_size_le (Nat.zero_le i)]
      rfl⟩
  · rintro s p ⟨wd, t⟩
    exact ⟨wd.add p, t.build p⟩
  · rintro s e ⟨wd, t⟩ he -
    exact ⟨wired_perform wd he, t.perform (fun _ => wd.lt_size_of_mem_sources) he⟩

theorem wired : s.network.graph.Wired := h.wired_and_tallied.1

theorem tallied : s.Tallied := h.wired_and_tallied.2

/-- The number of running stages is exact throughout. -/
theorem countsRunning : s.network.graph.CountsRunning := by
  refine (h.invariant (P := fun s => s.network.graph.Wired ∧ s.network.graph.CountsRunning) ?_ ?_
    ?_).2
  · exact ⟨Graph.wired_empty, rfl⟩
  · rintro s p ⟨wd, hc⟩
    exact ⟨wd.add p, hc.add p⟩
  · rintro s e ⟨wd, hc⟩ he -
    exact ⟨wired_perform wd he,
      (stable_countsRunning B).event (fun _ _ => .alike) (fun _ => wd.lt_size_of_mem_sources) he hc⟩

/-- The number of running feeders is never ahead. -/
theorem lags (j : StageId) : ∃ d, s.network.graph.Lags j d := by
  refine (h.invariant (P := fun s => s.network.graph.Wired ∧ ∃ d, s.network.graph.Lags j d) ?_ ?_
    ?_).2
  · exact ⟨Graph.wired_empty, 0, Graph.lags_empty j⟩
  · rintro s p ⟨wd, d, hl⟩
    exact ⟨wd.add p, _, hl.add p⟩
  · rintro s e ⟨wd, d, hl⟩ he -
    exact ⟨wired_perform wd he, d, (course_perform .start wd he).lags wd hl⟩

end Reached

/-- Building leaves lives and histories as they were. -/
theorem InOrder.build {s : Session (Noted W)} (o : s.InOrder) (p : Graph.Part) :
    (s.perform B.noting (.order (.build p))).InOrder where
  wired := o.wired.add p
  tallied := o.tallied.build p
  framed i := (Graph.life_add s.network.graph p i).symm ▸ o.framed i
  prompt i := (Graph.life_add s.network.graph p i).symm ▸ o.prompt i

/-- Lives agree with what has been noted throughout. -/
theorem Reached.inOrder {s : Session (Noted W)} (h : Reached B.noting KeepsNotes (world, []) sc s) :
    s.InOrder :=
  h.invariant (inOrder_fresh Graph.wired_empty Graph.fresh_empty world sc) (fun _ p o => o.build p)
    fun _ _ o he hk => o.perform he hk

end Pipework.Session
