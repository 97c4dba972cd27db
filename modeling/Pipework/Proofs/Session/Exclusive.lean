import Pipework.Proofs.Network.Handover
import Pipework.Proofs.Session.Events
import Pipework.Worker

/-!
# Exclusive assignment

Whoever hands back exactly what he holds is counted, and a stage for one worker at a time is in the
hands of one at most. This is shown of sessions, in which a worker may hand back at any moment and
with any outcome, and of crews, whose workers take their turns one by one and leave when they are
retired, when their stage fails, or when there is nothing to do (`exclusive_assignment`). A turn
hands in what the worker held for what it comes to hold (`Worker.hands_turn`), so that nobody who
has left holds anything.
-/

namespace Pipework

/-- An order hands nothing over. -/
theorem Network.hands_order {W : Type} {B : Bodies W} {n : Network W} {call : Call W}
    (wd : n.graph.Wired) (ho : call.isOrder = true) :
    n.graph.Hands (n.perform B call).graph none none := by
  have unchanged : n.graph.Hands n.graph none none := .still rfl (fun _ => rfl) none
  exact (stable_hands B n.graph none none).order (fun _ => wd.lt_size_of_mem_sources) ho
    (fun f => n.graph.hands_recordFailure f none) (fun i f => n.graph.hands_modifyKnobs i f none)
    (fun _ _ => unchanged)
    unchanged

/-! ### Sessions -/

namespace Session

variable {W : Type} {s : Session W} {B : Bodies W} {w : WorkerId} {e : Event W}

theorem Tallied.holders_pos_of_previous (t : s.Tallied) (w : WorkerId) :
    ∀ i ∈ (s.holdOf w).map (·.stage), 0 < (s.network.graph.stage i).holders := by
  intro i hi
  obtain ⟨h, hh, rfl⟩ := Option.map_eq_some_iff.1 hi
  exact t.holders_pos (mem_of_holdOf hh).1

/-- A stage for one worker at a time remains so. -/
theorem Tallied.exclusive (t : s.Tallied) (wd : s.network.graph.Wired) (he : s.Sound e)
    (hx : s.network.graph.Exclusive) : (s.perform B e).network.graph.Exclusive := by
  cases e with
  | order call => exact (Network.hands_order wd he).exclusive hx
  | next w => exact (Scheduler.hands_assign _ B w _ (t.holders_pos_of_previous w)).exclusive hx
  | exec w =>
    cases hh : s.holdOf w with
    | none =>
      rw [Session.perform, exec_of_none hh]
      exact hx
    | some h =>
      rw [Session.perform, exec_of_some hh (mem_of_holdOf hh).2]
      exact (s.network.hands_call B h.stage (s.visit h) none).exclusive hx
  | release w =>
    cases hh : s.holdOf w with
    | none =>
      rw [Session.perform, release_of_none hh]
      exact hx
    | some h =>
      rw [Session.perform, release_of_some hh]
      exact (Scheduler.hands_giveBack (t.holders_pos (mem_of_holdOf hh).1)).exclusive hx
  | report w result => exact hx

end Session

/-! ### Workers -/

namespace Worker

variable {W : Type} {B : Bodies W} {e : Engine W} {w : Worker} {i : StageId}

/-- The stage that a worker holds. -/
def stage? (w : Worker) : Option StageId :=
  match w.activity with
  | .request previous => previous.map (·.1)
  | .call i _ _ => some i
  | .gone => none

theorem stage?_of_isGone (h : w.isGone = true) : w.stage? = none := by
  unfold isGone at h
  unfold stage?
  split at h
  · rename_i hg
    rw [hg]
  · cases h

theorem hands_ask (previous : Option (StageId × Outcome))
    (hp : ∀ i ∈ previous.map (·.1), 0 < (e.graph.stage i).holders) :
    e.graph.Hands (w.ask B e previous).1.graph (previous.map (·.1))
      (w.ask B e previous).2.stage? := by
  have hands := e.scheduler.hands_assign B w.id (previous.map (·.2)) hp
  unfold ask
  simp only
  split
  · rename_i hn
    rw [hn] at hands
    split <;> exact hands
  · rename_i i hi
    rw [hi] at hands
    exact hands

/-- Leaving by retirement hands in the stage of the last assignment. -/
theorem hands_depart (previous : Option (StageId × Outcome))
    (hp : ∀ i ∈ previous.map (·.1), 0 < (e.graph.stage i).holders) :
    e.graph.Hands (w.depart B e previous).1.graph (previous.map (·.1))
      (w.depart B e previous).2.stage? := by
  cases previous with
  | none => exact .still rfl (fun _ => rfl) none
  | some p => exact Scheduler.hands_giveBack (hp p.1 rfl)

/-- Asking for a stop hands nothing over. -/
theorem hands_requestStop (wd : e.graph.Wired) (a : Option StageId) :
    e.graph.Hands (e.requestStop B).graph a a := by
  unfold Engine.requestStop
  split
  · exact .still rfl (fun _ => rfl) a
  · exact (stable_hands B e.graph a a).finishSources (.still rfl (fun _ => rfl) a) fun _ =>
      wd.lt_size_of_mem_sources

/-- Recording a failure hands nothing over, and then the stage is handed in. -/
theorem hands_handIn (hp : 0 < (e.graph.stage i).holders) (err : StageError) :
    e.graph.Hands (w.handIn B e i err).graph (some i) none := by
  let failure : Failure :=
    { stage := i, name := (e.graph.stage i).name, worker := some w.id, location := some w.location
      message := err.message }
  let failed := e.mapNetwork (·.mapGraph (·.recordFailure failure))
  have recorded : e.graph.Hands failed.graph (some i) (some i) :=
    e.graph.hands_recordFailure failure (some i)
  have given : failed.graph.Hands (w.handIn B e i err).graph (some i) none := by
    refine Scheduler.hands_giveBack (n := failed.network) ?_
    change 0 < ((e.graph.recordFailure failure).stage i).holders
    rwa [Graph.stage_recordFailure]
  exact recorded.trans given

/-- A worker whose stage fails hands it in before it leaves; any other keeps it until it asks
again. -/
theorem hands_report (wd : e.graph.Wired) (hp : 0 < (e.graph.stage i).holders) (o : Outcome) :
    e.graph.Hands (w.report B e i o).1.graph (some i) (w.report B e i o).2.stage? := by
  have kept : e.graph.Hands e.graph (some i) (some i) := .still rfl (fun _ => rfl) (some i)
  cases o with
  | success => exact kept
  | comeBackLater => exact kept
  | finished => exact kept
  | failed err =>
    have given : e.graph.Hands (w.handIn B e i err).graph (some i) none := hands_handIn hp err
    exact given.trans (hands_requestStop (wd.of_bare given.bare) none)

/-- What follows a call hands nothing over. -/
theorem hands_conclude (ha : w.stage? = some i) (knobs : Knobs) (b : Backoff) (o : Outcome) :
    let r := w.conclude e i knobs b o
    e.graph.Hands r.2.1.graph (some i) (some i) ∧ r.2.2.stage? = some i := by
  have still : e.graph.Hands e.graph (some i) (some i) := .still rfl (fun _ => rfl) (some i)
  unfold conclude
  split
  · exact ⟨still, rfl⟩
  · exact ⟨still, ha⟩
  · exact ⟨still, ha⟩
  · -- that no wait was left is counted
    exact ⟨e.graph.hands_modify i (f := fun s => { s with metrics := s.metrics.recordExhaustion })
      (fun _ => rfl) (fun _ => rfl) (some i), ha⟩

/-- A call hands nothing over, unless its failure makes the worker leave. -/
theorem hands_callOnce (wd : e.graph.Wired) (hp : 0 < (e.graph.stage i).holders)
    (ha : w.stage? = some i) (knobs : Knobs) (b : Backoff) :
    e.graph.Hands (w.callOnce B e i knobs b).1.graph (some i)
      (w.callOnce B e i knobs b).2.stage? := by
  have called := e.network.hands_call B i (.start w.id w.location knobs.chunk) (some i)
  unfold callOnce
  simp only
  split
  · change e.graph.Hands _ (some i) w.stage?
    rw [ha]
    exact called
  · rename_i o _
    obtain ⟨hands, hstage⟩ := hands_conclude (w := w.back) (i := i) (e := { e with network := _ })
      ha knobs b o
    have before := called.trans hands
    split
    · rename_i e' w' hc
      rw [hc] at before hstage
      exact hstage ▸ before
    · rename_i o' e' w' hc
      rw [hc] at before
      have held := before.holders i
      rw [if_pos rfl] at held
      refine before.trans (hands_report (wd.of_bare before.bare) ?_ o')
      exact Nat.lt_of_lt_of_eq hp (Nat.add_right_cancel held).symm

/-- **A turn hands in what the worker held for what it comes to hold.** -/
theorem hands_turn (wd : e.graph.Wired) (hp : ∀ i ∈ w.stage?, 0 < (e.graph.stage i).holders) :
    e.graph.Hands (w.turn B e).1.graph w.stage? (w.turn B e).2.stage? := by
  unfold turn
  split
  · exact .still rfl (fun _ => rfl) _
  · rename_i previous ha
    have held : w.stage? = previous.map (·.1) := by
      unfold stage?
      rw [ha]
    rw [held] at hp ⊢
    split
    · exact hands_depart previous hp
    · exact hands_ask previous hp
  · rename_i i knobs b ha
    have held : w.stage? = some i := by
      unfold stage?
      rw [ha]
    rw [held]
    exact hands_callOnce wd (hp i held) held knobs b

/-- A worker that has asked and come to hold a stage was given one that is running. -/
theorem running_of_turn {previous : Option (StageId × Outcome)}
    (ha : w.activity = .request previous) (hi : (w.turn B e).2.stage? = some i) :
    ((w.turn B e).1.graph.stage i).state = .running := by
  unfold turn at hi ⊢
  rw [ha] at hi ⊢
  simp only at hi ⊢
  split at hi
  · -- whoever departs holds nothing
    rename_i hr
    cases previous <;> cases hi
  · rename_i hr
    rw [if_neg hr]
    unfold ask at hi ⊢
    simp only at hi ⊢
    split at hi
    · split at hi <;> cases hi
    · rename_i k hk
      cases hi
      exact Scheduler.running_of_assign hk

end Worker

/-! ### Crews -/

/-- An engine and all workers that have been hired for it. -/
structure Crew (W : Type) where
  engine : Engine W
  workers : List Worker := []

namespace Crew

variable {W : Type} {B : Bodies W} {c c₀ : Crew W} {w : Worker} {k : Nat}

/-- One worker takes its turn. -/
def turn (B : Bodies W) (c : Crew W) (k : Nat) : Crew W :=
  match c.workers[k]? with
  | none => c
  | some w =>
    let r := w.turn B c.engine
    ⟨r.1, c.workers.set k r.2⟩

/-- The crews that can be reached when workers are hired, take turns and are retired, and anybody
gives orders. -/
inductive Run (B : Bodies W) (c₀ : Crew W) : Crew W → Prop where
  | start : Run B c₀ c₀
  | hire {c : Crew W} (id : WorkerId) : Run B c₀ c →
    Run B c₀ { c with workers := c.workers ++ [.hire c.engine.scheduler id] }
  | turn {c : Crew W} (k : Nat) : Run B c₀ c → Run B c₀ (c.turn B k)
  | retire {c : Crew W} (k : Nat) : Run B c₀ c →
    Run B c₀ { c with workers := c.workers.modify k .retire }
  | stop {c : Crew W} : Run B c₀ c → Run B c₀ { c with engine := c.engine.requestStop B }
  | order {c : Crew W} (call : Call W) : Run B c₀ c → call.isOrder = true →
    Run B c₀ { c with engine := c.engine.mapNetwork (·.perform B call) }

/-- How many workers hold a stage. -/
def tally (workers : List Worker) (i : StageId) : Nat := workers.countP (·.stage? == some i)

theorem tally_pos {workers : List Worker} {i : StageId} (hm : w ∈ workers)
    (hi : w.stage? = some i) :
    0 < tally workers i :=
  List.countP_pos_iff.2 ⟨w, hm, beq_iff_eq.2 hi⟩

/-- The graph counts for every stage the workers that hold it, and no more than one where there
should be no more. -/
structure Tallied (c : Crew W) : Prop where
  wired : c.engine.graph.Wired
  holders : ∀ i, (c.engine.graph.stage i).holders = tally c.workers i
  exclusive : c.engine.graph.Exclusive

namespace Tallied

/-- Nothing has been handed over, and everybody holds what he held. -/
theorem still (t : c.Tallied) {e : Engine W} (h : c.engine.graph.Hands e.graph none none) :
    Tallied { c with engine := e } where
  wired := t.wired.of_bare h.bare
  holders i := (h.holders i).trans (t.holders i)
  exclusive := h.exclusive t.exclusive

theorem hire (t : c.Tallied) (id : WorkerId) :
    Tallied { c with workers := c.workers ++ [.hire c.engine.scheduler id] } where
  wired := t.wired
  holders i := by
    refine (t.holders i).trans ?_
    simp [tally, Worker.hire, Worker.stage?]
  exclusive := t.exclusive

theorem retire (t : c.Tallied) (k : Nat) :
    Tallied { c with workers := c.workers.modify k .retire } where
  wired := t.wired
  holders i := by
    refine (t.holders i).trans ?_
    have key : ∀ (l : List Worker) (k : Nat), tally (l.modify k .retire) i = tally l i := by
      intro l
      induction l with
      | nil => intro k; cases k <;> rfl
      | cons w l ih =>
        intro k
        cases k with
        | zero => rfl
        | succ k =>
          have := ih k
          simp only [tally] at this
          simp [tally, List.countP_cons, this]
    exact (key c.workers k).symm
  exclusive := t.exclusive

theorem turn (t : c.Tallied) (k : Nat) : (c.turn B k).Tallied := by
  unfold Crew.turn
  split
  · exact t
  · rename_i w hw
    obtain ⟨hk, hget⟩ := List.getElem?_eq_some_iff.1 hw
    have hm : w ∈ c.workers := hget ▸ List.getElem_mem hk
    have hands := Worker.hands_turn (B := B) t.wired fun i hi => by
      rw [t.holders]
      exact tally_pos hm hi
    refine ⟨t.wired.of_bare hands.bare, fun i => ?_, hands.exclusive t.exclusive⟩
    have hset : tally (c.workers.set k (w.turn B c.engine).2) i +
        (if w.stage? = some i then 1 else 0) =
        tally c.workers i + if (w.turn B c.engine).2.stage? = some i then 1 else 0 := by
      have hpos : w.stage? = some i → 0 < c.workers.countP (·.stage? == some i) := tally_pos hm
      unfold tally
      rw [List.countP_set hk, hget]
      simp only [beq_iff_eq]
      split
      · next hi =>
        have := hpos hi
        omega
      · omega
    have := hands.holders i
    have := t.holders i
    simp only
    omega

end Tallied

theorem Run.tallied (h : Run B c₀ c) (t : c₀.Tallied) : c.Tallied := by
  induction h with
  | start => exact t
  | hire id _ ih => exact ih.hire id
  | turn k _ ih => exact ih.turn k
  | retire k _ ih => exact ih.retire k
  | stop _ ih => exact ih.still (Worker.hands_requestStop ih.wired none)
  | @order c call _ ho ih =>
    exact ih.still (Network.hands_order (n := c.engine.network) ih.wired ho)

end Crew

/-- **Assignment is exclusive.** In every session about any graph, whose workers hand back exactly
what they hold, each worker holds one stage at most, the graph counts the holders of every stage,
there is one at most where there should be, and a worker that asks is given a running stage. The
same holds of crews; and once everybody has left a crew, for whatever reason, no stage has a
holder. -/
theorem exclusive_assignment {W : Type} (B : Bodies W) (parts : List Graph.Part) (world : W)
    (sc : Scheduler) :
    (∀ s, Session.Run B (fun _ _ => True) ⟨⟨.ofParts parts, world⟩, sc, []⟩ s →
      (s.holds.map (·.worker)).Nodup ∧
      (∀ i, (s.network.graph.stage i).holders = s.holds.countP (·.stage == i)) ∧
      (∀ i, (s.network.graph.stage i).parallel = false → s.holds.countP (·.stage == i) ≤ 1) ∧
      ∀ w i, (s.next B w).1 = some i → ((s.next B w).2.network.graph.stage i).state = .running) ∧
    ∀ c, Crew.Run B ⟨⟨⟨.ofParts parts, world⟩, sc, false⟩, []⟩ c →
      (∀ i, (c.engine.graph.stage i).holders = c.workers.countP (·.stage? == some i)) ∧
      (∀ i, (c.engine.graph.stage i).parallel = false → c.workers.countP (·.stage? == some i) ≤ 1) ∧
      (∀ w ∈ c.workers, ∀ previous i, w.activity = .request previous →
        (w.turn B c.engine).2.stage? = some i →
        ((w.turn B c.engine).1.graph.stage i).state = .running) ∧
      ((∀ w ∈ c.workers, w.isGone = true) → ∀ i, (c.engine.graph.stage i).holders = 0) := by
  have wired := Graph.wired_ofParts parts
  have fresh := Graph.fresh_ofParts parts
  refine ⟨fun s hr => ?_, fun c hr => ?_⟩
  · obtain ⟨wd, t, hx⟩ := hr.invariant (P := fun s => s.network.graph.Wired ∧ s.Tallied ∧
      s.network.graph.Exclusive)
      ⟨wired, ⟨List.nodup_nil, fresh.holders⟩, fresh.exclusive⟩ fun _ _ ⟨wd, t, hx⟩ he _ =>
        ⟨Session.wired_perform wd he, t.perform (fun _ => wd.lt_size_of_mem_sources) he,
          t.exclusive wd he hx⟩
    refine ⟨t.workers, t.holders, fun i hp => ?_, fun w i hi => Scheduler.running_of_assign hi⟩
    have := hx i hp
    rwa [t.holders] at this
  · have t : c.Tallied := hr.tallied ⟨wired, fresh.holders, fresh.exclusive⟩
    refine ⟨t.holders, fun i hp => ?_, fun w _ previous i ha hi => Worker.running_of_turn ha hi,
      fun hg i => ?_⟩
    · have := t.exclusive i hp
      rwa [t.holders] at this
    · rw [t.holders, Crew.tally, List.countP_eq_zero]
      intro w hw
      rw [Worker.stage?_of_isGone (hg w hw)]
      simp

/-- A source for one worker at a time. -/
def loneSource : List Graph.Part := [.stage "a" .source false, .source 0]

theorem activateAll_loneSource :
    (Network.activateAll ⟨.ofParts loneSource, ()⟩ .inert).2 =
      (Network.openOne ⟨.ofParts loneSource, ()⟩ .inert 0 none).2 := by
  unfold Network.activateAll
  rw [show (Network.mk (Graph.ofParts loneSource) ()).graph.sources = [0] by decide]
  simp only [Network.activateSources]
  rw [Network.activateEach_cons [] (by decide) (by decide) (by decide), List.nil_append,
    Network.activateEach_nil]

/-- The first of two workers gets the source, both are retired, and the first one calls and hands
back what it holds. -/
theorem exclusive_assignment_retired :
    let sc : Scheduler := ⟨.roundRobin, 1⟩
    let s₀ : Session Unit := ⟨⟨.ofParts loneSource, ()⟩, sc, []⟩
    let s : Session Unit := ⟨(s₀.network.openOne .inert 0 none).2, sc, []⟩
    let c₀ : Crew Unit := ⟨⟨s₀.network, sc, false⟩, []⟩
    let asked := Crew.turn .inert ⟨⟨s.network, sc, false⟩, [.hire sc 0, .hire sc 1]⟩ 0
    let retired := { asked with workers := (asked.workers.modify 0 .retire).modify 1 .retire }
    let gone := ((retired.turn .inert 0).turn .inert 0).turn .inert 1
    Session.Run .inert (fun _ _ => True) s₀ s ∧
      (s.next .inert 0).1 = some 0 ∧ ((s.next .inert 0).2.network.graph.stage 0).state = .running ∧
      Crew.Run .inert c₀ asked ∧ asked.workers.countP (·.stage? == some 0) = 1 ∧
      (asked.engine.graph.stage 0).holders = asked.workers.countP (·.stage? == some 0) ∧
      Crew.Run .inert c₀ gone ∧ (∀ w ∈ gone.workers, w.isGone = true) ∧
      (gone.engine.graph.stage 0).holders = 0 := by
  intro sc s₀ s c₀ asked retired gone
  obtain ⟨sessions, crews⟩ := exclusive_assignment .inert loneSource () sc
  have hs : Session.Run .inert (fun _ _ => True) s₀ s := by
    have run : Session.Run .inert (fun _ _ => True) s₀ (s₀.perform .inert (.order .activateAll)) :=
      .step _ .start rfl trivial
    rwa [Session.perform, Network.perform, activateAll_loneSource] at run
  have hnext : (s.next .inert 0).1 = some 0 := by decide
  have hasked : Crew.Run .inert c₀ asked := by
    have empty : Crew.Run .inert c₀ c₀ := .start
    have run := ((empty.hire 0).hire 1).order .activateAll rfl
    rw [Engine.mapNetwork, Network.perform, activateAll_loneSource] at run
    exact run.turn 0
  have hrun : Crew.Run .inert c₀ gone := ((((hasked.retire 0).retire 1).turn 0).turn 0).turn 1
  have hgone : ∀ w ∈ gone.workers, w.isGone = true := by decide
  exact ⟨hs, hnext, (sessions s hs).2.2.2 0 0 hnext, hasked, by decide,
    (crews asked hasked).1 0, hrun, hgone, (crews gone hrun).2.2.2 hgone 0⟩

end Pipework
