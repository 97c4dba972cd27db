import Pipework.Controller
import Pipework.Proofs.Session.Aftermath
import Pipework.Proofs.Session.Exclusive
import Pipework.Proofs.Session.Team

/-!
# The life of a controller

A controller is asked to do one thing after the other, while its workers take their turns. A `Watch`
keeps books on it: what is being done, what was asked and answered, and on which engines a stop was
requested. Whatever happens, the phases follow each other in their order, a refusal changes nothing,
the workers of the pool are numbered without gaps, and so are those who are about to leave after
them, so that no number is in use twice, and only the first request to stop finishes the sources
(`controller_life`).
-/

namespace Pipework

variable {W : Type} {B : Bodies W}

/-! ### Requests to stop -/

namespace Worker

/-- The engine that a worker asks for a stop in its next turn. -/
def stopAt? (w : Worker) (B : Bodies W) (e : Engine W) : Option (Engine W) :=
  match w.activity with
  | .call i knobs b =>
    let r := e.network.call B i (.start w.id w.location knobs.chunk)
    match r.1 with
    | none => none
    | some o =>
      match w.back.conclude { e with network := r.2.2 } i knobs b o with
      | (some (.failed err), e, w) => some (w.handIn B e i err)
      | _ => none
  | _ => none

/-- What a worker decides after a call changes the network at most. -/
theorem engine_conclude (w : Worker) (e : Engine W) (i : StageId) (knobs : Knobs) (b : Backoff)
    (o : Outcome) :
    ∃ n, (w.conclude e i knobs b o).2.1 = { e with network := n } := by
  unfold conclude
  split
  · exact ⟨e.network, rfl⟩
  · exact ⟨e.network, rfl⟩
  · exact ⟨e.network, rfl⟩
  · exact ⟨_, rfl⟩

/-- A turn changes the network, and then it may ask for a stop. -/
theorem engine_turn (w : Worker) (B : Bodies W) (e : Engine W) :
    ∃ n, match w.stopAt? B e with
      | none => (w.turn B e).1 = { e with network := n }
      | some e₁ => e₁ = { e with network := n } ∧ (w.turn B e).1 = e₁.requestStop B := by
  cases ha : w.activity with
  | gone =>
    refine ⟨e.network, ?_⟩
    simp only [stopAt?, turn, ha]
  | request previous =>
    simp only [stopAt?, turn, ha]
    split
    · cases previous with
      | none => exact ⟨e.network, rfl⟩
      | some p => exact ⟨_, rfl⟩
    · exact ⟨_, (w.ask_cases B e previous).1⟩
  | call i knobs b =>
    simp only [stopAt?, turn, ha, callOnce]
    cases (e.network.call B i (.start w.id w.location knobs.chunk)).1 with
    | none => exact ⟨_, rfl⟩
    | some o =>
      obtain ⟨n, hn⟩ := w.back.engine_conclude
        { e with network := (e.network.call B i (.start w.id w.location knobs.chunk)).2.2 }
        i knobs b o
      simp only
      generalize w.back.conclude { e with network := _ } i knobs b o = r at hn ⊢
      obtain ⟨_ | o', e', w'⟩ := r
      · exact ⟨n, hn⟩
      · obtain rfl : e' = { e with network := n } := hn
        cases o' with
        | failed err => exact ⟨_, rfl, rfl⟩
        | _ => exact ⟨n, rfl⟩

/-! ### Failures -/

variable {w : Worker} {e : Engine W}

/-- Handing in a stage that has failed leaves a failure. -/
theorem failure_handIn (w : Worker) (B : Bodies W) (e : Engine W) (i : StageId) (err : StageError) :
    ∃ f, (w.handIn B e i err).graph.failure = some f := by
  unfold handIn
  extract_lets failure recorded
  have hrecorded : recorded.graph.failure = e.graph.failure.or (some failure) :=
    congrArg Graph.failure (e.graph.recordFailure_eq failure)
  obtain ⟨f, hf⟩ : ∃ f, recorded.graph.failure = some f := by
    rw [hrecorded]
    cases e.graph.failure <;> exact ⟨_, rfl⟩
  exact ⟨f, (Network.aloof_failure B f).giveBack (n := recorded.network) hf⟩

/-- After a failure a worker that holds nothing leaves, and the failure stays. -/
theorem leaves_of_failure (ha : w.activity = .request none) {f : Failure}
    (hf : e.graph.failure = some f) :
    (w.turn B e).2.isGone = true ∧ (w.turn B e).1.graph.failure = some f := by
  have kept : (e.network.mapGraph (·.clearStreak w.id)).graph.failure = some f := hf
  have asked : e.scheduler.assign B e.network w.id none none =
      (none, e.network.mapGraph (·.clearStreak w.id)) := by
    simp only [Scheduler.assign, Scheduler.handOut, kept, Option.isSome_some, if_true]
  unfold turn
  simp only [ha]
  split
  · exact ⟨rfl, hf⟩
  · have free : Engine.mayLeave { e with network := e.network.mapGraph (·.clearStreak w.id) } =
        true := by
      simp only [Engine.mayLeave, Engine.graph, kept, Option.isSome_some, Bool.or_true,
        Bool.true_or]
    simp only [ask, Option.map_none, asked, free, if_true]
    exact ⟨rfl, kept⟩

end Worker

/-- A request to stop leaves a failure as it is. -/
theorem Engine.failure_requestStop {e : Engine W} (wd : e.graph.Wired) {f : Failure}
    (hf : e.graph.failure = some f) :
    (e.requestStop B).graph.failure = some f := by
  unfold requestStop
  split
  · exact hf
  · exact (Network.aloof_failure B f).stable.finishSources hf fun _ => wd.lt_size_of_mem_sources

/-! ### Turns and calls -/

/-- What a controller can be asked to do. -/
inductive Order where
  | run (n : Nat)
  | start
  | scale (n : Nat)
  | requestStop
  | pauseStage (i : StageId)
  | activateStage (i : StageId)
  | waitUntilStopped
  deriving DecidableEq

/-- Where a worker is: in the pool, or among those who leave. -/
inductive Side where
  | pool
  | leaving

namespace Controller

/-- The workers on one side. -/
def those (c : Controller W) : Side → List Worker
  | .pool => c.workers
  | .leaving => c.leaving

/-- Replaces the workers on one side. -/
def withThose (c : Controller W) (ws : List Worker) : Side → Controller W
  | .pool => { c with workers := ws }
  | .leaving => { c with leaving := ws }

/-- One worker takes its turn. -/
def turnOf (c : Controller W) (B : Bodies W) (sd : Side) (k : Nat) : Controller W :=
  match (c.those sd)[k]? with
  | none => c
  | some w =>
    let r := w.turn B c.engine
    { c with engine := r.1 }.withThose ((c.those sd).set k r.2) sd

/-- The engine that a worker asks for a stop in its next turn. -/
def stopOf? (c : Controller W) (B : Bodies W) (sd : Side) (k : Nat) : Option (Engine W) :=
  (c.those sd)[k]?.bind (·.stopAt? B c.engine)

/-- The answer to an order, and what is done before those who leave are waited for. -/
def begin (c : Controller W) (B : Bodies W) : Order → Except ControlError Unit × Controller W
  | .run n => c.run B n
  | .start => c.start B
  | .scale n => c.scale n
  | .requestStop => (.ok (), c.requestStop B)
  | .pauseStage i => c.pauseStage B i
  | .activateStage i => c.activateStage B i
  | .waitUntilStopped => (.ok (), c.dismiss)

/-- The engine that an order asks for a stop. -/
def stopBy? (c : Controller W) : Order → Option (Engine W)
  | .requestStop => some c.engine
  | _ => none

/-- What is done once those who leave are gone. -/
def finish (c : Controller W) : Order → Controller W
  | .waitUntilStopped =>
    { c with leaving := [], phase := if c.phase = .beforeRun then .beforeRun else .afterRun }
  | _ => { c with leaving := [] }

end Controller

/-- A controller, the order that it is carrying out, all orders with the answers to them, and the
engines on which a stop was requested. -/
structure Watch (W : Type) where
  controller : Controller W
  pending : Option Order := none
  orders : List (Order × Except ControlError Unit) := []
  asked : List (Engine W) := []

namespace Watch

/-- An order is given, once the one before has been carried out; a worker takes its turn; or those
who leave are gone. -/
inductive Step (B : Bodies W) : Watch W → Watch W → Prop where
  | begins {x : Watch W} (o : Order) (idle : x.pending = none) :
    Step B x
      { controller := (x.controller.begin B o).2
        pending := some o
        orders := x.orders ++ [(o, (x.controller.begin B o).1)]
        asked := x.asked ++ (x.controller.stopBy? o).toList }
  | turn {x : Watch W} (sd : Side) (k : Nat) :
    Step B x { x with
      controller := x.controller.turnOf B sd k,
      asked := x.asked ++ (x.controller.stopOf? B sd k).toList }
  | ends {x : Watch W} {o : Order} (pending : x.pending = some o)
    (cleared : x.controller.cleared = true) :
    Step B x { x with controller := x.controller.finish o, pending := none }

/-- What can be reached from a controller. -/
inductive Run (B : Bodies W) (c : Controller W) : Watch W → Prop where
  | start : Run B c { controller := c }
  | step {x y : Watch W} : Run B c x → Step B x y → Run B c y

end Watch

/-- How many workers there should be in the pool after an order. -/
def Order.workers (config : Config) (m : Nat) : Order × Except ControlError Unit → Nat
  | (.run n, .ok _) => n
  | (.start, .ok _) => config.workers
  | (.scale n, .ok _) => n
  | (.waitUntilStopped, _) => 0
  | _ => m

/-- How many workers there should be in the pool after some orders. -/
def poolSize (config : Config) (orders : List (Order × Except ControlError Unit)) : Nat :=
  orders.foldl (Order.workers config) 0

/-! ### The workers -/

namespace Controller

/-- There are so many workers in the pool, numbered by their places, with those who leave numbered
after them, and none but during a run. -/
structure Staffed (c : Controller W) (m : Nat) : Prop where
  ids : (c.workers ++ c.leaving).map (·.id) = List.range (c.workers.length + c.leaving.length)
  length : c.workers.length = m
  idle : c.phase ≠ .duringRun → c.workers = []

variable {c : Controller W} {m n : Nat}

theorem map_id_set {l : List Worker} {k : Nat} {w w' : Worker} (hw : l[k]? = some w)
    (hid : w'.id = w.id) :
    (l.set k w').map (·.id) = l.map (·.id) := by
  obtain ⟨hk, rfl⟩ := List.getElem?_eq_some_iff.1 hw
  rw [List.map_set, hid]
  refine List.ext_getElem (by simp) fun j h₁ h₂ => ?_
  rw [List.getElem_set]
  split
  · next hkj => simp [hkj]
  · rfl

namespace Staffed

variable (st : c.Staffed m)
include st

/-- What is done to the engine does not concern the workers. -/
theorem engine (e : Engine W) : Staffed { c with engine := e } m := ⟨st.ids, st.length, st.idle⟩

theorem turnOf (B : Bodies W) (sd : Side) (k : Nat) : (c.turnOf B sd k).Staffed m := by
  unfold Controller.turnOf
  split
  · exact st
  · rename_i w hw
    have hid : (w.turn B c.engine).2.id = w.id := congrArg Prod.fst (w.badge_turn B c.engine)
    have ids := st.ids
    have same := map_id_set hw hid
    cases sd with
    | pool =>
      refine ⟨?_, (List.length_set ..).trans st.length, fun hp => ?_⟩
      · simp only [withThose, those, List.map_append, List.length_set] at ids same ⊢
        rw [same, ids]
      · simp only [withThose, those, st.idle hp, List.set_nil]
    | leaving =>
      refine ⟨?_, st.length, st.idle⟩
      simp only [withThose, those, List.map_append, List.length_set] at ids same ⊢
      rw [same, ids]

theorem ids_pool : c.workers.map (·.id) = List.range c.workers.length := by
  have ids := congrArg (List.take c.workers.length) st.ids
  have hlength : (c.workers.map (·.id)).length = c.workers.length := List.length_map _
  rwa [List.map_append, List.take_left' hlength, List.take_range,
    Nat.min_eq_left (Nat.le_add_right ..)] at ids

/-- Once those who leave are gone only the pool is left. -/
theorem finish (o : Order) (hp : o = .waitUntilStopped → c.workers = []) :
    (c.finish o).Staffed m := by
  have ids : (c.workers ++ ([] : List Worker)).map (·.id) = List.range (c.workers.length + 0) := by
    rw [List.append_nil]
    exact st.ids_pool
  cases o with
  | waitUntilStopped => exact ⟨ids, st.length, fun _ => hp rfl⟩
  | _ => exact ⟨ids, st.length, st.idle⟩

/-- Nobody is left in the pool. -/
theorem dismiss (hl : c.leaving = []) : c.dismiss.Staffed 0 ∧ c.dismiss.workers = [] := by
  unfold Controller.dismiss
  split
  · rename_i hp
    have hw : c.workers = [] := st.idle (by simp [hp])
    exact ⟨⟨st.ids, by rw [hw]; rfl, st.idle⟩, hw⟩
  · have ids := st.ids
    rw [hl, List.append_nil] at ids
    refine ⟨⟨?_, rfl, fun _ => rfl⟩, rfl⟩
    simp only [hl, List.nil_append, List.length_nil, Nat.zero_add]
    exact ids

/-- Those who are hired are numbered after the others. -/
theorem spawnUpTo (hl : c.leaving = []) (hn : c.workers.length ≤ n) (hp : c.phase = .duringRun) :
    (c.spawnUpTo n).Staffed n := by
  have ids := st.ids_pool
  refine ⟨?_, ?_, fun h => absurd hp h⟩
  · simp only [Controller.spawnUpTo, hl, List.append_nil, List.map_append, ids, List.map_map,
      List.length_append, List.length_map, List.length_range, List.length_nil, Nat.add_zero]
    rw [List.range_add]
    rfl
  · simp only [Controller.spawnUpTo, List.length_append, List.length_map, List.length_range]
    omega

theorem run (hl : c.leaving = []) (B : Bodies W) (n : Nat) :
    (c.run B n).2.Staffed (Order.workers c.config m (.run n, (c.run B n).1)) := by
  unfold Controller.run
  split
  · exact st
  · rename_i hp
    have hw : c.workers = [] := by
      refine st.idle ?_
      rw [not_not.1 hp]
      decide
    split
    · exact st
    · simp only
      split
      · exact ⟨st.ids, st.length, fun _ => hw⟩
      · refine spawnUpTo (m := m) ⟨st.ids, st.length, fun h => absurd rfl h⟩ hl ?_ rfl
        simp only [setNetwork, hw, List.length_nil]
        exact Nat.zero_le n

theorem scale (hl : c.leaving = []) (n : Nat) :
    (c.scale n).2.Staffed (Order.workers c.config m (.scale n, (c.scale n).1)) := by
  unfold Controller.scale
  split
  · exact st
  · rename_i hp
    split
    · rename_i hn
      exact st.spawnUpTo hl hn (not_not.1 hp)
    · rename_i hn
      refine ⟨?_, ?_, fun h => absurd (not_not.1 hp) h⟩
      · have retired : ∀ l : List Worker, (l.map Worker.retire).map (·.id) = l.map (·.id) := by
          intro l
          rw [List.map_map]
          rfl
        simp only [hl, List.nil_append, List.map_append, retired]
        rw [← List.map_append, List.take_append_drop, st.ids_pool]
        simp only [List.length_take, List.length_map, List.length_drop]
        congr 1
        omega
      · rw [List.length_take]
        exact Nat.min_eq_left (Nat.le_of_not_le hn)

end Staffed

/-- What an order does to the workers before those who leave are waited for. -/
theorem Staffed.begin (st : c.Staffed m) (hl : c.leaving = []) (B : Bodies W) (o : Order) :
    (c.begin B o).2.Staffed (Order.workers c.config m (o, (c.begin B o).1)) := by
  cases o with
  | run n => exact st.run hl B n
  | start =>
    -- to start is to run with as many workers as are configured
    have staffed := st.run hl B c.config.workers
    change (c.run B c.config.workers).2.Staffed
      (Order.workers c.config m (.start, (c.run B c.config.workers).1))
    cases hr : (c.run B c.config.workers).1 <;> (rw [hr] at staffed; exact staffed)
  | scale n => exact st.scale hl n
  | requestStop => exact st.engine _
  | pauseStage i => exact st.engine _
  | activateStage i => exact st.engine _
  | waitUntilStopped => exact (st.dismiss hl).1

end Controller

/-! ### Phases and refusals -/

/-- How a phase can be followed by another one. -/
inductive Phase.Leads : Phase → Phase → Prop where
  | starts : Leads .beforeRun .duringRun
  | fails : Leads .beforeRun .afterRun
  | ends : Leads .duringRun .afterRun

/-- Whether an order is refused for what the controller is, not for what the network answers. -/
def ControlError.refuses : ControlError → Bool
  | .alreadyRunning => true
  | .notRunning => true
  | .invalidConfig _ => true
  | _ => false

namespace Controller

variable {c : Controller W} {o : Order} {err : ControlError}

theorem phase_turnOf (c : Controller W) (B : Bodies W) (sd : Side) (k : Nat) :
    (c.turnOf B sd k).phase = c.phase := by
  unfold turnOf
  split
  · rfl
  · cases sd <;> rfl

theorem phase_run (c : Controller W) (B : Bodies W) (n : Nat) :
    (c.run B n).2.phase = c.phase ∨ c.phase.Leads (c.run B n).2.phase := by
  unfold run
  split
  · exact .inl rfl
  · rename_i hp
    rw [not_not.1 hp]
    split
    · exact .inl (not_not.1 hp)
    · simp only
      split
      · exact .inr .fails
      · exact .inr .starts

theorem phase_begin (c : Controller W) (B : Bodies W) (o : Order) :
    (c.begin B o).2.phase = c.phase ∨ c.phase.Leads (c.begin B o).2.phase := by
  cases o with
  | run n => exact c.phase_run B n
  | start => exact c.phase_run B c.config.workers
  | scale n =>
    refine .inl ?_
    simp only [begin, scale]
    split
    · rfl
    · split <;> rfl
  | waitUntilStopped =>
    refine .inl ?_
    simp only [begin, dismiss]
    split <;> rfl
  | _ => exact .inl rfl

theorem phase_finish (c : Controller W) (o : Order) :
    (c.finish o).phase = c.phase ∨ c.phase.Leads (c.finish o).phase := by
  cases o with
  | waitUntilStopped =>
    simp only [finish]
    cases c.phase with
    | beforeRun => exact .inl rfl
    | duringRun => exact .inr .ends
    | afterRun => exact .inl rfl
  | _ => exact .inl rfl

theorem run_of_refuses {n : Nat} (h : (c.run B n).1 = .error err) (he : err.refuses = true) :
    (c.run B n).2 = c := by
  unfold run at h ⊢
  split
  · rfl
  · rename_i hp
    rw [if_neg hp] at h
    split
    · rfl
    · rename_i hn
      rw [if_neg hn] at h
      simp only at h
      split at h
      · cases h
        cases he
      · cases h

/-- An order that is refused changes nothing. -/
theorem begin_of_refuses (h : (c.begin B o).1 = .error err) (he : err.refuses = true) :
    (c.begin B o).2 = c := by
  cases o with
  | run n => exact run_of_refuses h he
  | start => exact run_of_refuses h he
  | scale n =>
    simp only [begin, scale] at h ⊢
    split
    · rfl
    · rename_i hp
      rw [if_neg hp] at h
      split at h <;> cases h
  | requestStop => cases h
  | pauseStage i =>
    simp only [begin, pauseStage] at h
    cases hr : (c.engine.network.pause B i).1 with
    | ok _ =>
      rw [hr] at h
      cases h
    | error e =>
      rw [hr] at h
      cases h
      cases he
  | activateStage i =>
    simp only [begin, activateStage] at h
    cases hr : (c.engine.network.activate B i).1 with
    | ok _ =>
      rw [hr] at h
      cases h
    | error e =>
      rw [hr] at h
      cases h
      cases he
  | waitUntilStopped => cases h

end Controller

/-! ### Only the first request counts -/

theorem Engine.stopRequested_requestStop (e : Engine W) (B : Bodies W) :
    (e.requestStop B).stopRequested = true := by
  unfold requestStop
  split
  · assumption
  · rfl

/-- The first of the engines that were asked for a stop had not been asked before, and all others
had. -/
def AskedOnce : List (Engine W) → Bool → Prop
  | [], stopped => stopped = false
  | e :: es, stopped =>
    e.stopRequested = false ∧ (∀ e' ∈ es, e'.stopRequested = true) ∧ stopped = true

theorem AskedOnce.ask {asked : List (Engine W)} {e : Engine W} (h : AskedOnce asked e.stopRequested)
    (B : Bodies W) :
    AskedOnce (asked ++ [e]) (e.requestStop B).stopRequested := by
  rw [e.stopRequested_requestStop B]
  cases asked with
  | nil => exact ⟨h, fun _ hm => absurd hm List.not_mem_nil, rfl⟩
  | cons e₀ es =>
    obtain ⟨first, others, again⟩ := h
    refine ⟨first, fun e' hm => ?_, rfl⟩
    rcases List.mem_append.1 hm with hm | hm
    · exact others e' hm
    · rw [List.mem_singleton.1 hm]
      exact again

namespace Controller

variable {c : Controller W} {asked : List (Engine W)}

/-- What orders leave alone, apart from that to stop. -/
def core (c : Controller W) : Config × Bool := (c.config, c.engine.stopRequested)

theorem core_run (c : Controller W) (B : Bodies W) (n : Nat) : (c.run B n).2.core = c.core := by
  unfold run
  split
  · rfl
  · split
    · rfl
    · simp only
      split <;> rfl

theorem core_begin (c : Controller W) (B : Bodies W) {o : Order} (ho : o ≠ .requestStop) :
    (c.begin B o).2.core = c.core := by
  cases o with
  | run n => exact c.core_run B n
  | start => exact c.core_run B c.config.workers
  | scale n =>
    simp only [begin, scale]
    split
    · rfl
    · split <;> rfl
  | requestStop => exact absurd rfl ho
  | pauseStage i => rfl
  | activateStage i => rfl
  | waitUntilStopped =>
    simp only [begin, dismiss]
    split <;> rfl

theorem config_begin (c : Controller W) (B : Bodies W) (o : Order) :
    (c.begin B o).2.config = c.config := by
  by_cases ho : o = .requestStop
  · rw [ho]
    rfl
  · exact congrArg Prod.fst (c.core_begin B ho)

theorem askedOnce_begin (h : AskedOnce asked c.engine.stopRequested) (B : Bodies W) (o : Order) :
    AskedOnce (asked ++ (c.stopBy? o).toList) (c.begin B o).2.engine.stopRequested := by
  by_cases ho : o = .requestStop
  · rw [ho]
    exact h.ask B
  · have nothing : c.stopBy? o = none := by cases o <;> first | rfl | exact absurd rfl ho
    have same : (c.begin B o).2.engine.stopRequested = c.engine.stopRequested :=
      congrArg Prod.snd (c.core_begin B ho)
    rw [nothing, Option.toList_none, List.append_nil, same]
    exact h

theorem engine_withThose (c : Controller W) (ws : List Worker) (sd : Side) :
    (c.withThose ws sd).engine = c.engine := by
  cases sd <;> rfl

theorem askedOnce_turnOf (h : AskedOnce asked c.engine.stopRequested) (B : Bodies W) (sd : Side)
    (k : Nat) :
    AskedOnce (asked ++ (c.stopOf? B sd k).toList) (c.turnOf B sd k).engine.stopRequested := by
  unfold stopOf? turnOf
  cases (c.those sd)[k]? with
  | none =>
    rw [Option.bind_none, Option.toList_none, List.append_nil]
    exact h
  | some w =>
    simp only [Option.bind_some, engine_withThose]
    obtain ⟨n, hn⟩ := w.engine_turn B c.engine
    cases hs : w.stopAt? B c.engine with
    | none =>
      rw [hs] at hn
      rw [Option.toList_none, List.append_nil, hn]
      exact h
    | some e₁ =>
      rw [hs] at hn
      obtain ⟨rfl, hturn⟩ := hn
      rw [hturn]
      exact AskedOnce.ask (e := { c.engine with network := n }) h B

theorem config_turnOf (c : Controller W) (B : Bodies W) (sd : Side) (k : Nat) :
    (c.turnOf B sd k).config = c.config := by
  unfold turnOf
  split
  · rfl
  · cases sd <;> rfl

/-- Nobody comes in by a turn. -/
theorem those_turnOf_of_nil (sd : Side) (h : c.those sd = []) (B : Bodies W) (sd' : Side)
    (k : Nat) :
    (c.turnOf B sd' k).those sd = [] := by
  unfold turnOf
  split
  · exact h
  · cases sd <;> cases sd' <;> simp_all [those, withThose]

/-- The turn of the first worker that is still to come. -/
theorem turnOf_length (c : Controller W) (B : Bodies W) (sd : Side) (before ws : List Worker)
    (w : Worker) (e : Engine W) :
    ({ c with engine := e }.withThose (before ++ w :: ws) sd).turnOf B sd before.length =
      { c with engine := (w.turn B e).1 }.withThose ((before ++ [(w.turn B e).2]) ++ ws) sd := by
  cases sd <;> simp [turnOf, those, withThose]

theorem phase_await (c : Controller W) (B : Bodies W) (cond : Controller W → Bool) (fuel : Nat) :
    (c.await B cond fuel).phase = c.phase := by
  induction fuel generalizing c with
  | zero => rfl
  | succ fuel ih =>
    unfold await
    split
    · rfl
    · exact ih (c.advance B)

end Controller

/-! ### Whatever is asked -/

namespace Watch

/-- What holds of a controller throughout. -/
structure Kept (config : Config) (x : Watch W) : Prop where
  settings : x.controller.config = config
  staffed : x.controller.Staffed (poolSize config x.orders)
  present : x.pending = none → x.controller.leaving = []
  waits : x.pending = some .waitUntilStopped → x.controller.workers = []
  once : AskedOnce x.asked x.controller.engine.stopRequested

variable {config : Config} {x y : Watch W} {c : Controller W}

/-- **One step.** An order, a turn and a departure keep all this. -/
theorem Kept.step (kp : x.Kept config) (h : Step B x y) : y.Kept config := by
  cases h with
  | begins o idle =>
    have staffed := kp.staffed.begin (kp.present idle) B o
    rw [kp.settings] at staffed
    refine ⟨(x.controller.config_begin B o).trans kp.settings, ?_, nofun, fun hw => ?_,
      Controller.askedOnce_begin kp.once B o⟩
    · rw [poolSize, List.foldl_append]
      exact staffed
    · obtain rfl : o = .waitUntilStopped := Option.some.inj hw
      exact (kp.staffed.dismiss (kp.present idle)).2
  | turn sd k =>
    refine ⟨(x.controller.config_turnOf B sd k).trans kp.settings, kp.staffed.turnOf B sd k,
      fun hi => ?_, fun hw => ?_, Controller.askedOnce_turnOf kp.once B sd k⟩
    · exact Controller.those_turnOf_of_nil .leaving (kp.present hi) B sd k
    · exact Controller.those_turnOf_of_nil .pool (kp.waits hw) B sd k
  | @ends o pending cleared =>
    have staffed := kp.staffed.finish o fun ho => kp.waits (ho ▸ pending)
    refine ⟨?_, staffed, fun _ => ?_, nofun, ?_⟩
    · exact (by cases o <;> rfl : (x.controller.finish o).config = x.controller.config).trans
        kp.settings
    · cases o <;> rfl
    · exact (by cases o <;> rfl : (x.controller.finish o).engine = x.controller.engine) ▸ kp.once

/-- **A run.** So it holds throughout. -/
theorem Run.kept {n : Network W} (hc : Controller.create n config = .ok c) (hr : Run B c x) :
    x.Kept config := by
  induction hr with
  | start =>
    unfold Controller.create at hc
    split at hc
    · cases hc
    · split at hc <;> cases hc
      exact ⟨rfl, ⟨rfl, rfl, fun _ => rfl⟩, fun _ => rfl, nofun, rfl⟩
  | step _ h ih => exact ih.step h

/-- An order for which nobody has to leave is carried out at once. -/
theorem Run.carriesOut (hr : Run B c x) (hp : x.pending = none) (o : Order)
    (gone : (x.controller.begin B o).2.cleared = true) :
    Run B c
      { controller := (x.controller.begin B o).2.finish o
        orders := x.orders ++ [(o, (x.controller.begin B o).1)]
        asked := x.asked ++ (x.controller.stopBy? o).toList } :=
  (hr.step (.begins o hp)).step (.ends rfl gone)

/-! ### Rounds of turns -/

/-- The workers on one side take their turns, one after the other. -/
theorem Run.turns (d : Controller W) (sd : Side) (before ws : List Worker) (e : Engine W)
    {pending : Option Order} {orders : List (Order × Except ControlError Unit)}
    {asked : List (Engine W)}
    (hr : Run B c ⟨{ d with engine := e }.withThose (before ++ ws) sd, pending, orders, asked⟩) :
    ∃ asked', Run B c
      ⟨{ d with engine := (Controller.turns B ws e).1 }.withThose
        (before ++ (Controller.turns B ws e).2) sd, pending, orders, asked'⟩ := by
  induction ws generalizing before e asked with
  | nil => exact ⟨asked, hr⟩
  | cons w ws ih =>
    have turned := hr.step (.turn sd before.length)
    rw [Controller.turnOf_length] at turned
    obtain ⟨asked', done⟩ := ih _ _ turned
    rw [List.append_assoc] at done
    exact ⟨asked', done⟩

/-- All workers take their turns, those of the pool first. -/
theorem Run.advance (hr : Run B c x) :
    ∃ asked, Run B c { x with controller := x.controller.advance B, asked } := by
  obtain ⟨asked, pool⟩ :=
    Run.turns x.controller .pool [] x.controller.workers x.controller.engine hr
  exact Run.turns { x.controller with workers := _ } .leaving [] x.controller.leaving _ pool

theorem Run.await (hr : Run B c x) (cond : Controller W → Bool) (fuel : Nat) :
    ∃ asked, Run B c { x with controller := x.controller.await B cond fuel, asked } := by
  induction fuel generalizing x with
  | zero => exact ⟨x.asked, hr⟩
  | succ fuel ih =>
    unfold Controller.await
    split
    · exact ⟨x.asked, hr⟩
    · obtain ⟨asked, advanced⟩ := hr.advance
      exact ih advanced

/-- To wait until the workers have stopped is to dismiss them and to let them take their turns until
they are gone. -/
theorem Run.waitUntilStopped (hr : Run B c x) (hp : x.pending = none)
    (hl : x.controller.leaving = []) (fuel : Nat)
    (gone : (x.controller.dismiss.await B Controller.cleared fuel).cleared = true) :
    ∃ asked, Run B c
      { controller := x.controller.waitUntilStopped B fuel,
        orders := x.orders ++ [(.waitUntilStopped, .ok ())], asked } := by
  obtain ⟨asked, waited⟩ := (hr.step (.begins .waitUntilStopped hp)).await Controller.cleared fuel
  have ended := waited.step (.ends rfl gone)
  have same : (x.controller.dismiss.await B Controller.cleared fuel).finish .waitUntilStopped =
      x.controller.waitUntilStopped B fuel := by
    unfold Controller.waitUntilStopped
    split
    · rename_i before
      have dismissed : x.controller.dismiss = x.controller := if_pos before
      have awaited : x.controller.await B Controller.cleared fuel = x.controller := by
        cases fuel with
        | zero => rfl
        | succ fuel => exact if_pos (by simp [Controller.cleared, hl])
      rw [dismissed, awaited, Controller.finish, if_pos before, ← hl, ← before]
    · rename_i before
      have dismissed : x.controller.dismiss.phase = x.controller.phase := by
        unfold Controller.dismiss
        rw [if_neg before]
      rw [Controller.finish, Controller.phase_await, dismissed, if_neg before]
      rfl
  exact ⟨asked, same ▸ ended⟩

end Watch

/-- **The life of a controller.** Whatever a controller is asked to do, one thing after the other,
and in whatever order its workers take their turns: the phase is the same after each step or follows
in the order of phases. An order that is refused, because a run has been started before, because
there is none, or because there should be no workers, changes nothing. The workers of the pool are
numbered from 0 on, and there are as many as the last run or scaling that was accepted asked for,
and none if they have been waited for since; so there are none but during a run. No number is in use
twice, those who leave included. And only the first request to stop finishes the sources, whether an
order or a worker makes it. -/
theorem controller_life (B : Bodies W) (n : Network W) (config : Config) (c : Controller W)
    (hc : Controller.create n config = .ok c) (x : Watch W) (hr : x.Run B c) :
    (∀ y, x.Step B y → y.controller.phase = x.controller.phase ∨
      x.controller.phase.Leads y.controller.phase) ∧
      (∀ o err, x.pending = none → (x.controller.begin B o).1 = .error err → err.refuses = true →
        (x.controller.begin B o).2 = x.controller ∧ x.controller.finish o = x.controller) ∧
      x.controller.workers.map (·.id) = List.range (poolSize config x.orders) ∧
      (x.controller.phase ≠ .duringRun → x.controller.workers = []) ∧
      ((x.controller.workers ++ x.controller.leaving).map (·.id)).Nodup ∧
      ∀ e es, x.asked = e :: es →
        e.requestStop B =
          { e with network := (e.network.finishSources B).2, stopRequested := true } ∧
          ∀ e' ∈ es, e'.requestStop B = e' := by
  have kp := hr.kept hc
  refine ⟨fun y hy => ?_, fun o err hp ho he => ?_, ?_, kp.staffed.idle, ?_, fun e es he => ?_⟩
  · cases hy with
    | begins o _ => exact x.controller.phase_begin B o
    | turn sd k => exact .inl (x.controller.phase_turnOf B sd k)
    | ends _ _ => exact x.controller.phase_finish _
  · refine ⟨Controller.begin_of_refuses ho he, ?_⟩
    have present : { x.controller with leaving := [] } = x.controller := by rw [← kp.present hp]
    cases o with
    | waitUntilStopped => cases ho
    | _ => exact present
  · rw [← kp.staffed.length]
    exact kp.staffed.ids_pool
  · rw [kp.staffed.ids]
    exact List.nodup_range
  · have once := kp.once
    rw [he] at once
    obtain ⟨first, others, -⟩ := once
    refine ⟨?_, fun e' hm => ?_⟩
    · unfold Engine.requestStop
      rw [if_neg (by simp [first])]
    · unfold Engine.requestStop
      rw [if_pos (others e' hm)]

/-- Bodies that fail whenever they are called. -/
def Bodies.faulty : Bodies Unit :=
  { Bodies.inert with call := fun _ v w => (.returned (.failed ⟨"broken"⟩), v, w) }

namespace LoneSource

def config : Config := { workers := 2 }

def created : Controller Unit :=
  { engine :=
      { network := ⟨(Graph.ofParts loneSource).applyDefaults config, ()⟩
        scheduler := .withLocations config.fairness config.locations }
    config }

/-- Running with two workers. -/
def started : Controller Unit :=
  { created.setNetwork (created.engine.network.openOne .faulty 0 none).2 with
    phase := .duringRun }.spawnUpTo 2

/-- The first worker has got the source. -/
def busy : Controller Unit := started.turnOf .faulty .pool 0

/-- The second worker is to leave. -/
def shrunk : Controller Unit := (busy.scale 1).2

/-- It has left, and there are two new ones. -/
def grown : Controller Unit := (((shrunk.turnOf .faulty .leaving 0).finish (.scale 1)).scale 3).2

/-- The first worker has called the source. -/
def broken : Controller Unit := grown.turnOf .faulty .pool 0

/-- All are to leave. -/
def dismissed : Controller Unit := (broken.requestStop .faulty).dismiss

/-- And have left. -/
def gone : Controller Unit := (dismissed.turnOf .faulty .leaving 1).turnOf .faulty .leaving 2

theorem run_created : created.run .faulty 2 = (.ok (), started) := by
  have opened : created.engine.network.activateEach .faulty none [0] =
      (.ok (), (created.engine.network.openOne .faulty 0 none).2) := by
    have nothing : ∀ n : Network Unit, n.activateEach .faulty none [] = (.ok (), n) := fun n => by
      rw [Network.activateEach]
    rw [Network.activateEach, dif_pos (by decide),
      show (created.engine.network.graph.stage 0).listeners.reverse ++ [] = [] by decide]
    simp only [nothing]
    rfl
  have activated : created.engine.network.activateAll .faulty =
      (.ok (), (created.engine.network.openOne .faulty 0 none).2) := by
    unfold Network.activateAll
    rw [show created.engine.network.graph.sources = [0] by decide]
    simp only [Network.activateSources]
    rw [opened]
    rfl
  unfold Controller.run
  rw [if_neg (by decide), if_neg (by decide), activated]
  rfl

/-- The engine on which the worker of the source asks for a stop. -/
def failed : Engine Unit := (grown.stopOf? .faulty .pool 0).getD grown.engine

theorem failure_dismissed : ∃ f, dismissed.engine.graph.failure = some f := by
  let w : Worker := (grown.workers.head (by decide)).back
  let called : Engine Unit :=
    { grown.engine with network := (grown.engine.network.call .faulty 0 (.start 0 0 1)).2.2 }
  have same : failed = w.handIn .faulty called 0 ⟨"broken"⟩ := rfl
  have hands : called.graph.Hands failed.graph (some 0) none :=
    same ▸ Worker.hands_handIn (by decide) _
  have wired : failed.graph.Wired := (Graph.wired_ofParts loneSource).of_bare (hands.bare.trans rfl)
  obtain ⟨f, hf⟩ := w.failure_handIn .faulty called 0 ⟨"broken"⟩
  exact ⟨f, Engine.failure_requestStop (e := failed) wired hf⟩

theorem cleared_gone : gone.cleared = true := by
  obtain ⟨f, hf⟩ := failure_dismissed
  let hired (id : WorkerId) : Worker := .hire grown.engine.scheduler id
  let second := (hired 1).turn .faulty dismissed.engine
  let third := (hired 2).turn .faulty second.1
  obtain ⟨hsecond, hf⟩ : second.2.isGone = true ∧ second.1.graph.failure = some f :=
    Worker.leaves_of_failure rfl hf
  obtain ⟨hthird, -⟩ : third.2.isGone = true ∧ third.1.graph.failure = some f :=
    Worker.leaves_of_failure rfl hf
  have hfirst : (broken.workers.head (by decide)).isGone = true := rfl
  have leaving : gone.leaving = [broken.workers.head (by decide), second.2, third.2] := rfl
  simp only [Controller.cleared, leaving, List.all_cons, List.all_nil, hfirst, hsecond, hthird,
    Bool.and_self]

/-- Up to where the second worker is to leave. -/
theorem run_shrunk : Watch.Run .faulty created
    { controller := shrunk
      pending := some (.scale 1)
      orders := [(.scale 3, .error .notRunning), (.run 2, .ok ()), (.scale 1, .ok ())] } := by
  have refused : Watch.Run .faulty created
      { controller := created, orders := [(.scale 3, .error .notRunning)] } :=
    Watch.Run.start.carriesOut rfl (.scale 3) rfl
  have begun : created.begin .faulty (.run 2) = (.ok (), started) := run_created
  have running := refused.carriesOut rfl (.run 2) (by rw [begun]; rfl)
  rw [begun] at running
  have turned := running.step (.turn .pool 0)
  exact turned.step (.begins (.scale 1) rfl)

/-- Up to where new workers have come. -/
theorem run_grown : Watch.Run .faulty created
    { controller := grown
      orders := [(.scale 3, .error .notRunning), (.run 2, .ok ()), (.scale 1, .ok ()),
        (.scale 3, .ok ())] } := by
  have left := (run_shrunk.step (.turn .leaving 0)).step (.ends rfl rfl)
  exact left.carriesOut rfl (.scale 3) rfl

/-- To the end. -/
theorem run_gone : Watch.Run .faulty created
    { controller := gone.finish .waitUntilStopped
      orders :=
        [(.scale 3, .error .notRunning), (.run 2, .ok ()), (.scale 1, .ok ()), (.scale 3, .ok ()),
          (.requestStop, .ok ()), (.waitUntilStopped, .ok ())]
      asked := [failed, broken.engine] } := by
  have stopped := (run_grown.step (.turn .pool 0)).carriesOut rfl .requestStop rfl
  have leaving := ((stopped.step (.begins .waitUntilStopped rfl)).step (.turn .leaving 1)).step
    (.turn .leaving 2)
  exact leaving.step (.ends rfl cleared_gone)

end LoneSource

/-- A controller of one source cannot be scaled before it runs. It runs with two workers, and the
first one gets the source; the second leaves when one is to be left, and two new ones come when
there are to be three. The source fails, so that its worker asks for a stop. The request that
follows changes nothing, and in the end all workers have left. -/
theorem controller_life_loneSource :
    ∃ (c : Controller Unit) (x y z : Watch Unit),
      Controller.create ⟨.ofParts loneSource, ()⟩ { workers := 2 } = .ok c ∧
        x.Run .faulty c ∧ y.Run .faulty c ∧ z.Run .faulty c ∧
        (x.pending = some (.scale 1) ∧ x.controller.workers.map (·.id) = [0] ∧
          x.controller.leaving.map (·.id) = [1] ∧
          ((x.controller.workers ++ x.controller.leaving).map (·.id)).Nodup) ∧
        (y.orders =
            [(.scale 3, .error .notRunning), (.run 2, .ok ()), (.scale 1, .ok ()),
              (.scale 3, .ok ())] ∧
          y.controller.phase = .duringRun ∧ y.controller.workers.map (·.id) = [0, 1, 2] ∧
          (y.controller.begin .faulty .start).1 = .error .alreadyRunning ∧
          (y.controller.begin .faulty .start).2 = y.controller) ∧
        z.pending = none ∧
        z.orders = y.orders ++ [(.requestStop, .ok ()), (.waitUntilStopped, .ok ())] ∧
        z.controller.phase = .afterRun ∧ z.controller.workers = [] ∧
        ∃ e e', z.asked = [e, e'] ∧
          e.requestStop .faulty =
            { e with network := (e.network.finishSources .faulty).2, stopRequested := true } ∧
          e'.requestStop .faulty = e' := by
  have hc : Controller.create ⟨.ofParts loneSource, ()⟩ LoneSource.config =
      .ok LoneSource.created := rfl
  obtain ⟨-, -, -, -, distinct, -⟩ := controller_life .faulty _ _ _ hc _ LoneSource.run_shrunk
  obtain ⟨-, refused, ids, -⟩ := controller_life .faulty _ _ _ hc _ LoneSource.run_grown
  obtain ⟨-, -, -, idle, -, stops⟩ := controller_life .faulty _ _ _ hc _ LoneSource.run_gone
  obtain ⟨first, others⟩ := stops _ _ rfl
  exact ⟨_, _, _, _, hc, LoneSource.run_shrunk, LoneSource.run_grown, LoneSource.run_gone,
    ⟨rfl, rfl, rfl, distinct⟩,
    ⟨rfl, rfl, ids, rfl, (refused .start .alreadyRunning rfl rfl rfl).1⟩, rfl, rfl, rfl,
    idle (by decide), _, _, rfl, first, others _ (List.mem_singleton.2 rfl)⟩

end Pipework
