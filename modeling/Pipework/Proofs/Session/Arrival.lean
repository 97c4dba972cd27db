import Pipework.Proofs.Session.Graceful
import Pipework.Proofs.Session.Series

/-!
# What arrives does not depend on the schedule

A route lies in a graph with its bodies if each stage has its body and each queue is its own
(`Route.Lies`). Whatever is done to stages and by workers, what the source has polled comes out of
the sink in its order, but for what is still on the route and for the parcels on which a function or
a processor fails (`Route.Ordered`, `Ordered.call`). So two runs that have polled the same parcels
and have nothing left on the route have accepted the same (`arrivals_in_order`).
-/

namespace Pipework

namespace Plant

variable {α σ : Type}

/-- The parcels that sources have polled in some calls. -/
def polled (calls : List (CallRecord (Plant α σ))) : List α :=
  calls.flatMap fun r => (r.world.body r.stage).polled r.visit r.world.store

end Plant

namespace Route

variable {α σ : Type} {c : Route α} {g : Graph} {p w w' : Plant α σ} {l l' : Ledger (Plant α σ)}
  {i j : Nat} {v : Visit}

/-- The bodies form the route: a source, maps that apply the functions, and a sink whose processors
apply the tests, joined by queues of their own which are empty. No code that was handed in touches a
queue. How the graph is wired does not matter. -/
structure Lies (c : Route α) (g : Graph) (p : Plant α σ) : Prop where
  covers : ∀ i < g.size, ∃ j ≤ c.length + 1, i = c.stage j
  stages : ∀ i ≤ c.length + 1, ∀ j ≤ c.length + 1, c.stage i = c.stage j → i = j
  belts : ∀ i ≤ c.length, ∀ j ≤ c.length, c.belt i = c.belt j → i = j
  lt_length : ∀ j ≤ c.length, c.belt j < p.store.queues.length
  source : ∃ b, p.body (c.stage 0) = .source b ∧ b.output = c.belt 0 ∧ b.Discreet
  map : ∀ j, (hj : j < c.length) → ∃ m, p.body (c.stage (j + 1)) = .map m ∧ m.input = c.belt j ∧
    m.output = c.belt (j + 1) ∧ m.Answers c.codes[j]
  sink : ∃ b, p.body (c.stage (c.length + 1)) = .sink b ∧ b.input = c.belt c.length ∧
    b.Judges c.tests
  opening : ∀ i s, ((p.body i).opening s).2.queues = s.queues
  closing : ∀ i s, ((p.body i).closing s).2.queues = s.queues
  fresh : ∀ i, (p.body i).core = p.body i
  dry : ∀ j ≤ c.length, p.store.contents (c.belt j) = []

/-- The parcels that have passed the first functions, as many as the number says, and no more: those
in a queue, and those that wait behind it. -/
def column (c : Route α) (w : Plant α σ) (j : Nat) : List α :=
  w.store.contents (c.belt j) ++ (w.body (c.stage j)).waiting

/-- The parcels on the route from the sink back to the source, each as it will arrive, and without
those that will not. -/
def onTheWay (c : Route α) (w : Plant α σ) : List α :=
  backwards (fun j => (c.column w j).filterMap (c.arrival j)) c.length

/-- The stages and queues of a route, whatever its bodies compute. -/
def series (c : Route α) : Series := ⟨c.length, c.stage, c.belt⟩

theorem onTheWay_same (h : Plant.Same w w') : c.onTheWay w' = c.onTheWay w :=
  backwards_congr fun j _ => congrArg _ (c.series.column_same h j)

/-! ### A call of a stage -/

namespace Lies

variable (h : c.Lies g p)
include h

theorem joins : c.series.Joins g p where
  covers := h.covers
  stages := h.stages
  belts := h.belts
  lt_length := h.lt_length
  source := h.source
  map j hj := by
    obtain ⟨m, hm, hin, hout, hc⟩ := h.map j hj
    exact ⟨m, hm, hin, hout, hc.quiet⟩
  sink := by
    obtain ⟨b, hb, hin, hj⟩ := h.sink
    exact ⟨b, hb, hin, hj.quiet⟩
  opening := h.opening
  closing := h.closing
  fresh := h.fresh
  dry := h.dry

/-- What the source polls is last on the way afterwards. -/
theorem onTheWay_source {b : Source α σ} (hb : w.body (c.stage 0) = .source b)
    (hout : b.output = c.belt 0) (hd : b.Discreet) (hlt : c.belt 0 < w.store.queues.length)
    (v : Visit) :
    (c.series.after w 0 v).store.queues.length = w.store.queues.length ∧
      c.onTheWay (c.series.after w 0 v) =
        c.onTheWay w ++ (b.polled v w.store).filterMap (c.arrival 0) := by
  obtain ⟨length, first, others⟩ := h.joins.columns_source hb hout hd hlt v
  refine ⟨length, backwards_feed ?_ fun j hj hjl => congrArg _ (others j hj hjl)⟩
  rw [← List.filterMap_append]
  exact congrArg _ first

/-- What a map takes and what it makes of that are the same on the way. -/
theorem onTheWay_map (hj : j < c.length) {m : Map α σ} (hm : w.body (c.stage (j + 1)) = .map m)
    (hin : m.input = c.belt j) (hout : m.output = c.belt (j + 1)) (hc : m.Answers c.codes[j])
    (hlt : ∀ i ≤ c.length, c.belt i < w.store.queues.length) (v : Visit) :
    (c.series.after w (j + 1) v).store.queues.length = w.store.queues.length ∧
      c.onTheWay (c.series.after w (j + 1) v) = c.onTheWay w := by
  obtain ⟨length, before, behind, others⟩ := h.joins.columns_map hj hm hin hout hc.quiet hlt v
  have results : (m.tries v w.store).filterMap (·.2) =
      ((m.tries v w.store).map (·.1)).filterMap c.codes[j] :=
    Map.filterMap_trials hc _ _
  have leaves : (c.column w j).filterMap (c.arrival j) =
      ((m.tries v w.store).map (·.1)).filterMap (c.arrival j) ++
        (c.column (c.series.after w (j + 1) v) j).filterMap (c.arrival j) := by
    rw [← List.filterMap_append]
    exact congrArg _ before
  have joins : (c.column (c.series.after w (j + 1) v) (j + 1)).filterMap (c.arrival (j + 1)) =
      (c.column w (j + 1)).filterMap (c.arrival (j + 1)) ++
        ((m.tries v w.store).map (·.1)).filterMap (c.arrival j) := by
    rw [← filterMap_arrival_of_lt hj, ← results, ← List.filterMap_append]
    exact congrArg _ behind
  exact ⟨length, backwards_move leaves joins hj fun k hk hkj hkj' => congrArg _
    (others k hk hkj hkj')⟩

/-- What the sink accepts was first on the way. -/
theorem onTheWay_sink {b : Sink α σ} (hb : w.body (c.stage (c.length + 1)) = .sink b)
    (hin : b.input = c.belt c.length) (ha : b.Judges c.tests)
    (hlt : c.belt c.length < w.store.queues.length) (v : Visit) :
    (c.series.after w (c.length + 1) v).store.queues.length = w.store.queues.length ∧
      c.onTheWay w = b.accepted v w.store ++ c.onTheWay (c.series.after w (c.length + 1) v) := by
  obtain ⟨length, last, others⟩ := h.joins.columns_sink hb hin ha.quiet hlt v
  refine ⟨length, backwards_take ?_ fun j hj => congrArg _ (others j hj)⟩
  rw [Sink.accepted_of_judges ha, ← filterMap_arrival_length, ← List.filterMap_append]
  exact congrArg _ last

/-- **A call keeps the order.** What the sink accepts in a call of some stage was first on the way,
and what the source polls is last on the way afterwards. -/
theorem conserves (hw : ∀ i, (w.body i).core = p.body i)
    (hlen : w.store.queues.length = p.store.queues.length) {i : StageId} (hi : i < g.size)
    (v : Visit) :
    let w' := (Plant.interface.call i v w).2.2
    w'.store.queues.length = w.store.queues.length ∧
      (w.body i).accepts v w.store ++ c.onTheWay w' =
        c.onTheWay w ++ ((w.body i).polled v w.store).filterMap (c.arrival 0) := by
  intro w'
  have hlt : ∀ j ≤ c.length, c.belt j < w.store.queues.length := fun j hj => hlen ▸ h.lt_length j hj
  rcases h.joins.body_cases hw hi with ⟨rfl, b, hb, -, hout, hd⟩ |
    ⟨j, hj, rfl, m, hm, hm₀, hin, hout, -⟩ | ⟨rfl, b, hb, hb₀, hin, -⟩
  · obtain ⟨hl, hway⟩ := h.onTheWay_source hb hout hd (hlt 0 (Nat.zero_le _)) v
    rw [hb]
    exact ⟨hl, hway⟩
  · obtain ⟨m', hm', -, -, hc⟩ := h.map j hj
    obtain rfl : m' = m.core := Body.map.inj (hm'.symm.trans hm₀)
    obtain ⟨hl, hway⟩ := h.onTheWay_map hj hm hin hout hc hlt v
    rw [hm]
    exact ⟨hl, hway.trans (List.append_nil _).symm⟩
  · obtain ⟨b', hb', -, ha⟩ := h.sink
    obtain rfl : b' = b.core := Body.sink.inj (hb'.symm.trans hb₀)
    obtain ⟨hl, hway⟩ := h.onTheWay_sink hb hin ha (hlt c.length (Nat.le_refl _)) v
    rw [hb]
    exact ⟨hl, hway.symm.trans (List.append_nil _).symm⟩

end Lies

/-! ### Runs -/

/-- What the sink has accepted and what is on the way are together what becomes of all that the
source has polled, in the order in which it was polled. -/
structure Ordered (c : Route α) (p : Plant α σ) (calls : List (CallRecord (Plant α σ)))
    (w : Plant α σ) : Prop where
  core : ∀ i, (w.body i).core = p.body i
  length : w.store.queues.length = p.store.queues.length
  parcels : Plant.accepted calls ++ c.onTheWay w = (Plant.polled calls).filterMap (c.arrival 0)

/-- At the start nothing is on the way. -/
theorem Lies.ordered_nil (h : c.Lies g p) : c.Ordered p [] p where
  core := h.fresh
  length := rfl
  parcels := backwards_eq_nil fun j hj => by
    rw [show c.column p j = [] from h.joins.column_eq_nil hj]
    rfl

namespace Ordered

variable {calls : List (CallRecord (Plant α σ))} (o : c.Ordered p calls w)
include o

/-- Nothing but bodies and contents matters. -/
theorem same (hs : w.Same w') : c.Ordered p calls w' :=
  ⟨hs.core o.core, hs.length.trans o.length, (congrArg (_ ++ ·) (onTheWay_same hs)).trans o.parcels⟩

/-- **Every call keeps the order.** -/
theorem call (h : c.Lies g p) {i : StageId} (hi : i < g.size) (v : Visit) :
    c.Ordered p (calls ++ [⟨i, v, w⟩]) (Plant.interface.call i v w).2.2 := by
  obtain ⟨length, parcels⟩ := h.conserves o.core o.length hi v
  refine ⟨h.joins.core_call o.core hi v, length.trans o.length, ?_⟩
  simp only [Plant.accepted, Plant.polled, List.flatMap_append, List.flatMap_singleton,
    List.filterMap_append, List.append_assoc]
  rw [parcels, ← List.append_assoc]
  exact congrArg (· ++ _) o.parcels

end Ordered

end Route

/-- So the order is kept throughout. -/
theorem Route.Lies.ordered_run {α σ : Type} {c : Route α} {parts : List Graph.Part} {p : Plant α σ}
    {sc : Scheduler} {l : Ledger (Plant α σ)} (h : c.Lies (.ofParts parts) p)
    (hr : Ledger.Run Plant.interface Plant.Tuned { session := p.atRest (.ofParts parts) sc } l) :
    c.Ordered p l.calls l.session.network.world :=
  hr.through (Graph.wired_ofParts parts) (Plant.tallied_atRest (Graph.fresh_ofParts parts) sc)
    (fun _ hook i _ o => o.same (h.joins.same_hook o.core hook i))
    (fun o ht => o.same (.of_tuned ht))
    (fun _ v o hi _ => o.call h hi v) h.ordered_nil

/-- **What arrives does not depend on the schedule.** Take a source, maps and a sink that are joined
by queues of their own to a route, in a graph that is built out of any parts, and any run in which
any workers ask for stages, call them and give them back, and stages are activated, paused and
finished, chunks and thresholds are changed and failures are recorded, in any order. What the sink
has accepted, followed by what is on the way from the sink back to the source, is what becomes of
all that the source has polled, in the order in which it was polled, but for the parcels on which a
function or a processor fails. So two runs along routes of the same functions and processors have
accepted the same, if they have polled the same and nothing is on the way any more. -/
theorem arrivals_in_order {α σ τ : Type} (c : Route α) (parts : List Graph.Part) (p : Plant α σ)
    (sc : Scheduler) (h : c.Lies (.ofParts parts) p) {l : Ledger (Plant α σ)}
    (hr : Ledger.Run Plant.interface Plant.Tuned { session := p.atRest (.ofParts parts) sc } l) :
    Plant.accepted l.calls ++ c.onTheWay l.session.network.world =
      (Plant.polled l.calls).filterMap (c.arrival 0) ∧
      ∀ (c' : Route α) (parts' : List Graph.Part) (p' : Plant α τ) (sc' : Scheduler)
        (l' : Ledger (Plant α τ)),
        c'.codes = c.codes → c'.tests = c.tests → c'.Lies (.ofParts parts') p' →
        Ledger.Run Plant.interface Plant.Tuned { session := p'.atRest (.ofParts parts') sc' } l' →
        Plant.polled l'.calls = Plant.polled l.calls → c.onTheWay l.session.network.world = [] →
        c'.onTheWay l'.session.network.world = [] →
        Plant.accepted l'.calls = Plant.accepted l.calls := by
  have ordered := h.ordered_run hr
  refine ⟨ordered.parcels, fun c' parts' p' sc' l' hcodes htests h' hr' hpolled hdone hdone' => ?_⟩
  have arrival : c'.arrival 0 = c.arrival 0 := by
    funext a
    unfold Route.arrival
    rw [hcodes, htests]
  calc Plant.accepted l'.calls
    _ = (Plant.polled l'.calls).filterMap (c'.arrival 0) := by
      rw [← (h'.ordered_run hr').parcels, hdone', List.append_nil]
    _ = (Plant.polled l.calls).filterMap (c.arrival 0) := by rw [hpolled, arrival]
    _ = Plant.accepted l.calls := by rw [← ordered.parcels, hdone, List.append_nil]

/-! ### Two runs of three workers -/

/-- A source of all numbers, a map that adds ten and fails on one, and a sink that fails on ten. -/
def sieve : Plant Nat Nat where
  bodies :=
    [.source
      { producer := { poll := fun s => (.item s.env, { s with env := s.env + 1 }) }, output := 0 },
      .map
        { apply := fun a s => (if a = 1 then .failed ⟨"one"⟩ else .ok (a + 10), s), input := 0,
          output := 1 },
      .sink
        { processors := [{ process := fun a s => (if a = 10 then .failed ⟨"ten"⟩ else .ok (), s) }],
          input := 1 }]
  store := { queues := [.bounded "raw" 4, .bounded "sums" 4], env := 0 }

def sieveRoute : Route Nat where
  stage := id
  belt := id
  codes := [fun a => if a = 1 then none else some (a + 10)]
  tests := [fun a => a != 10]

theorem lies_sieve : sieveRoute.Lies (.ofParts adderParts) sieve where
  covers i hi := ⟨i, Nat.le_of_lt_succ hi, rfl⟩
  stages _ _ _ _ h := h
  belts _ _ _ _ h := h
  lt_length := by decide
  source := ⟨_, rfl, rfl, fun _ => rfl⟩
  map j hj := by
    obtain rfl : j = 0 := Nat.lt_one_iff.1 hj
    refine ⟨_, rfl, rfl, rfl, fun a s => ⟨?_, rfl⟩⟩
    change Reply.Gives (if a = 1 then none else some (a + 10))
      (if a = 1 then .failed ⟨"one"⟩ else .ok (a + 10))
    by_cases ha : a = 1 <;> simp [ha, Reply.Gives]
  sink := by
    refine ⟨_, rfl, rfl, .cons (fun a s => ⟨?_, rfl⟩) .nil⟩
    by_cases ha : a = 10 <;> simp [ha, Reply.Gives]
  opening := by
    rintro (_ | _ | _ | _) s <;> rfl
  closing := by
    rintro (_ | _ | _ | _) s <;> rfl
  fresh := by
    rintro (_ | _ | _ | _) <;> rfl
  dry := by decide

namespace Sieve

def scheduler : Scheduler := ⟨.sticky 8, 1⟩

/-- The ledger once all stages have been opened. -/
def opened : Ledger (Plant Nat Nat) :=
  let n₁ := Network.openOne ⟨.ofParts adderParts, sieve⟩ Plant.interface 0 none
  let n₂ := n₁.2.openOne Plant.interface 1 none
  { session := ⟨(n₂.2.openOne Plant.interface 2 none).2, scheduler, []⟩ }

/-- The workers call their stages in turns. -/
def turns : List (Event (Plant Nat Nat)) :=
  [.next 0, .exec 0, .next 1, .exec 1, .next 2, .exec 0, .exec 1, .exec 0, .exec 1,
    .exec 2, .exec 2]

/-- The source is called once for all, and then the others. -/
def batches : List (Event (Plant Nat Nat)) :=
  [.order (.build (.knobs 0 fun k => k.setChunk 3)), .next 0, .exec 0, .next 1, .exec 1, .next 2,
    .exec 1, .exec 1, .exec 2, .exec 2]

def after (es : List (Event (Plant Nat Nat))) : Ledger (Plant Nat Nat) :=
  es.foldl (Ledger.perform Plant.interface) opened

theorem run_opened :
    Ledger.Run Plant.interface Plant.Tuned
      { session := sieve.atRest (.ofParts adderParts) scheduler } opened :=
  .opened rfl links_adderParts (by decide) (by decide)

theorem run_turns :
    Ledger.Run Plant.interface Plant.Tuned
      { session := sieve.atRest (.ofParts adderParts) scheduler } (after turns) := by
  have h₁ := (run_opened.next 0 (by decide)).exec 0
  have h₂ := (h₁.next 1 (by decide)).exec 1
  have h₃ := h₂.next 2 (by decide)
  exact (((((h₃.exec 0).exec 1).exec 0).exec 1).exec 2).exec 2

theorem run_batches :
    Ledger.Run Plant.interface Plant.Tuned
      { session := sieve.atRest (.ofParts adderParts) scheduler } (after batches) := by
  have h₁ := Ledger.Run.step (.order (.build (.knobs 0 fun k => k.setChunk 3))) run_opened rfl nofun
  have h₂ := (h₁.next 0 (by decide)).exec 0
  have h₃ := (h₂.next 1 (by decide)).exec 1
  have h₄ := h₃.next 2 (by decide)
  exact (((h₄.exec 1).exec 1).exec 2).exec 2

end Sieve

theorem arrivals_in_order_sieve :
    sieveRoute.Lies (.ofParts adderParts) sieve ∧
      Ledger.Run Plant.interface Plant.Tuned
        { session := sieve.atRest (.ofParts adderParts) Sieve.scheduler }
        (Sieve.after Sieve.turns) ∧
      Plant.polled (Sieve.after Sieve.turns).calls = [0, 1, 2] ∧
      Plant.accepted (Sieve.after Sieve.turns).calls = [12] ∧
      Plant.accepted (Sieve.after Sieve.batches).calls =
        Plant.accepted (Sieve.after Sieve.turns).calls := by
  have hpolled : Plant.polled (Sieve.after Sieve.turns).calls = [0, 1, 2] := by decide
  have hdone : sieveRoute.onTheWay (Sieve.after Sieve.turns).session.network.world = [] := by decide
  obtain ⟨hitems, hother⟩ :=
    arrivals_in_order (τ := Nat) sieveRoute adderParts sieve Sieve.scheduler lies_sieve
      Sieve.run_turns
  refine ⟨lies_sieve, Sieve.run_turns, hpolled, ?_, ?_⟩
  · rw [hdone, hpolled, List.append_nil] at hitems
    exact hitems
  · exact hother sieveRoute adderParts sieve Sieve.scheduler _ rfl rfl lies_sieve Sieve.run_batches
      (by decide) hdone (by decide)

end Pipework
