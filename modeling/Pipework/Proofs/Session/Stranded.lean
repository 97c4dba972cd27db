import Pipework.Proofs.Body.Work
import Pipework.Proofs.Session.Flow

/-!
# Pipelines strand no work

A plant fits a graph if every source is a source, every other stage is a map, a split or a sink, and
every stage that may put something into the queue of another one is among its feeders
(`Plant.Fits`). Then a stage with a feeder that runs or is held runs itself, and nothing is waiting
for a stage that does not run (`no_stranded_work`).
-/

namespace Pipework

/-! ### Hooks of bodies -/

namespace Body

variable {α σ : Type}

theorem opening_core (b : Body α σ) (s : Store α σ) : b.core.opening s = b.opening s := by
  cases b <;> simp [core, opening, Source.core]

theorem closing_core (b : Body α σ) (s : Store α σ) : b.core.closing s = b.closing s := by
  cases b <;> simp [core, closing, Source.core, Sink.closing, Sink.core]

end Body

/-! ### Plants -/

namespace Plant

variable {α σ : Type} {g : Graph} {p w w' : Plant α σ} {i j v : StageId} {q : QueueId}

theorem body_call (w : Plant α σ) (i j : StageId) (visit : Visit) :
    (interface.call i visit w).2.2.body j =
      if i = j ∧ i < w.bodies.length then ((w.body i).execute visit w.store).body
        else w.body j := by
  simp only [interface, body, List.getD_eq_getElem?_getD, List.getElem?_set]
  by_cases hij : i = j
  · subst hij
    by_cases hi : i < w.bodies.length
    · simp [hi]
    · simp [hi]
  · simp [hij]

theorem body_call_ne (h : i ≠ j) (visit : Visit) :
    (interface.call i visit w).2.2.body j = w.body j := by
  rw [body_call, if_neg fun hc => h hc.1]

theorem body_of_length_le (h : w.bodies.length ≤ i) : w.body i = default :=
  List.getD_eq_default _ _ h

theorem lt_length_of_isPlain (h : (w.body i).isPlain = true) : i < w.bodies.length := by
  by_contra hi
  rw [body_of_length_le (Nat.le_of_not_lt hi)] at h
  cases h

theorem body_call_self (h : (w.body i).isPlain = true) (visit : Visit) :
    (interface.call i visit w).2.2.body i = ((w.body i).execute visit w.store).body := by
  rw [body_call, if_pos ⟨rfl, lt_length_of_isPlain h⟩]

/-- The bodies of a plant belong to the stages of a graph, are those of a pipeline, and have not
been called yet. -/
structure Fits (p : Plant α σ) (g : Graph) : Prop where
  plain : ∀ i < g.size, (p.body i).isPlain = true
  source : ∀ i < g.size, (p.body i).isSource = (g.stage i).isSource
  fed : ∀ u v q, u < g.size → v < g.size → (g.stage v).isSource = false →
    (p.body v).reads = some q →
    u ∉ (g.stage v).feeders → (p.body u).Spares q
  opening : ∀ i s, ((p.body i).opening s).2.queues = s.queues
  closing : ∀ i s, ((p.body i).closing s).2.queues = s.queues
  fresh : ∀ i, (p.body i).core = p.body i
  dry : ∀ q, p.store.Dry q

/-- A change of the threshold of a queue. -/
def Tuned (w w' : Plant α σ) : Prop := ∃ q n, w' = w.mapStore (·.setThreshold q n)

theorem queue_of_queues {s s' : Store α σ} (h : s'.queues = s.queues) (q : QueueId) :
    s'.queue q = s.queue q := by
  unfold Store.queue
  rw [h]

theorem items_setThreshold (s : Store α σ) (q q' : QueueId) (n : Nat) :
    ((s.setThreshold q n).queue q').items = (s.queue q').items := by
  unfold Store.setThreshold
  rw [Store.queue_setQueue]
  split
  · next h =>
    rw [← h.1]
    rfl
  · rfl

theorem idle_of_dry {b : Body α σ} {s s' : Store α σ} (h : b.Idle s)
    (hs : ∀ q, b.reads = some q → s.Dry q → s'.Dry q) :
    b.Idle s' := ⟨fun q hq => hs q hq (h.dry q hq), h.leftover⟩

theorem hook_queues (hp : p.Fits g) (hw : ∀ i, (w.body i).core = p.body i) (hook : Hook)
    (i : StageId) :
    (interface.hook hook i w).2.store.queues = w.store.queues := by
  cases hook with
  | opening =>
    have := hp.opening i w.store
    rwa [← hw i, Body.opening_core] at this
  | closing =>
    have := hp.closing i w.store
    rwa [← hw i, Body.closing_core] at this

theorem hook_bodies (hook : Hook) (i : StageId) (w : Plant α σ) :
    (interface.hook hook i w).2.bodies = w.bodies := by
  cases hook <;> rfl

theorem isPlain_of_core (hp : p.Fits g) (hw : ∀ i, (w.body i).core = p.body i) (hi : i < g.size) :
    (w.body i).isPlain = true := by
  rw [← Body.isPlain_core, hw]
  exact hp.plain i hi

/-- The bodies of a plant that fits a graph work through its queues. -/
def plumbing (hp : p.Fits g) : Plumbing (interface (α := α) (σ := σ)) g where
  Good w := ∀ i, (w.body i).core = p.body i
  Clear v w := v < g.size → (w.body v).Idle w.store
  Honest v w := (w.body v).Honest
  Tuned := Tuned
  hook_good {w} hook i h j := by
    have := h j
    unfold body at this ⊢
    rwa [hook_bodies]
  hook_clear {w v} hook i h hc hv := by
    have hb : (interface.hook hook i w).2.body v = w.body v := by
      unfold body
      rw [hook_bodies]
    rw [hb]
    exact idle_of_dry (hc hv) fun q _ hd =>
      hd.of_queue (queue_of_queues (hook_queues hp h hook i) q)
  hook_honest {w v} hook i _ hh := by
    unfold body at hh ⊢
    rwa [hook_bodies]
  tuned_good := by
    rintro w _ ⟨q, n, rfl⟩ h
    exact h
  tuned_clear := by
    rintro w _ v ⟨q, n, rfl⟩ h hv
    exact idle_of_dry (h hv) fun q' _ hd => (items_setThreshold w.store q q' n).trans hd
  tuned_honest := by
    rintro w _ v ⟨q, n, rfl⟩ h
    exact h
  call_good {w} i visit h hi j := by
    rw [body_call]
    split
    · next hij =>
      rw [Body.core_execute (isPlain_of_core hp h hi), hij.1, h]
    · exact h j
  call_clear {w v} i visit h hi hv hiv hfed hc hsize := by
    rw [body_call_ne hiv]
    refine idle_of_dry (hc hsize) fun q hq hd => ?_
    rw [← Body.reads_core, h] at hq
    have hspares := hp.fed i v q hi hsize hv hq hfed
    rw [← h i, Body.spares_core] at hspares
    exact Body.dry_execute hspares visit hd
  call_honest {w v} i visit _ hiv hh := by rwa [body_call_ne hiv]
  return_honest {w} i visit o h hi ho := by
    have hplain := isPlain_of_core hp h hi
    rw [body_call_self hplain]
    exact Body.honest_execute hplain ho
  isSource_of_finished {w} i visit h hi ho := by
    have := Body.isSource_of_finished (isPlain_of_core hp h hi) ho
    rwa [← Body.isSource_core, h, hp.source i hi] at this
  clear_of_pending {w v} h hv hs hh hp₀ _ := by
    have hsource : (w.body v).isSource = false := by
      rw [← Body.isSource_core, h, hp.source v hv, hs]
    exact (Body.pending_eq_zero_iff (isPlain_of_core hp h hv) hsource hh).1 hp₀

/-- A session about a plant to which nothing has happened. -/
def atRest (p : Plant α σ) (g : Graph) (sc : Scheduler) : Session (Plant α σ) := ⟨⟨g, p⟩, sc, []⟩

theorem honest_of_fresh {b : Body α σ} (h : b.core = b) : b.Honest := by
  cases b with
  | split b =>
    rw [← h]
    rfl
  | _ => trivial

theorem idle_of_fresh {b : Body α σ} {s : Store α σ} (h : b.core = b) (hs : ∀ q, s.Dry q) :
    b.Idle s := by
  refine ⟨fun q _ => hs q, ?_⟩
  rw [← h]
  cases b <;> rfl

theorem streaming_atRest (hp : p.Fits g) (hg : g.Fresh) (sc : Scheduler) :
    Session.Streaming (plumbing hp) (p.atRest g sc) := by
  have hstate : ∀ v, (g.stage v).state ≠ .running ∧ (g.stage v).state ≠ .finished := fun v => by
    rw [hg.state v]
    decide
  refine ⟨⟨rfl, hg.counted, hp.fresh, fun v _ hf => absurd hf (hstate v).2,
    fun v _ _ => .inr fun u _ => ?_, fun v _ h => ?_,
    fun v _ _ _ => idle_of_fresh (hp.fresh v) hp.dry, fun v _ => honest_of_fresh (hp.fresh v),
    fun v _ x hx => absurd hx List.not_mem_nil⟩, ⟨List.nodup_nil, hg.holders⟩, fun x hx =>
      absurd hx List.not_mem_nil⟩
  · exact ⟨(hstate u).1, hg.holders u⟩
  · rw [atRest, hg.holders v] at h
    exact absurd h (Nat.lt_irrefl 0)

end Plant

/-- **No work is stranded.** Take a pipeline whose bodies fit the graph that is built out of any
parts, and any run of any workers in which nobody but sources is paused or finished from outside, no
call panics, and thresholds are all that is changed. A stage that is no source runs whenever one of
its feeders runs or is held by a worker; and if it does not run its input queue is empty, it has
nothing left over and nothing in progress. -/
theorem no_stranded_work {α σ : Type} (parts : List Graph.Part) (p : Plant α σ) (sc : Scheduler)
    (hp : p.Fits (.ofParts parts)) {s : Session (Plant α σ)}
    (hr : Session.Run Plant.interface (Session.Steady Plant.interface Plant.Tuned)
      (p.atRest (.ofParts parts) sc) s)
    (v : StageId) (hv : v < s.network.graph.size)
    (hs : (s.network.graph.stage v).isSource = false) :
    ((∃ u ∈ (s.network.graph.stage v).feeders,
        (s.network.graph.stage u).state = .running ∨ ∃ h ∈ s.holds, h.stage = u) →
      (s.network.graph.stage v).state = .running) ∧
    ((s.network.graph.stage v).state ≠ .running →
      (s.network.world.body v).pending s.network.world.store = 0 ∧
        (∀ q, (s.network.world.body v).reads = some q →
          (s.network.world.store.queue q).items = []) ∧
        (s.network.world.body v).leftover = []) := by
  have wd := Graph.wired_ofParts parts
  have st : Session.Streaming (Plant.plumbing hp) s :=
    hr.invariant (Plant.streaming_atRest hp (Graph.fresh_ofParts parts) sc) fun s e st he ha =>
      st.perform wd he ha
  have f := st.flowing
  rw [Graph.isSource_of_bare f.bare] at hs
  rw [Graph.size_of_bare f.bare] at hv
  refine ⟨?_, fun hn => ?_⟩
  · rintro ⟨u, hu, h⟩
    rw [Graph.feeders_of_bare f.bare] at hu
    refine f.running_of_fed hs hu (h.imp id ?_)
    rintro ⟨x, hx, rfl⟩
    exact st.tallied.holders_pos hx
  · have hidle : (s.network.world.body v).Idle s.network.world.store := f.clear v hs hn hv
    have hplain := Plant.isPlain_of_core hp f.good hv
    have hsource : (s.network.world.body v).isSource = false := by
      rw [← Body.isSource_core, f.good, hp.source v hv, hs]
    have hhonest : (s.network.world.body v).Honest := by
      refine f.honest v (f.unheld v ?_)
      by_contra hh
      exact hn (f.held v hs (by omega))
    exact ⟨(Body.pending_eq_zero_iff hplain hsource hhonest).2 hidle, hidle.dry, hidle.leftover⟩

/-- A source, a split and a sink, and another source beside the split. -/
def relayParts : List Graph.Part :=
  [.stage "in" .source false, .stage "cut" .interior false, .stage "out" .sink false,
    .stage "aside" .source false, .edge 0 1, .edge 1 2, .edge 3 2, .source 0, .source 3]

/-- Blocks of two numbers are cut up, and the sink notes the numbers that come to it. -/
def relay : Plant Nat (List Nat) where
  bodies :=
    [.source { producer := { poll := fun s => (.item 7, s) }, output := 0 },
      .split
        { splitter := { split := fun a s => (.ok ⟨[a, a + 1], a, true⟩, s), work := fun _ => 0 }
          input := 0
          output := 1 },
      .sink
        { processors := [{ process := fun a s => (.ok (), { s with env := s.env ++ [a] }) }]
          input := 1 },
      .source { producer := { poll := fun s => (.item 0, s) }, output := 1 }]
  store := { queues := [.bounded "blocks" 1, .bounded "numbers" 5], env := [] }

theorem fits_relay : relay.Fits (.ofParts relayParts) where
  plain := by decide
  source := by decide
  fed := by
    intro u v q hu hv hs hq hf
    rw [show (Graph.ofParts relayParts).size = 4 by decide] at hu hv
    have notes : ∀ q, (relay.body 2).Spares q := fun q p hp a t h => by
      obtain rfl := List.mem_singleton.1 hp
      exact h
    -- only the split and the sink take parcels from a queue
    obtain rfl | rfl : v = 1 ∨ v = 2 := by
      obtain rfl | rfl | h : v = 0 ∨ v = 3 ∨ v = 1 ∨ v = 2 := by omega
      · exact absurd hs (by decide)
      · exact absurd hs (by decide)
      · exact h
    · cases hq
      obtain rfl | rfl | rfl | rfl : u = 0 ∨ u = 1 ∨ u = 2 ∨ u = 3 := by omega
      · exact absurd (by decide) hf
      · exact ⟨by decide, fun _ _ h => h, fun _ _ h => h⟩
      · exact notes _
      · exact ⟨by decide, fun _ h => h⟩
    · cases hq
      obtain rfl | rfl | rfl | rfl : u = 0 ∨ u = 1 ∨ u = 2 ∨ u = 3 := by omega
      · exact ⟨by decide, fun _ h => h⟩
      · exact absurd (by decide) hf
      · exact notes _
      · exact absurd (by decide) hf
  opening := by
    rintro (_ | _ | _ | _ | _) s <;> rfl
  closing := by
    rintro (_ | _ | _ | _ | _) s <;> rfl
  fresh := by
    rintro (_ | _ | _ | _ | _) <;> rfl
  dry := by
    rintro (_ | _ | _) <;> rfl

namespace Relay

def scheduler : Scheduler := ⟨.sticky 8, 1⟩

def start : Session (Plant Nat (List Nat)) := relay.atRest (.ofParts relayParts) scheduler

/-- The queue of numbers takes only one at a time. -/
def tuned : Plant Nat (List Nat) := relay.mapStore (·.setThreshold 1 1)

/-- Opens stages one by one. -/
def opened (is : List StageId) : Network (Plant Nat (List Nat)) :=
  is.foldl (fun n i => (n.openOne Plant.interface i none).2) ⟨.ofParts relayParts, tuned⟩

/-- All stages have been opened. -/
def begun : Session (Plant Nat (List Nat)) := ⟨opened [0, 1, 2, 3], scheduler, []⟩

/-- Each stage has been given to a worker. -/
def held : Session (Plant Nat (List Nat)) :=
  ([.next 0, .next 1, .next 2, .next 3] : List (Event _)).foldl (Session.perform Plant.interface)
    begun

/-- The first source has been paused. -/
def paused : Session (Plant Nat (List Nat)) :=
  { held with network := held.network.mapGraph (·.halt 0) }

/-- Its worker has called it nevertheless, and the split has found room for half of the block. -/
def cut : Session (Plant Nat (List Nat)) :=
  ([.exec 0, .exec 2] : List (Event _)).foldl (Session.perform Plant.interface) paused

/-- The sink has got both numbers. -/
def shown : Session (Plant Nat (List Nat)) :=
  ([.exec 3, .exec 2, .exec 3] : List (Event _)).foldl (Session.perform Plant.interface) cut

/-- A worker has given back a stage with success, and nothing has been settled yet. -/
def returned (s : Session (Plant Nat (List Nat))) (w : WorkerId) (i : StageId) :
    Network (Plant Nat (List Nat)) :=
  (s.network.surrender Plant.interface i (s.scheduler.caller w) (some .success)).2

/-- The first source has been given back. -/
def freed : Session (Plant Nat (List Nat)) :=
  { shown with
    network := (returned shown 0 0).mapGraph (·.clearStreak 0)
    holds := shown.others 0 }

/-- So has the split, which has nothing to do any more. -/
def ended : Session (Plant Nat (List Nat)) :=
  { freed with
    network := ((returned freed 2 1).mapGraph (·.halt 1)).mapGraph (·.clearStreak 2)
    holds := freed.others 2 }

theorem activateAll_tuned :
    (start.perform Plant.interface (.order (.outside tuned))).perform Plant.interface
      (.order .activateAll) = begun := by
  have line : (Network.activateEach ⟨.ofParts relayParts, tuned⟩ Plant.interface none [0]).2 =
      opened [0, 1, 2] := by
    rw [Network.activateEach_cons [1] (by decide) (by decide) (by decide), List.append_nil,
      Network.activateEach_cons [2] (by decide) (by decide) (by decide), List.append_nil,
      Network.activateEach_cons [] (by decide) (by decide) (by decide), List.append_nil,
      Network.activateEach_nil]
    rfl
  have aside : ((opened [0, 1, 2]).activateEach Plant.interface none [3]).2 =
      opened [0, 1, 2, 3] := by
    rw [Network.activateEach_cons [2] (by decide) (by decide) (by decide), List.append_nil,
      Network.activateEach_cons_of_not (by decide), Network.activateEach_nil]
    rfl
  have h : (Network.activateAll ⟨.ofParts relayParts, tuned⟩ Plant.interface).2 =
      opened [0, 1, 2, 3] := by
    unfold Network.activateAll
    rw [show (Network.mk (Graph.ofParts relayParts) tuned).graph.sources = [0, 3] by decide]
    simp only [Network.activateSources]
    rw [line, aside]
  exact congrArg (fun n => (⟨n, scheduler, []⟩ : Session (Plant Nat (List Nat)))) h

theorem pause_held : held.perform Plant.interface (.order (.pause 0)) = paused := by
  have h : (held.network.pause Plant.interface 0).2 = paused.network := by
    have known : held.network.graph.check 0 = .ok () := if_pos (by decide +kernel)
    rw [Network.pause, known]
    exact Network.settle_of_running_listeners (n := paused.network) (by decide +kernel)
      (by decide +kernel) (by decide +kernel)
  exact congrArg (fun n => { held with network := n }) h

theorem release_eq {s : Session (Plant Nat (List Nat))} {w : WorkerId} {i : StageId}
    {n : Network (Plant Nat (List Nat))} (hold : s.holdOf w = some ⟨w, i, some .success, false⟩)
    (hn : ((returned s w i).settle Plant.interface [i] (some (s.scheduler.caller w))).2 = n) :
    s.perform Plant.interface (.release w) =
      { s with network := n.mapGraph (·.clearStreak w), holds := s.others w } := by
  rw [Session.perform, Session.release_of_some hold, ← hn]
  rfl

theorem release_shown : shown.perform Plant.interface (.release 0) = freed :=
  release_eq (by decide +kernel)
    (Network.settle_of_running_listeners (by decide +kernel) (by decide +kernel)
      (by decide +kernel))

theorem release_freed : freed.perform Plant.interface (.release 2) = ended := by
  refine release_eq (i := 1) (by decide +kernel) ?_
  unfold Network.settle
  rw [List.reverse_singleton, Network.settleEach_cons 1 [] [2] (by decide +kernel)
    (by decide +kernel), Network.settleOne_of_starved (by decide +kernel) (by decide +kernel)]
  exact Network.settleEach_of_unsettled (by decide +kernel)

theorem run_cut :
    Session.Run Plant.interface (Session.Steady Plant.interface Plant.Tuned) start cut := by
  have begins : Session.Run Plant.interface (Session.Steady Plant.interface Plant.Tuned)
      start begun := by
    rw [← activateAll_tuned]
    exact .step _ (.step _ .start rfl ⟨1, 1, rfl⟩) rfl trivial
  have holds :
      Session.Run Plant.interface (Session.Steady Plant.interface Plant.Tuned) start held :=
    .step (.next 3) (.step (.next 2) (.step (.next 1)
      (.step (.next 0) begins (by decide +kernel) trivial)
      (by decide +kernel) trivial) (by decide +kernel) trivial) (by decide +kernel) trivial
  have pauses :
      Session.Run Plant.interface (Session.Steady Plant.interface Plant.Tuned) start paused := by
    rw [← pause_held]
    exact .step _ holds rfl (show (held.network.graph.stage 0).isSource = true by decide +kernel)
  have polls := pauses.exec (w := 0) (o := .success) (by decide +kernel)
  exact polls.exec (w := 2) (o := .success) (by decide +kernel)

theorem run_ended :
    Session.Run Plant.interface (Session.Steady Plant.interface Plant.Tuned) start ended := by
  have shows : Session.Run Plant.interface (Session.Steady Plant.interface Plant.Tuned)
      start shown :=
    ((run_cut.exec (w := 3) (o := .success) (by decide +kernel)).exec (w := 2) (o := .success)
      (by decide +kernel)).exec (w := 3) (o := .success) (by decide +kernel)
  have frees : Session.Run Plant.interface (Session.Steady Plant.interface Plant.Tuned)
      start freed := by
    rw [← release_shown]
    exact .step _ shows (by decide +kernel) trivial
  rw [← release_freed]
  exact .step _ frees (by decide +kernel) trivial

end Relay

/-- The first source is paused while a worker holds it, so that the split goes on running; the
worker calls the source all the same, and half of the block that it gets finds no room. In the end
the sink has got both numbers. It goes on running, as the other source does, but the split has
stopped, with nothing left for it to do. -/
theorem no_stranded_work_relay :
    relay.Fits (.ofParts relayParts) ∧
      Session.Run Plant.interface (Session.Steady Plant.interface Plant.Tuned)
        Relay.start Relay.cut ∧
      Session.Run Plant.interface (Session.Steady Plant.interface Plant.Tuned)
        Relay.start Relay.ended ∧
      ((Relay.cut.network.graph.stage 0).state = .paused ∧ (∃ h ∈ Relay.cut.holds, h.stage = 0) ∧
        (Relay.cut.network.world.body 1).leftover = [8] ∧
        (Relay.cut.network.graph.stage 1).state = .running) ∧
      Relay.ended.network.world.store.env = [7, 8] ∧
      (Relay.ended.network.graph.stage 3).state = .running ∧
      (Relay.ended.network.graph.stage 2).state = .running ∧
      (Relay.ended.network.graph.stage 1).state = .paused ∧
      (Relay.ended.network.world.body 1).pending Relay.ended.network.world.store = 0 ∧
      (Relay.ended.network.world.store.queue 0).items = [] ∧
      (Relay.ended.network.world.body 1).leftover = [] := by
  have held : ∃ h ∈ Relay.cut.holds, h.stage = 0 := by decide +kernel
  have aside : (Relay.ended.network.graph.stage 3).state = .running := by decide +kernel
  have stopped : (Relay.ended.network.graph.stage 1).state = .paused := by decide +kernel
  have main := fun {s} hr =>
    no_stranded_work relayParts relay Relay.scheduler fits_relay (s := s) hr
  have runs := (main Relay.run_cut 1 (by decide +kernel) (by decide +kernel)).1
    ⟨0, by decide +kernel, .inr held⟩
  have goes := (main Relay.run_ended 2 (by decide +kernel) (by decide +kernel)).1
    ⟨3, by decide +kernel, .inl aside⟩
  obtain ⟨nothing, dry, left⟩ := (main Relay.run_ended 1 (by decide +kernel) (by decide +kernel)).2
    (by rw [stopped]; decide)
  exact ⟨fits_relay, Relay.run_cut, Relay.run_ended,
    ⟨by decide +kernel, held, by decide +kernel, runs⟩, by decide +kernel,
    aside, goes, stopped, nothing, dry 0 (by decide +kernel), left⟩

end Pipework
