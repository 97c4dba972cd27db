import Pipework.Proofs.Body.Chain
import Pipework.Proofs.Session.Stranded
import Pipework.Proofs.Session.Team

/-!
# A graceful stop loses nothing

A chain lies in a graph with its bodies if each stage has its place, its queue and its body
(`Chain.Lies`). At any time what the source has sent is what the sink has accepted together with
what is on the way (`Chain.Conserved`). Once every worker has left every stage has finished, so that
nothing is on the way any more (`graceful_stop`). The workers of an engine leave nothing behind
either (`Chain.Lies.drained`), because a team mirrors a shift.
-/

namespace Pipework

namespace Chain

variable {α σ : Type} {c : Chain α} {g : Graph} {p w : Plant α σ} {i j : Nat} {v : Visit}

/-- The graph and the bodies form the chain: a source, maps that apply total functions, and a sink
whose processors never fail, joined by queues of their own which are empty. Hooks succeed, and no
code that was handed in touches a queue. -/
structure Lies (c : Chain α) (g : Graph) (p : Plant α σ) : Prop where
  covers : ∀ i < g.size, ∃ j ≤ c.length + 1, i = c.stage j
  lt_size : ∀ j ≤ c.length + 1, c.stage j < g.size
  stages : ∀ i ≤ c.length + 1, ∀ j ≤ c.length + 1, c.stage i = c.stage j → i = j
  isSource : ∀ j ≤ c.length + 1, (g.stage (c.stage j)).isSource = decide (j = 0)
  feeders : ∀ j ≤ c.length, (g.stage (c.stage (j + 1))).feeders = [c.stage j]
  lt_length : ∀ j ≤ c.length, c.belt j < p.store.queues.length
  belts : ∀ i ≤ c.length, ∀ j ≤ c.length, c.belt i = c.belt j → i = j
  source : ∃ b, p.body (c.stage 0) = .source b ∧ b.output = c.belt 0 ∧ b.Discreet
  map : ∀ j < c.length, ∃ m, p.body (c.stage (j + 1)) = .map m ∧ m.input = c.belt j ∧
    m.output = c.belt (j + 1) ∧
    m.Computes (c.code j)
  sink : ∃ b, p.body (c.stage (c.length + 1)) = .sink b ∧ b.input = c.belt c.length ∧ b.Accepts
  opening : ∀ i s, ((p.body i).opening s).1 = .ok () ∧ ((p.body i).opening s).2.queues = s.queues
  closing : ∀ i s, ((p.body i).closing s).1 = .ok () ∧ ((p.body i).closing s).2.queues = s.queues
  fresh : ∀ i, (p.body i).core = p.body i
  dry : ∀ q, p.store.Dry q

/-- The queues of a chain. -/
def queues (c : Chain α) : List QueueId := (List.range (c.length + 1)).map c.belt

theorem belt_mem_queues (hj : j ≤ c.length) : c.belt j ∈ c.queues :=
  List.mem_map.2 ⟨j, List.mem_range.2 (Nat.lt_succ_of_le hj), rfl⟩

/-- The parcels on the way through a chain, as they will arrive at the sink. -/
def onTheWay (c : Chain α) (w : Plant α σ) : List α :=
  c.transit (fun j => w.store.contents (c.belt j)) (fun j => (w.body (c.stage (j + 1))).leftover)
    c.length

namespace Lies

variable (h : c.Lies g p)
include h

/-! ### A chain as a pipeline -/

/-- The body of a stage is that of the source, of a map or of the sink, whatever has been done with
it. -/
theorem body_cases (hw : ∀ i, (w.body i).core = p.body i) {i : StageId} (hi : i < g.size) :
    (i = c.stage 0 ∧ ∃ b, w.body i = .source b ∧ b.output = c.belt 0 ∧ b.Discreet) ∨
      (∃ j < c.length, i = c.stage (j + 1) ∧ ∃ m, w.body i = .map m ∧ m.input = c.belt j ∧
        m.output = c.belt (j + 1) ∧
        m.Computes (c.code j)) ∨
      (i = c.stage (c.length + 1) ∧ ∃ b, w.body i = .sink b ∧ b.input = c.belt c.length ∧
        b.Accepts) := by
  obtain ⟨j, hj, rfl⟩ := h.covers i hi
  cases j with
  | zero =>
    obtain ⟨b₀, hb₀, hout, hd⟩ := h.source
    obtain ⟨b, hb, rfl⟩ := Body.source_of_core ((hw _).trans hb₀)
    exact .inl ⟨rfl, b, hb, hout, hd⟩
  | succ j =>
    rcases Nat.lt_or_ge j c.length with hl | hl
    · obtain ⟨m₀, hm₀, hin, hout, hc⟩ := h.map j hl
      obtain ⟨m, hm, rfl⟩ := Body.map_of_core ((hw _).trans hm₀)
      exact .inr (.inl ⟨j, hl, rfl, m, hm, hin, hout, hc⟩)
    · obtain rfl : j = c.length := by omega
      obtain ⟨b₀, hb₀, hin, ha⟩ := h.sink
      obtain ⟨b, hb, rfl⟩ := Body.sink_of_core ((hw _).trans hb₀)
      exact .inr (.inr ⟨rfl, b, hb, hin, ha⟩)

theorem reads (hj : j ≤ c.length) : (p.body (c.stage (j + 1))).reads = some (c.belt j) := by
  rcases Nat.lt_or_ge j c.length with hl | hl
  · obtain ⟨m, hm, hin, -, -⟩ := h.map j hl
    rw [hm, ← hin]
    rfl
  · obtain rfl : j = c.length := by omega
    obtain ⟨b, hb, hin, -⟩ := h.sink
    rw [hb, ← hin]
    rfl

/-- Nothing but the stage before a queue fills it. -/
theorem spares (hi : i ≤ c.length + 1) (hj : j ≤ c.length) (hij : i ≠ j) :
    (p.body (c.stage i)).Spares (c.belt j) := by
  have dry_of_queues : ∀ {s s' : Store α σ} {q : QueueId}, s'.queues = s.queues → s.Dry q →
      s'.Dry q := by
    intro s s' q hq hd
    exact hd.of_queue (Plant.queue_of_queues hq q)
  cases i with
  | zero =>
    obtain ⟨b, hb, hout, hd⟩ := h.source
    rw [hb]
    exact ⟨fun he => hij (h.belts 0 (by omega) j hj (hout.symm.trans he)),
      fun s hs => dry_of_queues (hd s) hs⟩
  | succ i =>
    rcases Nat.lt_or_ge i c.length with hl | hl
    · obtain ⟨m, hm, -, hout, hc⟩ := h.map i hl
      rw [hm]
      exact ⟨fun he => hij (h.belts (i + 1) (by omega) j hj (hout.symm.trans he)),
        fun a s hs => dry_of_queues (hc a s).2 hs⟩
    · obtain rfl : i = c.length := by omega
      obtain ⟨b, hb, -, ha⟩ := h.sink
      rw [hb]
      exact fun p hp a s hs => dry_of_queues (ha p hp a s).2 hs

theorem fits : p.Fits g where
  plain i hi := by
    rcases h.body_cases h.fresh hi with ⟨-, b, hb, -⟩ | ⟨j, -, -, m, hb, -⟩ | ⟨-, b, hb, -⟩ <;>
      rw [hb] <;> rfl
  source i hi := by
    rcases h.body_cases h.fresh hi with ⟨rfl, b, hb, -⟩ | ⟨j, hj, rfl, m, hb, -⟩ | ⟨rfl, b, hb, -⟩
    · rw [h.isSource 0 (by omega), hb]
      rfl
    · rw [h.isSource (j + 1) (by omega), hb]
      rfl
    · rw [h.isSource (c.length + 1) (by omega), hb]
      rfl
  fed u v q hu hv hs hq hf := by
    obtain ⟨i, hi, rfl⟩ := h.covers u hu
    obtain ⟨j, hj, rfl⟩ := h.covers v hv
    cases j with
    | zero =>
      rw [h.isSource 0 hj] at hs
      cases hs
    | succ j =>
      rw [h.reads (by omega)] at hq
      cases hq
      refine h.spares hi (by omega) fun hij => hf ?_
      rw [h.feeders j (by omega), hij]
      exact List.mem_singleton_self _
  opening i s := (h.opening i s).2
  closing i s := (h.closing i s).2
  fresh := h.fresh
  dry := h.dry

/-- Hooks succeed, and leave bodies and queues as they are. -/
theorem welcomes (bodies : List (Body α σ)) (queues : List (Queue α)) :
    Plant.interface.Welcomes fun w : Plant α σ =>
      (Plant.plumbing h.fits).Good w ∧ w.bodies = bodies ∧ w.store.queues = queues := by
  rintro hook i w ⟨hw, hb, hq⟩
  refine ⟨?_, (Plant.plumbing h.fits).hook_good hook i hw, ?_, ?_⟩
  · cases hook with
    | opening =>
      have := (h.opening i w.store).1
      rwa [← hw i, Body.opening_core] at this
    | closing =>
      have := (h.closing i w.store).1
      rwa [← hw i, Body.closing_core] at this
  · rw [Plant.hook_bodies, hb]
  · rw [Plant.hook_queues h.fits hw, hq]

theorem dependable : (Plant.plumbing h.fits).Dependable where
  welcomes hook i w hw := by
    obtain ⟨ho, hg, -⟩ := h.welcomes w.bodies w.store.queues hook i w ⟨hw, rfl, rfl⟩
    exact ⟨ho, hg⟩
  returns {w} i v hw hi := by
    have hc : (Plant.interface.call i v w).1 = ((w.body i).execute v w.store).ending := rfl
    rw [hc]
    rcases h.body_cases hw hi with ⟨-, b, hb, -⟩ | ⟨j, -, -, m, hb, -⟩ | ⟨-, b, hb, -⟩ <;> rw [hb]
    · exact b.execute_ne_suspended v w.store
    · exact m.execute_ne_suspended v w.store
    · exact b.execute_ne_suspended v w.store
  pending_of_clear {w v} hw hv hs hh hc := by
    have hsource : (w.body v).isSource = false := by
      rw [← Body.isSource_core, hw, h.fits.source v hv, hs]
    exact (Body.pending_eq_zero_iff (Plant.isPlain_of_core h.fits hw hv) hsource hh).2 (hc hv)

/-! ### A call of a stage -/

/-- What a map has left over is still there when another stage was called. -/
theorem leftover_call (hi : i ≤ c.length + 1) (hj : j < c.length) (hij : i ≠ j + 1) :
    ((Plant.interface.call (c.stage i) v w).2.2.body (c.stage (j + 1))).leftover =
      (w.body (c.stage (j + 1))).leftover := by
  rw [Plant.body_call_ne fun he => hij (h.stages i hi (j + 1) (by omega) he)]

/-- What the source sends is on the way afterwards. -/
theorem transit_source {b : Source α σ} (hb : w.body (c.stage 0) = .source b)
    (hout : b.output = c.belt 0) (hd : b.Discreet) (v : Visit) :
    let w' := (Plant.interface.call (c.stage 0) v w).2.2
    w.store.Apart w'.store c.queues ∧
      c.onTheWay w' =
        c.onTheWay w ++ ((w.body (c.stage 0)).sends v w.store).map (c.through c.length) := by
  intro w'
  have hstore : w'.store = (b.execute v w.store).store := by
    change ((w.body (c.stage 0)).execute v w.store).store = _
    rw [hb]
    rfl
  have feeds := Source.feeds_execute hd v w.store
  rw [← hstore, hout] at feeds
  refine ⟨feeds.apart.mono (by simpa using c.belt_mem_queues (Nat.zero_le _)), ?_⟩
  refine transit_feed ?_ (fun k hk hkl => ?_) fun k hk =>
    h.leftover_call (Nat.zero_le _) hk (by omega)
  · rw [hb]
    simp only [Body.sends, hout, ← hstore]
    exact (List.prefix_iff_eq_append.1 feeds.grows).symm
  · refine feeds.apart.contents _ fun hm => ?_
    have := h.belts k hkl 0 (Nat.zero_le _) (List.mem_singleton.1 hm)
    omega

/-- What a map takes and what it makes of that are the same on the way. -/
theorem transit_map (hj : j < c.length) {m : Map α σ} (hm : w.body (c.stage (j + 1)) = .map m)
    (hin : m.input = c.belt j) (hout : m.output = c.belt (j + 1)) (hc : m.Computes (c.code j))
    (hbelt : ∀ i ≤ c.length, c.belt i < w.store.queues.length) (v : Visit) :
    let w' := (Plant.interface.call (c.stage (j + 1)) v w).2.2
    w.store.Apart w'.store c.queues ∧ c.onTheWay w' = c.onTheWay w := by
  intro w'
  have hstore : w'.store = (m.execute v w.store).store := by
    change ((w.body (c.stage (j + 1))).execute v w.store).store = _
    rw [hm]
    rfl
  have hbody : w'.body (c.stage (j + 1)) = .map (m.execute v w.store).body := by
    rw [Plant.body_call_self (by rw [hm]; rfl), hm]
    rfl
  have hio : m.input ≠ m.output := fun he => by
    have := h.belts j (by omega) (j + 1) hj (hin.symm.trans (he.trans hout))
    omega
  obtain ⟨batch, apart, input, output⟩ :=
    Map.moves_execute hc.answers hio v (hin ▸ hbelt j (by omega)) (hout ▸ hbelt (j + 1) hj)
  rw [← hstore, hin, hout] at apart
  rw [← hstore, hin] at input
  rw [← hstore, hout, List.filterMap_eq_map'] at output
  refine ⟨apart.mono (by simpa using ⟨c.belt_mem_queues (Nat.le_of_lt hj), c.belt_mem_queues hj⟩),
    ?_⟩
  refine transit_move input ?_ hj (fun k hk hkj hkj' => apart.contents _ fun hm => ?_)
    fun k hk hkj =>
    h.leftover_call (by omega) hk (by omega)
  · rw [hbody, hm]
    exact output
  · rcases List.mem_pair.1 hm with hm | hm
    · exact hkj (h.belts k hk j (by omega) hm)
    · exact hkj' (h.belts k hk (j + 1) hj hm)

/-- What the sink accepts was on the way. -/
theorem transit_sink {b : Sink α σ} (hb : w.body (c.stage (c.length + 1)) = .sink b)
    (hin : b.input = c.belt c.length) (ha : b.Accepts)
    (hbelt : c.belt c.length < w.store.queues.length) (v : Visit) :
    let w' := (Plant.interface.call (c.stage (c.length + 1)) v w).2.2
    w.store.Apart w'.store c.queues ∧ c.onTheWay w = b.accepted v w.store ++ c.onTheWay w' := by
  intro w'
  have hstore : w'.store = (b.execute v w.store).store := by
    change ((w.body (c.stage (c.length + 1))).execute v w.store).store = _
    rw [hb]
    rfl
  obtain ⟨apart, htaken⟩ := Sink.takes_of_accepts ha v (by rwa [hin])
  rw [← hstore, hin] at apart htaken
  refine ⟨apart.mono (by simpa using c.belt_mem_queues (Nat.le_refl _)), ?_⟩
  refine transit_take htaken (fun k hk => apart.contents _ fun hm => ?_) fun k hk =>
    h.leftover_call (Nat.le_refl _) hk (by omega)
  have := h.belts k (by omega) c.length (Nat.le_refl _) (List.mem_singleton.1 hm)
  omega

/-- **A call loses nothing.** What the sink accepts in a call of some stage was on the way, and what
the source sends is on the way afterwards. -/
theorem conserves (hw : ∀ i, (w.body i).core = p.body i)
    (hlen : w.store.queues.length = p.store.queues.length) {i : StageId} (hi : i < g.size)
    (v : Visit) :
    let w' := (Plant.interface.call i v w).2.2
    w.store.Apart w'.store c.queues ∧
      (w.body i).accepts v w.store ++ c.onTheWay w' =
        c.onTheWay w ++ ((w.body i).sends v w.store).map (c.through c.length) := by
  intro w'
  have hbelt : ∀ j ≤ c.length, c.belt j < w.store.queues.length :=
    fun j hj => hlen ▸ h.lt_length j hj
  rcases h.body_cases hw hi with ⟨rfl, b, hb, hout, hd⟩ | ⟨j, hj, rfl, m, hm, hin, hout, hc⟩ |
    ⟨rfl, b, hb, hin, ha⟩
  · obtain ⟨apart, hway⟩ := h.transit_source hb hout hd v
    refine ⟨apart, Eq.trans ?_ hway⟩
    rw [hb]
    rfl
  · obtain ⟨apart, hway⟩ := h.transit_map hj hm hin hout hc hbelt v
    rw [hm]
    exact ⟨apart, hway.trans (List.append_nil _).symm⟩
  · obtain ⟨apart, hway⟩ := h.transit_sink hb hin ha (hbelt c.length (Nat.le_refl _)) v
    rw [hb]
    exact ⟨apart, hway.symm.trans (List.append_nil _).symm⟩

end Lies

end Chain

/-! ### Runs -/

namespace Plant

variable {α σ : Type}

/-- Workers that begin once the sources of a plant have been activated. -/
def atWork (p : Plant α σ) (g : Graph) (sc : Scheduler) : Shift (Plant α σ) :=
  { session := (p.atRest g sc).perform interface (.order .activateAll) }

/-- The parcels that sources have pushed to their output queues in some calls. -/
def sent (calls : List (CallRecord (Plant α σ))) : List α :=
  calls.flatMap fun r => (r.world.body r.stage).sends r.visit r.world.store

/-- The parcels that sinks have accepted in some calls. -/
def accepted (calls : List (CallRecord (Plant α σ))) : List α :=
  calls.flatMap fun r => (r.world.body r.stage).accepts r.visit r.world.store

end Plant

namespace Chain

variable {α σ : Type} {c : Chain α} {g : Graph} {p : Plant α σ} {t t' : Shift (Plant α σ)}
  {crew : WorkerId → Prop}

/-- What the source has sent the sink has accepted, or it is on the way; and only the queues of the
chain are used. -/
structure Conserved (c : Chain α) (p : Plant α σ) (t : Shift (Plant α σ)) : Prop where
  items : Plant.accepted t.calls ++ c.onTheWay t.session.network.world =
    (Plant.sent t.calls).map (c.through c.length)
  apart : p.store.Apart t.session.network.world.store c.queues

namespace Conserved

/-- Nothing but bodies, queues and calls matters. -/
theorem same (cv : Conserved c p t) (hc : t'.calls = t.calls)
    (hb : t'.session.network.world.bodies = t.session.network.world.bodies)
    (hq : ∀ q, t'.session.network.world.store.contents q = t.session.network.world.store.contents q)
    (hl : t'.session.network.world.store.queues.length =
      t.session.network.world.store.queues.length) :
    Conserved c p t' := by
  have hbody : ∀ i, t'.session.network.world.body i = t.session.network.world.body i := fun i => by
    unfold Plant.body
    rw [hb]
  refine ⟨?_, cv.apart.trans ⟨hl, fun q _ => hq q⟩⟩
  rw [hc, ← cv.items]
  congr 1
  exact transit_congr (fun _ _ => hq _) fun _ _ => by rw [hbody]

/-- Where all that is called are hooks everything stays conserved. -/
theorem healthy (cv : Conserved c p t) (h : c.Lies g p) (hc : t'.calls = t.calls)
    (hn : t'.session.network.Healthy fun w => (Plant.plumbing h.fits).Good w ∧
      w.bodies = t.session.network.world.bodies ∧
      w.store.queues = t.session.network.world.store.queues) :
    Conserved c p t' := by
  obtain ⟨-, hb, hq⟩ := hn.world
  exact cv.same hc hb (Store.contents_of_queues hq) (congrArg List.length hq)

variable (h : c.Lies g p)
include h

theorem exec (cv : Conserved c p t) (od : Shift.OnDuty (Plant.plumbing h.fits) crew t)
    (w : WorkerId) :
    Conserved c p (t.perform Plant.interface (.exec w)) := by
  cases hh : t.session.holdOf w with
  | none =>
    have he : t.perform Plant.interface (.exec w) = t := by
      simp only [Shift.perform, Session.exec_of_none hh, Shift.callOf, hh, Option.map_none,
        Option.toList_none, List.append_nil]
    rwa [he]
  | some x =>
    obtain ⟨hm, hw⟩ := Session.mem_of_holdOf hh
    have hsize : x.stage < g.size := by
      rw [← Graph.size_of_bare od.thriving.streaming.flowing.bare]
      exact od.thriving.streaming.tallied.lt_size hm
    have hworld : (t.perform Plant.interface (.exec w)).session.network.world =
        (Plant.interface.call x.stage (t.session.visit x) t.session.network.world).2.2 := by
      simp only [Shift.perform, Session.exec_of_some hh hw, Network.world_call]
    have hcalls : (t.perform Plant.interface (.exec w)).calls =
        t.calls ++ [⟨x.stage, t.session.visit x, t.session.network.world⟩] := by
      simp only [Shift.perform, Shift.callOf, hh, Option.map_some, Option.toList_some]
    obtain ⟨apart, hitems⟩ :=
      h.conserves od.thriving.healthy.world cv.apart.length hsize (t.session.visit x)
    refine ⟨?_, by rw [hworld]; exact cv.apart.trans apart⟩
    rw [hworld, hcalls]
    simp only [Plant.accepted, Plant.sent, List.flatMap_append, List.flatMap_singleton,
      List.map_append, List.append_assoc]
    rw [hitems, ← List.append_assoc]
    exact congrArg (· ++ _) cv.items

theorem perform (cv : Conserved c p t) (wd : g.Wired)
    (od : Shift.OnDuty (Plant.plumbing h.fits) crew t) {m : Move (Plant α σ)}
    (ha : t.Allowed Plant.interface Plant.Tuned crew m) :
    Conserved c p (t.perform Plant.interface m) := by
  have hooks := h.welcomes t.session.network.world.bodies t.session.network.world.store.queues
  have healthy : t.session.network.Healthy fun w => (Plant.plumbing h.fits).Good w ∧
      w.bodies = t.session.network.world.bodies ∧
      w.store.queues = t.session.network.world.store.queues :=
    ⟨⟨od.thriving.healthy.world, rfl, rfl⟩, od.thriving.healthy.failure⟩
  cases m with
  | ask w => exact cv.healthy h rfl (healthy.assign hooks _)
  | exec w => exact cv.exec h od w
  | leave w => exact cv.same rfl rfl (fun _ => rfl) rfl
  | stop => exact cv.same rfl rfl (fun _ => rfl) rfl
  | finishSources =>
    exact cv.healthy h rfl
      ((Network.Healthy.stable hooks).finishSources healthy
        (od.thriving.streaming.sources_lt_size wd))
  | tune world =>
    obtain ⟨q, n, rfl⟩ := ha
    exact cv.same rfl rfl (fun q' => Plant.items_setThreshold _ q q' n)
      (Store.length_queues_setQueue ..)
  | adjust i f m => exact cv.same rfl rfl (fun _ => rfl) rfl

end Conserved

namespace Lies

variable (h : c.Lies g p)
include h

/-! ### The start -/

theorem leftover_eq_nil (i : StageId) : (p.body i).leftover = [] :=
  (Plant.idle_of_fresh (h.fresh i) h.dry).leftover

/-- Activation does nothing to a world but call hooks. -/
theorem healthy_atWork (hg : g.Fresh) (sc : Scheduler) :
    (p.atWork g sc).session.network.Healthy fun w => (Plant.plumbing h.fits).Good w ∧
      w.bodies = p.bodies ∧
      w.store.queues = p.store.queues :=
  (Network.Healthy.stable (h.welcomes p.bodies p.store.queues)).activateAll
    ⟨⟨h.fresh, rfl, rfl⟩, hg.failure⟩

theorem conserved_atWork (hg : g.Fresh) (sc : Scheduler) : Conserved c p (p.atWork g sc) := by
  have start : Conserved c p ({ session := p.atRest g sc } : Shift (Plant α σ)) :=
    ⟨transit_eq_nil (fun j _ => h.dry (c.belt j)) fun j _ => h.leftover_eq_nil _, .refl _ _⟩
  exact start.healthy h rfl (h.healthy_atWork hg sc)

theorem streaming_atWork (wd : g.Wired) (hg : g.Fresh) (sc : Scheduler) :
    (p.atWork g sc).session.Streaming (Plant.plumbing h.fits) :=
  (Plant.streaming_atRest h.fits hg sc).order wd rfl trivial

/-- Activation sets every stage of a chain running, one after the other. -/
theorem running_atWork (wd : g.Wired) (hg : g.Fresh) (sc : Scheduler) {j : Nat}
    (hj : j ≤ c.length + 1) :
    ((p.atWork g sc).session.network.graph.stage (c.stage j)).state = .running := by
  induction j with
  | zero =>
    refine Network.running_activateSources (.inr ⟨h.lt_size 0 hj, ?_, ?_⟩)
    · rw [Stage.dormant, show ((p.atRest g sc).network.graph.stage (c.stage 0)).state = .unopened
        from hg.state _]
      rfl
    · refine (wd.mem_sources _).2 ?_
      rw [h.isSource 0 hj]
      rfl
  | succ j ih =>
    refine (h.streaming_atWork wd hg sc).flowing.running_of_fed (u := c.stage j) ?_ ?_
      (.inl (ih (by omega)))
    · rw [h.isSource (j + 1) hj]
      rfl
    · rw [h.feeders j (by omega)]
      exact List.mem_singleton_self _

theorem onDuty_atWork (wd : g.Wired) (hg : g.Fresh) (sc : Scheduler) (hcrew : ∃ w, crew w) :
    Shift.OnDuty (Plant.plumbing h.fits) crew (p.atWork g sc) where
  thriving :=
    { streaming := h.streaming_atWork wd hg sc
      healthy := ⟨(h.healthy_atWork hg sc).world.1, (h.healthy_atWork hg sc).failure⟩
      alive := fun i hi => by
        rw [Graph.size_of_bare (h.streaming_atWork wd hg sc).flowing.bare] at hi
        obtain ⟨j, hj, rfl⟩ := h.covers i hi
        exact .inl (h.running_atWork wd hg sc hj)
      present := fun x hx => absurd hx List.not_mem_nil }
  holders x hx := absurd hx List.not_mem_nil
  manned := .inl (hcrew.imp fun _ hw => ⟨hw, rfl⟩)

/-! ### The end -/

/-- Throughout somebody is on duty, and nothing is lost. -/
theorem kept (wd : g.Wired) (hg : g.Fresh) (sc : Scheduler) (hcrew : ∃ w, crew w)
    (hr : Shift.Run Plant.interface Plant.Tuned crew (p.atWork g sc) t) :
    Shift.OnDuty (Plant.plumbing h.fits) crew t ∧ Conserved c p t :=
  hr.invariant (P := fun t => Shift.OnDuty (Plant.plumbing h.fits) crew t ∧ Conserved c p t)
    ⟨h.onDuty_atWork wd hg sc hcrew, h.conserved_atWork hg sc⟩
    fun _ _ ⟨od, cv⟩ ha => ⟨od.perform wd h.dependable ha, cv.perform h wd od ha⟩

variable (od : Shift.OnDuty (Plant.plumbing h.fits) crew t) (hgone : ∀ w, crew w → t.post w = .gone)
include od hgone

/-- A stage that has finished has nothing in front of it and nothing left over. -/
theorem idle_of_gone (hj : j ≤ c.length) :
    (t.session.network.world.body (c.stage (j + 1))).Idle t.session.network.world.store := by
  have f := od.thriving.streaming.flowing
  have hsize := h.lt_size (j + 1) (by omega)
  refine f.clear (c.stage (j + 1)) (h.isSource (j + 1) (by omega)) ?_ hsize
  rw [(od.finished hgone _ (by rwa [Graph.size_of_bare f.bare])).1]
  decide

theorem belt_of_gone (hj : j ≤ c.length) : t.session.network.world.store.contents (c.belt j) = [] :=
  (h.idle_of_gone od hgone hj).contents (od.thriving.streaming.flowing.good _) (h.reads hj)

/-- Nothing is in any queue, also in those that are not of the chain. -/
theorem items_of_gone (cv : Conserved c p t) (q : QueueId) :
    (t.session.network.world.store.queue q).items = [] := by
  by_cases hq : q ∈ c.queues
  · obtain ⟨j, hj, rfl⟩ := List.mem_map.1 hq
    exact h.belt_of_gone od hgone (Nat.le_of_lt_succ (List.mem_range.1 hj))
  · exact (cv.apart.contents q hq).trans (h.dry q)

theorem overflow_of_gone (hj : j < c.length) :
    ∃ m, t.session.network.world.body (c.stage (j + 1)) = .map m ∧ m.overflow = [] := by
  obtain ⟨m₀, hm₀, -⟩ := h.map j hj
  obtain ⟨m, hm, -⟩ := Body.map_of_core ((od.thriving.streaming.flowing.good _).trans hm₀)
  refine ⟨m, hm, ?_⟩
  have := (h.idle_of_gone od hgone (Nat.le_of_lt hj)).leftover
  rwa [hm] at this

end Lies

end Chain

/-- Workers of an engine that take their turns leave nothing behind either. -/
theorem Chain.Lies.drained {α σ : Type} {c : Chain α} {parts : List Graph.Part} {p : Plant α σ}
    (h : c.Lies (.ofParts parts) p) (sc : Scheduler) {crew : WorkerId → Prop} (hcrew : ∃ w, crew w)
    {tm : Team (Plant α σ)} (hr : Team.Run Plant.interface Plant.Tuned crew (.hire
      { network := (Network.activateAll ⟨.ofParts parts, p⟩ Plant.interface).2,
        scheduler := sc }) tm)
    (hgone : ∀ w, crew w → (tm.worker w).isGone = true) :
    let n := tm.engine.network
    (∀ i < n.graph.size, (n.graph.stage i).state = .finished ∧ (n.graph.stage i).holders = 0) ∧
      (∀ q, (n.world.store.queue q).items = []) ∧
      ∀ j < c.length, ∃ m, n.world.body (c.stage (j + 1)) = .map m ∧ m.overflow = [] := by
  have wd := Graph.wired_ofParts parts
  have hg := Graph.fresh_ofParts parts
  have start : (p.atWork (.ofParts parts) sc).Mirrors (.hire
      { network := (Network.activateAll ⟨.ofParts parts, p⟩ Plant.interface).2,
        scheduler := sc }) :=
    ⟨rfl, fun _ => ⟨rfl, fun hg => by cases hg⟩, fun _ => rfl⟩
  have streaming := h.streaming_atWork wd hg sc
  obtain ⟨t, hrun, mr⟩ := hr.mirrored start (streaming.flowing.wired wd) streaming.tallied
  obtain ⟨od, cv⟩ := h.kept wd hg sc hcrew hrun
  have left : ∀ w, crew w → t.post w = .gone := by
    intro w hw
    have hd := mr.does w
    have ha := hgone w hw
    unfold Worker.isGone at ha
    split at ha
    · rename_i hact
      rwa [hact] at hd
    · cases ha
  have hn : t.session.network = tm.engine.network := congrArg Engine.network mr.engine
  rw [← hn]
  exact ⟨od.finished left, h.items_of_gone od left cv, fun j hj => h.overflow_of_gone od left hj⟩

/-! ### A run of one worker -/

namespace Shift

variable {W : Type} {B : Bodies W} {Tuned : W → W → Prop} {crew : WorkerId → Prop} {t₀ t : Shift W}
  {w : WorkerId} {n : Network W}

/-- A worker that holds no stage is served in a network. -/
def served (B : Bodies W) (t : Shift W) (w : WorkerId) (n : Network W) : Shift W :=
  let r := t.session.scheduler.handOut B n w
  { t with
    session :=
      { t.session with network := r.2 }.setHold w (r.1.map fun i => { worker := w, stage := i })
    post := t.setPost w (if r.1.isSome then .working else .idle) }

theorem perform_ask (hk : ∀ i, (t.session.holdOf w).map (·.stage) = some i →
      t.session.scheduler.mayKeep B t.session.network w i ((t.session.holdOf w).bind (·.result)) =
        false)
    (hn : t.session.freed B w = n) : t.perform B (.ask w) = t.served B w n := by
  subst hn
  simp only [perform, served, Session.next_of_assign (Scheduler.assign_of_not_keep hk)]

theorem Run.ask (hr : Run B Tuned crew t₀ t) (hw : crew w) (hp : t.post w ≠ .gone)
    (hk : ∀ i, (t.session.holdOf w).map (·.stage) = some i →
      t.session.scheduler.mayKeep B t.session.network w i ((t.session.holdOf w).bind (·.result)) =
        false)
    (hn : t.session.freed B w = n) : Run B Tuned crew t₀ (t.served B w n) := by
  rw [← perform_ask hk hn]
  exact .step (.ask w) hr ⟨hw, hp⟩

theorem Run.exec (hr : Run B Tuned crew t₀ t) (hw : crew w) (hp : t.post w = .working)
    (ho : ∃ r, t.callOf w = some r ∧ ∃ o, (B.call r.stage r.visit r.world).1 = .returned o) :
    Run B Tuned crew t₀ (t.perform B (.exec w)) := by
  refine .step (.exec w) hr ⟨⟨hw, hp⟩, fun r' p hr' he => ?_⟩
  obtain ⟨r, hr, o, ho⟩ := ho
  rw [hr] at hr'
  cases hr'
  rw [ho] at he
  cases he

end Shift

/-- A source, a map and a sink. -/
def adderParts : List Graph.Part :=
  [.stage "in" .source false, .stage "add" .interior true, .stage "out" .sink false, .edge 0 1,
    .edge 1 2, .source 0]

theorem links_adderParts : (Graph.ofParts adderParts).Links [0, 1, 2] := by
  refine ⟨rfl, rfl, rfl, rfl, rfl⟩

/-- A source of sevens, a map that adds one, and a sink that accepts everything. -/
def adder : Plant Nat Unit where
  bodies :=
    [.source { producer := { poll := fun s => (.item 7, s) }, output := 0 },
      .map { apply := fun a s => (.ok (a + 1), s), input := 0, output := 1 },
      .sink { processors := [{ process := fun _ s => (.ok (), s) }], input := 1 }]
  store := { queues := [.bounded "raw" 4, .bounded "sums" 4], env := () }

namespace Adder

def scheduler : Scheduler := ⟨.sticky 8, 1⟩

def start : Shift (Plant Nat Unit) := adder.atWork (.ofParts adderParts) scheduler

/-- The network once all stages have been opened. -/
def opened : Network (Plant Nat Unit) :=
  let n₁ := Network.openOne ⟨.ofParts adderParts, adder⟩ Plant.interface 0 none
  let n₂ := n₁.2.openOne Plant.interface 1 none
  (n₂.2.openOne Plant.interface 2 none).2

/-- The network after the worker has given back a stage with success. -/
def returned (t : Shift (Plant Nat Unit)) (i : StageId) : Network (Plant Nat Unit) :=
  (t.session.network.surrender Plant.interface i (scheduler.caller 0) (some .success)).2

/-- A map or a sink has finished because nothing more will come. -/
def settled (n : Network (Plant Nat Unit)) (i : StageId) : Network (Plant Nat Unit) :=
  (n.complete Plant.interface i (some (scheduler.caller 0))).2

/-- The worker is served in a network, and calls what it is given. -/
def turn (t : Shift (Plant Nat Unit)) (n : Network (Plant Nat Unit)) : Shift (Plant Nat Unit) :=
  (t.served Plant.interface 0 (n.mapGraph (·.clearStreak 0))).perform Plant.interface (.exec 0)

/-- The worker has called the source, and a stop was requested. -/
def stopped : Shift (Plant Nat Unit) :=
  ([.ask 0, .exec 0, .stop] : List (Move _)).foldl (Shift.perform Plant.interface)
    { session := ⟨opened, scheduler, []⟩ }

/-- The source has finished. -/
def drained : Shift (Plant Nat Unit) :=
  { stopped with
    session := { stopped.session with
      network := (Network.completeEach Plant.interface [0] stopped.session.network).2 } }

/-- The worker has called the map. -/
def added : Shift (Plant Nat Unit) := turn drained (returned drained 0)

/-- The worker has called the sink. -/
def shown : Shift (Plant Nat Unit) := turn added (settled (returned added 1) 1)

end Adder

end Pipework
