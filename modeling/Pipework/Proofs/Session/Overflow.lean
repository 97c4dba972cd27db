import Pipework.Proofs.Session.Arrival

/-!
# What a stop may lose

Every stage but the source is only finished when nothing is waiting for it. The source does not say
that a parcel waits in its overflow, and it is finished from outside at any moment. So once the
stages after the source do not run any more, all that has been polled has arrived except for the
parcel in the overflow of the source (`missing_is_overflow`): it is lost if the source was finished
before there was room (`finishSources_loses_overflow`).
-/

namespace Pipework

/-! ### Ledgers of some events -/

namespace Ledger

variable {W : Type} {B : Bodies W} {allowed : Session W → Event W → Prop} {Tuned : W → W → Prop}
  {l₀ l : Ledger W}

/-- The ledgers that can be reached by sound events, if these are allowed. -/
inductive Reached (B : Bodies W) (allowed : Session W → Event W → Prop) (l₀ : Ledger W) :
    Ledger W → Prop where
  | start : Reached B allowed l₀ l₀
  | step {l : Ledger W} (e : Event W) : Reached B allowed l₀ l → l.session.Sound e →
    allowed l.session e →
    Reached B allowed l₀ (l.perform B e)

/-- If nothing is entered, this is a run of the session. -/
theorem Reached.session (hr : Reached B allowed l₀ l) :
    Session.Run B allowed l₀.session l.session := by
  induction hr with
  | start => exact .start
  | step e _ hsound hallowed ih => exact ih.step e hsound hallowed

theorem Reached.run (hr : Reached B allowed l₀ l) (ht : ∀ s e, allowed s e → Tunes Tuned s e) :
    Run B Tuned l₀ l := by
  induction hr with
  | start => exact .start
  | step e _ hsound hallowed ih => exact ih.step e hsound (ht _ e hallowed)

/-- Where only sources are paused or finished the world is tuned at most. -/
theorem tunes_of_mild {s : Session W} {e : Event W} (h : s.Mild Tuned e) : Tunes Tuned s e := by
  rintro world rfl
  exact h

end Ledger

/-! ### The end of a route -/

namespace Route

variable {α σ : Type} {c : Route α} {g : Graph} {p w : Plant α σ} {l : Ledger (Plant α σ)} {j : Nat}

/-- A route all of whose stages are stages of a graph, which is wired so that each of them is fed by
the one before it. -/
structure Leads (c : Route α) (g : Graph) (p : Plant α σ) : Prop where
  lies : c.Lies g p
  fits : p.Fits g
  lt_size : ∀ j ≤ c.length + 1, c.stage j < g.size

namespace Leads

variable (h : c.Leads g p)
include h

/-- The body of a stage that is no source is that of a map or of the sink. -/
theorem body_succ (hj : j ≤ c.length) :
    (p.body (c.stage (j + 1))).reads = some (c.belt j) ∧
    (p.body (c.stage (j + 1))).isSource = false := by
  rcases Nat.lt_or_ge j c.length with hl | hl
  · obtain ⟨m, hm, hin, -, -⟩ := h.lies.map j hl
    rw [hm, ← hin]
    exact ⟨rfl, rfl⟩
  · obtain rfl : j = c.length := by omega
    obtain ⟨b, hb, hin, -⟩ := h.lies.sink
    rw [hb, ← hin]
    exact ⟨rfl, rfl⟩

theorem isSource_succ (hj : j ≤ c.length) : (g.stage (c.stage (j + 1))).isSource = false := by
  rw [← h.fits.source _ (h.lt_size (j + 1) (by omega))]
  exact (h.body_succ hj).2

/-- No body of a route keeps anything to itself. -/
theorem honest (hw : ∀ i, (w.body i).core = p.body i) {i : StageId} (hi : i < g.size) :
    (w.body i).Honest := by
  rcases h.lies.joins.body_cases hw hi with ⟨-, b, hb, -⟩ | ⟨j, -, -, m, hb, -⟩ | ⟨-, b, hb, -⟩ <;>
    rw [hb] <;> trivial

/-- A call may also panic: no work is stranded. -/
theorem streaming_perform (wd : g.Wired) {s : Session (Plant α σ)}
    (st : s.Streaming (Plant.plumbing h.fits)) {e : Event (Plant α σ)} (he : s.Sound e)
    (hm : s.Mild Plant.Tuned e) :
    (s.perform Plant.interface e).Streaming (Plant.plumbing h.fits) := by
  refine st.perform_mild wd he hm fun k x _ _ hx _ => ?_
  have hsize : x.stage < g.size := by
    rw [← Graph.size_of_bare st.flowing.bare]
    exact st.tallied.lt_size (Session.mem_of_holdOf hx).1
  exact h.honest ((Plant.plumbing h.fits).call_good x.stage _ st.flowing.good hsize) hsize

variable (st : l.session.Streaming (Plant.plumbing h.fits))
  (hend : ∀ j ≤ c.length, (l.session.network.graph.stage (c.stage (j + 1))).state ≠ .running)
include st hend

theorem idle_of_end (hj : j ≤ c.length) :
    (l.session.network.world.body (c.stage (j + 1))).Idle l.session.network.world.store :=
  st.flowing.clear (c.stage (j + 1)) (h.isSource_succ hj) (hend j hj) (h.lt_size (j + 1) (by omega))

theorem belt_of_end (hj : j ≤ c.length) : l.session.network.world.store.contents (c.belt j) = [] :=
  (h.idle_of_end st hend hj).contents (st.flowing.good _) (h.body_succ hj).1

theorem waiting_of_end (hj : j ≤ c.length) :
    (l.session.network.world.body (c.stage (j + 1))).waiting = [] := by
  have hleft := (h.idle_of_end st hend hj).leftover
  have hsource := (h.body_succ hj).2
  rw [← st.flowing.good (c.stage (j + 1)), Body.isSource_core] at hsource
  cases hb : l.session.network.world.body (c.stage (j + 1)) with
  | source b =>
    rw [hb] at hsource
    cases hsource
  | _ => rwa [hb] at hleft

/-- All that is still on the way is what waits in the source. -/
theorem onTheWay_of_end : c.onTheWay l.session.network.world =
    ((l.session.network.world.body (c.stage 0)).waiting).filterMap (c.arrival 0) := by
  unfold onTheWay
  rw [backwards_eq_first fun j hj hjl => ?_, column, h.belt_of_end st hend (Nat.zero_le _),
    List.nil_append]
  obtain ⟨i, rfl⟩ := Nat.exists_eq_succ_of_ne_zero (Nat.ne_of_gt hj)
  rw [column, h.belt_of_end st hend hjl, h.waiting_of_end st hend (Nat.le_of_succ_le hjl)]
  rfl

end Leads

end Route

/-- **Only the overflow of the source is missing.** Take a source, maps and a sink that are joined
by queues of their own to a route, in a graph that is built out of any parts and wired so that each
stage is fed by the one before it, and any run in which any workers ask for stages, call them and
give them back, and sources are activated, paused and finished, in any order. Once none of the
stages after the source runs any more, nothing is in any queue and nothing waits in any map. Then
what the sink has accepted is what becomes of all that has been polled, but for the parcel in the
overflow of the source; so nothing is missing exactly if there is no such parcel, or it would not
have arrived either. -/
theorem missing_is_overflow {α σ : Type} (c : Route α) (parts : List Graph.Part) (p : Plant α σ)
    (sc : Scheduler) (h : c.Leads (.ofParts parts) p) {l : Ledger (Plant α σ)}
    (hr : Ledger.Reached Plant.interface (Session.Mild Plant.Tuned)
      { session := p.atRest (.ofParts parts) sc } l)
    (hend : ∀ j ≤ c.length, (l.session.network.graph.stage (c.stage (j + 1))).state ≠ .running) :
    let w := l.session.network.world
    (∀ j ≤ c.length, w.store.contents (c.belt j) = [] ∧ (w.body (c.stage (j + 1))).waiting = []) ∧
      ∃ b, w.body (c.stage 0) = .source b ∧
        Plant.accepted l.calls ++ (b.overflow.bind (c.arrival 0)).toList =
          (Plant.polled l.calls).filterMap (c.arrival 0) ∧
        (Plant.accepted l.calls = (Plant.polled l.calls).filterMap (c.arrival 0) ↔
          b.overflow.bind (c.arrival 0) = none) := by
  intro w
  have wd := Graph.wired_ofParts parts
  have st : l.session.Streaming (Plant.plumbing h.fits) :=
    hr.session.invariant (Plant.streaming_atRest h.fits (Graph.fresh_ofParts parts) sc)
      fun _ _ st he hm => h.streaming_perform wd st he hm
  have ordered := h.lies.ordered_run (hr.run fun _ _ => Ledger.tunes_of_mild)
  obtain ⟨b₀, hb₀, -⟩ := h.lies.source
  obtain ⟨b, hb, -⟩ := Body.source_of_core ((ordered.core (c.stage 0)).trans hb₀)
  have hway : c.onTheWay w = (b.overflow.bind (c.arrival 0)).toList := by
    rw [h.onTheWay_of_end st hend, hb, Body.waiting]
    cases b.overflow with
    | none => rfl
    | some a =>
      rw [Option.toList_some, Option.bind_some]
      cases ha : c.arrival 0 a <;> simp [ha]
  have parcels := ordered.parcels
  rw [hway] at parcels
  refine ⟨fun j hj => ⟨h.belt_of_end st hend hj, h.waiting_of_end st hend hj⟩, b, hb, parcels, ?_⟩
  rw [← parcels, List.self_eq_append_right, Option.toList_eq_nil_iff]

/-! ### A parcel that is lost -/

/-- A worker asks and calls what it is given. -/
theorem Ledger.Reached.turn {W : Type} {B : Bodies W} {Tuned : W → W → Prop} {l₀ l : Ledger W}
    (hr : Reached B (Session.Mild Tuned) l₀ l) (w : WorkerId) (hw : l.session.Present w) :
    Reached B (Session.Mild Tuned) l₀ ((l.perform B (.next w)).perform B (.exec w)) :=
  (hr.step (.next w) hw trivial).step (.exec w) trivial trivial

/-- A source that feeds a sink. -/
def spillParts : List Graph.Part :=
  [.stage "in" .source false, .stage "out" .sink false, .edge 0 1, .source 0, .sink 1]

/-- A source of all numbers and a sink that accepts them, with room for one number between them. -/
def spill : Plant Nat Nat where
  bodies :=
    [.source
      { producer := { poll := fun s => (.item s.env, { s with env := s.env + 1 }) }, output := 0 },
      .sink { processors := [{ process := fun _ s => (.ok (), s) }], input := 0 }]
  store := { queues := [.bounded "raw" 1], env := 0 }

def spillRoute : Route Nat := { stage := id, belt := id, codes := [], tests := [fun _ => true] }

theorem leads_spill : spillRoute.Leads (.ofParts spillParts) spill where
  lies :=
    { covers := fun i hi => ⟨i, Nat.le_of_lt_succ hi, rfl⟩
      stages := fun _ _ _ _ h => h
      belts := fun _ _ _ _ h => h
      lt_length := by decide
      source := ⟨_, rfl, rfl, fun _ => rfl⟩
      map := fun _ hj => absurd hj (Nat.not_lt_zero _)
      sink := ⟨_, rfl, rfl, .cons (fun _ _ => ⟨rfl, rfl⟩) .nil⟩
      opening := by rintro (_ | _ | _) s <;> rfl
      closing := by rintro (_ | _ | _) s <;> rfl
      fresh := by rintro (_ | _ | _) <;> rfl
      dry := by decide }
  fits :=
    { plain := by decide
      source := by decide
      fed := by
        intro u v q hu hv hs hq hf
        rw [show (Graph.ofParts spillParts).size = 2 by decide] at hu hv
        obtain rfl | rfl : v = 0 ∨ v = 1 := by omega
        · exact absurd hs (by decide)
        · obtain rfl | rfl : u = 0 ∨ u = 1 := by omega
          · exact absurd (by decide) hf
          · exact fun p hp a s hd => by
              rw [List.mem_singleton.1 hp]
              exact hd
      opening := by rintro (_ | _ | _) s <;> rfl
      closing := by rintro (_ | _ | _) s <;> rfl
      fresh := by rintro (_ | _ | _) <;> rfl
      dry := by rintro (_ | _) <;> rfl }
  lt_size j hj := Nat.lt_succ_of_le hj

namespace Spill

def scheduler : Scheduler := ⟨.sticky 8, 1⟩

def start : Ledger (Plant Nat Nat) := { session := spill.atRest (.ofParts spillParts) scheduler }

/-- The network once both stages have been opened. -/
def opened : Network (Plant Nat Nat) :=
  let n := Network.openOne ⟨.ofParts spillParts, spill⟩ Plant.interface 0 none
  (n.2.openOne Plant.interface 1 none).2

/-- The worker has called the source twice, and the second number has found no room. -/
def filled : Ledger (Plant Nat Nat) :=
  ([.next 0, .exec 0, .next 0, .exec 0] : List (Event _)).foldl (Ledger.perform Plant.interface)
    { session := ⟨opened, scheduler, []⟩ }

/-- The source has been finished. -/
def stopped : Ledger (Plant Nat Nat) :=
  { filled with
    session := { filled.session with
      network := (Network.completeEach Plant.interface [0] filled.session.network).2 } }

/-- The worker has given the source back. -/
def left : Ledger (Plant Nat Nat) :=
  let n :=
    (stopped.session.network.surrender Plant.interface 0 (scheduler.caller 0)
      (some .comeBackLater)).2
  { stopped with session := ⟨n.mapGraph (·.clearStreak 0), scheduler, []⟩ }

/-- The worker has called the sink. -/
def shown : Ledger (Plant Nat Nat) :=
  ([.next 0, .exec 0] : List (Event _)).foldl (Ledger.perform Plant.interface) left

/-- The worker has given the sink back, which has finished because nothing more will come. -/
def ended : Ledger (Plant Nat Nat) :=
  let n :=
    (shown.session.network.surrender Plant.interface 1 (scheduler.caller 0) (some .success)).2
  let n := (n.complete Plant.interface 1 (some (scheduler.caller 0))).2
  { shown with session := ⟨n.mapGraph (·.clearStreak 0), scheduler, []⟩ }

theorem activateAll_start :
    start.perform Plant.interface (.order .activateAll) = { session := ⟨opened, scheduler, []⟩ } :=
  Ledger.perform_activateAll rfl (show (Graph.ofParts spillParts).Links [0, 1] from ⟨rfl, rfl, rfl⟩)
    (by decide) (by decide)

theorem finishSources_filled :
    filled.perform Plant.interface (.order .finishSources) = stopped := by
  have h : (filled.session.network.finishSources Plant.interface).2 = stopped.session.network := by
    refine (Network.settleEach_cons 0 [] [1] (by decide) (by decide)).trans ?_
    refine (Network.settleEach_cons 1 [] [] (by decide) (by decide)).trans ?_
    exact Network.settleEach_nil ..
  exact congrArg (fun n => { filled with session := { filled.session with network := n } }) h

theorem release_stopped : stopped.perform Plant.interface (.release 0) = left := by
  have h : (Scheduler.giveBack scheduler Plant.interface stopped.session.network 0 0
    (some .comeBackLater)) =
      left.session.network := by
    refine congrArg (Network.mapGraph · (·.clearStreak 0)) ?_
    refine (Network.settleEach_cons 0 [] [1] (by decide) (by decide)).trans ?_
    refine (Network.settleEach_cons 1 [] [] (by decide) (by decide)).trans ?_
    exact Network.settleEach_nil ..
  exact congrArg (fun n => { stopped with session := ⟨n, scheduler, []⟩ }) h

theorem release_shown : shown.perform Plant.interface (.release 0) = ended := by
  have h :
      (Scheduler.giveBack scheduler Plant.interface shown.session.network 0 1 (some .success)) =
      ended.session.network := by
    refine congrArg (Network.mapGraph · (·.clearStreak 0)) ?_
    refine (Network.settleEach_cons 1 [] [] (by decide) (by decide)).trans ?_
    exact Network.settleEach_nil ..
  exact congrArg (fun n => { shown with session := ⟨n, scheduler, []⟩ }) h

theorem reached_ended : Ledger.Reached Plant.interface (Session.Mild Plant.Tuned) start ended := by
  have h₁ : Ledger.Reached Plant.interface (Session.Mild Plant.Tuned) start
      (start.perform Plant.interface (.order .activateAll)) :=
      .step (.order .activateAll) .start rfl trivial
  rw [activateAll_start] at h₁
  have h₂ : Ledger.Reached Plant.interface (Session.Mild Plant.Tuned) start filled :=
    (h₁.turn 0 (by decide)).turn 0 (by decide)
  have h₃ := h₂.step (.order .finishSources) rfl trivial
  rw [finishSources_filled] at h₃
  have h₄ := h₃.step (.release 0) (by decide) trivial
  rw [release_stopped] at h₄
  have h₅ : Ledger.Reached Plant.interface (Session.Mild Plant.Tuned) start shown :=
    h₄.turn 0 (by decide)
  have h₆ := h₅.step (.release 0) (by decide) trivial
  rwa [release_shown] at h₆

end Spill

/-- The second of two numbers is in the overflow of the source, and the sink has accepted the first
one. -/
theorem missing_is_overflow_spill :
    spillRoute.Leads (.ofParts spillParts) spill ∧
      Ledger.Reached Plant.interface (Session.Mild Plant.Tuned) Spill.start Spill.ended ∧
      Plant.polled Spill.ended.calls = [0, 1] ∧
      ∃ b, Spill.ended.session.network.world.body 0 = .source b ∧ b.overflow.toList = [1] ∧
        Plant.accepted Spill.ended.calls ++ b.overflow.toList = [0, 1] := by
  have hend : ∀ j ≤ spillRoute.length,
      (Spill.ended.session.network.graph.stage (spillRoute.stage (j + 1))).state ≠ .running := by
        decide +kernel
  have hpolled : Plant.polled Spill.ended.calls = [0, 1] := by decide
  have hwaiting : (Spill.ended.session.network.world.body (spillRoute.stage 0)).waiting = [1] := by
    decide +kernel
  obtain ⟨-, b, hb, hitems, -⟩ :=
    missing_is_overflow spillRoute spillParts spill Spill.scheduler leads_spill
      Spill.reached_ended hend
  have hoverflow : b.overflow.toList = [1] := (congrArg Body.waiting hb).symm.trans hwaiting
  refine ⟨leads_spill, Spill.reached_ended, hpolled, b, hb, hoverflow, ?_⟩
  rw [hpolled] at hitems
  have hbind : b.overflow.bind (spillRoute.arrival 0) = b.overflow := by
    cases b.overflow <;> rfl
  rw [hbind] at hitems
  exact hitems

/-- **A stop may lose a parcel.** The source is finished while the second number waits in its
overflow. In the end both stages have finished and nobody holds them, but only the first number has
arrived. -/
theorem finishSources_loses_overflow :
    let n := Spill.ended.session.network
    spillRoute.Leads (.ofParts spillParts) spill ∧
      Ledger.Reached Plant.interface (Session.Mild Plant.Tuned) Spill.start Spill.ended ∧
      (∀ i < n.graph.size, (n.graph.stage i).state = .finished ∧ (n.graph.stage i).holders = 0) ∧
      Plant.polled Spill.ended.calls = [0, 1] ∧ Plant.accepted Spill.ended.calls = [0] := by
  refine ⟨leads_spill, Spill.reached_ended, ?_, ?_, ?_⟩
  · decide +kernel
  · decide
  · decide

end Pipework
