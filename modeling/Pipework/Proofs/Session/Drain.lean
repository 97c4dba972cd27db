import Pipework.Engine
import Pipework.Proofs.Network.Health
import Pipework.Proofs.Session.Flow

/-!
# Workers that leave

A `Shift` is a session with workers that go on asking and calling until they find nothing and may
leave: after a stop was requested, or once every stage has finished. Asking, calling and leaving are
moves of their own, and so are the two steps of a request to stop, so that they may be taken in any
order.

A worker leaves too early if it strands work. What rules that out is `OnDuty`: as long as a stage
runs, somebody is still working. The last worker that finds nothing finds nobody at a stage, so that
every running stage is settled, and settles them all (`Flowing.idle_settle`). Hence every stage has
finished when everybody has left (`OnDuty.finished`).
-/

namespace Pipework

/-- What is known besides of bodies that never get stuck: hooks succeed, calls come back, and a
stage for which nothing is waiting says so. -/
structure Plumbing.Dependable {W : Type} {B : Bodies W} {g : Graph} (pl : Plumbing B g) : Prop where
  welcomes : B.Welcomes pl.Good
  returns : ∀ {w} i visit, pl.Good w → i < g.size → (B.call i visit w).1 ≠ .suspended
  pending_of_clear : ∀ {w v}, pl.Good w → v < g.size → (g.stage v).isSource = false →
    pl.Honest v w → pl.Clear v w →
    B.pending v w = 0

/-! ### Settling what is left -/

namespace Flowing

variable {W : Type} {B : Bodies W} {g : Graph} {pl : Plumbing B g} {n : Network W} {i j : StageId}
  {c : Option Caller} {S S' : StageId → Prop}
variable (w : g.Wired)
include w

theorem settling_alive (pl : Plumbing B g) (S : StageId → Prop) :
    Settling B fun n => Flowing pl S [] n ∧ n.graph.Alive where
  pauses h hs hf := absurd (h.2.feeders_finished (h.1.wired w) h.1.counted hs) hf
  finishes c h hs hf :=
    ⟨(settling w pl S).finishes c h.1 hs hf,
      h.2.complete (Graph.lt_size_of_state_ne (by simp [Network.state_of_settled hs]))⟩

theorem alive_finishSources (f : Flowing pl S [] n) (ha : n.graph.Alive) :
    (n.finishSources B).2.graph.Alive :=
  ((settling_alive w pl S).settle
    ⟨f.completeEach w (f.isSource_of_mem_sources w),
      ha.completeEach fun _ => (f.wired w).lt_size_of_mem_sources⟩).2

theorem alive_giveBack (f : Flowing pl S [] n) (ha : n.graph.Alive) (hi : i < n.graph.size)
    (sc : Scheduler) (wk : WorkerId) (result : Option Outcome)
    (hr : result = some .finished → (g.stage i).isSource = true) (hS : ∀ v, S' v → S v)
    (hu : ∀ v, (n.graph.stage v).holders - (if i = v then 1 else 0) = 0 → S' v) :
    (sc.giveBack B n wk i result).graph.Alive :=
  ((settling_alive w pl S').handBack
    ⟨f.surrender w (sc.caller wk) result hr hS hu, ha.surrender hi (sc.caller wk) result⟩).2.alike
    (Network.alike_clearStreak _ wk)

variable (hd : pl.Dependable)
include hd

omit w in
/-- A settled stage stays settled when another one is completed. -/
theorem settled_complete (f : Flowing pl S [] n) (f' : Flowing pl S [] (n.complete B i c).2)
    (hi : i < n.graph.size) (hij : i ≠ j) (hs : n.settled B j = true) :
    (n.complete B i c).2.settled B j = true := by
  have hb : (n.complete B i c).2.graph.bare = n.graph.bare := n.bare_complete B i c
  have hstate : ∀ k, ((n.complete B i c).2.graph.stage k).state =
      if i = k then .finished else (n.graph.stage k).state :=
    fun k => Network.state_complete hi B k c
  obtain ⟨hh, hr, hsource, -, hfeeders, -⟩ := Network.settled_iff.1 hs
  obtain ⟨-, hclear, hquiet⟩ := f.cut_off hs
  have hj : j < g.size := by
    rw [← Graph.size_of_bare f.bare]
    exact Graph.lt_size_of_state_ne (by simp [hr])
  have hh' : ((n.complete B i c).2.graph.stage j).holders = 0 := by rwa [n.holders_complete]
  refine Network.settled_iff.2 ⟨hh', ?_, ?_, ?_, fun u hu => ?_, ?_⟩
  · rw [hstate, if_neg hij, hr]
  · rwa [Graph.isSource_of_bare hb]
  · rw [f'.counted.feeders, List.countP_eq_zero]
    intro u hu
    rw [Graph.feeders_of_bare hb, Graph.feeders_of_bare f.bare] at hu
    rw [hstate]
    split
    · simp
    · simpa using (hquiet u hu).1
  · rw [Graph.feeders_of_bare hb] at hu
    rw [n.holders_complete]
    exact hfeeders u hu
  · rw [Graph.isSource_of_bare f.bare] at hsource
    refine hd.pending_of_clear f'.good hj hsource (f'.honest j (f'.unheld j hh')) ?_
    exact (Plumbing.Spared.complete pl n i c).clear j f.good hclear

/-- If every running stage is settled, none runs any more once they are. -/
theorem idle_settle (f : Flowing pl S [] n) (ha : n.graph.Alive)
    (h : ∀ i, (n.graph.stage i).state = .running → n.settled B i = true) (i : StageId) :
    ((n.settle B (Scheduler.idle B n) c).2.graph.stage i).state ≠ .running := by
  refine (settling_alive w pl S).idle_settle ⟨f, ha⟩ (fun {m k i} hm hk hki hi => ?_) h i
  rcases m.settleOne_cases B k c with ⟨hs, hf, he⟩ | ⟨hs, hf, -⟩ | ⟨hns, -⟩
  · have hks : k < m.graph.size := Graph.lt_size_of_state_ne (by simp [Network.state_of_settled hs])
    rw [he]
    exact hm.1.settled_complete hd ((settling w pl S).finishes c hm.1 hs hf) hks hki hi
  · exact absurd (hm.2.feeders_finished (hm.1.wired w) hm.1.counted hs) hf
  · exact absurd (hk.symm.trans hns) (by decide)

end Flowing

/-! ### Knobs and counts -/

/-- The stage with other knobs, and with something else counted. -/
def Stage.adjust (f : Knobs → Knobs) (m : StageMetrics → StageMetrics) (s : Stage) : Stage :=
  { s with knobs := f s.knobs, metrics := m s.metrics }

theorem Graph.Alike.adjust (g : Graph) (i : StageId) (f : Knobs → Knobs)
    (m : StageMetrics → StageMetrics) :
    g.Alike (g.modify i (.adjust f m)) :=
  .modify g i (fun _ => rfl) (fun _ => rfl) fun _ => rfl

/-! ### Sessions in which nobody is away -/

namespace Session

/-- Changes the knobs and the counts of a stage. -/
def adjust {W : Type} (s : Session W) (i : StageId) (f : Knobs → Knobs)
    (m : StageMetrics → StageMetrics) : Session W :=
  { s with network := s.network.mapGraph (·.modify i (.adjust f m)) }

theorem holders_adjust {W : Type} (s : Session W) (i : StageId) (f : Knobs → Knobs)
    (m : StageMetrics → StageMetrics) (j : StageId) :
    ((s.adjust i f m).network.graph.stage j).holders = (s.network.graph.stage j).holders :=
  Graph.map_stage_modify Stage.holders (f := .adjust f m) (fun _ => rfl) i j

theorem Tallied.adjust {W : Type} {s : Session W} (t : s.Tallied) (i : StageId) (f : Knobs → Knobs)
    (m : StageMetrics → StageMetrics) : (s.adjust i f m).Tallied :=
  ⟨t.workers, fun j => (s.holders_adjust i f m j).trans (t.holders j)⟩

variable {W : Type} {B : Bodies W} {g : Graph} {pl : Plumbing B g} {s : Session W} {w : WorkerId}

/-- No work is stranded, nothing has failed, no stage is paused, and every worker has returned from
its last call. -/
structure Thriving (pl : Plumbing B g) (s : Session W) : Prop where
  streaming : Streaming pl s
  healthy : s.network.Healthy pl.Good
  alive : s.network.graph.Alive
  present : ∀ h ∈ s.holds, h.away = false

namespace Thriving

variable (th : Thriving pl s)
include th

theorem present_of_holdOf (w : WorkerId) : s.Present w :=
  fun h hh => th.present h (mem_of_holdOf hh).1

theorem healthy_freed (hd : pl.Dependable) (w : WorkerId) : (s.freed B w).Healthy pl.Good :=
  th.healthy.freed hd.welcomes _

theorem alive_freed (wd : g.Wired) (w : WorkerId) : (s.freed B w).graph.Alive := by
  unfold Session.freed
  cases hh : s.holdOf w with
  | none => exact th.alive.alike (s.network.alike_clearStreak w)
  | some h =>
    have hm := (mem_of_holdOf hh).1
    refine th.streaming.flowing.alive_giveBack wd th.alive (th.streaming.tallied.lt_size hm)
      s.scheduler w h.result (th.streaming.results h hm)
      (fun v => attended_of_others (th.present_of_holdOf w) th.streaming.tallied) fun v hv =>
      attended_of_tally ?_
    rw [th.streaming.tallied.holders, th.streaming.tallied.tally_others hh] at hv
    exact (Nat.add_sub_cancel ..).symm.trans hv

theorem next (wd : g.Wired) (hd : pl.Dependable) (w : WorkerId) : Thriving pl (s.next B w).2 := by
  have streaming := th.streaming.next wd (th.present_of_holdOf w)
  have healthy : (s.next B w).2.network.Healthy pl.Good := th.healthy.assign hd.welcomes _
  have flowing := th.streaming.freed (B := B) wd (th.present_of_holdOf w)
  have alive := th.alive_freed (B := B) wd w
  have present : ∀ h ∈ s.others w, h.away = false := fun h hm => th.present h (mem_others.1 hm).1
  have taken : ∀ i, ∀ h ∈ ({ worker := w, stage := i } : Hold) :: s.others w, h.away = false := by
    intro i h hm
    rcases List.mem_cons.1 hm with rfl | hm
    · rfl
    · exact present h hm
  rcases s.next_cases B w with ⟨h, -, -, he⟩ | ⟨i, -, -, -, he⟩ | ⟨-, he⟩ | ⟨-, -, he⟩ <;>
    rw [he] at streaming healthy ⊢
  · exact ⟨streaming, healthy, th.alive.alike (s.network.alike_keep w h.stage), taken h.stage⟩
  · exact ⟨streaming, healthy, alive.alike (Network.alike_take _ w i), taken i⟩
  · exact ⟨streaming, healthy, alive, present⟩
  · exact ⟨streaming, healthy, ((Flowing.settling_alive wd pl _).settle ⟨flowing, alive⟩).2,
      present⟩

theorem exec (hd : pl.Dependable) (ha : Steady B pl.Tuned s (.exec w)) :
    Thriving pl (s.exec B w).2 := by
  have streaming := th.streaming.exec fun h p hh hp => absurd hp (ha h p hh)
  cases hh : s.holdOf w with
  | none =>
    rw [exec_of_none hh]
    exact th
  | some h =>
    obtain ⟨hm, hw⟩ := mem_of_holdOf hh
    have hsize : h.stage < g.size := by
      rw [← Graph.size_of_bare th.streaming.flowing.bare]
      exact th.streaming.tallied.lt_size hm
    obtain ⟨o, ho⟩ : ∃ o, (s.network.call B h.stage (s.visit h)).1 = some o := by
      have hret := hd.returns h.stage (s.visit h) th.healthy.world hsize
      rw [s.network.outcome_call]
      cases hc : (B.call h.stage (s.visit h) s.network.world).1 with
      | returned o => exact ⟨o, rfl⟩
      | panicked p => exact absurd hc (ha h p hh)
      | suspended => exact absurd hc hret
    have healthy : (s.network.call B h.stage (s.visit h)).2.2.Healthy pl.Good := by
      obtain ⟨m, hg⟩ := s.network.call_graph B h.stage (s.visit h)
      refine ⟨?_, by rw [hg]; exact th.healthy.failure⟩
      rw [Network.world_call]
      exact pl.call_good h.stage (s.visit h) th.healthy.world hsize
    rw [exec_of_some hh hw] at streaming ⊢
    refine ⟨streaming, healthy, th.alive.alike (s.network.alike_call B h.stage _), fun x hx => ?_⟩
    rcases List.mem_cons.1 hx with rfl | hx
    · simp only [ho, Option.isNone_some]
    · exact th.present x (mem_others.1 hx).1

theorem finishSources (wd : g.Wired) (hd : pl.Dependable) :
    Thriving pl (s.perform B (.order .finishSources)) where
  streaming := th.streaming.order wd rfl trivial
  healthy :=
    (Network.Healthy.stable hd.welcomes).finishSources th.healthy (th.streaming.sources_lt_size wd)
  alive := th.streaming.flowing.alive_finishSources wd th.alive
  present := th.present

theorem outside (wd : g.Wired) {world : W} (ht : pl.Tuned s.network.world world) :
    Thriving pl (s.perform B (.order (.outside world))) where
  streaming := th.streaming.order wd rfl ht
  healthy := ⟨pl.tuned_good ht th.healthy.world, th.healthy.failure⟩
  alive := th.alive
  present := th.present

theorem adjust (i : StageId) (f : Knobs → Knobs) (m : StageMetrics → StageMetrics) :
    Thriving pl (s.adjust i f m) where
  streaming :=
    { flowing := th.streaming.flowing.same (.adjust _ i f m) (.refl _) (s.holders_adjust i f m)
      tallied := th.streaming.tallied.adjust i f m
      results := th.streaming.results }
  healthy := ⟨th.healthy.world, th.healthy.failure⟩
  alive := th.alive.alike (.adjust _ i f m)
  present := th.present

/-- If nobody else holds a stage a worker finds nothing only if no stage is running, or it sees to
that. -/
theorem idle_of_next (wd : g.Wired) (hd : pl.Dependable) (hn : (s.next B w).1 = none)
    (ho : s.others w = []) (i : StageId) :
    ((s.next B w).2.network.graph.stage i).state ≠ .running := by
  have flowing := th.streaming.freed (B := B) wd (th.present_of_holdOf w)
  rcases s.next_cases B w with ⟨h, -, -, he⟩ | ⟨j, -, -, -, he⟩ | ⟨hf, -⟩ | ⟨-, hel, he⟩
  · rw [he] at hn
    cases hn
  · rw [he] at hn
    cases hn
  · rw [(th.healthy_freed hd w).failure] at hf
    cases hf
  · rw [he]
    refine flowing.idle_settle wd hd (th.alive_freed wd w) (fun k hk => ?_) i
    have hh : ((s.freed B w).graph.stage k).holders = 0 := by
      rw [th.streaming.tallied.freed, ho]
      rfl
    have hx : (s.freed B w).exhausted B k = true := by
      by_contra hx
      have := hel k (Graph.lt_size_of_state_ne (by simp [hk]))
      rw [Scheduler.eligible_iff.2 ⟨hk, .inl hh, by simpa using hx⟩] at this
      cases this
    unfold Network.settled
    simp [hh, hx]

end Thriving

end Session

/-! ### Shifts -/

/-- What a worker is doing. -/
inductive Post where
  /-- It calls the stage that it was given. -/
  | working
  /-- It has found nothing. -/
  | idle
  /-- It has left. -/
  | gone
  deriving DecidableEq, Repr

/-- A call that was made, with the world in which it began. -/
structure CallRecord (W : Type) where
  stage : StageId
  visit : Visit
  world : W

/-- A session, what each worker is doing in it, whether a stop was requested, and the calls that
were made. -/
structure Shift (W : Type) where
  session : Session W
  post : WorkerId → Post := fun _ => .working
  stopRequested : Bool := false
  calls : List (CallRecord W) := []

/-- A step of a shift. -/
inductive Move (W : Type) where
  | ask (w : WorkerId)
  | exec (w : WorkerId)
  | leave (w : WorkerId)
  /-- The first half of a request to stop; the second one finishes the sources. -/
  | stop
  | finishSources
  | tune (world : W)
  | adjust (i : StageId) (f : Knobs → Knobs) (m : StageMetrics → StageMetrics)

namespace Shift

variable {W : Type}

/-- What the workers of a shift share. -/
def engine (t : Shift W) : Engine W := ⟨t.session.network, t.session.scheduler, t.stopRequested⟩

/-- The call that a worker is about to make, if it holds a stage. -/
def callOf (t : Shift W) (w : WorkerId) : Option (CallRecord W) :=
  (t.session.holdOf w).map fun h => ⟨h.stage, t.session.visit h, t.session.network.world⟩

/-- Another worker goes on with what it is doing. -/
def setPost (t : Shift W) (w : WorkerId) (p : Post) : WorkerId → Post :=
  fun v => if w = v then p else t.post v

/-- Takes one step. -/
def perform (B : Bodies W) (t : Shift W) : Move W → Shift W
  | .ask w =>
    let r := t.session.next B w
    { t with session := r.2, post := t.setPost w (if r.1.isSome then .working else .idle) }
  | .exec w => { t with session := (t.session.exec B w).2, calls := t.calls ++ (t.callOf w).toList }
  | .leave w => { t with post := t.setPost w .gone }
  | .stop => { t with stopRequested := true }
  | .finishSources => { t with session := t.session.perform B (.order .finishSources) }
  | .tune world => { t with session := t.session.perform B (.order (.outside world)) }
  | .adjust i f m => { t with session := t.session.adjust i f m }

/-- What workers do, from whom no call panics: they ask again and again, call what they are given,
and leave once they find nothing and may. Sources are finished if a stop was requested, and the
world is tuned at most. -/
def Allowed (B : Bodies W) (Tuned : W → W → Prop) (crew : WorkerId → Prop) (t : Shift W) :
    Move W → Prop
  | .ask w => crew w ∧ t.post w ≠ .gone
  | .exec w =>
    (crew w ∧ t.post w = .working) ∧ ∀ r p, t.callOf w = some r →
    (B.call r.stage r.visit r.world).1 ≠ .panicked p
  | .leave w => t.post w = .idle ∧ t.engine.mayLeave = true
  | .stop => True
  | .finishSources => t.stopRequested = true
  | .tune world => Tuned t.session.network.world world
  | .adjust .. => True

/-- The shifts that can be reached by allowed moves. -/
inductive Run (B : Bodies W) (Tuned : W → W → Prop) (crew : WorkerId → Prop) (t₀ : Shift W) :
    Shift W → Prop where
  | start : Run B Tuned crew t₀ t₀
  | step {t : Shift W} (m : Move W) : Run B Tuned crew t₀ t → t.Allowed B Tuned crew m →
    Run B Tuned crew t₀ (t.perform B m)

/-- What holds at the start and survives every allowed move holds throughout. -/
theorem Run.invariant {B : Bodies W} {Tuned : W → W → Prop} {crew : WorkerId → Prop}
    {t₀ t : Shift W} {P : Shift W → Prop} (h : Run B Tuned crew t₀ t) (h₀ : P t₀)
    (hs : ∀ t m, P t → t.Allowed B Tuned crew m → P (t.perform B m)) : P t := by
  induction h with
  | start => exact h₀
  | step m _ ha ih => exact hs _ m ih ha

variable {B : Bodies W} {g : Graph} {pl : Plumbing B g} {crew : WorkerId → Prop} {t : Shift W}
  {w : WorkerId} {m : Move W}

theorem steady_exec (ha : t.Allowed B pl.Tuned crew (.exec w)) :
    t.session.Steady B pl.Tuned (.exec w) := by
  intro h p hh
  refine ha.2 ⟨h.stage, t.session.visit h, t.session.network.world⟩ p ?_
  unfold callOf
  rw [hh]
  rfl

/-! ### Nobody leaves too early -/

/-- Stages are held by workers that are working, and somebody is working as long as a stage runs. -/
structure OnDuty (pl : Plumbing B g) (crew : WorkerId → Prop) (t : Shift W) : Prop where
  thriving : t.session.Thriving pl
  holders : ∀ h ∈ t.session.holds, crew h.worker ∧ t.post h.worker = .working
  manned : (∃ w, crew w ∧ t.post w = .working) ∨
    ∀ i, (t.session.network.graph.stage i).state ≠ .running

namespace OnDuty

theorem setPost_self (t : Shift W) (w : WorkerId) (p : Post) : t.setPost w p w = p := if_pos rfl

theorem setPost_ne {v : WorkerId} (h : w ≠ v) (p : Post) : t.setPost w p v = t.post v := if_neg h

variable (d : OnDuty pl crew t) (wd : g.Wired) (hd : pl.Dependable)
include d wd hd

theorem ask (ha : t.Allowed B pl.Tuned crew (.ask w)) : OnDuty pl crew (t.perform B (.ask w)) := by
  have thriving := d.thriving.next wd hd w
  have others : ∀ p, ∀ h ∈ t.session.others w, crew h.worker ∧
      t.setPost w p h.worker = .working := by
    intro p h hm
    obtain ⟨hm, hw⟩ := Session.mem_others.1 hm
    rw [setPost_ne (Ne.symm hw)]
    exact d.holders h hm
  have holds := t.session.holds_next B w
  cases hn : (t.session.next B w).1 with
  | some i =>
    have he : t.perform B (.ask w) =
        { t with session := (t.session.next B w).2, post := t.setPost w .working } := by
      simp only [perform, hn, Option.isSome_some, if_true]
    rw [he]
    refine ⟨thriving, fun h hm => ?_, .inl ⟨w, ha.1, setPost_self t w _⟩⟩
    rw [hn] at holds
    simp only [holds] at hm
    rcases List.mem_cons.1 hm with rfl | hm
    · exact ⟨ha.1, setPost_self t w _⟩
    · exact others _ h hm
  | none =>
    have he : t.perform B (.ask w) =
        { t with session := (t.session.next B w).2, post := t.setPost w .idle } := by
      simp only [perform, hn, Option.isSome_none, Bool.false_eq_true, if_false]
    rw [he]
    rw [hn] at holds
    refine ⟨thriving, fun h hm => ?_, ?_⟩
    · simp only [holds] at hm
      exact others _ h hm
    by_cases hw : ∃ v, w ≠ v ∧ crew v ∧ t.post v = .working
    · obtain ⟨v, hwv, hv, hp⟩ := hw
      exact .inl ⟨v, hv, (setPost_ne hwv _).trans hp⟩
    · -- nobody else is working, so nobody else holds a stage
      refine .inr
        (d.thriving.idle_of_next wd hd hn (List.eq_nil_iff_forall_not_mem.2 fun h hm => hw ?_))
      obtain ⟨hm, hne⟩ := Session.mem_others.1 hm
      exact ⟨h.worker, Ne.symm hne, d.holders h hm⟩

omit wd in
theorem exec (ha : t.Allowed B pl.Tuned crew (.exec w)) :
    OnDuty pl crew (t.perform B (.exec w)) := by
  refine ⟨d.thriving.exec hd (steady_exec ha), fun h hm => ?_, d.manned.imp id fun hr i => ?_⟩
  · cases hh : t.session.holdOf w with
    | none =>
      simp only [perform, Session.exec_of_none hh] at hm
      exact d.holders h hm
    | some x =>
      obtain ⟨hx, hw⟩ := Session.mem_of_holdOf hh
      simp only [perform, Session.exec_of_some hh hw] at hm
      rcases List.mem_cons.1 hm with rfl | hm
      · exact d.holders x hx
      · exact d.holders h (Session.mem_others.1 hm).1
  · cases hh : t.session.holdOf w with
    | none =>
      simp only [perform, Session.exec_of_none hh]
      exact hr i
    | some x =>
      simp only [perform, Session.exec_of_some hh (Session.mem_of_holdOf hh).2]
      rw [(t.session.network.alike_call B x.stage (t.session.visit x)).state]
      exact hr i

/-- Every allowed move keeps somebody on duty. -/
theorem perform (ha : t.Allowed B pl.Tuned crew m) : OnDuty pl crew (t.perform B m) := by
  cases m with
  | ask w => exact d.ask wd hd ha
  | exec w => exact d.exec hd ha
  | leave w =>
    have hne : ∀ v, t.post v = .working → w ≠ v := by
      rintro v hv rfl
      rw [ha.1] at hv
      cases hv
    refine ⟨d.thriving, fun h hm => ?_, d.manned.imp (fun ⟨v, hv, hp⟩ => ⟨v, hv, ?_⟩) id⟩
    · obtain ⟨hc, hp⟩ := d.holders h hm
      exact ⟨hc, (setPost_ne (hne _ hp) _).trans hp⟩
    · exact (setPost_ne (hne v hp) _).trans hp
  | stop => exact ⟨d.thriving, d.holders, d.manned⟩
  | finishSources =>
    refine ⟨d.thriving.finishSources wd hd, d.holders, d.manned.imp id fun hr => ?_⟩
    exact (lasting_idle B).finishSources hr (d.thriving.streaming.sources_lt_size wd)
  | tune world => exact ⟨d.thriving.outside wd ha, d.holders, d.manned⟩
  | adjust i f m =>
    refine ⟨d.thriving.adjust i f m, d.holders, d.manned.imp id fun hr j => ?_⟩
    have hs : ((t.perform B (.adjust i f m)).session.network.graph.stage j).state =
        (t.session.network.graph.stage j).state :=
      (Graph.Alike.adjust t.session.network.graph i f m).state j
    rw [hs]
    exact hr j

omit wd hd in
/-- Once everybody has left every stage has finished. -/
theorem finished (hgone : ∀ w, crew w → t.post w = .gone) (i : StageId)
    (hi : i < t.session.network.graph.size) :
    (t.session.network.graph.stage i).state = .finished ∧
    (t.session.network.graph.stage i).holders = 0 := by
  have hidle : ∀ i, (t.session.network.graph.stage i).state ≠ .running := by
    refine d.manned.resolve_left ?_
    rintro ⟨w, hw, hp⟩
    rw [hgone w hw] at hp
    cases hp
  refine ⟨(d.thriving.alive i hi).resolve_left (hidle i), ?_⟩
  have hnil : t.session.holds = [] := by
    refine List.eq_nil_iff_forall_not_mem.2 fun h hm => ?_
    obtain ⟨hw, hp⟩ := d.holders h hm
    rw [hgone _ hw] at hp
    cases hp
  rw [d.thriving.streaming.tallied.holders, hnil]
  rfl

end OnDuty

end Shift

end Pipework
