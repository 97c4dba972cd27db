import Pipework.Proofs.Session.Drain
import Pipework.Worker

/-!
# Workers of an engine

A `Team` is an engine with its workers, who take their turns in any order. As long as nobody is
retired and no call fails they do nothing else than the workers of a shift: every turn is a few
moves (`Shift.Mirrors.turn`), so that a team always mirrors some shift that can be reached
(`Team.Run.mirrored`).
-/

namespace Pipework

/-- An engine and its workers by their numbers. -/
structure Team (W : Type) where
  engine : Engine W
  worker : WorkerId → Worker

namespace Team

variable {W : Type}

/-- Workers that have not done anything. -/
def hire (e : Engine W) : Team W := ⟨e, .hire e.scheduler⟩

/-- Changes the network of the engine. -/
def mapNetwork (tm : Team W) (f : Network W → Network W) : Team W :=
  { tm with engine := tm.engine.mapNetwork f }

/-- A worker takes its turn. -/
def turn (B : Bodies W) (tm : Team W) (w : WorkerId) : Team W :=
  let r := (tm.worker w).turn B tm.engine
  ⟨r.1, fun v => if w = v then r.2 else tm.worker v⟩

/-- If a worker is about to make a call, the call does not fail. -/
def Succeeds (B : Bodies W) (tm : Team W) (w : WorkerId) : Prop :=
  ∀ i knobs b err, (tm.worker w).activity = .call i knobs b →
    (tm.engine.network.call B i (.start (tm.worker w).id (tm.worker w).location knobs.chunk)).1 ≠
      some (.failed err)

/-- The teams that can be reached by turns of the crew, requests to stop, and changes of knobs and
of the world. -/
inductive Run (B : Bodies W) (Tuned : W → W → Prop) (crew : WorkerId → Prop) (tm₀ : Team W) :
    Team W → Prop where
  | start : Run B Tuned crew tm₀ tm₀
  | turn {tm : Team W} (w : WorkerId) : Run B Tuned crew tm₀ tm → crew w → tm.Succeeds B w →
    Run B Tuned crew tm₀ (tm.turn B w)
  | stop {tm : Team W} : Run B Tuned crew tm₀ tm →
    Run B Tuned crew tm₀ { tm with engine := tm.engine.requestStop B }
  | tune {tm : Team W} (world : W) : Run B Tuned crew tm₀ tm → Tuned tm.engine.network.world world →
    Run B Tuned crew tm₀ (tm.mapNetwork ({ · with world }))
  | adjust {tm : Team W} (i : StageId) (f : Knobs → Knobs) : Run B Tuned crew tm₀ tm →
    Run B Tuned crew tm₀ (tm.mapNetwork (·.mapGraph (·.modifyKnobs i f)))

end Team

/-! ### One worker -/

/-- The stage with something else counted. -/
def Stage.recount (m : StageMetrics → StageMetrics) (s : Stage) : Stage :=
  { s with metrics := m s.metrics }

namespace Worker

variable {W : Type} {B : Bodies W} {e : Engine W} {w : Worker} {i : StageId} {knobs : Knobs}
  {b : Backoff}

/-- What a turn leaves alone. -/
def badge (w : Worker) : WorkerId × Nat × Bool := (w.id, w.location, w.retiring)

theorem badge_report (w : Worker) (B : Bodies W) (e : Engine W) (i : StageId) (o : Outcome) :
    (w.report B e i o).2.badge = w.badge := by
  cases o <;> rfl

theorem badge_conclude (w : Worker) (e : Engine W) (i : StageId) (knobs : Knobs) (b : Backoff)
    (o : Outcome) :
    (w.conclude e i knobs b o).2.2.badge = w.badge := by
  unfold conclude
  split <;> rfl

theorem badge_callOnce (w : Worker) (B : Bodies W) (e : Engine W) (i : StageId) (knobs : Knobs)
    (b : Backoff) :
    (w.callOnce B e i knobs b).2.badge = w.badge := by
  unfold callOnce
  simp only
  split
  · rfl
  · rename_i o _
    have concluded := w.back.badge_conclude
      { e with network := (e.network.call B i (.start w.id w.location knobs.chunk)).2.2 }
      i knobs b o
    split
    · rename_i hc
      rw [hc] at concluded
      exact concluded
    · rename_i hc
      rw [hc] at concluded
      rw [badge_report]
      exact concluded

theorem badge_turn (w : Worker) (B : Bodies W) (e : Engine W) : (w.turn B e).2.badge = w.badge := by
  unfold turn
  split
  · rfl
  · split
    · unfold depart
      split <;> rfl
    · unfold ask
      simp only
      split
      · split <;> rfl
      · rfl
  · exact w.badge_callOnce B e _ _ _

/-- A worker that has asked is about to call what it was given; if that is nothing it has left, if
it may, or is about to ask again. -/
theorem ask_cases (w : Worker) (B : Bodies W) (e : Engine W)
    (previous : Option (StageId × Outcome)) :
    let r := e.scheduler.assign B e.network w.id (previous.map (·.1)) (previous.map (·.2))
    (w.ask B e previous).1 = { e with network := r.2 } ∧
      ((∃ i knobs b, r.1 = some i ∧ (w.ask B e previous).2.activity = .call i knobs b) ∨
        (r.1 = none ∧ (w.ask B e previous).2.activity = .request none) ∨
          (r.1 = none ∧ { e with network := r.2 }.mayLeave = true ∧
            (w.ask B e previous).2.activity = .gone)) := by
  intro r
  unfold ask
  simp only
  split
  · rename_i hn
    split
    · rename_i hl
      exact ⟨rfl, .inr (.inr ⟨hn, hl, rfl⟩)⟩
    · exact ⟨rfl, .inr (.inl ⟨hn, rfl⟩)⟩
  · rename_i i hi
    exact ⟨rfl, .inl ⟨i, _, _, hi, rfl⟩⟩

theorem report_of_ne_failed {o : Outcome} (ho : ∀ err, o ≠ .failed err) :
    w.report B e i o = (e, { w with activity := .request (some (i, o)) }) := by
  cases o with
  | failed err => exact absurd rfl (ho err)
  | success => rfl
  | comeBackLater => rfl
  | finished => rfl

/-- After a call that does not fail the worker is about to make it again, or to hand back the stage.
Besides the call there may be something to count. -/
theorem callOnce_cases (ha : w.activity = .call i knobs b)
    (hs : ∀ err, (e.network.call B i (.start w.id w.location knobs.chunk)).1 ≠ some (.failed err)) :
    let r := e.network.call B i (.start w.id w.location knobs.chunk)
    ∃ m, (w.callOnce B e i knobs b).1 =
      { e with network := r.2.2.mapGraph (·.modify i (.recount m)) } ∧
      ((∃ b', (w.callOnce B e i knobs b).2.activity = .call i knobs b') ∨
        ∃ o, r.1 = some o ∧ (w.callOnce B e i knobs b).2.activity = .request (some (i, o))) := by
  have plain : ∀ n : Network W, n.mapGraph (·.modify i (.recount fun m => m)) = n := fun n =>
    congrArg (fun g => { n with graph := g }) (n.graph.modify_id i)
  intro r
  unfold callOnce
  simp only
  split
  · exact ⟨fun m => m, by rw [plain], .inl ⟨b, ha⟩⟩
  · rename_i o ho
    have hne : ∀ err, o ≠ .failed err := fun err he => hs err (ho.trans (congrArg some he))
    unfold conclude
    cases b.decide o w.back.retiring
      (({ e with network := r.2.2 }.graph.stage i).state == .running) with
    | again d b' => exact ⟨fun m => m, by rw [plain], .inl ⟨b', rfl⟩⟩
    | yield wait =>
      refine ⟨fun m => m, ?_, .inr ⟨o, ho, ?_⟩⟩
      · rw [plain]
        cases wait <;> (simp only; rw [report_of_ne_failed hne])
      · cases wait <;> (simp only; rw [report_of_ne_failed hne])
    | giveUp =>
      simp only
      rw [report_of_ne_failed hne]
      exact ⟨StageMetrics.recordExhaustion, rfl, .inr ⟨o, ho, rfl⟩⟩

end Worker

/-! ### Calls with other knobs -/

namespace Network

variable {W : Type} (n : Network W) (B : Bodies W) (i : StageId) (v : Visit)

theorem knobs_call (j : StageId) :
    ((n.call B i v).2.2.graph.stage j).knobs = (n.graph.stage j).knobs := by
  obtain ⟨m, hg⟩ := n.call_graph B i v
  rw [hg]
  exact Graph.map_stage_modify Stage.knobs (f := .recount m) (fun _ => rfl) i j

/-- A call does not read knobs, nor does it change them. -/
theorem call_adjust (f : Knobs → Knobs) :
    (n.mapGraph (·.modify i (.adjust f id))).call B i v =
      ((n.call B i v).1, (n.call B i v).2.1,
        (n.call B i v).2.2.mapGraph (·.modify i (.adjust f id))) := by
  unfold call mapGraph
  simp only
  split
  · rfl
  · simp only [Graph.modify_modify]
    rfl

/-- Knobs may be changed for one call. -/
theorem mapGraph_restore (knobs : Knobs) (m : StageMetrics → StageMetrics) :
    ((n.mapGraph (·.modify i (.adjust (fun _ => knobs) id))).mapGraph
        (·.modify i (.adjust (fun _ => (n.graph.stage i).knobs) m))) =
      n.mapGraph (·.modify i (.recount m)) :=
  congrArg (fun g => { n with graph := g })
    ((Graph.modify_modify ..).trans (Graph.modify_congr rfl))

end Network

/-! ### One move after the other -/

namespace Session

variable {W : Type} {s : Session W} {w v : WorkerId}

theorem holdOf_setHold {h : Option Hold} (hh : ∀ x ∈ h, x.worker = w) (v : WorkerId) :
    (s.setHold w h).holdOf v = if w = v then h else s.holdOf v := by
  have others : (s.holds.filter (·.worker != w)).find? (·.worker == v) =
      if w = v then none else s.holdOf v := by
    rw [List.find?_filter]
    split
    · rename_i hwv
      refine List.find?_eq_none.2 fun x _ => ?_
      simp [hwv]
    · rename_i hwv
      refine congrArg (fun p => s.holds.find? p) (funext fun x => ?_)
      by_cases hx : x.worker = v
      · simp [hx, Ne.symm hwv]
      · simp [hx]
  unfold setHold holdOf
  simp only
  cases h with
  | none => exact others
  | some x =>
    rw [Option.toList_some, List.cons_append, List.nil_append, List.find?_cons, others, hh x rfl]
    by_cases hwv : w = v
    · rw [if_pos hwv, if_pos hwv, beq_iff_eq.2 hwv]
    · rw [if_neg hwv, if_neg hwv, beq_eq_false_iff_ne.2 hwv]
      rfl

/-- With other knobs a worker calls its stage accordingly. -/
theorem visit_adjust {h : Hold} (hi : h.stage < s.network.graph.size) (knobs : Knobs) :
    (s.adjust h.stage (fun _ => knobs) id).visit h =
      .start h.worker (s.scheduler.locationOf h.worker) knobs.chunk := by
  have hknobs : ((s.adjust h.stage (fun _ => knobs) id).network.graph.stage h.stage).knobs =
      knobs :=
    congrArg Stage.knobs (Graph.stage_modify_self hi _)
  unfold visit
  rw [hknobs]
  rfl

theorem holdOf_next (s : Session W) (B : Bodies W) (w v : WorkerId) :
    (s.next B w).2.holdOf v =
      if w = v then (s.next B w).1.map fun i => { worker := w, stage := i } else s.holdOf v := by
  refine holdOf_setHold (fun x hx => ?_) v
  obtain ⟨i, -, rfl⟩ := Option.map_eq_some_iff.1 hx
  rfl

end Session

namespace Shift

variable {W : Type} {B : Bodies W} {Tuned : W → W → Prop} {crew : WorkerId → Prop}
  {t₀ t t' : Shift W} {tm : Team W} {w : WorkerId} {h : Hold}

/-- Whether a worker of a shift is about to do something. -/
def Does (t : Shift W) (w : WorkerId) : Activity → Prop
  | .request previous =>
    (t.session.holdOf w).map (fun h => (h.stage, h.result)) =
      previous.map (fun p => (p.1, some p.2)) ∧ t.post w ≠ .gone
  | .call i _ _ => (t.session.holdOf w).map (·.stage) = some i ∧ t.post w = .working
  | .gone => t.post w = .gone

/-- What others do stays as it is. -/
theorem Does.same {a : Activity} (hd : t.Does w a) (hh : t'.session.holdOf w = t.session.holdOf w)
    (hp : t'.post w = t.post w) : t'.Does w a := by
  unfold Does at hd ⊢
  rw [hh, hp]
  exact hd

/-- A worker that is about to ask hands back what it holds. -/
theorem Does.assign {previous : Option (StageId × Outcome)} (hd : t.Does w (.request previous)) :
    t.engine.scheduler.assign B t.engine.network w (previous.map (·.1)) (previous.map (·.2)) =
      t.session.scheduler.assign B t.session.network w ((t.session.holdOf w).map (·.stage))
        ((t.session.holdOf w).bind (·.result)) := by
  have hs := congrArg (Option.map Prod.fst) hd.1
  have hr := congrArg (Option.bind · Prod.snd) hd.1
  simp only [Option.map_map, Option.bind_map, Function.comp_def] at hs hr
  rw [hs, hr]
  cases previous <;> rfl

/-- The shift is where the team is, and its workers are about to do what those of the team are about
to do. -/
structure Mirrors (t : Shift W) (tm : Team W) : Prop where
  engine : t.engine = tm.engine
  does : ∀ w, t.Does w (tm.worker w).activity
  badge : ∀ w, (tm.worker w).badge = (w, tm.engine.scheduler.locationOf w, false)

/-- The call that a worker is about to make after its knobs have been changed. -/
theorem callOf_adjust (hh : t.session.holdOf w = some h)
    (hi : h.stage < t.session.network.graph.size) (knobs : Knobs) :
    (t.perform B (.adjust h.stage (fun _ => knobs) id)).callOf w =
      some ⟨h.stage, .start w (t.session.scheduler.locationOf w) knobs.chunk,
        t.session.network.world⟩ := by
  obtain ⟨-, rfl⟩ := Session.mem_of_holdOf hh
  have hhold : (t.session.adjust h.stage (fun _ => knobs) id).holdOf h.worker = some h := hh
  simp only [perform, callOf, hhold, Option.map_some, Session.visit_adjust hi]
  rfl

/-- To change the knobs for one call is to make the call with other knobs. -/
theorem perform_call (hh : t.session.holdOf w = some h)
    (hi : h.stage < t.session.network.graph.size) (knobs : Knobs)
    (m : StageMetrics → StageMetrics) :
    let i := h.stage
    let v := Visit.start w (t.session.scheduler.locationOf w) knobs.chunk
    let r := t.session.network.call B i v
    ((t.perform B (.adjust i (fun _ => knobs) id)).perform B (.exec w)).perform B
        (.adjust i (fun _ => (t.session.network.graph.stage i).knobs) m) =
      { t with
        session := { t.session with network := r.2.2.mapGraph (·.modify i (.recount m)) }.setHold w
          (some { h with result := r.1, away := r.1.isNone })
        calls := t.calls ++ [⟨i, v, t.session.network.world⟩] } := by
  intro i v r
  have hcalls : (t.perform B (.adjust i (fun _ => knobs) id)).callOf w =
      some ⟨i, v, t.session.network.world⟩ :=
    callOf_adjust hh hi knobs
  obtain ⟨-, rfl⟩ := Session.mem_of_holdOf hh
  have hhold : (t.session.adjust i (fun _ => knobs) id).holdOf h.worker = some h := hh
  have hcall : (t.session.adjust i (fun _ => knobs) id).network.call B i v =
      (r.1, r.2.1, r.2.2.mapGraph (·.modify i (.adjust (fun _ => knobs) id))) :=
      Network.call_adjust ..
  have hold : (t.session.network.graph.stage i).knobs = (r.2.2.graph.stage i).knobs :=
    (t.session.network.knobs_call B i v i).symm
  have hvisit : (t.session.adjust i (fun _ => knobs) id).visit h = v :=
    Session.visit_adjust hi knobs
  rw [perform.eq_2, hcalls]
  simp only [perform, Session.exec_of_some hhold rfl, hvisit, Option.toList_some]
  rw [hcall, hold]
  exact congrArg (fun n => { t with
    session := { t.session with network := n }.setHold h.worker
      (some { h with result := r.1, away := r.1.isNone })
    calls := t.calls ++ [CallRecord.mk i v t.session.network.world] })
      (Network.mapGraph_restore r.2.2 i knobs m)

/-! ### Turns as moves -/

/-- The team after a turn of one worker is mirrored if the shift has done nothing else than that. -/
theorem Mirrors.after (mr : t.Mirrors tm) (he : t'.engine = (tm.turn B w).engine)
    (hsc : t'.session.scheduler = t.session.scheduler)
    (hd : t'.Does w ((tm.worker w).turn B tm.engine).2.activity)
    (hh : ∀ v, w ≠ v → t'.session.holdOf v = t.session.holdOf v)
    (hp : ∀ v, w ≠ v → t'.post v = t.post v) :
    t'.Mirrors (tm.turn B w) := by
  have scheduler : (tm.turn B w).engine.scheduler = tm.engine.scheduler :=
    ((congrArg Engine.scheduler he).symm.trans hsc).trans (congrArg Engine.scheduler mr.engine)
  refine ⟨he, fun v => ?_, fun v => ?_⟩
  · unfold Team.turn
    simp only
    split
    · rename_i hv
      rwa [← hv]
    · rename_i hv
      exact (mr.does v).same (hh v hv) (hp v hv)
  · rw [scheduler, ← mr.badge v]
    unfold Team.turn
    simp only
    split
    · rename_i hv
      rw [Worker.badge_turn, hv]
    · rfl

variable (mr : t.Mirrors tm) (hr : Run B Tuned crew t₀ t)
include mr hr

/-- A worker that asks does so in the shift, and then leaves there if it does. -/
theorem Mirrors.ask (hw : crew w) {previous : Option (StageId × Outcome)}
    (ha : (tm.worker w).activity = .request previous) :
    ∃ t', Run B Tuned crew t₀ t' ∧ t'.Mirrors (tm.turn B w) := by
  have hd := mr.does w
  rw [ha] at hd
  have hid : (tm.worker w).id = w := congrArg Prod.fst (mr.badge w)
  have hret : (tm.worker w).retiring = false := congrArg (·.2.2) (mr.badge w)
  have hturn : (tm.worker w).turn B tm.engine = (tm.worker w).ask B t.engine previous := by
    unfold Worker.turn
    rw [ha, hret, mr.engine]
    rfl
  have asked : Run B Tuned crew t₀ (t.perform B (.ask w)) := .step (.ask w) hr ⟨hw, hd.2⟩
  have hhold := t.session.holdOf_next B w
  obtain ⟨he, hcases⟩ := (tm.worker w).ask_cases B t.engine previous
  rw [hid, ← hturn, hd.assign (B := B)] at he hcases
  have others : ∀ v, w ≠ v → (t.session.next B w).2.holdOf v = t.session.holdOf v := fun v hv =>
    (hhold v).trans (if_neg hv)
  have own := (hhold w).trans (if_pos rfl)
  have post : (t.perform B (.ask w)).post w = if (t.session.next B w).1.isSome then .working
      else .idle := if_pos rfl
  rcases hcases with ⟨i, knobs, b, hi, hact⟩ | ⟨hn, hact⟩ | ⟨hn, hl, hact⟩
  · change (t.session.next B w).1 = some i at hi
    rw [hi] at own post
    refine ⟨_, asked, mr.after he.symm rfl ?_ others fun v hv => if_neg hv⟩
    rw [hact]
    exact ⟨congrArg (Option.map Hold.stage) own, post⟩
  · change (t.session.next B w).1 = none at hn
    rw [hn] at own post
    refine ⟨_, asked, mr.after he.symm rfl ?_ others fun v hv => if_neg hv⟩
    rw [hact]
    exact ⟨congrArg (Option.map fun h => (h.stage, h.result)) own, by rw [post]; decide⟩
  · change (t.session.next B w).1 = none at hn
    rw [hn] at post
    refine ⟨_, .step (.leave w) asked ⟨post, hl⟩, mr.after he.symm rfl ?_ others fun v hv =>
      (if_neg hv).trans (if_neg hv)⟩
    rw [hact]
    exact if_pos rfl

/-- A worker that makes a call does so in the shift, with the knobs that it was given. -/
theorem Mirrors.call (hw : crew w) (hs : tm.Succeeds B w) {i : StageId} {knobs : Knobs}
    {b : Backoff} (tallied : t.session.Tallied) (ha : (tm.worker w).activity = .call i knobs b) :
    ∃ t', Run B Tuned crew t₀ t' ∧ t'.Mirrors (tm.turn B w) := by
  have hd := mr.does w
  rw [ha] at hd
  obtain ⟨h, hh, rfl⟩ := Option.map_eq_some_iff.1 hd.1
  obtain ⟨hm, hw'⟩ := Session.mem_of_holdOf hh
  have hid : (tm.worker w).id = w := congrArg Prod.fst (mr.badge w)
  have hloc : (tm.worker w).location = t.session.scheduler.locationOf w := by
    rw [show t.session.scheduler = tm.engine.scheduler from congrArg Engine.scheduler mr.engine]
    exact congrArg (·.2.1) (mr.badge w)
  have hturn : (tm.worker w).turn B tm.engine =
      (tm.worker w).callOnce B t.engine h.stage knobs b := by
    unfold Worker.turn
    rw [ha, mr.engine]
  have hcall := hs h.stage knobs b
  rw [← mr.engine, hid, hloc] at hcall
  obtain ⟨m, he, hcases⟩ :=
    Worker.callOnce_cases (e := t.engine) ha (by rw [hid, hloc]; exact fun err => hcall err ha)
  rw [hid, hloc, ← hturn] at he hcases
  have hi := tallied.lt_size hm
  set r :=
    t.session.network.call B h.stage (.start w (t.session.scheduler.locationOf w) knobs.chunk)
  have adjusted : Run B Tuned crew t₀ (t.perform B (.adjust h.stage (fun _ => knobs) id)) :=
    .step _ hr trivial
  have called := Run.step (.exec w) adjusted ⟨⟨hw, hd.2⟩, fun r p hr' hp => ?_⟩
  · have restored := Run.step
      (.adjust h.stage (fun _ => (t.session.network.graph.stage h.stage).knobs) m) called trivial
    rw [perform_call hh hi] at restored
    have hhold := Session.holdOf_setHold
      (s := { t.session with network := r.2.2.mapGraph (·.modify h.stage (.recount m)) })
      (w := w) (h := some { h with result := r.1, away := r.1.isNone }) (by rintro _ ⟨⟩; exact hw')
    have own := (hhold w).trans (if_pos rfl)
    refine ⟨_, restored, mr.after he.symm rfl ?_ (fun v hv => (hhold v).trans (if_neg hv))
      fun v hv => rfl⟩
    rcases hcases with ⟨b', hact⟩ | ⟨o, ho, hact⟩
    · rw [hact]
      exact ⟨congrArg (Option.map Hold.stage) own, hd.2⟩
    · rw [hact]
      refine ⟨(congrArg (Option.map fun h => (h.stage, h.result)) own).trans ?_, fun hg => ?_⟩
      · exact congrArg (fun r => some (h.stage, r)) ho
      · exact absurd (hd.2.symm.trans hg) (by decide)
  · rw [callOf_adjust hh hi] at hr'
    cases hr'
    exact hcall p.toError ha ((Network.outcome_call ..).trans (congrArg Ending.outcome? hp))

/-- A turn is a few moves. -/
theorem Mirrors.turn (hw : crew w) (hs : tm.Succeeds B w) (tallied : t.session.Tallied) :
    ∃ t', Run B Tuned crew t₀ t' ∧ t'.Mirrors (tm.turn B w) := by
  cases ha : (tm.worker w).activity with
  | request previous => exact mr.ask hr hw ha
  | call i knobs b => exact mr.call hr hw hs tallied ha
  | gone =>
    have hturn : (tm.worker w).turn B tm.engine = (tm.engine, tm.worker w) := by
      unfold Worker.turn
      rw [ha]
    refine ⟨t, hr, mr.after ?_ rfl ?_ (fun _ _ => rfl) fun _ _ => rfl⟩
    · exact mr.engine.trans (congrArg Prod.fst hturn).symm
    · rw [hturn]
      exact mr.does w

omit hr in
/-- Nobody does anything else because of a change of the engine. -/
theorem Mirrors.change {e : Engine W} (he : t'.engine = e)
    (hsc : t'.session.scheduler = t.session.scheduler) (hh : t'.session.holds = t.session.holds)
    (hp : t'.post = t.post) : t'.Mirrors { tm with engine := e } := by
  refine ⟨he, fun v => (mr.does v).same ?_ (congrFun hp v), fun v => ?_⟩
  · unfold Session.holdOf
    rw [hh]
  · have hs : e.scheduler = tm.engine.scheduler :=
      ((congrArg Engine.scheduler he).symm.trans hsc).trans (congrArg Engine.scheduler mr.engine)
    rw [mr.badge, hs]

/-- A request to stop is two moves, unless there was one before. -/
theorem Mirrors.stop :
    ∃ t', Run B Tuned crew t₀ t' ∧ t'.Mirrors { tm with engine := tm.engine.requestStop B } := by
  rw [← mr.engine]
  unfold Engine.requestStop
  split
  · exact ⟨t, hr, mr.change rfl rfl rfl rfl⟩
  · exact ⟨_, .step .finishSources (.step .stop hr trivial) rfl, mr.change rfl rfl rfl rfl⟩

omit mr in
/-- The holders are counted in a shift. -/
theorem Run.tallied (wd : t₀.session.network.graph.Wired) (tl : t₀.session.Tallied) :
    t.session.network.graph.Wired ∧ t.session.Tallied := by
  refine hr.invariant (P := fun t => t.session.network.graph.Wired ∧ t.session.Tallied) ⟨wd, tl⟩
    fun t m ⟨wd, tl⟩ _ => ?_
  have sources : ∀ i ∈ t.session.network.graph.sources, i < t.session.network.graph.size := fun _ =>
    wd.lt_size_of_mem_sources
  cases m with
  | ask w => exact ⟨wd.of_bare (t.session.bare_next B w), tl.next w⟩
  | exec w => exact ⟨Session.wired_perform (e := .exec w) wd trivial, tl.exec w⟩
  | leave w => exact ⟨wd, tl⟩
  | stop => exact ⟨wd, tl⟩
  | finishSources =>
    exact ⟨Session.wired_perform (e := .order .finishSources) wd rfl, tl.order sources rfl⟩
  | tune world => exact ⟨wd, tl.order sources rfl⟩
  | adjust i f m => exact ⟨wd.of_bare (Graph.Alike.adjust _ i f m).bare, tl.adjust i f m⟩

end Shift

/-- **What a team does a shift does.** A team that can be reached mirrors a shift that can be
reached, if it did at the start. -/
theorem Team.Run.mirrored {W : Type} {B : Bodies W} {Tuned : W → W → Prop} {crew : WorkerId → Prop}
    {t₀ : Shift W} {tm₀ tm : Team W} (h : Run B Tuned crew tm₀ tm) (mr₀ : t₀.Mirrors tm₀)
    (wd : t₀.session.network.graph.Wired) (tl : t₀.session.Tallied) :
    ∃ t, Shift.Run B Tuned crew t₀ t ∧ t.Mirrors tm := by
  induction h with
  | start => exact ⟨t₀, .start, mr₀⟩
  | turn w _ hw hs ih =>
    obtain ⟨t, hr, mr⟩ := ih
    exact mr.turn hr hw hs (hr.tallied wd tl).2
  | stop _ ih =>
    obtain ⟨t, hr, mr⟩ := ih
    exact mr.stop hr
  | tune world _ ht ih =>
    obtain ⟨t, hr, mr⟩ := ih
    have hn : t.session.network = _ := congrArg Engine.network mr.engine
    refine ⟨_, .step (.tune world) hr (show Tuned _ _ by rwa [hn]), mr.change ?_ rfl rfl rfl⟩
    rw [← mr.engine]
    rfl
  | adjust i f _ ih =>
    obtain ⟨t, hr, mr⟩ := ih
    refine ⟨_, .step (.adjust i f fun m => m) hr trivial, mr.change ?_ rfl rfl rfl⟩
    rw [← mr.engine]
    rfl

end Pipework
