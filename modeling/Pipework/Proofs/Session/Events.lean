import Pipework.Proofs.Network.Calls
import Pipework.Proofs.Network.Holders
import Pipework.Session

/-!
# Runs of a session

A session as a system that takes step after step. An `Event` is a call that is made on behalf of no
worker, or a worker that asks for a stage, calls the one it holds, gives it back, or decides to
report another outcome than that of its last call. `Session.Run` collects the sessions that can be
reached; what is allowed in a state is a parameter. A worker hands back exactly what it holds, so
that the holders of every stage are counted by the graph (`Tallied`, `Tallied.perform`).
-/

namespace Pipework

/-- Whether a call is made on behalf of no worker and leaves the wiring as it is. -/
def Call.isOrder {W : Type} : Call W → Bool
  | .build (.knobs _ _) => true
  | .build _ => false
  | .assign .. => false
  | .giveBack .. => false
  | .visit .. => false
  | _ => true

/-- A step of a session. -/
inductive Event (W : Type) where
  | order (call : Call W)
  | next (w : WorkerId)
  | exec (w : WorkerId)
  | release (w : WorkerId)
  | report (w : WorkerId) (result : Option Outcome)

/-- The hold of a worker, with another outcome to report. -/
def Hold.reporting (w : WorkerId) (result : Option Outcome) (h : Hold) : Hold :=
  if h.worker = w then { h with result } else h

namespace Session

variable {W : Type} {s s' : Session W} {B : Bodies W} {w : WorkerId} {h : Hold} {e : Event W}

/-! ### Events -/

/-- The holds of all other workers. -/
def others (s : Session W) (w : WorkerId) : List Hold := s.holds.filter (·.worker != w)

/-- Takes one step. -/
def perform (B : Bodies W) (s : Session W) : Event W → Session W
  | .order call => { s with network := s.network.perform B call }
  | .next w => (s.next B w).2
  | .exec w => (s.exec B w).2
  | .release w => (s.release B w).2
  | .report w result => { s with holds := s.holds.map (.reporting w result) }

/-- Whether a worker has returned from its last call. -/
def Present (s : Session W) (w : WorkerId) : Prop := ∀ h, s.holdOf w = some h → h.away = false

/-- Only a worker that has returned from its last call can give its stage back. -/
def Sound (s : Session W) : Event W → Prop
  | .order call => call.isOrder = true
  | .next w => s.Present w
  | .exec _ => True
  | .release w => s.Present w
  | .report .. => True

instance (s : Session W) (w : WorkerId) : Decidable (s.Present w) :=
  decidable_of_iff ((s.holdOf w).all (!·.away) = true) (by
    unfold Present
    cases s.holdOf w <;> simp)

instance (s : Session W) (e : Event W) : Decidable (s.Sound e) :=
  match e with
  | .order call => inferInstanceAs (Decidable (call.isOrder = true))
  | .next w => inferInstanceAs (Decidable (s.Present w))
  | .exec _ => isTrue trivial
  | .release w => inferInstanceAs (Decidable (s.Present w))
  | .report _ _ => isTrue trivial

/-- The sessions that can be reached by sound events, if these are allowed. -/
inductive Run (B : Bodies W) (allowed : Session W → Event W → Prop) (s₀ : Session W) :
    Session W → Prop where
  | start : Run B allowed s₀ s₀
  | step {s : Session W} (e : Event W) : Run B allowed s₀ s → s.Sound e → allowed s e →
    Run B allowed s₀ (s.perform B e)

/-- What holds at the start and survives every sound and allowed event holds throughout. -/
theorem Run.invariant {allowed : Session W → Event W → Prop} {s₀ : Session W} {P : Session W → Prop}
    (h : Run B allowed s₀ s) (h₀ : P s₀)
    (hs : ∀ s e, P s → s.Sound e → allowed s e → P (s.perform B e)) : P s := by
  induction h with
  | start => exact h₀
  | step e _ hsound hallowed ih => exact hs _ e ih hsound hallowed

/-! ### What a step comes to -/

theorem release_of_none (h : s.holdOf w = none) : (s.release B w).2 = s := by
  unfold release
  rw [h]

theorem release_of_some (h' : s.holdOf w = some h) :
    (s.release B w).2 =
      { s with
        network := s.scheduler.giveBack B s.network w h.stage h.result, holds := s.others w } := by
  unfold release
  rw [h']
  rfl

theorem exec_of_none (h : s.holdOf w = none) : (s.exec B w).2 = s := by
  unfold exec
  rw [h]

/-- The visit in which a worker calls the stage that it holds. -/
def visit (s : Session W) (h : Hold) : Visit :=
  .start h.worker (s.scheduler.locationOf h.worker) (s.network.graph.stage h.stage).knobs.chunk

theorem exec_of_some (h' : s.holdOf w = some h) (hw : h.worker = w) :
    (s.exec B w).2 =
      let r := s.network.call B h.stage (s.visit h)
      { s with
        network := r.2.2,
        holds := { h with result := r.1, away := r.1.isNone } :: s.others w } := by
  subst hw
  unfold exec
  rw [h']
  rfl

/-- The network once a worker has let go of what it holds. -/
def freed (B : Bodies W) (s : Session W) (w : WorkerId) : Network W :=
  s.scheduler.freed B s.network w ((s.holdOf w).map (·.stage)) ((s.holdOf w).bind (·.result))

/-- A worker that does not keep its stage lets go of it and is served like a free one. -/
theorem next_of_assign
    (he : s.scheduler.assign B s.network w ((s.holdOf w).map (·.stage))
      ((s.holdOf w).bind (·.result)) =
      s.scheduler.handOut B (s.freed B w) w) :
    s.next B w =
      let r := s.scheduler.handOut B (s.freed B w) w
      (r.1,
        { s with network := r.2 }.setHold w (r.1.map fun i => { worker := w, stage := i })) := by
  unfold next
  simp only
  rw [he]

/-- A worker that asks keeps its stage, is given one, or finds nothing and settles the rest unless
there is a failure. -/
theorem next_cases (s : Session W) (B : Bodies W) (w : WorkerId) :
    (∃ h, s.holdOf w = some h ∧ s.scheduler.mayKeep B s.network w h.stage h.result = true ∧
        s.next B w = (some h.stage,
          { s with
            network := Scheduler.keep s.network w h.stage
            holds := { worker := w, stage := h.stage } :: s.others w })) ∨
      (∃ i, i < (s.freed B w).graph.size ∧ Scheduler.eligible B (s.freed B w) i = true ∧
        (s.freed B w).graph.failure = none ∧
        s.next B w = (some i,
          { s with
            network := Scheduler.take (s.freed B w) w i
            holds := { worker := w, stage := i } :: s.others w })) ∨
      ((s.freed B w).graph.failure.isSome = true ∧
        s.next B w = (none, { s with network := s.freed B w, holds := s.others w })) ∨
      ((s.freed B w).graph.failure = none ∧
        (∀ i, i < (s.freed B w).graph.size → Scheduler.eligible B (s.freed B w) i = false) ∧
        s.next B w = (none,
          { s with
            network :=
              ((s.freed B w).settle B (Scheduler.idle B (s.freed B w))
                (some (s.scheduler.caller w))).2
            holds := s.others w })) := by
  rcases s.scheduler.assign_cases B s.network w ((s.holdOf w).map (·.stage))
      ((s.holdOf w).bind (·.result)) with
    ⟨i, hp, hk, he⟩ | he
  · left
    obtain ⟨h, hh, rfl⟩ := Option.map_eq_some_iff.1 hp
    refine ⟨h, hh, by simpa [hh] using hk, ?_⟩
    unfold next
    simp only
    rw [he]
    rfl
  · right
    have hnext := next_of_assign he
    rcases s.scheduler.handOut_cases B (s.freed B w) w with ⟨i, hi, hel, hf, ho⟩ | ⟨hf, ho⟩ |
      ⟨hf, hel, ho⟩
    · exact .inl ⟨i, hi, hel, hf, by rw [hnext, ho]; rfl⟩
    · exact .inr (.inl ⟨hf, by rw [hnext, ho]; rfl⟩)
    · exact .inr (.inr ⟨hf, hel, by rw [hnext, ho]; rfl⟩)

/-- A worker that has asked holds what it was given, and the others what they had. -/
theorem holds_next (s : Session W) (B : Bodies W) (w : WorkerId) :
    (s.next B w).2.holds =
      ((s.next B w).1.map fun i => { worker := w, stage := i }).toList ++ s.others w := rfl

/-! ### Holds -/

theorem mem_of_holdOf (h' : s.holdOf w = some h) : h ∈ s.holds ∧ h.worker = w :=
  ⟨List.mem_of_find?_eq_some h', by simpa using List.find?_some h'⟩

theorem others_of_none (h : s.holdOf w = none) : s.others w = s.holds := by
  unfold others
  rw [List.filter_eq_self]
  intro x hx
  have := List.find?_eq_none.1 h x hx
  simpa using this

theorem mem_others : h ∈ s.others w ↔ h ∈ s.holds ∧ h.worker ≠ w := by
  simp [others]

theorem countP_filter_ne {l : List Hold} {p : Hold → Bool} (hn : (l.map (·.worker)).Nodup)
    (hf : l.find? (·.worker == w) = some h) :
    l.countP p = (l.filter (·.worker != w)).countP p + if p h then 1 else 0 := by
  induction l with
  | nil => cases hf
  | cons x l ih =>
    rw [List.map_cons, List.nodup_cons] at hn
    by_cases hx : x.worker = w
    · rw [List.find?_cons_of_pos (by simpa using hx)] at hf
      cases hf
      have hl : l.filter (·.worker != w) = l := by
        rw [List.filter_eq_self]
        intro y hy
        have : y.worker ≠ w := fun hyw => hn.1 (List.mem_map.2 ⟨y, hy, hyw.trans hx.symm⟩)
        simpa using this
      rw [List.countP_cons, List.filter_cons_of_neg (by simpa using hx), hl]
    · rw [List.find?_cons_of_neg (by simpa using hx)] at hf
      rw [List.countP_cons, List.filter_cons_of_pos (by simpa using hx),
        List.countP_cons, ih hn.2 hf]
      omega

/-- How often a stage is held. -/
def tally (holds : List Hold) (i : StageId) : Nat := holds.countP (·.stage == i)

theorem tally_cons (h : Hold) (hs : List Hold) (i : StageId) :
    tally (h :: hs) i = tally hs i + if h.stage = i then 1 else 0 := by
  simp [tally, List.countP_cons]

theorem tally_pos {hs : List Hold} (hm : h ∈ hs) : 0 < tally hs h.stage :=
  List.countP_pos_iff.2 ⟨h, hm, by simp⟩

/-- No worker holds more than one stage, and the graph counts the holders of each. -/
structure Tallied (s : Session W) : Prop where
  workers : (s.holds.map (·.worker)).Nodup
  holders : ∀ i, (s.network.graph.stage i).holders = tally s.holds i

namespace Tallied

variable (t : s.Tallied)
include t

theorem tally_others (h' : s.holdOf w = some h) (i : StageId) :
    tally s.holds i = tally (s.others w) i + if h.stage = i then 1 else 0 := by
  have := countP_filter_ne (p := fun x => x.stage == i) t.workers h'
  simpa [tally, others] using this

theorem workers_others (w : WorkerId) : ((s.others w).map (·.worker)).Nodup :=
  t.workers.sublist (List.filter_sublist.map _)

theorem workers_cons (w : WorkerId) {x : Hold} (hx : x.worker = w) :
    ((x :: s.others w).map (·.worker)).Nodup := by
  rw [List.map_cons, List.nodup_cons]
  refine ⟨fun hm => ?_, t.workers_others w⟩
  obtain ⟨y, hy, hyx⟩ := List.mem_map.1 hm
  exact (mem_others.1 hy).2 (hyx.trans hx)

theorem holdOf_of_mem (hm : h ∈ s.holds) : s.holdOf h.worker = some h := by
  have key : ∀ l : List Hold, (l.map (·.worker)).Nodup → h ∈ l →
      l.find? (·.worker == h.worker) = some h := by
    intro l hn hl
    induction l with
    | nil => cases hl
    | cons x l ih =>
      rw [List.map_cons, List.nodup_cons] at hn
      rcases List.mem_cons.1 hl with rfl | hl
      · rw [List.find?_cons_of_pos (by simp)]
      · have : x.worker ≠ h.worker := fun hx => hn.1 (List.mem_map.2 ⟨h, hl, hx.symm⟩)
        rw [List.find?_cons_of_neg (by simpa using this)]
        exact ih hn.2 hl
  exact key s.holds t.workers hm

/-- A stage that a worker holds has a holder. -/
theorem holders_pos (hm : h ∈ s.holds) : 0 < (s.network.graph.stage h.stage).holders := by
  rw [t.holders]
  exact tally_pos hm

theorem lt_size (hm : h ∈ s.holds) : h.stage < s.network.graph.size := by
  by_contra hi
  have := t.holders_pos hm
  rw [Graph.stage_of_size_le (Nat.le_of_not_lt hi)] at this
  exact absurd this (by decide)

end Tallied

end Session

/-! ### Orders -/

section

variable {W : Type} {B : Bodies W} {P : Network W → Prop} {n : Network W} {call : Call W}

/-- What endures, and survives opening, survives every order that pauses no stage that must not be,
if it survives what orders do apart from the life of stages. -/
theorem Enduring.order {may : StageId → Prop} (hP : Enduring B may P) (opens : Opening B P)
    (hs : ∀ i ∈ n.graph.sources, i < n.graph.size) (ho : call.isOrder = true)
    (pauses : ∀ i, call = .pause i → may i) (fails : ∀ f, P (n.mapGraph (·.recordFailure f)))
    (tunes : ∀ i f, P (n.mapGraph (·.modifyKnobs i f)))
    (outside : ∀ world, call = .outside world → P { n with world }) (h : P n) :
    P (n.perform B call) := by
  cases call with
  | build p =>
    cases p with
    | knobs i f => exact tunes i f
    | _ => cases ho
  | activate i => exact opens.activate h
  | activateAll => exact opens.activateAll h
  | pause i => exact hP.pause h (pauses i rfl)
  | finish i => exact hP.finish h
  | finishSources => exact hP.finishSources h hs
  | fail f => exact fails f
  | outside world => exact outside world rfl
  | _ => cases ho

/-- What is stable survives every order, if it survives what orders do apart from the life of
stages. -/
theorem Stable.order (hP : Stable B P) (hs : ∀ i ∈ n.graph.sources, i < n.graph.size)
    (ho : call.isOrder = true) (fails : ∀ f, P (n.mapGraph (·.recordFailure f)))
    (tunes : ∀ i f, P (n.mapGraph (·.modifyKnobs i f)))
    (outside : ∀ world, call = .outside world → P { n with world }) (h : P n) :
    P (n.perform B call) :=
  hP.toLasting.enduring.order hP.opening hs ho (fun _ _ => trivial) fails tunes outside h

/-- What is stable and depends on nothing but wiring, states and counters survives every sound
event. -/
theorem Stable.event (hP : Stable B P) (alike : ∀ n m, P n → n.graph.Alike m.graph → P m)
    {s : Session W} {e : Event W} (hs : ∀ i ∈ s.network.graph.sources, i < s.network.graph.size)
    (he : s.Sound e) (h : P s.network) :
    P (s.perform B e).network := by
  cases e with
  | order call =>
    refine hP.order hs he (fun f => alike _ _ h (.recordFailure _ f)) (fun i f => alike _ _ h ?_)
      (fun _ _ => alike _ _ h (.refl _)) h
    exact .modify _ i (fun _ => rfl) (fun _ => rfl) fun _ => rfl
  | next w => exact hP.toLasting.assign alike h
  | exec w =>
    cases hh : s.holdOf w with
    | none =>
      rw [Session.perform, Session.exec_of_none hh]
      exact h
    | some x =>
      rw [Session.perform, Session.exec_of_some hh (Session.mem_of_holdOf hh).2]
      exact alike _ _ h (s.network.alike_call B x.stage (s.visit x))
  | release w =>
    cases hh : s.holdOf w with
    | none =>
      rw [Session.perform, Session.release_of_none hh]
      exact h
    | some x =>
      rw [Session.perform, Session.release_of_some hh]
      exact hP.toLasting.giveBack alike h
  | report w result => exact h

end

/-! ### The wiring -/

namespace Session

variable {W : Type} {s : Session W} {B : Bodies W} {e : Event W}

theorem bare_next (s : Session W) (B : Bodies W) (w : WorkerId) :
    (s.next B w).2.network.graph.bare = s.network.graph.bare :=
  (stable_bare B s.network.graph.bare).toLasting.assign (fun _ _ h ha => ha.bare.trans h) rfl

/-- The wiring stays as it is. -/
theorem bare_perform (hs : ∀ i ∈ s.network.graph.sources, i < s.network.graph.size)
    (he : s.Sound e) :
    (s.perform B e).network.graph.bare = s.network.graph.bare :=
  (stable_bare B s.network.graph.bare).event (fun _ _ h ha => ha.bare.trans h) hs he rfl

theorem wired_perform (w : s.network.graph.Wired) (he : s.Sound e) :
    (s.perform B e).network.graph.Wired :=
  w.of_bare (bare_perform (fun _ => w.lt_size_of_mem_sources) he)

/-- What a step does to states and counters is a course. -/
theorem course_perform {n : Network W} (hc : Course B n s.network) (w : s.network.graph.Wired)
    (he : s.Sound e) :
    Course B n (s.perform B e).network :=
  (stable_course B n).event (fun _ _ => .alters) (fun _ => w.lt_size_of_mem_sources) he hc

end Session

/-! ### The tally -/

namespace Session

variable {W : Type} {s : Session W} {B : Bodies W} {w : WorkerId} {h : Hold} {e : Event W}

theorem holders_freed (s : Session W) (B : Bodies W) (w : WorkerId) (i : StageId) :
    ((s.freed B w).graph.stage i).holders =
      (s.network.graph.stage i).holders - if (s.holdOf w).any (·.stage == i) then 1 else 0 := by
  unfold freed
  cases s.holdOf w with
  | none => rfl
  | some h => simp [Scheduler.freed, Scheduler.holders_giveBack]

/-- Once a worker has let go the graph counts the others. -/
theorem Tallied.freed (t : s.Tallied) (w : WorkerId) (i : StageId) :
    ((s.freed B w).graph.stage i).holders = tally (s.others w) i := by
  rw [holders_freed, t.holders]
  cases hh : s.holdOf w with
  | none => simp [others_of_none hh]
  | some h =>
    rw [t.tally_others hh]
    simp

theorem Tallied.next (t : s.Tallied) (w : WorkerId) : (s.next B w).2.Tallied := by
  rcases s.next_cases B w with ⟨h, hh, -, he⟩ | ⟨i, hi, -, -, he⟩ | ⟨-, he⟩ | ⟨-, -, he⟩ <;> rw [he]
  · refine ⟨t.workers_cons w rfl, fun i => ?_⟩
    rw [tally_cons, ← t.tally_others hh, ← t.holders]
    exact Scheduler.holders_keep s.network w h.stage i
  · refine ⟨t.workers_cons w rfl, fun j => ?_⟩
    rw [tally_cons, ← t.freed (B := B)]
    exact Scheduler.holders_take hi w j
  · exact ⟨t.workers_others w, t.freed w⟩
  · refine ⟨t.workers_others w, ?_⟩
    exact (stable_holders B (tally (s.others w))).settling.settle (t.freed w)

theorem Tallied.release (t : s.Tallied) (w : WorkerId) : (s.release B w).2.Tallied := by
  cases hh : s.holdOf w with
  | none =>
    rw [release_of_none hh]
    exact t
  | some h =>
    rw [release_of_some hh]
    refine ⟨t.workers_others w, fun i => ?_⟩
    rw [← t.freed (B := B), Session.freed, hh]
    rfl

theorem Tallied.exec (t : s.Tallied) (w : WorkerId) : (s.exec B w).2.Tallied := by
  cases hh : s.holdOf w with
  | none =>
    rw [exec_of_none hh]
    exact t
  | some h =>
    have hw := (mem_of_holdOf hh).2
    rw [exec_of_some hh hw]
    refine ⟨t.workers_cons w hw, fun i => ?_⟩
    rw [tally_cons, ← t.tally_others hh, ← t.holders]
    exact Network.holders_call s.network B h.stage (s.visit h) i

theorem Tallied.order (t : s.Tallied) (hs : ∀ i ∈ s.network.graph.sources, i < s.network.graph.size)
    {call : Call W} (ho : call.isOrder = true) : (s.perform B (.order call)).Tallied := by
  refine ⟨t.workers, (stable_holders B (tally s.holds)).order hs ho (fun f i => ?_)
    (fun i f j => ?_) (fun _ _ => t.holders) t.holders⟩
  · rw [Network.graph_mapGraph, Graph.stage_recordFailure]
    exact t.holders i
  · exact (Graph.map_stage_modify Stage.holders (f := fun s => { s with knobs := f s.knobs })
      (fun _ => rfl) i j).trans (t.holders j)

theorem Tallied.report (t : s.Tallied) (w : WorkerId) (result : Option Outcome) :
    (s.perform B (.report w result)).Tallied := by
  have hw : (fun h : Hold => h.worker) ∘ Hold.reporting w result = (·.worker) := by
    funext h
    by_cases hw : h.worker = w <;> simp [Hold.reporting, hw]
  have hs : (fun h : Hold => h.stage) ∘ Hold.reporting w result = (·.stage) := by
    funext h
    by_cases hw : h.worker = w <;> simp [Hold.reporting, hw]
  refine ⟨?_, fun i => ?_⟩
  · simp only [perform, List.map_map, hw]
    exact t.workers
  · simp only [perform, tally, List.countP_map]
    exact (t.holders i).trans
      (congrArg (fun f : Hold → StageId => s.holds.countP (f · == i)) hs.symm)

/-- The holders are counted throughout. -/
theorem Tallied.perform (t : s.Tallied)
    (hs : ∀ i ∈ s.network.graph.sources, i < s.network.graph.size) (he : s.Sound e) :
    (s.perform B e).Tallied := by
  cases e with
  | order call => exact t.order hs he
  | next w => exact t.next w
  | exec w => exact t.exec w
  | release w => exact t.release w
  | report w result => exact t.report w result

end Session

end Pipework
