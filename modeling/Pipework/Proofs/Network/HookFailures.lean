import Mathlib.Data.List.Induction
import Pipework.Proofs.Network.Calls
import Pipework.Proofs.Network.Lockstep

/-!
# Failing hooks

A hook may fail or panic. That is reported to whoever caused the call, the first failure in each
answer, and the first failure of all is kept; nothing else depends on it. To say so bodies are made
to record the hooks that are called and how each of them failed (`Bodies.recording`), which changes
nothing (`paced_recording`). Two networks whose hooks differ in their outcomes only are in step
(`paced_outcomes`), and what is answered can be read off the record (`paced_reports`).
-/

namespace Pipework

/-! ### Hooks that were called -/

/-- The error of an answer, if it is one. -/
def Reply.error? {β : Type} (r : Reply β) : Option StageError :=
  match r.toExcept with
  | .ok _ => none
  | .error e => some e

/-- A hook that was called, and how it failed, if it did. -/
structure HookCall where
  hook : Hook
  stage : StageId
  error : Option StageError
  deriving DecidableEq, Repr

namespace HookCall

/-- What is called, whatever comes of it. -/
def target (h : HookCall) : Hook × StageId := (h.hook, h.stage)

/-- What is answered to whoever caused the call, if it failed. -/
def refusal (g : Graph) (h : HookCall) : Option GraphError :=
  h.error.map fun e => .hookFailed (g.stage h.stage).name h.hook.text e.message

/-- The record of the call in a graph, if it failed. -/
def failure (g : Graph) (c : Option Caller) (h : HookCall) : Option Failure :=
  h.error.map fun e =>
    { stage := h.stage
      name := (g.stage h.stage).name
      worker := c.map (·.worker)
      location := c.map (·.location)
      message := h.hook.text ++ " failed: " ++ e.message }

end HookCall

/-- The answer when some hooks were called: the first failure among them. -/
def report (g : Graph) (called : List HookCall) : Except GraphError Unit :=
  match called.findSome? (·.refusal g) with
  | none => .ok ()
  | some e => .error e

theorem report_append (g : Graph) (called more : List HookCall) :
    report g (called ++ more) = firstError (report g called) (report g more) := by
  unfold report
  rw [List.findSome?_append]
  cases called.findSome? (·.refusal g) <;> rfl

theorem report_eq_ok_iff {g : Graph} {called : List HookCall} :
    report g called = .ok () ↔ ∀ h ∈ called, h.error = none := by
  have hnone : report g called = .ok () ↔ called.findSome? (·.refusal g) = none := by
    unfold report
    cases called.findSome? (·.refusal g) <;> simp
  rw [hnone, List.findSome?_eq_none_iff]
  simp [HookCall.refusal]

/-- The call of a hook in a world. -/
def Bodies.hookCall {W : Type} (B : Bodies W) (hook : Hook) (i : StageId) (w : W) : HookCall :=
  ⟨hook, i, (B.hook hook i w).1.error?⟩

theorem Graph.recordFailure_eq (g : Graph) (f : Failure) :
    g.recordFailure f = g.withFailure (g.failure.or (some f)) := by
  unfold Graph.recordFailure
  split
  · next e he =>
    rw [he, Option.some_or, ← he]
    rfl
  · next he =>
    rw [he]
    rfl

/-- What comes of a hook depends on its answer only. -/
theorem Network.runHook_match {W : Type} (n : Network W) (B : Bodies W) (hook : Hook) (i : StageId)
    (c : Option Caller) :
    n.runHook B hook i c = match (B.hook hook i n.world).1.toExcept with
      | .ok _ => (.ok (), ⟨n.graph, (B.hook hook i n.world).2⟩)
      | .error e => (.error (.hookFailed (n.graph.stage i).name hook.text e.message),
          ⟨n.graph.recordFailure (n.hookFailure hook i c e), (B.hook hook i n.world).2⟩) := by
  cases hook <;> rfl

/-- A hook is reported, and its failure is kept if there was none before. -/
theorem Network.runHook_eq {W : Type} (n : Network W) (B : Bodies W) (hook : Hook) (i : StageId)
    (c : Option Caller) :
    n.runHook B hook i c = (report n.graph [B.hookCall hook i n.world],
      ⟨n.graph.withFailure (n.graph.failure.or ((B.hookCall hook i n.world).failure n.graph c)),
        (B.hook hook i n.world).2⟩) := by
  rw [runHook_match]
  unfold report Bodies.hookCall Reply.error?
  cases (B.hook hook i n.world).1.toExcept with
  | ok _ =>
    rw [show HookCall.failure n.graph c ⟨hook, i, none⟩ = none from rfl, Option.or_none]
    rfl
  | error e =>
    simp only [Graph.recordFailure_eq]
    rfl

/-! ### Recording -/

/-- A world with the hooks that were called, the latest last. -/
abbrev Recorded (W : Type) := W × List HookCall

/-- Bodies that record the hooks that are called. -/
def Bodies.recording {W : Type} (B : Bodies W) : Bodies (Recorded W) where
  opening i p := ((B.opening i p.1).1, (B.opening i p.1).2, p.2 ++ [B.hookCall .opening i p.1])
  call i v p := ((B.call i v p.1).1, (B.call i v p.1).2.1, (B.call i v p.1).2.2, p.2)
  closing i p := ((B.closing i p.1).1, (B.closing i p.1).2, p.2 ++ [B.hookCall .closing i p.1])
  pending i p := B.pending i p.1
  threshold i p := B.threshold i p.1
  setThreshold i n p := (B.setThreshold i n p.1, p.2)

section

variable {W W' : Type} {B : Bodies W} {B' : Bodies W'}

theorem Bodies.hook_recording (B : Bodies W) (hook : Hook) (i : StageId) (p : Recorded W) :
    B.recording.hook hook i p = ((B.hook hook i p.1).1, (B.hook hook i p.1).2,
      p.2 ++ [B.hookCall hook i p.1]) := by
  cases hook <;> rfl

theorem Bodies.hookCall_recording (B : Bodies W) (hook : Hook) (i : StageId) (p : Recorded W) :
    B.recording.hookCall hook i p = B.hookCall hook i p.1 := by
  cases hook <;> rfl

/-- Recording changes nothing. -/
theorem paced_recording (B : Bodies W) (c : Option Caller) :
    Paced B.recording B c fun r r' => r.1 = r'.1 ∧ r.2.graph = r'.2.graph ∧
    r.2.world.1 = r'.2.world where
  graph h := by rw [h.2.1]
  pending h i := by rw [← h.2.2]; rfl
  maps h _ := ⟨h.1, by simp only [Done.map, Network.graph_mapGraph, h.2.1], h.2.2⟩
  hooks hook i h := by
    obtain ⟨he, hg, hw⟩ := h
    simp only [Done.andThen, Network.runHook_eq, Bodies.hook_recording, Bodies.hookCall_recording,
      he, hg, hw, and_self]

/-- What has been called since, and that it was reported and kept, if nothing was before. -/
structure Reported (g : Graph) (c : Option Caller) (f : Option Failure) (before : List HookCall)
    (r : Done (Recorded W)) : Prop where
  bare : r.2.graph.bare = g.bare
  called : ∃ called, r.2.world.2 = before ++ called ∧ r.1 = report g called ∧
    r.2.graph.failure = f.or (called.findSome? (·.failure g c))

theorem paced_reports (B : Bodies W) (g : Graph) (c : Option Caller) (f : Option Failure)
    (before : List HookCall) :
    Paced B.recording B.recording c fun r r' => r = r' ∧ Reported g c f before r where
  graph h := by rw [h.1]
  pending h i := by rw [h.1]
  maps {r r' φ} h hφ := by
    obtain ⟨rfl, h⟩ := h
    obtain ⟨called, hw, he, hf⟩ := h.called
    exact ⟨rfl, (hφ.bare _).trans h.bare, called, hw, he, (hφ.failure _).trans hf⟩
  hooks {r r'} hook i h := by
    obtain ⟨rfl, h⟩ := h
    obtain ⟨called, hw, he, hf⟩ := h.called
    have hname : ∀ i, (r.2.graph.stage i).name = (g.stage i).name := fun i => by
      have := congrArg Stage.name (Graph.stage_of_bare h.bare i)
      exact this
    have hreport : ∀ l, report r.2.graph l = report g l := fun l => by
      simp only [report, HookCall.refusal, hname]
    have hfailure : ∀ x : HookCall, x.failure r.2.graph c = x.failure g c := fun x => by
      simp only [HookCall.failure, hname]
    rw [Network.runHook_eq, Bodies.hook_recording, Bodies.hookCall_recording]
    refine ⟨rfl, h.bare, called ++ [B.hookCall hook i r.2.world.1], ?_, ?_, ?_⟩
    · simp only [Done.andThen, hw, List.append_assoc]
    · simp only [Done.andThen, he, hreport, report_append]
    · simp only [Done.andThen, Graph.withFailure, hf, hfailure, List.findSome?_append,
        Option.or_assoc, List.findSome?_cons, List.findSome?_nil]
      cases HookCall.failure g c _ <;> rfl

/-- No hook changes which stages have work. -/
def Bodies.LeavesPending (B : Bodies W) : Prop :=
  ∀ hook i j w, B.pending j (B.hook hook i w).2 = B.pending j w

/-- **Where hooks differ in their outcomes only, everything else goes the same way.** -/
theorem paced_outcomes (hB : B.LeavesPending) (hB' : B'.LeavesPending) (c : Option Caller) :
    Paced B.recording B'.recording c fun r r' =>
      r.2.graph.withFailure none = r'.2.graph.withFailure none ∧
        r.2.world.2.map HookCall.target = r'.2.world.2.map HookCall.target ∧
        ∀ i, B.pending i r.2.world.1 = B'.pending i r'.2.world.1 where
  graph h := h.1
  pending h := h.2.2
  maps {r r' f} h hf := by
    refine ⟨?_, h.2⟩
    simp only [Done.map, Network.graph_mapGraph, ← hf.withFailure, h.1]
  hooks {r r'} hook i h := by
    obtain ⟨hg, hc, hp⟩ := h
    simp only [Done.andThen, Network.runHook_eq, Bodies.hook_recording, Bodies.hookCall_recording]
    refine ⟨hg, ?_, fun j => ?_⟩
    · rw [List.map_append, List.map_append, hc]
      rfl
    · rw [hB, hB', hp]

/-! ### Demands -/

theorem Demand.known_or (g : Graph) (d : Demand) :
    d.Known g ∨ ∃ i, d.target = some i ∧ g.size ≤ i := by
  cases ht : d.target with
  | none => exact .inl fun i hi => by rw [ht] at hi; cases hi
  | some i =>
    by_cases hi : i < g.size
    · exact .inl fun k hk => by rw [ht] at hk; cases hk; exact hi
    · exact .inr ⟨i, rfl, Nat.le_of_not_lt hi⟩

namespace Network

/-- The hooks that are called while demands are met, and how each of them failed. -/
def called (B : Bodies W) (n : Network W) (ds : List Demand) : List HookCall :=
  (obeyAll B.recording ⟨n.graph, n.world, []⟩ ds).world.2

theorem obeyAll_concat (B : Bodies W) (n : Network W) (ds : List Demand) (d : Demand) :
    obeyAll B n (ds ++ [d]) = ((obeyAll B n ds).obey B d).2 := by
  unfold obeyAll
  rw [List.foldl_append]
  rfl

/-- What is demanded is answered and done in the same way whether it is recorded or not. -/
theorem obey_recording {n : Network (Recorded W)} {m : Network W} (hg : n.graph = m.graph)
    (hw : n.world.1 = m.world) (d : Demand) :
    (n.obey B.recording d).1 = (m.obey B d).1 ∧
      (n.obey B.recording d).2.graph = (m.obey B d).2.graph ∧
      (n.obey B.recording d).2.world.1 = (m.obey B d).2.world := by
  rcases d.known_or n.graph with hd | ⟨i, ht, hi⟩
  · exact (paced_recording B none).obey (.ok (), n) (.ok (), m) hd ⟨rfl, hg, hw⟩
  · rw [obey_of_size_le B.recording ht hi, obey_of_size_le B ht (hg ▸ hi)]
    exact ⟨rfl, hg, hw⟩

theorem obeyAll_recording (B : Bodies W) (n : Network W) (ds : List Demand) :
    (obeyAll B.recording ⟨n.graph, n.world, []⟩ ds).graph = (obeyAll B n ds).graph ∧
      (obeyAll B.recording ⟨n.graph, n.world, []⟩ ds).world.1 = (obeyAll B n ds).world := by
  induction ds using List.reverseRecOn with
  | nil => exact ⟨rfl, rfl⟩
  | append_singleton ds d ih =>
    rw [obeyAll_concat, obeyAll_concat]
    exact (obey_recording ih.1 ih.2 d).2

/-- What is demanded is answered with the first failure of a hook that it caused, and a failure is
kept if there was none before. -/
theorem reported_obey {n : Network (Recorded W)} {g : Graph} (hb : n.graph.bare = g.bare)
    {d : Demand} (hd : d.Known g) :
    Reported g none n.graph.failure n.world.2 (n.obey B.recording d) := by
  have hd' : d.Known n.graph := fun i ht => Graph.size_of_bare hb ▸ hd i ht
  have begins : Reported g none n.graph.failure n.world.2 (.ok (), n) :=
    ⟨hb, [], (List.append_nil _).symm, rfl, (Option.or_none).symm⟩
  exact ((paced_reports B g none _ _).obey (.ok (), n) _ hd' ⟨rfl, begins⟩).2

/-- All that has been recorded decides which failure is kept. -/
theorem kept_obeyAll (B : Bodies W) (n : Network W) (ds : List Demand) :
    (obeyAll B.recording ⟨n.graph, n.world, []⟩ ds).graph.bare = n.graph.bare ∧
      (obeyAll B.recording ⟨n.graph, n.world, []⟩ ds).graph.failure =
        n.graph.failure.or ((n.called B ds).findSome? (·.failure n.graph none)) := by
  induction ds using List.reverseRecOn with
  | nil => exact ⟨rfl, (Option.or_none).symm⟩
  | append_singleton ds d ih =>
    obtain ⟨hb, hf⟩ := ih
    unfold called
    rw [obeyAll_concat]
    rcases d.known_or n.graph with hd | ⟨i, ht, hi⟩
    · have reported := reported_obey (B := B) hb hd
      obtain ⟨more, hw, -, hf'⟩ := reported.called
      refine ⟨reported.bare, ?_⟩
      rw [hf', hf, hw, List.findSome?_append, Option.or_assoc]
      rfl
    · rw [obey_of_size_le _ ht (by rwa [Graph.size_of_bare hb])]
      exact ⟨hb, hf⟩

/-- Where hooks differ in their outcomes only, everything else goes the same way all the time. -/
theorem outcomes_obeyAll (hB : B.LeavesPending) (hB' : B'.LeavesPending) (g : Graph) {w : W}
    {w' : W'} (hp : ∀ i, B.pending i w = B'.pending i w') (ds : List Demand) :
    let n := obeyAll B.recording ⟨g, w, []⟩ ds
    let n' := obeyAll B'.recording ⟨g, w', []⟩ ds
    n.graph.withFailure none = n'.graph.withFailure none ∧
      n.world.2.map HookCall.target = n'.world.2.map HookCall.target ∧
        ∀ i, B.pending i n.world.1 = B'.pending i n'.world.1 := by
  induction ds using List.reverseRecOn with
  | nil => exact ⟨rfl, rfl, hp⟩
  | append_singleton ds d ih =>
    simp only [obeyAll_concat]
    rcases d.known_or (obeyAll B.recording ⟨g, w, []⟩ ds).graph with hd | ⟨i, ht, hi⟩
    · exact (paced_outcomes hB hB' none).obey (.ok (), _) (.ok (), _) hd ih
    · have hsize := congrArg Graph.size ih.1
      simp only [Graph.size_withFailure] at hsize
      rw [obey_of_size_le _ ht hi, obey_of_size_le _ ht (hsize ▸ hi)]
      exact ih

end Network

/-- **Hook failures disturb nothing.** Let two networks begin with the same graph and the same work,
and let their hooks leave the work alone. After the same demands the graphs are the same, their
failures apart, and the same hooks have been called in the same order, whatever came of them. The
failure of a graph is the one it began with, or else the first failure of a hook; and each demand is
answered with the first failure of a hook that was called for it, if there is one, unless it is
about a stage that does not exist: that is the answer then, and nothing is done. -/
theorem hook_failures_disturb_nothing {W W' : Type} (B : Bodies W) (B' : Bodies W')
    (hB : B.LeavesPending) (hB' : B'.LeavesPending) (g : Graph) (w : W) (w' : W')
    (hp : ∀ i, B.pending i w = B'.pending i w') (demands : List Demand) :
    let n := Network.obeyAll B ⟨g, w⟩ demands
    let n' := Network.obeyAll B' ⟨g, w'⟩ demands
    let called := Network.called B ⟨g, w⟩ demands
    n.graph.withFailure none = n'.graph.withFailure none ∧
      called.map HookCall.target = (Network.called B' ⟨g, w'⟩ demands).map HookCall.target ∧
      n.graph.failure = g.failure.or (called.findSome? (·.failure g none)) ∧
      ∀ d : Demand, ∃ more, Network.called B ⟨g, w⟩ (demands ++ [d]) = called ++ more ∧
        (d.Known g → (n.obey B d).1 = report g more ∧
          ((n.obey B d).1 = .ok () ↔ ∀ h ∈ more, h.error = none)) ∧
        ∀ i, d.target = some i → g.size ≤ i →
          more = [] ∧ n.obey B d = (.error (.stageNotFound i), n) := by
  intro n n' called
  obtain ⟨hg, hw⟩ := Network.obeyAll_recording B ⟨g, w⟩ demands
  obtain ⟨hg', -⟩ := Network.obeyAll_recording B' ⟨g, w'⟩ demands
  obtain ⟨same, order, -⟩ := Network.outcomes_obeyAll hB hB' g hp demands
  obtain ⟨hb, hf⟩ := Network.kept_obeyAll B ⟨g, w⟩ demands
  have hsize : n.graph.size = g.size := by rw [← Graph.size_of_bare hb, hg]
  refine ⟨?_, order, hg ▸ hf, fun d => ?_⟩
  · rwa [hg, hg'] at same
  · have hd := (Network.obey_recording (B := B) hg hw d).1
    unfold Network.called
    rw [Network.obeyAll_concat]
    rcases d.known_or g with known | ⟨i, ht, hi⟩
    · obtain ⟨more, hmore, hreport, -⟩ := (Network.reported_obey (B := B) hb known).called
      rw [hd] at hreport
      refine ⟨more, hmore, fun _ => ⟨hreport, ?_⟩, fun i ht hi => ?_⟩
      · rw [← report_eq_ok_iff (g := g), ← hreport]
      · exact absurd (known i ht) (Nat.not_lt.2 hi)
    · refine ⟨[], ?_, fun known => absurd (known i ht) (Nat.not_lt.2 hi), fun k hk hle => ⟨rfl, ?_⟩⟩
      · rw [Network.obey_of_size_le _ ht (by rwa [hg, hsize]), List.append_nil]
        rfl
      · exact Network.obey_of_size_le B hk (by rwa [hsize])

end

/-- Bodies with nothing to do. The hooks of the first stage succeed; those that open any other fail,
and those that close it panic. -/
def Bodies.grumbling : Bodies Unit :=
  { Bodies.inert with
    opening := fun i w => (if i = 0 then .ok () else .failed ⟨"not today"⟩, w)
    closing := fun i w => (if i = 0 then .ok () else .panicked .other, w) }

theorem leavesPending_inert : Bodies.inert.LeavesPending := fun _ _ _ _ => rfl

theorem leavesPending_grumbling : Bodies.grumbling.LeavesPending := fun _ _ _ _ => rfl

/-- Three stages in a row. -/
def rowParts : List Graph.Part :=
  [.stage "a" .source true, .stage "b" .interior true, .stage "c" .sink true, .edge 0 1,
    .edge 1 2, .source 0]

namespace Row

/-- The row with its hooks recorded. -/
def fresh : Network (Recorded Unit) := ⟨.ofParts rowParts, (), []⟩

def opened : Network (Recorded Unit) :=
  [0, 1, 2].foldl (fun n i => (n.openOne Bodies.grumbling.recording i none).2) fresh

def closed : Network (Recorded Unit) :=
  [0, 1, 2].foldl (fun n i => (n.complete Bodies.grumbling.recording i none).2) opened

theorem obeyAll_activate :
    Network.obeyAll Bodies.grumbling.recording fresh [.activate 0] = opened :=
  Network.activateEach_of_links (g := .ofParts rowParts) ⟨rfl, rfl, rfl, rfl, rfl⟩ rfl
    (by decide) (by decide)

theorem obeyAll_finish :
    Network.obeyAll Bodies.grumbling.recording fresh ([.activate 0] ++ [.finish 0]) = closed := by
  rw [Network.obeyAll_concat, obeyAll_activate]
  change (Network.settle _ _ [0] none).2 = _
  unfold Network.settle closed
  rw [List.reverse_singleton, Network.settleEach_cons 0 [] [1] (by decide) (by decide),
    Network.settleOne_of_finished (by decide), List.append_nil, Network.settleEach_cons 1 [] [2]
      (by decide) (by decide), Network.settleOne_of_settled (by decide) (by decide),
    List.append_nil, Network.settleEach_cons 2 [] [] (by decide) (by decide),
    Network.settleOne_of_settled (by decide) (by decide), List.append_nil, Network.settleEach_nil]
  rfl

end Row

/-- The first hook that fails is the second that is called, and still the third stage is opened and
closed. The row takes the same course as one whose hooks succeed; the first failure is kept when the
second is reported. -/
theorem hook_failures_disturb_nothing_grumbling :
    let g := Graph.ofParts rowParts
    let n := Network.obeyAll .grumbling ⟨g, ()⟩ [.activate 0]
    let m := (n.obey .grumbling (.finish 0)).2
    n.graph.withFailure none =
      (Network.obeyAll .inert ⟨g, ()⟩ [.activate 0]).graph.withFailure none ∧
      (∀ i < 3, (n.graph.stage i).state = .running) ∧
      (Network.called .grumbling ⟨g, ()⟩ [.activate 0]).map HookCall.target =
        [(.opening, 0), (.opening, 1), (.opening, 2)] ∧
      (Network.obey .grumbling ⟨g, ()⟩ (.activate 0)).1 =
        .error (.hookFailed "b" "initialize" "not today") ∧
      n.graph.failure = some ⟨1, "b", none, none, "initialize failed: not today"⟩ ∧
      (n.obey .grumbling (.finish 0)).1 =
        .error (.hookFailed "b" "finalize" "panicked: non-string panic payload") ∧
      (∀ i < 3, (m.graph.stage i).state = .finished) ∧
      (Network.called .inert ⟨g, ()⟩ [.activate 0, .finish 0]).map HookCall.target =
        [(.opening, 0), (.opening, 1), (.opening, 2), (.closing, 0), (.closing, 1), (.closing, 2)] ∧
      m.graph.failure = n.graph.failure := by
  intro g n m
  obtain ⟨-, -, -, begins⟩ := hook_failures_disturb_nothing .grumbling .inert
    leavesPending_grumbling leavesPending_inert g () () (fun _ => rfl) []
  obtain ⟨same, -, first, answers⟩ := hook_failures_disturb_nothing .grumbling .inert
    leavesPending_grumbling leavesPending_inert g () () (fun _ => rfl) [.activate 0]
  obtain ⟨-, order, kept, -⟩ := hook_failures_disturb_nothing .grumbling .inert
    leavesPending_grumbling leavesPending_inert g () () (fun _ => rfl)
    ([.activate 0] ++ [.finish 0])
  have opened : Network.called .grumbling ⟨g, ()⟩ [.activate 0] = Row.opened.world.2 :=
    congrArg (·.world.2) Row.obeyAll_activate
  have closed : Network.called .grumbling ⟨g, ()⟩ ([.activate 0] ++ [.finish 0]) =
      Row.closed.world.2 :=
    congrArg (·.world.2) Row.obeyAll_finish
  have hn : n.graph = Row.opened.graph := by
    rw [← Row.obeyAll_activate]
    exact (Network.obeyAll_recording .grumbling ⟨g, ()⟩ [.activate 0]).1.symm
  have hm : m.graph = Row.closed.graph := by
    rw [← Row.obeyAll_finish]
    exact (Network.obeyAll_recording .grumbling ⟨g, ()⟩ ([.activate 0] ++ [.finish 0])).1.symm
  obtain ⟨more, hmore, report₁, -⟩ := begins (.activate 0)
  obtain ⟨more', hmore', report₂, -⟩ := answers (.finish 0)
  obtain rfl : Row.opened.world.2 = more := opened.symm.trans hmore
  obtain rfl : more' = Row.closed.world.2.drop 3 := by
    rw [← closed, hmore', opened]
    rfl
  refine ⟨same, ?_, ?_, ?_, ?_, ?_, ?_, ?_, ?_⟩
  · rw [hn]
    decide
  · rw [opened]
    decide
  · exact ((report₁ (by rintro _ ⟨⟩; decide)).1).trans (by decide)
  · refine first.trans ?_
    rw [opened]
    decide
  · exact ((report₂ (by rintro _ ⟨⟩; decide)).1).trans (by decide)
  · rw [hm]
    decide
  · refine order.symm.trans ?_
    rw [closed]
    decide
  · rw [hm, hn]
    decide

end Pipework
