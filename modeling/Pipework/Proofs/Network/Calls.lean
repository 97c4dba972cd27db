import Pipework.Proofs.Network.Stable

/-!
# Calls and courses

A `Call` is anything that can be asked of a network from outside: building, activating, pausing,
finishing, recording a failure, a worker that asks for a stage or gives one back, whether it holds
it or not, and any change of the world. `Network.perform` does what is asked. What a call does to
states and counters is a `Course`: a sequence of elementary changes, each of them the opening,
halting or completing of one stage (`course_perform`).
-/

namespace Pipework

/-! ### Graphs that differ in other things -/

namespace Graph

variable {g g' g'' : Graph} {i : StageId}

/-- The second graph has the wiring, the states and the counters of the first. -/
structure Alike (g g' : Graph) : Prop where
  bare : g'.bare = g.bare
  running : g'.running = g.running
  state : ∀ i, (g'.stage i).state = (g.stage i).state
  runningFeeders : ∀ i, (g'.stage i).runningFeeders = (g.stage i).runningFeeders

namespace Alike

theorem refl (g : Graph) : g.Alike g := ⟨rfl, rfl, fun _ => rfl, fun _ => rfl⟩

theorem trans (h : g.Alike g') (h' : g'.Alike g'') : g.Alike g'' where
  bare := h'.bare.trans h.bare
  running := h'.running.trans h.running
  state i := (h'.state i).trans (h.state i)
  runningFeeders i := (h'.runningFeeders i).trans (h.runningFeeders i)

theorem withFailure (g : Graph) (f : Option Failure) : g.Alike (g.withFailure f) :=
  ⟨rfl, rfl, fun _ => rfl, fun _ => rfl⟩

theorem recordFailure (g : Graph) (f : Failure) : g.Alike (g.recordFailure f) := by
  unfold Graph.recordFailure
  split
  · exact refl g
  · exact withFailure g _

theorem modify (g : Graph) (i : StageId) {f : Stage → Stage} (hb : ∀ s, (f s).bare = s.bare)
    (hs : ∀ s, (f s).state = s.state) (hr : ∀ s, (f s).runningFeeders = s.runningFeeders) :
    g.Alike (g.modify i f) where
  bare := bare_modify hb i
  running := rfl
  state := map_stage_modify Stage.state hs i
  runningFeeders := map_stage_modify Stage.runningFeeders hr i

theorem letGo (g : Graph) (i : StageId) (y : Yield) : g.Alike (g.letGo i y) :=
  modify g i (fun _ => rfl) (fun _ => rfl) fun _ => rfl

end Alike

/-- Retiring a stage that does not exist does nothing. -/
theorem retire_of_size_le (h : g.size ≤ i) : g.retire i = g := by
  unfold Graph.retire
  rw [if_neg (by rw [stage_of_size_le h]; decide)]
  unfold Graph.modify
  rw [List.modify_eq_self h]

end Graph

namespace Network

variable {W : Type} {n m : Network W} {B : Bodies W} {i : StageId} {c : Option Caller}
  {sc : Scheduler} {w : WorkerId}

theorem alike_complete_of_size_le (h : n.graph.size ≤ i) :
    n.graph.Alike (n.complete B i c).2.graph := by
  obtain ⟨f, hf⟩ := complete_graph (B := B) (c := c) (n := n) (i := i) (by
    rw [Graph.stage_of_size_le h]
    decide)
  rw [hf, Graph.retire_of_size_le h]
  exact .withFailure _ f

theorem alike_closeDue (n : Network W) (B : Bodies W) (i : StageId) (c : Option Caller) :
    n.graph.Alike (n.closeDue B i c).2.graph := by
  obtain ⟨f, hf⟩ := n.closeDue_graph B i c
  rw [hf]
  refine .trans ?_ (.withFailure _ f)
  split
  · exact .modify _ i (fun _ => rfl) (fun _ => rfl) fun _ => rfl
  · exact .refl _

theorem alike_keep (n : Network W) (w : WorkerId) (i : StageId) :
    n.graph.Alike (Scheduler.keep n w i).graph :=
  (Graph.Alike.modify n.graph i (f := fun s => { s with lastPicked := n.graph.tick + 1 })
    (fun _ => rfl) (fun _ => rfl) fun _ => rfl).trans ⟨rfl, rfl, fun _ => rfl, fun _ => rfl⟩

theorem alike_take (n : Network W) (w : WorkerId) (i : StageId) :
    n.graph.Alike (Scheduler.take n w i).graph :=
  (Graph.Alike.modify n.graph i
    (f := fun s => { s with holders := s.holders + 1, lastPicked := n.graph.tick + 1 })
    (fun _ => rfl) (fun _ => rfl) fun _ => rfl).trans ⟨rfl, rfl, fun _ => rfl, fun _ => rfl⟩

theorem alike_clearStreak (n : Network W) (w : WorkerId) :
    n.graph.Alike (n.mapGraph (·.clearStreak w)).graph :=
  ⟨rfl, rfl, fun _ => rfl, fun _ => rfl⟩

theorem alike_call (n : Network W) (B : Bodies W) (i : StageId) (v : Visit) :
    n.graph.Alike (n.call B i v).2.2.graph := by
  obtain ⟨m, hm⟩ := n.call_graph B i v
  rw [hm]
  exact .modify _ i (fun _ => rfl) (fun _ => rfl) fun _ => rfl

end Network

/-! ### Calls -/

/-- What can be asked of a network. -/
inductive Call (W : Type) where
  | build (p : Graph.Part)
  | activate (i : StageId)
  | activateAll
  | pause (i : StageId)
  | finish (i : StageId)
  | finishSources
  | fail (f : Failure)
  | assign (sc : Scheduler) (w : WorkerId) (previous : Option StageId) (result : Option Outcome)
  | giveBack (sc : Scheduler) (w : WorkerId) (i : StageId) (result : Option Outcome)
  | visit (i : StageId) (v : Visit)
  | outside (world : W)

namespace Call

variable {W : Type}

def builds : Call W → Bool
  | .build _ => true
  | _ => false

/-- Whether the call sets stages running. -/
def activates : Call W → Bool
  | .activate _ => true
  | .activateAll => true
  | _ => false

/-- Whether the call adds an edge. -/
def connects : Call W → Bool
  | .build (.edge _ _) => true
  | _ => false

end Call

/-- No edge is added after an activation. -/
def EdgesFirst {W : Type} (calls : List (Call W)) : Prop :=
  calls.Pairwise fun a b => a.activates = true → b.connects = false

/-- Bodies that have nothing to do and never fail. -/
def Bodies.inert : Bodies Unit where
  opening _ w := (.ok (), w)
  call _ v w := (.returned .comeBackLater, v, w)
  closing _ w := (.ok (), w)
  pending _ _ := 0
  threshold _ _ := 0
  setThreshold _ _ w := w

instance {W : Type} (calls : List (Call W)) : Decidable (EdgesFirst calls) :=
  inferInstanceAs (Decidable (List.Pairwise _ calls))

namespace Network

variable {W : Type}

/-- Does what is asked. -/
def perform (B : Bodies W) (n : Network W) : Call W → Network W
  | .build p => n.mapGraph (·.add p)
  | .activate i => (n.activate B i).2
  | .activateAll => (n.activateAll B).2
  | .pause i => (n.pause B i).2
  | .finish i => (n.finish B i).2
  | .finishSources => (n.finishSources B).2
  | .fail f => n.mapGraph (·.recordFailure f)
  | .assign sc w previous result => (sc.assign B n w previous result).2
  | .giveBack sc w i result => sc.giveBack B n w i result
  | .visit i v => (n.call B i v).2.2
  | .outside world => { n with world }

/-- The network that some calls lead to, from one without stages on. -/
def ofCalls (B : Bodies W) (world : W) (calls : List (Call W)) : Network W :=
  calls.foldl (perform B) ⟨.empty, world⟩

end Network

/-! ### What calls preserve -/

section

variable {W : Type} {B : Bodies W} {P : Network W → Prop} {n : Network W} {call : Call W}

/-- What lasts and does not depend on anything but wiring, states and counters survives that a
worker lets go. -/
theorem Lasting.surrender (hP : Lasting B P) (alike : ∀ n m, P n → n.graph.Alike m.graph → P m)
    {i : StageId} {caller : Caller} {result : Option Outcome} (h : P n) :
    P (n.surrender B i caller result).2 := by
  have hgo : P (n.mapGraph (·.letGo i ⟨caller.worker, result == some .comeBackLater⟩)) :=
    alike _ _ h (.letGo _ _ _)
  unfold Network.surrender
  refine alike _ _ ?_ (Network.alike_closeDue _ B i _)
  split
  · by_cases hi : i < n.graph.size
    · exact hP.complete hgo (by simpa [Graph.letGo] using hi)
    · exact alike _ _ hgo (Network.alike_complete_of_size_le (by simpa [Graph.letGo] using hi))
  · exact hgo

theorem Lasting.giveBack (hP : Lasting B P) (alike : ∀ n m, P n → n.graph.Alike m.graph → P m)
    {sc : Scheduler} {w : WorkerId} {i : StageId} {result : Option Outcome} (h : P n) :
    P (sc.giveBack B n w i result) :=
  alike _ _ (hP.settling.handBack (hP.surrender alike h)) (Network.alike_clearStreak _ w)

theorem Lasting.assign (hP : Lasting B P) (alike : ∀ n m, P n → n.graph.Alike m.graph → P m)
    {sc : Scheduler} {w : WorkerId} {previous : Option StageId} {result : Option Outcome}
    (h : P n) :
    P (sc.assign B n w previous result).2 := by
  rcases sc.assign_cases B n w previous result with ⟨i, -, -, he⟩ | he <;> rw [he]
  · exact alike _ _ h (n.alike_keep w i)
  · refine hP.settling.handOut ?_ fun i _ _ => ?_
    · cases previous with
      | none => exact alike _ _ h (n.alike_clearStreak w)
      | some i => exact hP.giveBack alike h
    · refine alike _ _ ?_ (Network.alike_take _ w i)
      cases previous with
      | none => exact alike _ _ h (n.alike_clearStreak w)
      | some i => exact hP.giveBack alike h

/-- What lasts survives every call that neither builds nor activates. -/
theorem Lasting.perform (hP : Lasting B P) (alike : ∀ n m, P n → n.graph.Alike m.graph → P m)
    (hs : ∀ i ∈ n.graph.sources, i < n.graph.size) (hb : call.builds = false)
    (ha : call.activates = false) (h : P n) :
    P (n.perform B call) := by
  cases call with
  | build p => cases hb
  | activate i => cases ha
  | activateAll => cases ha
  | pause i => exact hP.pause h
  | finish i => exact hP.finish h
  | finishSources => exact hP.finishSources h hs
  | fail f => exact alike _ _ h (.recordFailure _ f)
  | assign sc w previous result => exact hP.assign alike h
  | giveBack sc w i result => exact hP.giveBack alike h
  | visit i v => exact alike _ _ h (n.alike_call B i v)
  | outside world => exact alike _ _ h (.refl _)

/-- What is stable survives every call that does not build. -/
theorem Stable.perform (hP : Stable B P) (alike : ∀ n m, P n → n.graph.Alike m.graph → P m)
    (hs : ∀ i ∈ n.graph.sources, i < n.graph.size) (hb : call.builds = false) (h : P n) :
    P (n.perform B call) := by
  by_cases ha : call.activates = true
  · cases call with
    | activate i => exact hP.activate h
    | activateAll => exact hP.activateAll h
    | _ => cases ha
  · exact hP.toLasting.perform alike hs hb (by simpa using ha) h

end

/-! ### Courses -/

/-- Elementary changes of a network, one after the other. -/
inductive Course {W : Type} (B : Bodies W) (n : Network W) : Network W → Prop where
  | start : Course B n n
  | opens {m : Network W} {i : StageId} (c : Option Caller) : Course B n m → i < m.graph.size →
      (m.graph.stage i).dormant = true → Course B n (m.openOne B i c).2
  | halts {m : Network W} {i : StageId} : Course B n m → (m.graph.stage i).state = .running →
      Course B n (m.mapGraph (·.halt i))
  | completes {m : Network W} {i : StageId} (c : Option Caller) : Course B n m → i < m.graph.size →
      (m.graph.stage i).state ≠ .finished → Course B n (m.complete B i c).2
  | alters {m m' : Network W} : Course B n m → m.graph.Alike m'.graph → Course B n m'

theorem stable_course {W : Type} (B : Bodies W) (n : Network W) : Stable B (Course B n) where
  halts := .halts
  completes := .completes
  opens := .opens

/-- **Every call that does not build is a course.** -/
theorem course_perform {W : Type} {B : Bodies W} {n : Network W} (w : n.graph.Wired) {call : Call W}
    (h : call.builds = false) : Course B n (n.perform B call) :=
  (stable_course B n).perform (fun _ _ => .alters) (fun _ => w.lt_size_of_mem_sources) h .start

/-- The wiring never changes. -/
theorem stable_bare {W : Type} (B : Bodies W) (g : Graph) : Stable B fun n => n.graph.bare = g where
  opens {n i} c h _ _ := by
    obtain ⟨f, hf⟩ := n.openOne_graph B i c
    rw [hf, Graph.bare_withFailure, Graph.bare_enterRunning, h]
  halts h _ := (Graph.bare_halt _ _).trans h
  completes {n i} c h _ _ := (n.bare_complete B i c).trans h

/-- A finished stage remains finished. -/
theorem stable_finished {W : Type} (B : Bodies W) (i : StageId) :
    Stable B fun n => (n.graph.stage i).state = .finished where
  opens {n k} c h hk hd := by
    rw [n.state_openOne hk, if_neg]
    · exact h
    · rintro rfl
      rw [Stage.dormant, h] at hd
      cases hd
  halts {n k} h hr := by
    rw [Network.graph_mapGraph, Graph.state_halt hr, if_neg]
    · exact h
    · rintro rfl
      rw [h] at hr
      cases hr
  completes {n k} c h hk _ := by
    rw [n.state_complete hk, h, ite_self]

theorem Course.bare {W : Type} {B : Bodies W} {n m : Network W} (h : Course B n m) :
    m.graph.bare = n.graph.bare := by
  induction h with
  | start => rfl
  | opens c _ hi hd ih => exact (stable_bare B n.graph.bare).opens c ih hi hd
  | halts _ hr ih => exact (stable_bare B n.graph.bare).halts ih hr
  | completes c _ hi hf ih => exact (stable_bare B n.graph.bare).completes c ih hi hf
  | alters _ ha ih => exact ha.bare.trans ih

end Pipework
