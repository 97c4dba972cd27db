import Pipework.Proofs.Network.Changes

/-!
# Two networks in lockstep

What activation, pausing and finishing do is decided by the graph, apart from its failure, and by
which stages have work. So where two networks agree in this much, the same changes are made to both
of them and the same hooks are called. A relation between what has been done to one network and what
has been done to the other is *paced* if it implies that much and survives such a change and the
call of a hook; then it survives everything that the owner of a network may demand (`Paced.obey`).
-/

namespace Pipework

/-! ### Changes of status -/

namespace Graph

/-- A change that leaves the wiring alone, and does not look at the failure. -/
structure Inner (f : Graph → Graph) : Prop where
  bare : ∀ g, (f g).bare = g.bare
  withFailure : ∀ g e, f (g.withFailure e) = (f g).withFailure e

theorem Inner.failure {f : Graph → Graph} (hf : Inner f) (g : Graph) :
    (f g).failure = g.failure := by
  have := congrArg Graph.failure (hf.withFailure g g.failure)
  exact this

theorem inner_enterRunning (i : StageId) : Inner (·.enterRunning i) where
  bare g := bare_enterRunning g i
  withFailure g e := by
    unfold enterRunning
    simp only [stage_withFailure, modify_withFailure, modifyAll_withFailure]
    rfl

theorem inner_halt (i : StageId) : Inner (·.halt i) where
  bare g := bare_halt g i
  withFailure g e := by
    unfold halt
    simp only [stage_withFailure, modify_withFailure, leaveRunning_withFailure]
    split <;> rfl

theorem inner_retire (i : StageId) : Inner (·.retire i) where
  bare g := bare_retire g i
  withFailure g e := retire_withFailure g e i

end Graph

/-! ### What has been done -/

/-- A network after something has been done to it, and how that was answered. -/
abbrev Done (W : Type) := Except GraphError Unit × Network W

namespace Done

variable {W : Type}

/-- What was answered to one thing and then to another: the first failure counts. -/
def andThen (r s : Done W) : Done W := (firstError r.1 s.1, s.2)

/-- Changes the graph. -/
def map (r : Done W) (f : Graph → Graph) : Done W := (r.1, r.2.mapGraph f)

theorem andThen_assoc (r s t : Done W) : (r.andThen s).andThen t = r.andThen (s.andThen t) := by
  unfold andThen
  cases r.1 <;> rfl

theorem map_andThen (r s t : Done W) (f : Graph → Graph) :
    ((r.andThen s).map f).andThen t = r.andThen ((s.map f).andThen t) :=
  r.andThen_assoc (s.map f) t

/-- What is no failure does not count. -/
theorem andThen_ok (r : Done W) (n : Network W) : r.andThen (.ok (), n) = (r.1, n) := by
  unfold andThen
  cases r.1 <;> rfl

end Done

namespace Network

variable {W : Type} {n : Network W} {B : Bodies W} {c : Option Caller} {i : StageId}
  {work : List StageId}

/-- Activation opens a dormant stage, and then goes on with its listeners. -/
theorem activateEach_andThen (h : i < n.graph.size ∧ (n.graph.stage i).dormant = true) :
    n.activateEach B c (i :: work) = Done.andThen (n.openOne B i c)
      ((n.openOne B i c).2.activateEach B c ((n.graph.stage i).listeners.reverse ++ work)) := by
  rw [activateEach, dif_pos h]
  rfl

/-- Settling deals with an unseen stage, and then goes on with its listeners, if it is to. -/
theorem settleEach_andThen {unseen : List StageId} (h : i ∈ unseen) :
    n.settleEach B c unseen (i :: work) = Done.andThen (n.settleOne B i c).2
      ((n.settleOne B i c).2.2.settleEach B c (unseen.erase i)
        ((if (n.settleOne B i c).1 then ((n.settleOne B i c).2.2.graph.stage i).listeners.reverse
          else []) ++ work)) := by
  rw [settleEach, dif_pos h]
  rfl

end Network

/-! ### What the owner may demand -/

/-- What the owner of a network may demand of its stages. -/
inductive Demand where
  | activate (i : StageId)
  | activateAll
  | pause (i : StageId)
  | finish (i : StageId)
  | finishSources
  deriving DecidableEq, Repr

/-- The stage that a demand is about. -/
def Demand.target : Demand → Option StageId
  | .activate i | .pause i | .finish i => some i
  | .activateAll | .finishSources => none

/-- Whether a demand is about a stage that exists, if it is about one at all. -/
def Demand.Known (g : Graph) (d : Demand) : Prop := ∀ i, d.target = some i → i < g.size

namespace Network

variable {W : Type}

/-- Does what is demanded. -/
def obey (B : Bodies W) (n : Network W) : Demand → Done W
  | .activate i => n.activate B i
  | .activateAll => n.activateAll B
  | .pause i => n.pause B i
  | .finish i => n.finish B i
  | .finishSources => n.finishSources B

/-- Does all that is demanded, one after the other. -/
def obeyAll (B : Bodies W) (n : Network W) (ds : List Demand) : Network W :=
  ds.foldl (fun n d => (n.obey B d).2) n

/-- A demand that is about no stage changes nothing. -/
theorem obey_of_size_le {n : Network W} (B : Bodies W) {d : Demand} {i : StageId}
    (ht : d.target = some i) (hi : n.graph.size ≤ i) :
    n.obey B d = (.error (.stageNotFound i), n) := by
  have hi' := Nat.not_lt.2 hi
  cases d <;> cases ht <;> simp only [obey, activate, pause, finish, Graph.check, if_neg hi']

end Network

/-! ### Pace -/

section

variable {W W' : Type} {B : Bodies W} {B' : Bodies W'} {c : Option Caller}
  {P : Done W → Done W' → Prop}

/-- The relation implies all that decides what is done next, and survives each step of it. -/
structure Paced (B : Bodies W) (B' : Bodies W') (c : Option Caller) (P : Done W → Done W' → Prop) :
    Prop where
  graph : ∀ {r r'}, P r r' → r.2.graph.withFailure none = r'.2.graph.withFailure none
  pending : ∀ {r r'}, P r r' → ∀ i, B.pending i r.2.world = B'.pending i r'.2.world
  maps : ∀ {r r'} {f : Graph → Graph}, P r r' → Graph.Inner f → P (r.map f) (r'.map f)
  hooks : ∀ {r r'} hook i, P r r' → 
    P (r.andThen (r.2.runHook B hook i c)) (r'.andThen (r'.2.runHook B' hook i c))

namespace Paced

variable {r : Done W} {r' : Done W'} {i : StageId}

/-- Nothing is done. -/
theorem skip (h : P r r') : P (r.andThen (.ok (), r.2)) (r'.andThen (.ok (), r'.2)) := by
  rwa [r.andThen_ok, r'.andThen_ok]

variable (hP : Paced B B' c P)
include hP

section

variable (h : P r r')
include h

theorem stage (i : StageId) : r'.2.graph.stage i = r.2.graph.stage i :=
  (congrArg (fun g : Graph => g.stage i) (hP.graph h)).symm

theorem size : r'.2.graph.size = r.2.graph.size := (congrArg Graph.size (hP.graph h)).symm

theorem sources : r'.2.graph.sources = r.2.graph.sources :=
  (congrArg Graph.sources (hP.graph h)).symm

theorem settled (i : StageId) : r'.2.settled B' i = r.2.settled B i := by
  simp only [Network.settled, Network.exhausted, hP.stage h, hP.pending h]

/-! ### Opening and completing -/

theorem map {f : Graph → Graph} (hf : Graph.Inner f) :
    P (r.andThen (.ok (), r.2.mapGraph f)) (r'.andThen (.ok (), r'.2.mapGraph f)) := by
  rw [r.andThen_ok, r'.andThen_ok]
  exact hP.maps h hf

theorem runHookIf (cond : Bool) (hook : Hook) (i : StageId) :
    P (r.andThen (r.2.runHookIf cond B hook i c))
      (r'.andThen (r'.2.runHookIf cond B' hook i c)) := by
  cases cond with
  | true => exact hP.hooks hook i h
  | false => exact skip h

theorem openOne (i : StageId) :
    P (r.andThen (r.2.openOne B i c)) (r'.andThen (r'.2.openOne B' i c)) := by
  have opened :=
    hP.runHookIf (hP.maps h (Graph.inner_enterRunning i)) (!(r.2.graph.stage i).opened) .opening i
  unfold Network.openOne
  rwa [hP.stage h]

theorem complete (i : StageId) :
    P (r.andThen (r.2.complete B i c)) (r'.andThen (r'.2.complete B' i c)) := by
  have opened := hP.runHookIf h (!(r.2.graph.stage i).opened) .opening i
  have retired := hP.maps opened (Graph.inner_retire i)
  have closed := hP.hooks .closing i retired
  unfold Network.complete
  simp only [hP.stage h]
  split
  · exact skip h
  · split
    · exact retired
    · rwa [Done.map_andThen, Done.map_andThen] at closed

theorem settleOne (i : StageId) :
    (r'.2.settleOne B' i c).1 = (r.2.settleOne B i c).1 ∧
      P (r.andThen (r.2.settleOne B i c).2) (r'.andThen (r'.2.settleOne B' i c).2) := by
  unfold Network.settleOne
  simp only [hP.stage h, hP.settled h]
  cases (r.2.graph.stage i).state with
  | running =>
    simp only
    split
    · split
      · exact ⟨rfl, hP.complete h i⟩
      · exact ⟨rfl, hP.map h (Graph.inner_halt i)⟩
    · exact ⟨rfl, skip h⟩
  | _ => exact ⟨rfl, skip h⟩

end

/-! ### Walks -/

theorem activateEach (work : List StageId) (h : P r r') :
    P (r.andThen (r.2.activateEach B c work)) (r'.andThen (r'.2.activateEach B' c work)) := by
  obtain ⟨e, n⟩ := r
  induction n, work using Network.activateEach.induct B c generalizing e r' with
  | case1 n =>
    rw [Network.activateEach, Network.activateEach]
    exact skip h
  | case2 n i work hi opened =>
    rename_i ih
    have hi' : i < r'.2.graph.size ∧ (r'.2.graph.stage i).dormant = true := by
      rw [hP.size h, hP.stage h]
      exact hi
    rw [Network.activateEach_andThen hi, Network.activateEach_andThen hi', ← Done.andThen_assoc,
      ← Done.andThen_assoc, hP.stage h]
    exact ih _ (hP.openOne h i)
  | case3 n i work hi ih =>
    have hi' : ¬ (i < r'.2.graph.size ∧ (r'.2.graph.stage i).dormant = true) := by
      rw [hP.size h, hP.stage h]
      exact hi
    rw [Network.activateEach, dif_neg hi, Network.activateEach, dif_neg hi']
    exact ih e h

theorem settleEach {unseen work : List StageId} (h : P r r') :
    P (r.andThen (r.2.settleEach B c unseen work))
      (r'.andThen (r'.2.settleEach B' c unseen work)) := by
  obtain ⟨e, n⟩ := r
  induction n, unseen, work using Network.settleEach.induct B c generalizing e r' with
  | case1 n unseen =>
    rw [Network.settleEach, Network.settleEach]
    exact skip h
  | case2 n unseen i work hi down s m hm more =>
    rename_i ih
    obtain ⟨hdown, settled⟩ := hP.settleOne h i
    have hstage : (r'.2.settleOne B' i c).2.2.graph.stage i =
        (n.settleOne B i c).2.2.graph.stage i := hP.stage settled i
    rw [Network.settleEach_andThen hi, Network.settleEach_andThen hi, ← Done.andThen_assoc,
      ← Done.andThen_assoc, hdown, hstage]
    simp only [hm] at settled ⊢
    exact ih _ settled
  | case3 n unseen i work hi ih =>
    rw [Network.settleEach, dif_neg hi, Network.settleEach, dif_neg hi]
    exact ih e h

theorem settle (start : List StageId) (h : P r r') :
    P (r.andThen (r.2.settle B start c)) (r'.andThen (r'.2.settle B' start c)) := by
  unfold Network.settle
  rw [hP.size h]
  exact hP.settleEach h

end Paced

/-! ### Demands -/

namespace Paced

variable {r : Done W} {r' : Done W'}
variable (hP : Paced B B' none P)
include hP

theorem activateSources {is : List StageId} (h : P r r') :
    P (r.andThen (Network.activateSources B is r.2))
      (r'.andThen (Network.activateSources B' is r'.2)) := by
  induction is generalizing r r' with
  | nil => exact skip h
  | cons i is ih =>
    have := ih (hP.activateEach [i] h)
    rwa [Done.andThen_assoc, Done.andThen_assoc] at this

theorem completeEach (is : List StageId) (h : P r r') :
    P (r.andThen (Network.completeEach B is r.2))
      (r'.andThen (Network.completeEach B' is r'.2)) := by
  induction is generalizing r r' with
  | nil => exact skip h
  | cons i is ih =>
    have := ih (hP.complete h i)
    rwa [Done.andThen_assoc, Done.andThen_assoc] at this

theorem finishSources (h : P r r') :
    P (r.andThen (r.2.finishSources B)) (r'.andThen (r'.2.finishSources B')) := by
  have := hP.settle r.2.graph.sources (hP.completeEach r.2.graph.sources h)
  rw [Done.andThen_assoc, Done.andThen_assoc] at this
  unfold Network.finishSources
  rwa [hP.sources h]

/-- **What is demanded of both networks keeps them in step.** -/
theorem obey (r : Done W) (r' : Done W') {d : Demand} (hd : d.Known r.2.graph) (h : P r r') :
    P (r.andThen (r.2.obey B d)) (r'.andThen (r'.2.obey B' d)) := by
  have known : ∀ {i}, d.target = some i → r.2.graph.check i = .ok () ∧
      r'.2.graph.check i = .ok () := by
    intro i ht
    have hi := hd i ht
    unfold Graph.check
    rw [hP.size h]
    exact ⟨if_pos hi, if_pos hi⟩
  cases d with
  | activate i =>
    obtain ⟨hi, hi'⟩ := known (i := i) rfl
    simp only [Network.obey, Network.activate, hi, hi']
    exact hP.activateEach [i] h
  | activateAll =>
    simp only [Network.obey, Network.activateAll, hP.sources h]
    exact hP.activateSources h
  | pause i =>
    obtain ⟨hi, hi'⟩ := known (i := i) rfl
    simp only [Network.obey, Network.pause, hi, hi']
    exact hP.settle [i] (hP.maps h (Graph.inner_halt i))
  | finish i =>
    obtain ⟨hi, hi'⟩ := known (i := i) rfl
    have := hP.settle [i] (hP.complete h i)
    rw [Done.andThen_assoc, Done.andThen_assoc] at this
    simp only [Network.obey, Network.finish, hi, hi']
    exact this
  | finishSources => exact hP.finishSources h

end Paced

end

end Pipework
