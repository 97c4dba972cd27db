import Pipework.Graph

/-!
# Networks: a graph and the world of its bodies

What a stage does is not part of the graph. `Bodies W` says, for bodies that act on a world of type
`W`, how each is opened, called and closed and how much work waits for it; a `Network W` is a graph
together with such a world.

This module holds the life of stages. Activation goes on to every dormant stage. A running stage
that is no source is *exhausted* when no feeder is running or held and nothing waits for it; once no
worker holds it either it is *settled*, and finishes if all its feeders have, or pauses otherwise.
Settling goes on to every stage that is paused or finished. Opening and closing hooks are called on
the way; that one of them fails is recorded and reported, and changes nothing else.
-/

namespace Pipework

/-- The bodies of all stages, acting on a world. -/
structure Bodies (W : Type) where
  opening : StageId → W → Reply Unit × W
  call : StageId → Visit → W → Ending × Visit × W
  closing : StageId → W → Reply Unit × W
  pending : StageId → W → Nat
  threshold : StageId → W → Nat
  setThreshold : StageId → Nat → W → W

/-- A graph and the world on which the bodies of its stages act. -/
structure Network (W : Type) where
  graph : Graph
  world : W

/-- The worker on whose behalf something is done. -/
structure Caller where
  worker : WorkerId
  location : Nat
  deriving DecidableEq, Repr

/-- The first failure of two things done in order. -/
def firstError {ε : Type} (a b : Except ε Unit) : Except ε Unit :=
  match a with
  | .error e => .error e
  | .ok _ => b

namespace Network

variable {W : Type}

/-- Changes the graph of a network. -/
def mapGraph (n : Network W) (f : Graph → Graph) : Network W := { n with graph := f n.graph }

/-! ### Hooks -/

/-- The failure that a failing hook leaves. -/
def hookFailure (n : Network W) (hook : Hook) (i : StageId) (caller : Option Caller)
    (e : StageError) : Failure :=
  { stage := i
    name := (n.graph.stage i).name
    worker := caller.map (·.worker)
    location := caller.map (·.location)
    message := hook.text ++ " failed: " ++ e.message }

/-- Calls a hook of a stage. -/
def runHook (n : Network W) (B : Bodies W) (hook : Hook) (i : StageId) (caller : Option Caller) :
    Except GraphError Unit × Network W :=
  let (reply, world) := match hook with
    | .opening => B.opening i n.world
    | .closing => B.closing i n.world
  match reply.toExcept with
  | .ok _ => (.ok (), { n with world })
  | .error e =>
    (.error (.hookFailed (n.graph.stage i).name hook.text e.message),
      ⟨n.graph.recordFailure (n.hookFailure hook i caller e), world⟩)

@[simp] theorem stages_runHook (n : Network W) (B : Bodies W) (hook : Hook) (i : StageId)
    (caller : Option Caller) : (n.runHook B hook i caller).2.graph.stages = n.graph.stages := by
  unfold runHook
  cases hook <;> (simp only; split <;> simp)

/-- Calls a hook under a condition. -/
def runHookIf (n : Network W) (cond : Bool) (B : Bodies W) (hook : Hook) (i : StageId)
    (caller : Option Caller) : Except GraphError Unit × Network W :=
  if cond then n.runHook B hook i caller else (.ok (), n)

@[simp] theorem stages_runHookIf (n : Network W) (cond : Bool) (B : Bodies W) (hook : Hook)
    (i : StageId) (caller : Option Caller) :
    (n.runHookIf cond B hook i caller).2.graph.stages = n.graph.stages := by
  unfold runHookIf
  split <;> simp

/-! ### Activation -/

/-- Sets one dormant stage running, with its opening hook if it has never been called. -/
def openOne (n : Network W) (B : Bodies W) (i : StageId) (caller : Option Caller) :
    Except GraphError Unit × Network W :=
  (n.mapGraph (·.enterRunning i)).runHookIf (!(n.graph.stage i).opened) B .opening i caller

/-- Activates the stages of a list and everything dormant that can be reached from them, the first
of the list with all its listeners before the second. -/
def activateEach (n : Network W) (B : Bodies W) (caller : Option Caller) (work : List StageId) :
    Except GraphError Unit × Network W :=
  match work with
  | [] => (.ok (), n)
  | i :: work =>
    if _h : i < n.graph.size ∧ (n.graph.stage i).dormant then
      let r := n.openOne B i caller
      let rest := r.2.activateEach B caller ((n.graph.stage i).listeners.reverse ++ work)
      (firstError r.1 rest.1, rest.2)
    else n.activateEach B caller work
  termination_by (n.graph.dormantCount, work.length)
  decreasing_by
    · apply Prod.Lex.left
      have := Graph.dormantCount_enterRunning_lt _h.1 _h.2
      simpa [openOne, mapGraph, Graph.dormantCount] using this
    · apply Prod.Lex.right
      simp

/-- Activates a stage and everything dormant downstream of it. -/
def activate (n : Network W) (B : Bodies W) (i : StageId) : Except GraphError Unit × Network W :=
  match n.graph.check i with
  | .error e => (.error e, n)
  | .ok _ => n.activateEach B none [i]

/-- Activates sources, one after the other. -/
def activateSources (B : Bodies W) : List StageId → Network W → Except GraphError Unit × Network W
  | [], n => (.ok (), n)
  | i :: is, n =>
    let r := n.activateEach B none [i]
    let rest := activateSources B is r.2
    (firstError r.1 rest.1, rest.2)

/-- Activates every source and everything dormant downstream of them. -/
def activateAll (n : Network W) (B : Bodies W) : Except GraphError Unit × Network W :=
  activateSources B n.graph.sources n

/-! ### Finishing one stage -/

/-- Finishes a stage. A stage that was never opened is opened first; the closing hook of a stage
that is held is left to the last worker that gives it back. -/
def complete (n : Network W) (B : Bodies W) (i : StageId) (caller : Option Caller) :
    Except GraphError Unit × Network W :=
  if (n.graph.stage i).state = .finished then (.ok (), n)
  else
    let opened := n.runHookIf (!(n.graph.stage i).opened) B .opening i caller
    let retired := opened.2.mapGraph (·.retire i)
    if 0 < (n.graph.stage i).holders then (opened.1, retired)
    else
      let closed := retired.runHook B .closing i caller
      (firstError opened.1 closed.1, closed.2)

/-! ### Settling -/

/-- Whether a running stage has nothing to do and cannot be fed. -/
def exhausted (n : Network W) (B : Bodies W) (i : StageId) : Bool :=
  let s := n.graph.stage i
  s.state == .running && !s.isSource && s.runningFeeders == 0
    && s.feeders.all (fun u => (n.graph.stage u).holders == 0) && B.pending i n.world == 0

/-- Whether an exhausted stage is not even held. -/
def settled (n : Network W) (B : Bodies W) (i : StageId) : Bool :=
  (n.graph.stage i).holders == 0 && n.exhausted B i

/-- Pauses or finishes a stage, if it is settled. Also says whether its listeners have to be looked
at. -/
def settleOne (n : Network W) (B : Bodies W) (i : StageId) (caller : Option Caller) :
    Bool × Except GraphError Unit × Network W :=
  match (n.graph.stage i).state with
  | .running =>
    if n.settled B i then
      if (n.graph.stage i).feeders.all fun u => (n.graph.stage u).state == .finished then
        (true, n.complete B i caller)
      else (true, .ok (), n.mapGraph (·.halt i))
    else (false, .ok (), n)
  | .paused => (true, .ok (), n)
  | .finished => (true, .ok (), n)
  | .unopened => (false, .ok (), n)

/-- Settles the stages of a list that are still unseen, and goes on with the listeners of each that
is paused or finished by then. -/
def settleEach (n : Network W) (B : Bodies W) (caller : Option Caller)
    (unseen work : List StageId) :
    Except GraphError Unit × Network W :=
  match work with
  | [] => (.ok (), n)
  | i :: work =>
    if _h : i ∈ unseen then
      let (downstream, r, n) := n.settleOne B i caller
      let more := if downstream then (n.graph.stage i).listeners.reverse else []
      let rest := n.settleEach B caller (unseen.erase i) (more ++ work)
      (firstError r rest.1, rest.2)
    else n.settleEach B caller unseen work
  termination_by (unseen.length, work.length)
  decreasing_by
    · apply Prod.Lex.left
      have := List.length_pos_of_mem _h
      rw [List.length_erase_of_mem _h]
      omega
    · apply Prod.Lex.right
      simp

/-- Settles what can be settled from some stages on, beginning with the last. -/
def settle (n : Network W) (B : Bodies W) (start : List StageId) (caller : Option Caller) :
    Except GraphError Unit × Network W :=
  n.settleEach B caller (List.range n.graph.size) start.reverse

/-! ### Pausing and finishing -/

/-- Pauses a stage, if it is running, and settles what follows from that. -/
def pause (n : Network W) (B : Bodies W) (i : StageId) : Except GraphError Unit × Network W :=
  match n.graph.check i with
  | .error e => (.error e, n)
  | .ok _ => (n.mapGraph (·.halt i)).settle B [i] none

/-- Finishes a stage and settles what follows from that. -/
def finish (n : Network W) (B : Bodies W) (i : StageId) : Except GraphError Unit × Network W :=
  match n.graph.check i with
  | .error e => (.error e, n)
  | .ok _ =>
    let finished := n.complete B i none
    let settled := finished.2.settle B [i] none
    (firstError finished.1 settled.1, settled.2)

/-- Finishes stages, one after the other. -/
def completeEach (B : Bodies W) : List StageId → Network W → Except GraphError Unit × Network W
  | [], n => (.ok (), n)
  | i :: is, n =>
    let r := n.complete B i none
    let rest := completeEach B is r.2
    (firstError r.1 rest.1, rest.2)

/-- Finishes every source and settles what follows from that. -/
def finishSources (n : Network W) (B : Bodies W) : Except GraphError Unit × Network W :=
  let finished := completeEach B n.graph.sources n
  let settled := finished.2.settle B n.graph.sources none
  (firstError finished.1 settled.1, settled.2)

/-! ### Calls and hand-backs -/

/-- Calls the body of a stage and counts the call, unless it is suspended. Time is not part of a
network: a call takes none. -/
def call (n : Network W) (B : Bodies W) (i : StageId) (v : Visit) :
    Option Outcome × Visit × Network W :=
  let (ending, v, world) := B.call i v n.world
  match ending.outcome? with
  | none => (none, v, { n with world })
  | some o =>
    (some o, v, ⟨n.graph.modify i fun s => { s with metrics := s.metrics.record o v.items .zero },
      world⟩)

/-- Calls the closing hook that was left to the last worker, if that is due. -/
def closeDue (n : Network W) (B : Bodies W) (i : StageId) (caller : Option Caller) :
    Except GraphError Unit × Network W :=
  if n.graph.closes i then
    (n.mapGraph (·.modify i fun s => { s with closingDue := false })).runHook B .closing i caller
  else (.ok (), n)

/-- A worker lets go of a stage, with the outcome of its last call, if it made one: a finished stage
is finished, and a closing hook that waited for the last worker is called. -/
def surrender (n : Network W) (B : Bodies W) (i : StageId) (caller : Caller)
    (result : Option Outcome) :
    Except GraphError Unit × Network W :=
  let n := n.mapGraph (·.letGo i ⟨caller.worker, result == some .comeBackLater⟩)
  let finished := if result = some .finished then n.complete B i (some caller) else (.ok (), n)
  let closed := finished.2.closeDue B i (some caller)
  (firstError finished.1 closed.1, closed.2)

/-- Takes a stage back from a worker and settles what follows from that. -/
def handBack (n : Network W) (B : Bodies W) (i : StageId) (caller : Caller)
    (result : Option Outcome) :
    Except GraphError Unit × Network W :=
  let surrendered := n.surrender B i caller result
  let settled := surrendered.2.settle B [i] (some caller)
  (firstError surrendered.1 settled.1, settled.2)

end Network

end Pipework
