import Pipework.Engine

/-!
# Workers

A worker asks for a stage, calls it, hands it back when it asks for the next one, and so on. Within
one *assignment* it calls the stage again, after a wait, as long as the stage has nothing to do;
`Backoff.decide` says whether it does. It leaves when it is retired, when its stage fails, or when
there is nothing to do and the engine lets it go.

`Worker.turn` is one step of a worker: one request, or one call with the decision after it. Steps of
several workers may be taken in any order.
-/

namespace Pipework

/-- What a worker does after a call within an assignment. -/
inductive Decision where
  /-- It waits and calls the stage again. -/
  | again (wait : Duration) (backoff : Backoff)
  /-- It ends the assignment, after a last wait if there was one. -/
  | yield (wait : Option Duration)
  /-- It ends the assignment because no wait is left. -/
  | giveUp
  deriving DecidableEq

/-- The decision after a call: only a stage that has nothing to do is called again, not by a
retiring worker, and not if at the end of the wait the stage is no longer running. -/
def Backoff.decide (b : Backoff) (outcome : Outcome) (retiring running : Bool) : Decision :=
  if outcome ≠ .comeBackLater ∨ retiring then .yield none
  else
    match b.next with
    | (none, _) => .giveUp
    | (some d, b) => if running then .again d b else .yield (some d)

/-- What a worker is about to do. -/
inductive Activity where
  /-- To ask for a stage, handing back the one of its last assignment. -/
  | request (previous : Option (StageId × Outcome))
  /-- To call a stage. -/
  | call (stage : StageId) (knobs : Knobs) (backoff : Backoff)
  /-- Nothing any more. -/
  | gone

/-- A worker of an engine. -/
structure Worker where
  id : WorkerId
  location : Nat
  activity : Activity := .request none
  /-- The stage that the worker shows as its own. -/
  current : Option StageId := none
  /-- Whether the worker is to leave after its current call. -/
  retiring : Bool := false
  /-- Whether its last call is suspended. -/
  waiting : Bool := false
  /-- Whether the call has been suspended for longer than a worker may stay away. -/
  overdue : Bool := false
  metrics : WorkerMetrics := {}

namespace Worker

variable {W : Type}

/-- A worker that has not done anything. -/
def hire (sc : Scheduler) (id : WorkerId) : Worker := { id, location := sc.locationOf id }

def isGone (w : Worker) : Bool :=
  match w.activity with
  | .gone => true
  | _ => false

/-- Whether the worker counts as stalled: it shows a stage and stays away for too long. -/
def stalled (w : Worker) : Bool := w.current.isSome && w.overdue && !w.isGone

/-- Whether nothing comes of the worker for now: it is gone, its call is suspended, or it found no
stage to call. -/
def resting (w : Worker) : Bool :=
  match w.activity with
  | .gone => true
  | .request none => true
  | _ => w.waiting

/-- The worker after so much time that a suspended call is overdue. -/
def linger (w : Worker) : Worker := { w with overdue := w.waiting }

def retire (w : Worker) : Worker := { w with retiring := true }

/-- The worker after it has left. -/
def leave (w : Worker) : Worker :=
  { w with activity := .gone, current := none, waiting := false, overdue := false }

/-- Hands back the stage of the last assignment and leaves. -/
def depart (w : Worker) (B : Bodies W) (e : Engine W) (previous : Option (StageId × Outcome)) :
    Engine W × Worker :=
  match previous with
  | none => (e, w.leave)
  | some (i, o) => (e.mapNetwork fun n => e.scheduler.giveBack B n w.id i (some o), w.leave)

/-- Asks for a stage. -/
def ask (w : Worker) (B : Bodies W) (e : Engine W) (previous : Option (StageId × Outcome)) :
    Engine W × Worker :=
  let r := e.scheduler.assign B e.network w.id (previous.map (·.1)) (previous.map (·.2))
  let e := { e with network := r.2 }
  match r.1 with
  | none =>
    if e.mayLeave then (e, w.leave) else (e, { w with activity := .request none, current := none })
  | some i =>
    let knobs := (e.graph.stage i).knobs
    (e, { w with activity := .call i knobs (.start i knobs), current := some i })

/-- Records the failure of a stage and hands the stage back. -/
def handIn (w : Worker) (B : Bodies W) (e : Engine W) (i : StageId) (err : StageError) : Engine W :=
  let failure : Failure :=
    { stage := i
      name := (e.graph.stage i).name
      worker := some w.id
      location := some w.location
      message := err.message }
  let e := e.mapNetwork (·.mapGraph (·.recordFailure failure))
  e.mapNetwork fun n => e.scheduler.giveBack B n w.id i (some (.failed err))

/-- Ends an assignment: with a failure the worker records it, hands back the stage, asks for a stop
and leaves. -/
def report (w : Worker) (B : Bodies W) (e : Engine W) (i : StageId) (o : Outcome) :
    Engine W × Worker :=
  match o with
  | .failed err => ((w.handIn B e i err).requestStop B, w.leave)
  | o => (e, { w with activity := .request (some (i, o)) })

/-- What follows a call that has ended: the worker waits and is about to call the stage again, or it
may wait once more and the assignment is over, with the outcome of that call. -/
def conclude (w : Worker) (e : Engine W) (i : StageId) (knobs : Knobs) (b : Backoff) (o : Outcome) :
    Option Outcome × Engine W × Worker :=
  match b.decide o w.retiring ((e.graph.stage i).state == .running) with
  | .again d b =>
    (none, e, { w with activity := .call i knobs b, metrics := w.metrics.recordBackoff d })
  | .yield (some d) => (some o, e, { w with metrics := w.metrics.recordBackoff d })
  | .yield none => (some o, e, w)
  | .giveUp =>
    (some o, e.mapNetwork
      (·.mapGraph (·.modify i fun s => { s with metrics := s.metrics.recordExhaustion })), w)

/-- The worker after a call that has ended. -/
def back (w : Worker) : Worker :=
  { w with waiting := false, overdue := false, metrics := w.metrics.recordUseful .zero }

/-- Calls the stage of the assignment once. -/
def callOnce (w : Worker) (B : Bodies W) (e : Engine W) (i : StageId) (knobs : Knobs)
    (b : Backoff) :
    Engine W × Worker :=
  let r := e.network.call B i (.start w.id w.location knobs.chunk)
  let e := { e with network := r.2.2 }
  match r.1 with
  | none => (e, { w with waiting := true })
  | some o =>
    match w.back.conclude e i knobs b o with
    | (none, e, w) => (e, w)
    | (some o, e, w) => w.report B e i o

/-- One step of a worker. -/
def turn (w : Worker) (B : Bodies W) (e : Engine W) : Engine W × Worker :=
  match w.activity with
  | .gone => (e, w)
  | .request previous => if w.retiring then w.depart B e previous else w.ask B e previous
  | .call i knobs b => w.callOnce B e i knobs b

end Worker

end Pipework
