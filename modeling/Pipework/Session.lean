import Pipework.Plant
import Pipework.Scheduler

/-!
# Sessions: scheduling by hand

A pipeline driven step by step from outside. A `Session` plays the part of the workers: it remembers
for each of them the stage that it holds and the outcome of its last call, and does what it is told
to.
-/

namespace Pipework

/-- A stage in the hands of a worker, with the outcome of the last call, if there was one. -/
structure Hold where
  worker : WorkerId
  stage : StageId
  result : Option Outcome := none
  /-- Whether the last call is suspended. -/
  away : Bool := false
  deriving DecidableEq, Repr

/-- A network, a scheduler, and what the workers hold. -/
structure Session (W : Type) where
  network : Network W
  scheduler : Scheduler
  holds : List Hold := []

/-- What a call came to: its outcome and the number of parcels that it handled. A suspended call has
no outcome. -/
structure CallReport where
  outcome : Option Outcome
  items : UInt64
  deriving DecidableEq, Repr

/-- Calls a stage and reports. -/
def Network.callReport {W : Type} (n : Network W) (B : Bodies W) (i : StageId) (v : Visit) :
    CallReport × Network W :=
  let r := n.call B i v
  (⟨r.1, r.2.1.items⟩, r.2.2)

namespace Session

variable {W : Type}

/-- What a worker holds. -/
def holdOf (s : Session W) (w : WorkerId) : Option Hold := s.holds.find? (·.worker == w)

/-- Puts a stage into the hands of a worker, or takes it away. -/
def setHold (s : Session W) (w : WorkerId) (h : Option Hold) : Session W :=
  { s with holds := h.toList ++ s.holds.filter (·.worker != w) }

/-- A worker asks for a stage, giving back the one it holds. -/
def next (s : Session W) (B : Bodies W) (w : WorkerId) : Option StageId × Session W :=
  let h := s.holdOf w
  let r := s.scheduler.assign B s.network w (h.map (·.stage)) (h.bind (·.result))
  (r.1, { s with network := r.2 }.setHold w (r.1.map fun i => { worker := w, stage := i }))

/-- A worker calls the stage that it holds. -/
def exec (s : Session W) (B : Bodies W) (w : WorkerId) : Option CallReport × Session W :=
  match s.holdOf w with
  | none => (none, s)
  | some h =>
    let v := Visit.start w (s.scheduler.locationOf w) (s.network.graph.stage h.stage).knobs.chunk
    let r := s.network.callReport B h.stage v
    (some r.1, { s with network := r.2 }.setHold w
      (some { h with result := r.1.outcome, away := r.1.outcome.isNone }))

/-- A worker gives back the stage that it holds and asks for no other. -/
def release (s : Session W) (B : Bodies W) (w : WorkerId) : Option StageId × Session W :=
  match s.holdOf w with
  | none => (none, s)
  | some h =>
    (some h.stage,
      { s with network := s.scheduler.giveBack B s.network w h.stage h.result }.setHold w none)

/-- Some workers in turn ask for a stage and call it. -/
def round (B : Bodies W) :
    List WorkerId → Session W → List (Option StageId × Option CallReport) × Session W
  | [], s => ([], s)
  | w :: ws, s =>
    let asked := s.next B w
    let called := asked.2.exec B w
    let rest := round B ws called.2
    ((asked.1, called.1) :: rest.1, rest.2)

/-- The first workers ask and call in turn, for some rounds. -/
def drive (s : Session W) (B : Bodies W) (workers : Nat) :
    Nat → List (Option StageId × Option CallReport) × Session W
  | 0 => ([], s)
  | rounds + 1 =>
    let r := round B (List.range workers) s
    let rest := r.2.drive B workers rounds
    (r.1 ++ rest.1, rest.2)

end Session

/-- One stage as descriptions show it. -/
def Graph.describeStage (g : Graph) (i : StageId) : String :=
  let s := g.stage i
  "StageNode \x7b id: " ++ StageId.text i ++ ", name: " ++ Text.quote s.name ++
    ", kind: " ++ s.kind.text
    ++ ", is_parallel: " ++ Text.truth s.parallel ++ ", knobs: " ++ s.knobs.describe ++ ", .. \x7d"

end Pipework
