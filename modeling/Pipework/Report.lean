import Pipework.Controller
import Pipework.Text.Quoted

/-!
# Reports

What a controller shows of a run: the state of the whole, one row for each stage and one for each
worker in the pool. Times are not part of it.
-/

namespace Pipework

/-- One stage in a report. -/
structure StageRow where
  id : StageId
  name : String
  kind : Kind
  state : State
  parallel : Bool
  holders : Nat
  runningFeeders : Nat
  pending : Nat
  threshold : Nat
  chunk : Nat
  invocations : UInt64
  items : UInt64
  exhaustions : UInt64
  deriving DecidableEq, Repr

/-- One worker in a report. -/
structure WorkerRow where
  id : WorkerId
  location : Nat
  current : Option StageId
  iterations : UInt64
  /-- The sum of the waits that it was granted. -/
  backoff : Duration
  stalled : Bool
  deriving DecidableEq

/-- A run as a whole. -/
structure Report where
  phase : Phase
  workers : Nat
  events : UInt64
  running : Nat
  drained : Bool
  failure : Option Failure
  stages : List StageRow
  crew : List WorkerRow
  deriving DecidableEq

variable {W : Type}

/-- The row of a stage. -/
def Network.stageRow (n : Network W) (B : Bodies W) (i : StageId) : StageRow :=
  let s := n.graph.stage i
  { id := i, name := s.name, kind := s.kind, state := s.state, parallel := s.parallel,
    holders := s.holders
    runningFeeders := s.runningFeeders, pending := B.pending i n.world,
    threshold := B.threshold i n.world
    chunk := s.knobs.chunk, invocations := s.metrics.invocations, items := s.metrics.items
    exhaustions := s.metrics.exhaustions }

/-- The rows of all stages. -/
def Network.stageRows (n : Network W) (B : Bodies W) : List StageRow :=
  (List.range n.graph.size).map (n.stageRow B)

/-- The row of a worker. -/
def Worker.row (w : Worker) : WorkerRow :=
  { id := w.id, location := w.location, current := w.current, iterations := w.metrics.iterations
    backoff := .ofWord w.metrics.backoff, stalled := w.stalled }

/-- The report of a controller. -/
def Controller.report (c : Controller W) (B : Bodies W) : Report :=
  { phase := c.phase, workers := c.workers.length, events := c.graph.sunk,
    running := c.graph.running
    drained := c.graph.drained, failure := c.graph.failure, stages := c.engine.network.stageRows B
    crew := c.workers.map Worker.row }

namespace Report

/-! ### As a table -/

/-- A text filled up with blanks on the right. -/
def padRight (width : Nat) (s : String) : String :=
  s ++ String.ofList (List.replicate (width - s.length) ' ')

/-- A text filled up with blanks on the left. -/
def padLeft (width : Nat) (s : String) : String :=
  String.ofList (List.replicate (width - s.length) ' ') ++ s

/-- A line of the table. -/
def line (stage state calls items backoffs : String) : String :=
  " ".intercalate
    [padRight 16 stage, padLeft 9 state, padLeft 10 calls, padLeft 12 items, padLeft 9 backoffs]

/-- The report as lines of a table. -/
def table (r : Report) : List String :=
  (toString r.events.toNat ++ " events on " ++ toString r.workers ++ " workers")
    :: line "stage" "state" "calls" "items" "backoffs"
    :: r.stages.map fun s =>
      line s.name s.state.text (toString s.invocations.toNat) (toString s.items.toNat)
        (toString s.exhaustions.toNat)

/-! ### As JSON -/

/-- A value with the fields of an object, or the parts of an array, in their order. -/
inductive Json where
  | null
  | truth (b : Bool)
  | number (n : Nat)
  | string (s : String)
  | array (parts : List Json)
  | object (fields : List (String × Json))

namespace Json

/-- A value that may be missing. -/
def ofOption {β : Type} (f : β → Json) : Option β → Json
  | none => null
  | some v => f v

/-- One character of a string. -/
def escape (c : Char) : String :=
  let code := Nat.toDigits 16 c.toNat
  if c = '\x22' then "\x5c\x22"
  else if c = '\x5c' then "\x5c\x5c"
  else if c = '\n' then "\x5cn"
  else if c = '\r' then "\x5cr"
  else if c = '\t' then "\x5ct"
  else if c = '\x08' then "\x5cb"
  else if c = '\x0c' then "\x5cf"
  else if c.toNat < 0x20 then
    "\x5cu" ++ String.ofList (List.replicate (4 - code.length) '0' ++ code)
  else c.toString

/-- A string between quotes. -/
def quote (s : String) : String := "\x22" ++ String.join (s.toList.map escape) ++ "\x22"

/-- Parts of a value on lines of their own, between brackets; no line at all if there are none. -/
def frame (opening closing : String) (indent : String) (parts : List String) : String :=
  match parts with
  | [] => opening ++ closing
  | _ => opening ++ "\n" ++ ",\n".intercalate parts ++ "\n" ++ indent ++ closing

mutual

/-- A value over several lines, each level indented by two blanks. -/
def render (indent : String) : Json → String
  | null => "null"
  | truth b => Text.truth b
  | number n => toString n
  | string s => quote s
  | array parts => frame "[" "]" indent (renderParts (indent ++ "  ") parts)
  | object fields => frame "\x7b" "\x7d" indent (renderFields (indent ++ "  ") fields)

def renderParts (indent : String) : List Json → List String
  | [] => []
  | j :: rest => (indent ++ render indent j) :: renderParts indent rest

def renderFields (indent : String) : List (String × Json) → List String
  | [] => []
  | (k, j) :: rest => (indent ++ quote k ++ ": " ++ render indent j) :: renderFields indent rest

end

end Json

def failureJson (f : Failure) : Json :=
  .object
    [("stage", .number f.stage), ("stage_name", .string f.name),
      ("worker_id", .ofOption .number f.worker),
     ("location_id", .ofOption .number f.location), ("message", .string f.message)]

def stageJson (s : StageRow) : Json :=
  .object
    [("id", .number s.id), ("name", .string s.name), ("kind", .string s.kind.text),
      ("state", .string s.state.text),
     ("is_parallel", .truth s.parallel), ("thread_count", .number s.holders),
     ("running_upstreams", .number s.runningFeeders), ("pending", .number s.pending),
     ("threshold", .number s.threshold), ("chunksize", .number s.chunk),
     ("invocations", .number s.invocations.toNat), ("items_processed", .number s.items.toNat),
     ("backoff_exhaustions", .number s.exhaustions.toNat)]

def workerJson (w : WorkerRow) : Json :=
  .object
    [("worker_id", .number w.id), ("location_id", .number w.location),
      ("current_stage", .ofOption .number w.current),
     ("iterations", .number w.iterations.toNat), ("is_stalled", .truth w.stalled)]

/-- The report as a JSON object. -/
def toJson (r : Report) : Json :=
  .object
    [("topology", .object
      [("status", .string r.phase.text), ("nthreads", .number r.workers),
       ("events_completed", .number r.events.toNat), ("running_stages", .number r.running),
       ("is_drained", .truth r.drained), ("failure", .ofOption failureJson r.failure)]),
     ("stages", .array (r.stages.map stageJson)),
     ("workers", .array (r.crew.map workerJson))]

end Report

end Pipework
