import Pipework.Worker

/-!
# Controllers

A controller owns an engine and its workers. It starts them once, changes their number while they
run, and dismisses them in the end: a status of `beforeRun` becomes `duringRun` or, if a stage
cannot be opened, `afterRun`, and `duringRun` becomes `afterRun`. Workers are numbered by their
place in the pool. Those that were taken out of the pool stay among the *leaving* until they are
gone.

The controller's own steps do not wait for anything. `Controller.advance` lets every worker take one
turn, and `Controller.await` lets them go on until a condition holds. No time passes but in
`Controller.awaitStall`, which is what makes a worker that waits count as stalled.
-/

namespace Pipework

/-- The phases of a run. -/
inductive Phase where
  | beforeRun
  | duringRun
  | afterRun
  deriving DecidableEq, Repr

def Phase.text : Phase → String
  | .beforeRun => "BeforeRun"
  | .duringRun => "DuringRun"
  | .afterRun => "AfterRun"

/-- An engine and those who work on it. -/
structure Controller (W : Type) where
  engine : Engine W
  config : Config
  phase : Phase := .beforeRun
  workers : List Worker := []
  leaving : List Worker := []

namespace Controller

variable {W : Type}

/-- A controller for a network; every stage gets the knobs of the configuration. -/
def create (n : Network W) (config : Config) : Except ControlError (Controller W) :=
  match config.validate with
  | .error e => .error (.invalidConfig e.message)
  | .ok _ =>
    match n.graph.validate with
    | .error e => .error (.graph e)
    | .ok _ =>
      .ok { engine :=
              { network := n.mapGraph (·.applyDefaults config)
                scheduler := .withLocations config.fairness config.locations }
            config }

/-! ### Inspection -/

def graph (c : Controller W) : Graph := c.engine.graph

/-- Whether no worker is at work. -/
def stopped (c : Controller W) : Bool :=
  match c.phase with
  | .duringRun => c.workers.all Worker.isGone
  | _ => true

/-- Whether nothing is left to do: no stage is running, or one has failed. -/
def settled (c : Controller W) : Bool := c.graph.drained || c.graph.failure.isSome

/-- The workers that do not come back from a call. -/
def stalledWorkers (c : Controller W) : List WorkerId :=
  (c.workers.filter Worker.stalled).map Worker.id

/-- The controller as descriptions show it. -/
def describe (c : Controller W) : String :=
  "Controller \x7b status: " ++ c.phase.text ++ ", nthreads: " ++ toString c.workers.length ++
    ", .. \x7d"

/-! ### Workers at work -/

/-- Lets workers take a turn each, in order. -/
def turns (B : Bodies W) : List Worker → Engine W → Engine W × List Worker
  | [], e => (e, [])
  | w :: ws, e =>
    let r := w.turn B e
    let rest := turns B ws r.1
    (rest.1, r.2 :: rest.2)

/-- Lets every worker take a turn, those of the pool first. -/
def advance (c : Controller W) (B : Bodies W) : Controller W :=
  let r := turns B c.workers c.engine
  let r' := turns B c.leaving r.1
  { c with engine := r'.1, workers := r.2, leaving := r'.2 }

/-- Lets the workers go on until a condition holds, for `fuel` turns each at most. -/
def await (c : Controller W) (B : Bodies W) (cond : Controller W → Bool) : Nat → Controller W
  | 0 => c
  | fuel + 1 => if cond c then c else (c.advance B).await B cond fuel

/-- Whether nothing comes of any worker for now. -/
def resting (c : Controller W) : Bool :=
  c.workers.all Worker.resting && c.leaving.all Worker.resting

/-- Lets the workers go on until nothing comes of them in two rounds, for `fuel` turns each at
most. -/
def rest (c : Controller W) (B : Bodies W) : Nat → Controller W
  | 0 => c
  | fuel + 1 =>
    let c' := c.advance B
    if c.resting && c'.resting then c' else c'.rest B fuel

/-- Lets time pass until calls that are suspended are overdue. -/
def linger (c : Controller W) : Controller W :=
  { c with workers := c.workers.map Worker.linger, leaving := c.leaving.map Worker.linger }

/-- How many turns each worker takes before one that waits counts as stalled. -/
def grace : Nat := 20000

/-- Lets the workers go on until the call of one of them is suspended, and then for as long as it
takes to count as stalled. -/
def awaitStall (c : Controller W) (B : Bodies W) (fuel : Nat) : Controller W :=
  ((c.await B (fun c => c.workers.any (·.waiting)) fuel).rest B grace).linger

/-- Adds workers to the pool until it has `n`. -/
def spawnUpTo (c : Controller W) (n : Nat) : Controller W :=
  let more := (List.range (n - c.workers.length)).map fun k =>
    Worker.hire c.engine.scheduler (c.workers.length + k)
  { c with workers := c.workers ++ more }

/-! ### The controller's steps -/

/-- Changes the network of a controller. -/
def setNetwork (c : Controller W) (n : Network W) : Controller W :=
  { c with engine := { c.engine with network := n } }

/-- Activates the network and starts `n` workers. -/
def run (c : Controller W) (B : Bodies W) (n : Nat) : Except ControlError Unit × Controller W :=
  if c.phase ≠ .beforeRun then (.error .alreadyRunning, c)
  else if n = 0 then (.error (.invalidConfig "nthreads must be > 0"), c)
  else
    let r := c.engine.network.activateAll B
    let c := c.setNetwork r.2
    match r.1 with
    | .error e => (.error (.graph e), { c with phase := .afterRun })
    | .ok _ => (.ok (), { c with phase := .duringRun }.spawnUpTo n)

/-- Starts as many workers as the configuration says. -/
def start (c : Controller W) (B : Bodies W) : Except ControlError Unit × Controller W :=
  c.run B c.config.workers

/-- Brings the pool to `n` workers; those beyond are retired. -/
def scale (c : Controller W) (n : Nat) : Except ControlError Unit × Controller W :=
  if c.phase ≠ .duringRun then (.error .notRunning, c)
  else if c.workers.length ≤ n then (.ok (), c.spawnUpTo n)
  else
    (.ok (), { c with
      workers := c.workers.take n
      leaving := c.leaving ++ (c.workers.drop n).map Worker.retire })

/-- Finishes the sources, so that the network drains and the workers leave. -/
def requestStop (c : Controller W) (B : Bodies W) : Controller W :=
  { c with engine := c.engine.requestStop B }

/-- Pauses a stage. -/
def pauseStage (c : Controller W) (B : Bodies W) (i : StageId) :
    Except ControlError Unit × Controller W :=
  let r := c.engine.network.pause B i
  (r.1.mapError .graph, c.setNetwork r.2)

/-- Activates a stage. -/
def activateStage (c : Controller W) (B : Bodies W) (i : StageId) :
    Except ControlError Unit × Controller W :=
  let r := c.engine.network.activate B i
  (r.1.mapError .graph, c.setNetwork r.2)

/-- Takes every worker out of the pool, to wait until they are gone. -/
def dismiss (c : Controller W) : Controller W :=
  if c.phase = .beforeRun then c
  else { c with workers := [], leaving := c.leaving ++ c.workers }

/-- Whether those who were taken out of the pool are gone. -/
def cleared (c : Controller W) : Bool := c.leaving.all Worker.isGone

/-- Lets the workers that are leaving go on until they are gone. -/
def clear (c : Controller W) (B : Bodies W) (fuel : Nat) : Controller W :=
  { c.await B cleared fuel with leaving := [] }

/-- Dismisses the workers, waits until they are gone, and ends the run. -/
def waitUntilStopped (c : Controller W) (B : Bodies W) (fuel : Nat) : Controller W :=
  if c.phase = .beforeRun then c
  else { c.dismiss.clear B fuel with phase := .afterRun }

end Controller

end Pipework
