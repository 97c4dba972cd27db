import Pipework.Backoff
import Pipework.Fairness

/-!
# Engine configuration

The settings of a whole engine: how many workers it starts with, the settings every stage begins
with, and how parcels and workers are bounded. `Config.validate` names the first setting that cannot
be used, in a fixed order.
-/

namespace Pipework

/-- What can be wrong with a configuration or with the parameters it is read from. -/
inductive ConfigError where
  | missing (key : String)
  | invalidValue (key value reason : String)
  | malformed (assignment : String)
  | invalid (reason : String)
  deriving DecidableEq, Repr

/-- The name of the kind of a configuration error. -/
def ConfigError.kind : ConfigError → String
  | .missing _ => "MissingParameter"
  | .invalidValue _ _ _ => "InvalidValue"
  | .malformed _ => "MalformedAssignment"
  | .invalid _ => "Invalid"

/-- The wording of a configuration error. -/
def ConfigError.message : ConfigError → String
  | .missing key => "Missing parameter: " ++ key
  | .invalidValue key value reason =>
    "Invalid value '" ++ value ++ "' for '" ++ key ++ "': " ++ reason
  | .malformed assignment => "Malformed parameter assignment: '" ++ assignment ++ "'"
  | .invalid reason => "Invalid configuration: " ++ reason

/-- The settings of an engine. -/
structure Config where
  workers : Nat
  chunk : Nat := 1
  strategy : Strategy := .exponential
  firstWait : Duration := .ofMicros 1
  checkin : Duration := .ofMillis 500
  tries : Nat := 4
  queueThreshold : Nat := 64
  fairness : Fairness := .standard
  locations : Nat := 1
  /-- Whether the number of parcels under way is bounded by the pool. -/
  limitInFlight : Bool := true
  poolSize : Nat := 64
  /-- After how many check-in times without a sign of life a worker counts as stalled. -/
  stallMultiple : Nat := 4
  deriving DecidableEq

namespace Config

/-- The knobs that every stage of the engine starts with. -/
def knobs (c : Config) : Knobs :=
  { chunk := c.chunk, strategy := c.strategy, firstWait := c.firstWait, checkin := c.checkin,
    tries := c.tries }

/-- How long a worker may be silent before it counts as stalled. -/
def stallThreshold (c : Config) : Duration := c.checkin.times c.stallMultiple

/-- The complaint about the first setting that cannot be used. -/
def complaint (c : Config) : Option String :=
  if c.workers = 0 then some "nthreads must be > 0"
  else if c.chunk = 0 then some "chunksize must be > 0"
  else if c.queueThreshold = 0 then some "queue_threshold must be > 0"
  else if c.locations = 0 then some "locations must be > 0"
  else if c.limitInFlight ∧ c.poolSize = 0 then
    some "pool_size must be > 0 when in-flight items are limited"
  else if c.stallMultiple = 0 then some "stall_multiple must be > 0"
  else if c.checkin.isZero then some "checkin_time must be > 0"
  else if c.fairness = .sticky 0 then some "sticky fairness needs max_streak > 0"
  else none

/-- Whether an engine can run with these settings. -/
def validate (c : Config) : Except ConfigError Unit :=
  match c.complaint with
  | some reason => .error (.invalid reason)
  | none => .ok ()

end Config

end Pipework
