import Pipework.Config.Parameters
import Pipework.Text.Quoted

/-!
# Configurations as parameters

The thirteen parameters that describe a configuration: `Config.ofParameters` reads them and
`Config.registerDefaults` writes those that are not yet set. The first wait is kept in whole
microseconds and the check-in time in whole milliseconds.
-/

namespace Pipework.Config

namespace Key

def workers : String := "nthreads"
def chunk : String := "sluice:chunksize"
def strategy : String := "sluice:backoff_strategy"
def firstWait : String := "sluice:backoff_initial_us"
def tries : String := "sluice:backoff_tries"
def checkin : String := "sluice:checkin_ms"
def queueThreshold : String := "sluice:queue_threshold"
def locations : String := "sluice:locations"
def limitInFlight : String := "sluice:limit_total_events_in_flight"
def poolSize : String := "sluice:event_pool_size"
def stallMultiple : String := "sluice:stall_multiple"
def fairness : String := "sluice:fairness"
def stickyStreak : String := "sluice:sticky_streak"

end Key

/-- The largest number that fits in 64 bits, or the number itself if that is smaller. -/
def word (n : Nat) : Nat := min n ((1 <<< 64) - 1)

/-- Reads the fairness policy; a streak length counts only for the policy that has one, but has to
be a number. -/
def fairnessOf (p : Parameters) (standard : Fairness) : Except ConfigError Fairness := do
  let policy := (← p.parse Fairness.parse Key.fairness).getD standard
  let streak ← p.parse (Parameters.natural 32) Key.stickyStreak
  match policy, streak with
  | .sticky _, some n => pure (.sticky n)
  | policy, _ => pure policy

/-- Reads a configuration; a parameter that is not set leaves the default, and the first fault in a
fixed order of the parameters decides. -/
def ofParameters (defaults : Config) (p : Parameters) : Except ConfigError Config := do
  let fairness ← fairnessOf p defaults.fairness
  let strategy := (← p.parse Strategy.parse Key.strategy).getD defaults.strategy
  let workers := (← p.parse (Parameters.natural 64) Key.workers).getD defaults.workers
  let chunk := (← p.parse (Parameters.natural 64) Key.chunk).getD defaults.chunk
  let firstWait :=
    (← p.parse (Parameters.natural 64) Key.firstWait).getD (word defaults.firstWait.micros)
  let checkin := (← p.parse (Parameters.natural 64) Key.checkin).getD (word defaults.checkin.millis)
  let tries := (← p.parse (Parameters.natural 32) Key.tries).getD defaults.tries
  let queueThreshold :=
    (← p.parse (Parameters.natural 64) Key.queueThreshold).getD defaults.queueThreshold
  let locations := (← p.parse (Parameters.natural 64) Key.locations).getD defaults.locations
  let limitInFlight := (← p.parse Parameters.truth Key.limitInFlight).getD defaults.limitInFlight
  let poolSize := (← p.parse (Parameters.natural 64) Key.poolSize).getD defaults.poolSize
  let stallMultiple :=
    (← p.parse (Parameters.natural 32) Key.stallMultiple).getD defaults.stallMultiple
  let config : Config :=
    { workers, chunk, strategy, firstWait := .ofMicros firstWait, checkin := .ofMillis checkin,
      tries, queueThreshold, fairness, locations, limitInFlight, poolSize, stallMultiple }
  config.validate
  pure config

/-- The parameters that describe a configuration. -/
def toEntries (c : Config) : List (String × String) :=
  [(Key.workers, toString c.workers),
   (Key.chunk, toString c.chunk),
   (Key.strategy, c.strategy.text),
   (Key.firstWait, toString c.firstWait.micros),
   (Key.tries, toString c.tries),
   (Key.checkin, toString c.checkin.millis),
   (Key.queueThreshold, toString c.queueThreshold),
   (Key.locations, toString c.locations),
   (Key.limitInFlight, Text.truth c.limitInFlight),
   (Key.poolSize, toString c.poolSize),
   (Key.stallMultiple, toString c.stallMultiple),
   (Key.fairness, c.fairness.text)]
  ++ match c.fairness with
    | .sticky n => [(Key.stickyStreak, toString n)]
    | .roundRobin => []

/-- Writes the parameters of a configuration that are not yet set. -/
def registerDefaults (c : Config) (p : Parameters) : Parameters :=
  c.toEntries.foldl (fun p e => p.setDefault e.1 e.2) p

end Pipework.Config
