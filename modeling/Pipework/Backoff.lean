import Pipework.Duration
import Pipework.Text.Blank

/-!
# Backing off

A worker whose stage has nothing to do waits before it asks the stage again. The `Strategy` says how
the waits grow, the `Knobs` of a stage hold its settings, and a `Backoff` counts the waits since the
last reset: it grants `tries` of them and then none. No wait is longer than the check-in time,
unless that is zero.
-/

namespace Pipework

/-- How the waits grow from one attempt to the next. -/
inductive Strategy where
  | constant
  | linear
  | exponential
  deriving DecidableEq, Repr

namespace Strategy

/-- The name of a strategy. -/
def text : Strategy → String
  | .constant => "constant"
  | .linear => "linear"
  | .exponential => "exponential"

/-- A strategy as descriptions show it. -/
def label : Strategy → String
  | .constant => "Constant"
  | .linear => "Linear"
  | .exponential => "Exponential"

/-- What the first wait is multiplied by before attempt number `attempt`, counted from 1. -/
def factor (s : Strategy) (attempt : Nat) : Nat :=
  match s with
  | .constant => 1
  | .linear => attempt
  | .exponential => if attempt ≤ 32 then 1 <<< (attempt - 1) else (1 <<< 32) - 1

/-- The wait before an attempt; attempt 0 is taken for the first one. -/
def delay (s : Strategy) (first : Duration) (attempt : Nat) : Duration :=
  first.times (s.factor (max attempt 1))

/-- Reads the name of a strategy, whatever its case and the blanks around it. -/
def parse (s : String) : Except String Strategy :=
  match Text.lower (Text.trim s) with
  | "constant" => .ok .constant
  | "linear" => .ok .linear
  | "exponential" => .ok .exponential
  | other =>
    .error ("unknown backoff strategy '" ++ other ++ "' (expected constant, linear or exponential)")

end Strategy

/-- The settings of one stage. -/
structure Knobs where
  /-- How many parcels one call handles. -/
  chunk : Nat := 1
  strategy : Strategy := .exponential
  /-- The first wait. -/
  firstWait : Duration := .ofMicros 1
  /-- The longest wait; zero for no bound. -/
  checkin : Duration := .ofMillis 500
  /-- How many waits there are before the stage is given up. -/
  tries : Nat := 4
  deriving DecidableEq

instance : Inhabited Knobs := ⟨{}⟩

/-- Sets the chunk, to one parcel at the least. -/
def Knobs.setChunk (k : Knobs) (n : Nat) : Knobs := { k with chunk := max n 1 }

/-- The waits of one worker on one stage. -/
structure Backoff where
  stage : Nat
  strategy : Strategy
  firstWait : Duration
  checkin : Duration
  tries : Nat
  /-- How many waits have been granted since the last reset. -/
  attempt : Nat := 0
  lastWait : Duration := .zero
  deriving DecidableEq

namespace Backoff

/-- A fresh sequence of waits. -/
def start (stage : Nat) (k : Knobs) : Backoff :=
  { stage, strategy := k.strategy, firstWait := k.firstWait, checkin := k.checkin,
    tries := k.tries }

/-- Whether all waits have been granted. -/
def exhausted (b : Backoff) : Bool := b.tries ≤ b.attempt

/-- The wait number `attempt`, cut off at the check-in time. -/
def wait (b : Backoff) (attempt : Nat) : Duration :=
  let d := b.strategy.delay b.firstWait attempt
  if b.checkin.isZero then d else d.min b.checkin

/-- Grants the next wait, if there is one left. -/
def next (b : Backoff) : Option Duration × Backoff :=
  if b.tries ≤ b.attempt then (none, b)
  else
    let d := b.wait (b.attempt + 1)
    (some d, { b with attempt := b.attempt + 1, lastWait := d })

/-- Forgets the waits granted so far. -/
def reset (b : Backoff) : Backoff := { b with attempt := 0, lastWait := .zero }

end Backoff

end Pipework
