import Pipework.Backoff

/-!
# Stages: vocabulary

What is said about one stage of a pipeline: its kind, the states it passes through, the outcome of
one call of its body, and the visit of a worker in which such a call is made. A body is code that
may fail with a `StageError` or panic; a panic is an error whose message says so.
-/

namespace Pipework

/-- Stages are numbered in the order in which they are added. -/
abbrev StageId := Nat

/-- Workers are numbered from 0. -/
abbrev WorkerId := Nat

/-- A stage number as texts show it. -/
def StageId.text (i : StageId) : String := "StageId(" ++ toString i ++ ")"

/-- The place of a stage in its pipeline. -/
inductive Kind where
  | source
  | sink
  | interior
  | group
  deriving DecidableEq, Repr

def Kind.text : Kind → String
  | .source => "Source"
  | .sink => "Sink"
  | .interior => "Interior"
  | .group => "Group"

/-- The states of a stage. A stage starts unopened and never leaves `finished`. -/
inductive State where
  | unopened
  | running
  | paused
  | finished
  deriving DecidableEq, Repr

def State.text : State → String
  | .unopened => "Unopened"
  | .running => "Running"
  | .paused => "Paused"
  | .finished => "Finished"

/-- Why a stage failed. -/
structure StageError where
  message : String
  deriving DecidableEq, Repr

namespace StageError

/-- The error of a chain of causes, the outermost first. -/
def ofCauses (causes : List String) : StageError := ⟨": ".intercalate causes⟩

end StageError

/-- What a panic carries: a text, or something that is none. -/
inductive Panic where
  | text (s : String)
  | other
  deriving DecidableEq, Repr

/-- A panic as an error. -/
def Panic.toError : Panic → StageError
  | .text s => ⟨"panicked: " ++ s⟩
  | .other => ⟨"panicked: non-string panic payload"⟩

/-- The answer of code that was handed in from outside. -/
inductive Reply (β : Type) where
  | ok (value : β)
  | failed (error : StageError)
  | panicked (panic : Panic)

/-- An answer with panics taken for errors. -/
def Reply.toExcept {β : Type} : Reply β → Except StageError β
  | .ok v => .ok v
  | .failed e => .error e
  | .panicked p => .error p.toError

/-- The outcome of one call of a body. -/
inductive Outcome where
  /-- Something was done; the worker should come again at once. -/
  | success
  /-- There was no input, or no room for output. -/
  | comeBackLater
  /-- The stage will never produce anything again. -/
  | finished
  | failed (error : StageError)
  deriving DecidableEq, Repr

/-- How one call of a body ended. A suspended call has not ended: it waits for something outside,
possibly for ever, and goes on when the body is called again. -/
inductive Ending where
  | returned (outcome : Outcome)
  | panicked (panic : Panic)
  | suspended
  deriving DecidableEq, Repr

/-- The outcome of a call that ended; a panic counts as a failure. -/
def Ending.outcome? : Ending → Option Outcome
  | .returned o => some o
  | .panicked p => some (.failed p.toError)
  | .suspended => none

/-- One call of a body: who calls, how many parcels the call may handle, and how many it has handled
so far. -/
structure Visit where
  worker : WorkerId
  location : Nat
  chunk : Nat
  items : UInt64 := 0
  deriving DecidableEq, Repr

namespace Visit

/-- The start of a visit; every visit may handle at least one parcel. -/
def start (worker : WorkerId) (location chunk : Nat) : Visit :=
  { worker, location, chunk := max chunk 1 }

/-- Counts parcels as handled. -/
def record (v : Visit) (n : Nat) : Visit := { v with items := v.items + n.toUInt64 }

end Visit

/-- The two calls that frame the life of a stage. -/
inductive Hook where
  | opening
  | closing
  deriving DecidableEq, Repr

def Hook.text : Hook → String
  | .opening => "initialize"
  | .closing => "finalize"

/-- The knobs of a stage as descriptions show them. -/
def Knobs.describe (k : Knobs) : String :=
  "StageKnobs \x7b chunksize: " ++ toString k.chunk ++ ", backoff_strategy: " ++ k.strategy.label
    ++ ", initial_backoff: " ++ k.firstWait.text ++ ", checkin_time: " ++ k.checkin.text
    ++ ", backoff_tries: " ++ toString k.tries ++ " \x7d"

end Pipework
