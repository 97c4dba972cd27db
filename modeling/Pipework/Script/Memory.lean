import Pipework.Parcel
import Pipework.Probe

/-!
# What scripted bodies remember

Scripted bodies share named counters, by which a pipeline can be steered from outside, and a log of
events. Each of them has a *cursor*, the number of steps of its script that it has taken. A call
that waits for a counter is kept until the counter is no longer zero. A body that was made for a
stage and not used, because the pipeline refused the stage, is remembered by what it tells about
itself.
-/

namespace Pipework.Script

/-- Something that a scripted body did. -/
inductive Event where
  /-- A hook of the named body, or of one of its parts. -/
  | hook (what name : String)
  /-- A processor of the named sink was shown a number. -/
  | shown (name : String) (processor : Nat) (value : UInt64)
  deriving DecidableEq, Repr

/-- A call that has not ended. -/
structure Waiting where
  cursor : Nat
  worker : WorkerId
  /-- What it waits for. -/
  counter : String
  /-- How many parcels it will have handled. -/
  items : Nat
  deriving DecidableEq, Repr

/-- What a body tells that no stage uses. -/
structure Unused where
  /-- How many stages there were when it was made. -/
  stages : Nat
  probes : List (String × Probe)
  deriving DecidableEq, Repr

/-- The environment of scripted bodies. -/
structure Memory where
  counters : List (String × Nat) := []
  /-- The events, the latest first. -/
  events : List Event := []
  cursors : List UInt64 := []
  waiting : List Waiting := []
  unused : List Unused := []

namespace Memory

instance : Inhabited Memory := ⟨{}⟩

def counter (m : Memory) (name : String) : Nat := (m.counters.lookup name).getD 0

def setCounter (m : Memory) (name : String) (n : Nat) : Memory :=
  { m with counters := (name, n) :: m.counters.filter (·.1 != name) }

def log (m : Memory) (e : Event) : Memory := { m with events := e :: m.events }

/-- All events so far, the earliest first. -/
def history (m : Memory) : List Event := m.events.reverse

/-- Forgets the events. -/
def clearLog (m : Memory) : Memory := { m with events := [] }

/-- The cursor with a number. -/
def cursor (i : Nat) : Cell Memory UInt64 where
  get m := m.cursors.getD i 0
  set n m := { m with cursors := m.cursors.set i n }

/-- Adds a cursor, at the start of its script. -/
def addCursor (m : Memory) : Memory := { m with cursors := m.cursors ++ [0] }

/-- The call of a worker that has not ended, under a cursor. -/
def waitingFor? (m : Memory) (cursor : Nat) (w : WorkerId) : Option Waiting :=
  m.waiting.find? fun x => x.cursor == cursor && x.worker == w

end Memory

/-- The store of scripted bodies. -/
abbrev Stock := Store Parcel Memory

/-- Changes what scripted bodies remember. -/
def remember (s : Stock) (f : Memory → Memory) : Stock := { s with env := f s.env }

end Pipework.Script
