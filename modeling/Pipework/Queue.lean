import Pipework.Text.Quoted

/-!
# Bounded queues

A queue holds parcels between two stages in the order in which they came. Its *threshold* bounds how
many it takes: a push at or above the threshold is refused and the parcel handed back, so nothing is
ever dropped. Lowering the threshold below the number of parcels held removes none of them. Three
64-bit counters record the pushes taken, the parcels popped and the pushes refused; they wrap, and a
requeue takes back what its pops counted.
-/

namespace Pipework

/-- The threshold of a queue without a limit. -/
def unlimited : Nat := (1 <<< 64) - 1

/-- A queue, oldest parcel first. -/
structure Queue (α : Type) where
  name : String
  items : List α := []
  threshold : Nat
  pushed : UInt64 := 0
  popped : UInt64 := 0
  rejected : UInt64 := 0
  deriving Repr

namespace Queue

variable {α : Type}

/-- An empty queue that takes up to `threshold` parcels, and one at the least. -/
def bounded (name : String) (threshold : Nat) : Queue α :=
  { name, threshold := max threshold 1 }

/-- An empty queue without a limit. -/
def unbounded (name : String) : Queue α := { name, threshold := unlimited }

instance : Inhabited (Queue α) := ⟨unbounded ""⟩

/-- How many parcels the queue holds. -/
def depth (q : Queue α) : Nat := q.items.length

/-- How many parcels the queue would still take. -/
def free (q : Queue α) : Nat := q.threshold - q.depth

def isFull (q : Queue α) : Bool := q.free == 0

def isEmpty (q : Queue α) : Bool := q.items.isEmpty

def isUnbounded (q : Queue α) : Bool := q.threshold == unlimited

/-- Changes the threshold, to one at the least. -/
def setThreshold (q : Queue α) (threshold : Nat) : Queue α :=
  { q with threshold := max threshold 1 }

/-! ### Pushing -/

/-- Offers one parcel at the back; a full queue hands it back. -/
def push (q : Queue α) (a : α) : Option α × Queue α :=
  if q.threshold ≤ q.depth then (some a, { q with rejected := q.rejected + 1 })
  else (none, { q with items := q.items ++ [a], pushed := q.pushed + 1 })

/-- Offers parcels in order and gives those that found no room. Being refused counts once for the
whole offer. -/
def pushMany (q : Queue α) (xs : List α) : List α × Queue α :=
  let moved := min q.free xs.length
  let rest := xs.drop moved
  (rest,
    { q with
      items := q.items ++ xs.take moved
      pushed := q.pushed + moved.toUInt64
      rejected := if rest.isEmpty then q.rejected else q.rejected + 1 })

/-! ### Popping -/

/-- Takes the oldest parcel. -/
def pop (q : Queue α) : Option α × Queue α :=
  match q.items with
  | [] => (none, q)
  | a :: rest => (some a, { q with items := rest, popped := q.popped + 1 })

/-- Takes the `n` oldest parcels, or all if there are fewer. -/
def popMany (q : Queue α) (n : Nat) : List α × Queue α :=
  let taken := q.items.take n
  (taken, { q with items := q.items.drop n, popped := q.popped + taken.length.toUInt64 })

/-- Puts parcels back in front, in their order, and takes back the pops that had counted them. -/
def requeue (q : Queue α) (xs : List α) : Queue α :=
  { q with items := xs ++ q.items, popped := q.popped - xs.length.toUInt64 }

/-- The queue as descriptions show it. -/
def describe (q : Queue α) : String :=
  "StageQueue \x7b name: " ++ Text.quote q.name ++ ", len: " ++ toString q.depth ++ ", threshold: "
    ++ toString q.threshold ++ ", .. \x7d"

/-! ### Contents after each operation -/

theorem items_pushMany (q : Queue α) (xs : List α) :
    (q.pushMany xs).2.items = q.items ++ xs.take (min q.free xs.length) := rfl

theorem items_popMany (q : Queue α) (n : Nat) : (q.popMany n).2.items = q.items.drop n := rfl

end Queue

end Pipework
