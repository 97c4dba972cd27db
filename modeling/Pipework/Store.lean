import Pipework.Queue
import Pipework.Pool
import Pipework.Stage

/-!
# The store shared by stage bodies

Bodies act on a common store: the queues between them, the pools of reusable parcels, and whatever
else the code handed in from outside remembers (the *environment*). Queues and pools are known by
number; a number that was never given out stands for an unlimited empty queue and for no pool.
-/

namespace Pipework

abbrev QueueId := Nat

abbrev PoolId := Nat

/-- What the bodies of a pipeline share: parcels of type `α`, and an environment of type `σ`. -/
structure Store (α σ : Type) where
  queues : List (Queue α) := []
  pools : List (Pool α) := []
  env : σ

namespace Store

variable {α σ : Type}

/-! ### Queues -/

def queue (s : Store α σ) (i : QueueId) : Queue α := s.queues.getD i default

def setQueue (s : Store α σ) (i : QueueId) (q : Queue α) : Store α σ :=
  { s with queues := s.queues.set i q }

/-- Adds a queue; its number is that of the queues before it. -/
def addQueue (s : Store α σ) (q : Queue α) : Store α σ := { s with queues := s.queues ++ [q] }

/-- The number of the queue with a name. -/
def findQueue? (s : Store α σ) (name : String) : Option QueueId :=
  s.queues.findIdx? (·.name == name)

/-- Offers a parcel to a queue. -/
def push (s : Store α σ) (i : QueueId) (a : α) : Option α × Store α σ :=
  let r := (s.queue i).push a
  (r.1, s.setQueue i r.2)

/-- Offers parcels to a queue one by one and counts those that were taken. -/
def offerEach (i : QueueId) : List α → Store α σ → Nat × Store α σ
  | [], s => (0, s)
  | a :: rest, s =>
    match s.push i a with
    | (none, s) =>
      let r := offerEach i rest s
      (r.1 + 1, r.2)
    | (some _, s) => offerEach i rest s

/-- Offers parcels to a queue and gives those left over. -/
def pushMany (s : Store α σ) (i : QueueId) (xs : List α) : List α × Store α σ :=
  let r := (s.queue i).pushMany xs
  (r.1, s.setQueue i r.2)

/-- Takes the oldest parcel of a queue. -/
def pop (s : Store α σ) (i : QueueId) : Option α × Store α σ :=
  let r := (s.queue i).pop
  (r.1, s.setQueue i r.2)

/-- Takes the `n` oldest parcels of a queue. -/
def popMany (s : Store α σ) (i : QueueId) (n : Nat) : List α × Store α σ :=
  let r := (s.queue i).popMany n
  (r.1, s.setQueue i r.2)

/-- Puts parcels back in front of a queue. -/
def requeue (s : Store α σ) (i : QueueId) (xs : List α) : Store α σ :=
  s.setQueue i ((s.queue i).requeue xs)

def setThreshold (s : Store α σ) (i : QueueId) (n : Nat) : Store α σ :=
  s.setQueue i ((s.queue i).setThreshold n)

/-- How many parcels all queues hold together. -/
def queued (s : Store α σ) : Nat := s.queues.foldr (fun q n => q.depth + n) 0

/-! ### Pools -/

def addPool (s : Store α σ) (p : Pool α) : Store α σ := { s with pools := s.pools ++ [p] }

/-- The number of the pool with a name; a later pool takes the name over from an earlier one. -/
def findPool? (s : Store α σ) (name : String) : Option PoolId :=
  (s.pools.reverse.findIdx? (·.name == name)).map (s.pools.length - 1 - ·)

/-- Borrows a parcel from a pool. -/
def acquire (s : Store α σ) (i : PoolId) : Option α × Store α σ :=
  match s.pools[i]? with
  | none => (none, s)
  | some p =>
    let r := p.acquire
    (r.1, { s with pools := s.pools.set i r.2 })

/-- Gives a parcel back to a pool. -/
def release (s : Store α σ) (i : PoolId) (a : α) : Store α σ :=
  match s.pools[i]? with
  | none => s
  | some p => { s with pools := s.pools.set i (p.release a).2 }

/-! ### Queues after a change -/

theorem queue_setQueue (s : Store α σ) (i j : QueueId) (q : Queue α) :
    (s.setQueue i q).queue j = if i = j ∧ i < s.queues.length then q else s.queue j := by
  unfold setQueue queue
  by_cases h : i = j
  · subst h
    by_cases hi : i < s.queues.length
    · simp [hi, List.getD]
    · simp [hi, List.getD]
  · simp [h, List.getD]

@[simp] theorem length_queues_setQueue (s : Store α σ) (i : QueueId) (q : Queue α) :
    (s.setQueue i q).queues.length = s.queues.length := by
  simp [setQueue]

end Store

/-- What one call of a body leaves behind. -/
structure Run (β α σ : Type) where
  ending : Ending
  visit : Visit
  body : β
  store : Store α σ

/-- The largest batch for which room can be reserved: one of `2 ^ 60` parcels or more cannot. -/
def reserveLimit : Nat := 1 <<< 60

/-- What the attempt to reserve room for too large a batch panics with. -/
def reservePanic : Panic := .text "capacity overflow"

end Pipework
