import Pipework.Store

/-!
# Sources

A source polls a producer and pushes what it gets to its output queue. A parcel that finds the queue
full waits in the *overflow*, and nothing is polled before it has been pushed. The source is
finished when the producer is exhausted and nothing waits. Its pending work is the room in the
output queue, but no more than the last chunk.
-/

namespace Pipework

/-- The answer of a producer. -/
inductive Poll (α : Type) where
  | item (a : α)
  /-- Nothing at the moment. -/
  | empty
  /-- Nothing any more. -/
  | exhausted
  | panicked (panic : Panic)

/-- Where parcels come from. -/
structure Producer (α σ : Type) where
  opening : Store α σ → Reply Unit × Store α σ := fun s => (.ok (), s)
  poll : Store α σ → Poll α × Store α σ
  closing : Store α σ → Reply Unit × Store α σ := fun s => (.ok (), s)

/-- A source and its state. -/
structure Source (α σ : Type) where
  producer : Producer α σ
  output : QueueId
  overflow : Option α := none
  exhausted : Bool := false
  /-- How many parcels were pushed by calls that returned. -/
  produced : UInt64 := 0
  /-- The chunk of the last call. -/
  chunkHint : Nat := 1

namespace Source

variable {α σ : Type}

/-- Where a round of polls stopped: how many parcels were pushed, and whether the producer
panicked. -/
structure Pulled (α σ : Type) where
  pushed : Nat
  panic : Option Panic
  body : Source α σ
  store : Store α σ

/-- Polls and pushes up to `budget` parcels, after `pushed` others. -/
def pull (src : Source α σ) (pushed : Nat) (s : Store α σ) : Nat → Pulled α σ
  | 0 => ⟨pushed, none, src, s⟩
  | budget + 1 =>
    match src.producer.poll s with
    | (.item a, s) =>
      match s.push src.output a with
      | (none, s) => pull src (pushed + 1) s budget
      | (some a, s) => ⟨pushed, none, { src with overflow := some a }, s⟩
    | (.empty, s) => ⟨pushed, none, src, s⟩
    | (.exhausted, s) => ⟨pushed, none, { src with exhausted := true }, s⟩
    | (.panicked p, s) => ⟨pushed, some p, src, s⟩

/-- Polls up to the chunk of the visit, after `pushed` parcels have been pushed and while none
waits. -/
def feed (src : Source α σ) (v : Visit) (pushed : Nat) (s : Store α σ) : Run (Source α σ) α σ :=
  let r := if src.exhausted then ⟨pushed, none, src, s⟩ else src.pull pushed s (v.chunk - pushed)
  match r.panic with
  | some p => ⟨.panicked p, v, r.body, r.store⟩
  | none =>
    let body := { r.body with produced := r.body.produced + r.pushed.toUInt64 }
    let outcome : Outcome :=
      if body.exhausted && body.overflow.isNone then .finished
      else if r.pushed > 0 then .success
      else .comeBackLater
    ⟨.returned outcome, v.record r.pushed, body, r.store⟩

/-- One call: what waits is pushed first. -/
def execute (src : Source α σ) (v : Visit) (s : Store α σ) : Run (Source α σ) α σ :=
  let src := { src with chunkHint := max v.chunk 1 }
  match src.overflow with
  | none => src.feed v 0 s
  | some a =>
    match s.push src.output a with
    | (some a, s) => ⟨.returned .comeBackLater, v, { src with overflow := some a }, s⟩
    | (none, s) => { src with overflow := none }.feed v 1 s

def pending (src : Source α σ) (s : Store α σ) : Nat :=
  if src.exhausted then 0 else min (s.queue src.output).free src.chunkHint

end Source

/-! ### Counting -/

/-- A place in an environment that holds a value of type `β`. -/
structure Cell (σ β : Type) where
  get : σ → β
  set : β → σ → σ

/-- The producer of the numbers `0`, `1`, … below `count`; the cell holds the next one. -/
def Producer.counting {α σ : Type} (ofNumber : UInt64 → α) (next : Cell σ UInt64) (count : UInt64) :
    Producer α σ where
  poll s :=
    let n := next.get s.env
    if count ≤ n then (.exhausted, s)
    else (.item (ofNumber n), { s with env := next.set (n + 1) s.env })

end Pipework
