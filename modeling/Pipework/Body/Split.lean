import Pipework.Store

/-!
# Splits

A split takes blocks from its input queue and has a splitter break them into smaller parcels for its
output queue. At most one block is in progress. Results that find no room wait in the *overflow*,
and no block is touched before they have been pushed. A block on which the splitter fails is gone; a
block that is used up is recycled.

A splitter says how much *work* a block holds at most, in calls that get on with it. A call of the
split that would go on splitting after all that work is never going to return.
-/

namespace Pipework

/-- What one call of a splitter did to a block: the parcels it took, and the block, if there is more
in it. -/
structure Portion (α : Type) where
  parcels : List α
  block : α
  done : Bool

/-- How blocks are broken up. -/
structure Splitter (α σ : Type) where
  split : α → Store α σ → Reply (Portion α) × Store α σ
  recycle : α → Store α σ → Store α σ := fun _ s => s
  /-- A bound on the calls that leave something in a block. -/
  work : α → Nat

/-- A split and its state. -/
structure Split (α σ : Type) where
  splitter : Splitter α σ
  input : QueueId
  output : QueueId
  /-- The block in progress. -/
  current : Option α := none
  overflow : List α := []
  /-- How many parcels and blocks were held when the last call returned. -/
  held : Nat := 0

namespace Split

variable {α σ : Type}

/-- How the loop of a call ended: with how many parcels pushed, and what stopped it. -/
structure Drained (α σ : Type) where
  pushed : Nat
  /-- The answer of the splitter that stopped the loop, or success; nothing, if the loop does not
  end. -/
  stop : Option (Reply Unit)
  body : Split α σ
  store : Store α σ

/-- The next block to work on: the one in progress, or else the oldest of the input. -/
def takeBlock (b : Split α σ) (s : Store α σ) : Option α × Split α σ × Store α σ :=
  match b.current with
  | some block => (some block, { b with current := none }, s)
  | none =>
    let (block, s) := s.pop b.input
    (block, b, s)

/-- Splits blocks until the chunk is used up, results are left over, or there is no block; for
`fuel` calls of the splitter at most. -/
def drain (b : Split α σ) (chunk pushed : Nat) (s : Store α σ) : Nat → Drained α σ
  | 0 => ⟨pushed, none, b, s⟩
  | fuel + 1 =>
    if b.overflow.isEmpty && decide (pushed < chunk) then
      match b.takeBlock s with
      | (none, b, s) => ⟨pushed, some (.ok ()), b, s⟩
      | (some block, b, s) =>
        match b.splitter.split block s with
        | (.failed e, s) => ⟨pushed, some (.failed e), b, s⟩
        | (.panicked p, s) => ⟨pushed, some (.panicked p), b, s⟩
        | (.ok portion, s) =>
          let s := if portion.done then b.splitter.recycle portion.block s else s
          let (left, s) := s.pushMany b.output portion.parcels
          let b := { b with
            current := if portion.done then none else some portion.block
            overflow := left }
          b.drain chunk (pushed + (portion.parcels.length - left.length)) s fuel
    else ⟨pushed, some (.ok ()), b, s⟩

/-- A number of splitter calls that suffices whenever each of them gets on with its block. -/
def fuel (b : Split α σ) (s : Store α σ) : Nat :=
  let blocks := b.current.toList ++ (s.queue b.input).items
  blocks.foldr (fun block n => b.splitter.work block + 1 + n) 1

/-- One call: the overflow is pushed first. -/
def execute (b : Split α σ) (v : Visit) (s : Store α σ) : Run (Split α σ) α σ :=
  let (left, s) := s.pushMany b.output b.overflow
  let flushed := b.overflow.length - left.length
  let r := { b with overflow := left }.drain v.chunk flushed s (b.fuel s)
  let settled := { r.body with held := r.body.overflow.length + r.body.current.toList.length }
  match r.stop with
  | none => ⟨.suspended, v, r.body, r.store⟩
  | some (.panicked p) => ⟨.panicked p, v, r.body, r.store⟩
  | some (.failed e) => ⟨.returned (.failed e), v.record r.pushed, settled, r.store⟩
  | some (.ok _) =>
    let outcome : Outcome := if r.pushed > 0 then .success else .comeBackLater
    ⟨.returned outcome, v.record r.pushed, settled, r.store⟩

def pending (b : Split α σ) (s : Store α σ) : Nat := (s.queue b.input).depth + b.held

end Split

end Pipework
