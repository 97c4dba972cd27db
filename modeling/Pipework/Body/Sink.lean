import Pipework.Store

/-!
# Sinks

A sink takes parcels from its input queue and shows each to its processors in order; then the parcel
goes back to the pool, if there is one. When a processor fails on a parcel that parcel is gone,
though its place in the pool is free again, and the parcels after it go back to the front of the
input.
-/

namespace Pipework

/-- A consumer of parcels. -/
structure Processor (α σ : Type) where
  process : α → Store α σ → Reply Unit × Store α σ
  finish : Store α σ → Reply Unit × Store α σ := fun s => (.ok (), s)

/-- A sink and its state. -/
structure Sink (α σ : Type) where
  processors : List (Processor α σ)
  input : QueueId
  pool : Option PoolId := none
  /-- How many parcels every processor has accepted. -/
  consumed : UInt64 := 0

namespace Sink

variable {α σ : Type}

/-- Shows a parcel to processors in order, until one does not accept it. -/
def show? (a : α) : List (Processor α σ) → Store α σ → Reply Unit × Store α σ
  | [], s => (.ok (), s)
  | p :: ps, s =>
    match p.process a s with
    | (.ok _, s) => show? a ps s
    | r => r

/-- Gives a parcel back to the pool of the sink. -/
def retire (b : Sink α σ) (a : α) (s : Store α σ) : Store α σ :=
  match b.pool with
  | some i => s.release i a
  | none => s

/-- Handles a batch that has been taken from the input. -/
def handle (b : Sink α σ) (v : Visit) : List α → Store α σ → Run (Sink α σ) α σ
  | [], s => ⟨.returned .success, v, b, s⟩
  | a :: batch, s =>
    match show? a b.processors s with
    | (.ok _, s) => { b with consumed := b.consumed + 1 }.handle (v.record 1) batch (b.retire a s)
    | (.failed e, s) => ⟨.returned (.failed e), v, b, (b.retire a s).requeue b.input batch⟩
    | (.panicked p, s) => ⟨.panicked p, v, b, s⟩

/-- One call: a batch of at most the chunk of the visit. -/
def execute (b : Sink α σ) (v : Visit) (s : Store α σ) : Run (Sink α σ) α σ :=
  if reserveLimit ≤ v.chunk then ⟨.panicked reservePanic, v, b, s⟩
  else
    match s.popMany b.input v.chunk with
    | ([], s) => ⟨.returned .comeBackLater, v, b, s⟩
    | (batch, s) => b.handle v batch s

/-- Lets processors finish in order, until one does not succeed. -/
def finishAll : List (Processor α σ) → Store α σ → Reply Unit × Store α σ
  | [], s => (.ok (), s)
  | p :: ps, s =>
    match p.finish s with
    | (.ok _, s) => finishAll ps s
    | r => r

def closing (b : Sink α σ) (s : Store α σ) : Reply Unit × Store α σ := finishAll b.processors s

def pending (b : Sink α σ) (s : Store α σ) : Nat := (s.queue b.input).depth

/-- The sink as descriptions show it. -/
def describe (b : Sink α σ) (s : Store α σ) : String :=
  "SinkStage \x7b input: " ++ Text.quote (s.queue b.input).name ++
    ", processors: " ++ toString b.processors.length ++
    ", pooled: " ++ Text.truth b.pool.isSome ++
    ", consumed: " ++ toString b.consumed.toNat ++ " \x7d"

end Sink

end Pipework
