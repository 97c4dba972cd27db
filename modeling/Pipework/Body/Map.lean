import Pipework.Store

/-!
# Maps

A map applies a function to each parcel of its input queue and pushes the results to its output
queue. It takes no more parcels than the output has room for, so results are left over only if
somebody else fills the output in the meantime; they wait in the *overflow* and go first in the next
call. When the function fails on a parcel that parcel is gone, the results before it are pushed and
the parcels after it go back to the front of the input.
-/

namespace Pipework

/-- A map and its state. -/
structure Map (α σ : Type) where
  apply : α → Store α σ → Reply α × Store α σ
  input : QueueId
  output : QueueId
  overflow : List α := []

namespace Map

variable {α σ : Type}

/-- The results on a batch, in order, up to the first parcel on which the function does not succeed;
its answer; and the parcels after it. -/
structure Applied (α σ : Type) where
  results : List α
  stop : Reply Unit
  rest : List α
  store : Store α σ

/-- Applies the function to each parcel of a batch in order. -/
def applyAll (m : Map α σ) : List α → Store α σ → Applied α σ
  | [], s => ⟨[], .ok (), [], s⟩
  | a :: batch, s =>
    match m.apply a s with
    | (.ok b, s) =>
      let r := m.applyAll batch s
      { r with results := b :: r.results }
    | (.failed e, s) => ⟨[], .failed e, batch, s⟩
    | (.panicked p, s) => ⟨[], .panicked p, batch, s⟩

/-- Success if something was moved, and otherwise a wish to be called later. -/
def movedOutcome (moved : Nat) : Outcome := if moved > 0 then .success else .comeBackLater

/-- Handles a batch that has been taken from the input. -/
def handle (m : Map α σ) (v : Visit) (batch : List α) (s : Store α σ) : Run (Map α σ) α σ :=
  let r := m.applyAll batch s
  match r.stop with
  | .panicked p => ⟨.panicked p, v, m, r.store⟩
  | .ok _ =>
    let (left, s) := r.store.pushMany m.output r.results
    ⟨.returned .success, v.record r.results.length, { m with overflow := m.overflow ++ left }, s⟩
  | .failed e =>
    let (left, s) := r.store.pushMany m.output r.results
    ⟨.returned (.failed e), v.record r.results.length, { m with overflow := m.overflow ++ left },
      s.requeue m.input r.rest⟩

/-- One call: the overflow is pushed first, and only if all of it finds room a batch is taken. -/
def execute (m : Map α σ) (v : Visit) (s : Store α σ) : Run (Map α σ) α σ :=
  let (left, s) := s.pushMany m.output m.overflow
  let flushed := m.overflow.length - left.length
  let m := { m with overflow := left }
  if left.isEmpty then
    let budget := min v.chunk (s.queue m.output).free
    if reserveLimit ≤ budget then ⟨.panicked reservePanic, v, m, s⟩
    else
      match s.popMany m.input budget with
      | ([], s) => ⟨.returned (movedOutcome flushed), v, m, s⟩
      | (batch, s) => m.handle v batch s
  else ⟨.returned (movedOutcome flushed), v, m, s⟩

def pending (m : Map α σ) (s : Store α σ) : Nat := (s.queue m.input).depth + m.overflow.length

end Map

end Pipework
