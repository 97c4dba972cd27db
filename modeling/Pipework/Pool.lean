/-!
# Pools of reusable parcels

A pool lends parcels and takes them back, so that the number of parcels under way can be bounded. It
starts with `capacity` parcels. With the limit on, nothing is lent while none is free; with the
limit off a missing parcel is made. A parcel that comes back is reset, and kept as long as fewer
than `capacity` are free.
-/

namespace Pipework

/-- A pool of parcels; the one given back last is lent first. -/
structure Pool (α : Type) where
  name : String := ""
  capacity : Nat
  limited : Bool
  /-- The parcel that is made as number `n`, counted from 0. -/
  make : Nat → α
  /-- What is done to a parcel that comes back. -/
  reset : α → α := id
  /-- How many parcels have been made. -/
  made : Nat
  free : List α
  inUse : Nat := 0

namespace Pool

variable {α : Type}

/-- A pool filled to its capacity. -/
def filled (name : String) (capacity : Nat) (limited : Bool) (make : Nat → α) (reset : α → α) :
    Pool α :=
  { name, capacity, limited, make, reset, made := capacity,
    free := (List.range capacity).reverse.map make }

/-- How many parcels lie ready. -/
def available (p : Pool α) : Nat := p.free.length

/-- Lends a parcel; none, if the pool is limited and empty. -/
def acquire (p : Pool α) : Option α × Pool α :=
  match p.free with
  | a :: rest => (some a, { p with free := rest, inUse := p.inUse + 1 })
  | [] =>
    if p.limited then (none, p)
    else (some (p.make p.made), { p with made := p.made + 1, inUse := p.inUse + 1 })

/-- Takes a parcel back and says whether it was kept. -/
def release (p : Pool α) (a : α) : Bool × Pool α :=
  if p.capacity ≤ p.available then (false, { p with inUse := p.inUse - 1 })
  else (true, { p with free := p.reset a :: p.free, inUse := p.inUse - 1 })

/-- The pool as descriptions show it. -/
def describe (p : Pool α) : String :=
  "ItemPool \x7b capacity: " ++ toString p.capacity ++ ", limit_in_flight: " ++
    (if p.limited then "true" else "false")
    ++ ", available: " ++ toString p.available ++ ", in_use: " ++ toString p.inUse ++ ", .. \x7d"

end Pool

end Pipework
