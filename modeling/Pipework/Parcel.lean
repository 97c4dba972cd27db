/-!
# Parcels

What flows through the scripted pipelines and through the checksum pipeline: single numbers, and
blocks of numbers that a split breaks up.
-/

namespace Pipework

/-- A 64-bit number or a block of them. -/
inductive Parcel where
  | number (n : UInt64)
  | block (ns : List UInt64)
  deriving DecidableEq, Repr

namespace Parcel

instance : Inhabited Parcel := ⟨.number 0⟩

/-- The number of a parcel; 0 for a block. -/
def value : Parcel → UInt64
  | .number n => n
  | .block _ => 0

/-- The numbers in a parcel, in order. -/
def values : Parcel → List UInt64
  | .number n => [n]
  | .block ns => ns

end Parcel

end Pipework
