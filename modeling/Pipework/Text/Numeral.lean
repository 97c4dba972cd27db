/-!
# Numerals

Reading whole numbers of a fixed range from text: an optional sign, then decimal digits and nothing
else. Main definitions: `Numeral.Range` (the numbers of a type), `Numeral.read` and the four ways in
which it fails. The text is read from left to right and the first fault decides, so `99999…9x` is
too large before it is malformed.
-/

namespace Pipework.Text.Numeral

/-- The numbers from `least` to `greatest`; a minus sign is understood only where there are negative
ones. -/
structure Range where
  least : Int
  greatest : Int
  deriving DecidableEq, Repr

namespace Range

/-- The unsigned numbers of `bits` bits. -/
def unsigned (bits : Nat) : Range := ⟨0, (1 <<< bits : Nat) - 1⟩

/-- The two's complement numbers of `bits` bits. -/
def signed (bits : Nat) : Range := ⟨-(1 <<< (bits - 1) : Nat), (1 <<< (bits - 1) : Nat) - 1⟩

end Range

/-- Why a text is not a number of the range. -/
inductive Fault where
  | empty
  | invalidDigit
  | tooLarge
  | tooSmall
  deriving DecidableEq, Repr

/-- The wording of a fault. -/
def Fault.message : Fault → String
  | .empty => "cannot parse integer from empty string"
  | .invalidDigit => "invalid digit found in string"
  | .tooLarge => "number too large to fit in target type"
  | .tooSmall => "number too small to fit in target type"

/-- The value of a decimal digit. -/
def digit? (c : Char) : Option Nat :=
  if '0' ≤ c ∧ c ≤ '9' then some (c.toNat - '0'.toNat) else none

/-- Reads digits after the number `n`, which is within the range, counting upwards. -/
def readUp (r : Range) : Int → List Char → Except Fault Int
  | n, [] => .ok n
  | n, c :: cs =>
    match digit? c with
    | none => .error .invalidDigit
    | some d => if r.greatest < 10 * n + d then .error .tooLarge else readUp r (10 * n + d) cs

/-- Reads digits after the number `n`, which is within the range, counting downwards. -/
def readDown (r : Range) : Int → List Char → Except Fault Int
  | n, [] => .ok n
  | n, c :: cs =>
    match digit? c with
    | none => .error .invalidDigit
    | some d => if 10 * n - d < r.least then .error .tooSmall else readDown r (10 * n - d) cs

/-- Reads a number of the range. -/
def readChars (r : Range) : List Char → Except Fault Int
  | [] => .error .empty
  | ['+'] => .error .invalidDigit
  | ['-'] => .error .invalidDigit
  | '+' :: cs => readUp r 0 cs
  | '-' :: cs => if r.least < 0 then readDown r 0 cs else .error .invalidDigit
  | cs => readUp r 0 cs

/-- Reads a number of the range. -/
def read (r : Range) (s : String) : Except Fault Int := readChars r s.toList

/-- Reads an unsigned number of `bits` bits. -/
def readNat (bits : Nat) (s : String) : Except Fault Nat :=
  (read (.unsigned bits) s).map Int.toNat

end Pipework.Text.Numeral
