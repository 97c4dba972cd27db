/-!
# Durations

Spans of time as whole numbers of nanoseconds below `2^64` seconds, which is what a 64-bit count of
seconds and a fraction can hold. Sums and multiples that would leave this range stop at its end,
`Duration.max`; so `(d.times k).nanos = min (d.nanos * k) Duration.max.nanos`.
-/

namespace Pipework

/-- One more than the largest number of nanoseconds in a duration. -/
abbrev Duration.limit : Nat := (1 <<< 64) * 1000000000

/-- A span of time: a number of nanoseconds below `2^64` seconds. -/
structure Duration where
  nanos : Nat
  nanos_lt : nanos < Duration.limit := by decide
  deriving DecidableEq

namespace Duration

/-- No time at all. -/
def zero : Duration := ⟨0, by decide⟩

/-- The longest duration. -/
def max : Duration := ⟨limit - 1, by decide⟩

instance : Inhabited Duration := ⟨zero⟩

/-- The duration of `n` nanoseconds, or the longest one if that is too many. -/
def clip (n : Nat) : Duration := if h : n < limit then ⟨n, h⟩ else max

/-- A number of seconds and a number of nanoseconds together. -/
def ofParts (seconds nanos : Nat) : Duration := clip (seconds * 1000000000 + nanos)

def ofMicros (n : Nat) : Duration := clip (n * 1000)

def ofMillis (n : Nat) : Duration := clip (n * 1000000)

/-- The whole seconds of a duration. -/
def seconds (d : Duration) : Nat := d.nanos / 1000000000

/-- The nanoseconds of a duration beyond its whole seconds. -/
def subsecNanos (d : Duration) : Nat := d.nanos % 1000000000

/-- The whole microseconds of a duration. -/
def micros (d : Duration) : Nat := d.nanos / 1000

/-- The whole milliseconds of a duration. -/
def millis (d : Duration) : Nat := d.nanos / 1000000

def isZero (d : Duration) : Bool := d.nanos == 0

/-- `k` times a duration, stopping at the longest one. -/
def times (d : Duration) (k : Nat) : Duration := clip (d.nanos * k)

/-- The shorter of two durations. -/
def min (d e : Duration) : Duration := if d.nanos ≤ e.nanos then d else e

/-- A duration in seconds, as a double: the whole seconds plus the rest, each rounded to nearest. -/
def toSeconds (d : Duration) : Float :=
  d.seconds.toUInt64.toFloat + d.subsecNanos.toUInt64.toFloat / 1e9

theorem nanos_clip (n : Nat) : (clip n).nanos = Min.min n max.nanos := by
  unfold clip
  split
  · next h => exact (Nat.min_eq_left (Nat.le_sub_one_of_lt h)).symm
  · next h => exact (Nat.min_eq_right (Nat.le_trans (Nat.sub_le _ _) (Nat.le_of_not_lt h))).symm

theorem nanos_times (d : Duration) (k : Nat) :
    (d.times k).nanos = Min.min (d.nanos * k) max.nanos :=
  nanos_clip _

theorem nanos_min (d e : Duration) : (d.min e).nanos = Min.min d.nanos e.nanos := by
  unfold min
  split <;> omega

/-! ### Text -/

/-- The `width` lowest decimal digits of `n`, without the zeros at the end. -/
def fractionDigits (width n : Nat) : List Char :=
  let digits := Nat.toDigits 10 n
  let padded := List.replicate (width - digits.length) '0' ++ digits
  (padded.reverse.dropWhile (· == '0')).reverse

/-- A whole number and a fraction of `width` digits, with a point only before a fraction that is not
zero. -/
def decimalText (whole width fraction : Nat) : String :=
  match fractionDigits width fraction with
  | [] => toString whole
  | ds => toString whole ++ "." ++ String.ofList ds

/-- A duration in the largest unit of `s`, `ms`, `µs` and `ns` in which it has a whole part, with
every digit. -/
def text (d : Duration) : String :=
  if d.nanos ≥ 1000000000 then decimalText d.seconds 9 d.subsecNanos ++ "s"
  else if d.nanos ≥ 1000000 then decimalText d.millis 6 (d.nanos % 1000000) ++ "ms"
  else if d.nanos ≥ 1000 then decimalText d.micros 3 (d.nanos % 1000) ++ "µs"
  else decimalText d.nanos 0 0 ++ "ns"

end Duration

end Pipework
