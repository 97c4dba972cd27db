import Mathlib
import Pipework.Config.Registry

/-!
# Configurations written into parameters

What a configuration writes into a store of parameters is read back: a number as long as it fits in
the bits that its reader has (`Text.Numeral.readNat_toString`), names and truth values always. A
first wait and a check-in time come back in whole microseconds and milliseconds. Reading fails just
if one of these two does not fit in 64 bits, or nothing is left of the check-in time
(`Config.ofParameters_registered`), and what a user has set stays as it is
(`Config.survives_parameters`).
-/

namespace Pipework

/-! ### Numerals -/

namespace Text.Numeral

theorem digit?_of_isDigit {c : Char} (h : c.isDigit = true) :
    digit? c = some (c.toNat - '0'.toNat) := by
  have range : '0' ≤ c ∧ c ≤ '9' := by simpa [Char.isDigit, Char.le_def] using h
  exact if_pos range

/-- What was read before only grows. -/
theorem le_ofDigitChars (cs : List Char) (n : Nat) : n ≤ Nat.ofDigitChars 10 cs n := by
  rw [Nat.ofDigitChars_eq_ofDigitChars_zero]
  exact Nat.le_trans
    (Nat.le_mul_of_pos_left n (Nat.pow_pos (n := cs.length) (show 0 < 10 by decide)))
    (Nat.le_add_right _ _)

/-- Digits are read in full, or up to where the number is too large. -/
theorem readUp_of_isDigit (r : Range) {cs : List Char} (hcs : ∀ c ∈ cs, c.isDigit = true) {n : Nat}
    (hn : (n : Int) ≤ r.greatest) :
    readUp r n cs =
      if r.greatest < Nat.ofDigitChars 10 cs n then .error .tooLarge
        else .ok (Nat.ofDigitChars 10 cs n : Int) := by
  induction cs generalizing n with
  | nil => simp [readUp, Int.not_lt.2 hn]
  | cons c cs ih =>
    obtain ⟨hc, hcs⟩ := List.forall_mem_cons.1 hcs
    rw [readUp, digit?_of_isDigit hc, Nat.ofDigitChars_cons]
    have next : (10 * (n : Int) + ((c.toNat - '0'.toNat : Nat) : Int)) =
        ((10 * n + (c.toNat - '0'.toNat) : Nat) : Int) := by
      push_cast
      rfl
    simp only [next]
    split
    · next large =>
      have grows := le_ofDigitChars cs (10 * n + (c.toNat - '0'.toNat))
      rw [if_pos (by omega)]
    · next small => exact ih hcs (Int.not_lt.1 small)

theorem readChars_of_isDigit (r : Range) {c : Char} (cs : List Char) (hc : c.isDigit = true) :
    readChars r (c :: cs) = readUp r 0 (c :: cs) := by
  have plus : c ≠ '+' := by
    rintro rfl
    exact absurd hc (by decide)
  have minus : c ≠ '-' := by
    rintro rfl
    exact absurd hc (by decide)
  unfold readChars
  split <;> simp_all

/-- **What is written as a numeral is read back**, unless it is too large. -/
theorem readNat_toString (bits n : Nat) :
    readNat bits (toString n) = if n < 2 ^ bits then .ok n else .error .tooLarge := by
  have digits : ∀ c ∈ Nat.toDigits 10 n, c.isDigit = true :=
    fun c => Nat.isDigit_of_mem_toDigits (by decide) (by decide)
  have greatest : (Range.unsigned bits).greatest = ((2 ^ bits - 1 : Nat) : Int) := by
    rw [Int.natCast_sub Nat.one_le_two_pow, Range.unsigned, Nat.one_shiftLeft]
    rfl
  have zero : ((0 : Nat) : Int) ≤ (Range.unsigned bits).greatest := greatest ▸ Int.natCast_nonneg _
  have value := readUp_of_isDigit (.unsigned bits) digits zero
  rw [Nat.ofDigitChars_ten_toDigits, greatest] at value
  have chars : readChars (.unsigned bits) (Nat.toDigits 10 n) =
      readUp (.unsigned bits) 0 (Nat.toDigits 10 n) := by
    obtain ⟨c, cs, hcs⟩ := List.exists_cons_of_ne_nil (Nat.toDigits_ne_nil (n := n) (b := 10))
    rw [hcs] at digits ⊢
    exact readChars_of_isDigit _ cs (digits c List.mem_cons_self)
  rw [readNat, read, Nat.toString_eq_ofList_toDigits, String.toList_ofList, chars]
  rw [show (0 : Int) = ((0 : Nat) : Int) from rfl, value]
  have positive : 0 < 2 ^ bits := Nat.two_pow_pos bits
  by_cases h : n < 2 ^ bits
  · rw [if_neg (by omega), if_pos h]
    rfl
  · rw [if_pos (by omega), if_neg h]
    rfl

end Text.Numeral

/-! ### Stores -/

namespace Parameters

theorem natural_toString {bits n : Nat} (h : n < 2 ^ bits) : natural bits (toString n) = .ok n := by
  rw [natural, Text.Numeral.readNat_toString, if_pos h]
  rfl

theorem natural_toString_of_le {bits n : Nat} (h : 2 ^ bits ≤ n) :
    natural bits (toString n) = .error Text.Numeral.Fault.tooLarge.message := by
  rw [natural, Text.Numeral.readNat_toString, if_neg (Nat.not_lt.2 h)]
  rfl

theorem truth_text (b : Bool) : truth (Text.truth b) = .ok b := by cases b <;> rfl

/-- A default is looked up where nothing was set before. -/
theorem get?_setDefault (p : Parameters) (key value k : String) :
    (p.setDefault key value).get? k = (p.get? k).or ([(key, value)].lookup k) := by
  unfold setDefault
  split
  · next h =>
    obtain ⟨v, hv⟩ := Option.isSome_iff_exists.1 h
    by_cases hk : k = key
    · rw [hk, hv, Option.some_or]
    · simp [List.lookup, beq_false_of_ne hk]
  · next h =>
    rw [set, if_neg h]
    exact List.lookup_append

theorem get?_setDefaults (es : List (String × String)) (p : Parameters) (k : String) :
    (es.foldl (fun p e => p.setDefault e.1 e.2) p).get? k = (p.get? k).or (es.lookup k) := by
  induction es generalizing p with
  | nil => exact (Option.or_none).symm
  | cons e es ih =>
    rw [List.foldl_cons, ih, get?_setDefault, Option.or_assoc, ← List.lookup_append]
    rfl

end Parameters

/-! ### Durations in whole units -/

namespace Duration

/-- A duration without what is left over of a unit. -/
def whole (d : Duration) (unit : Nat) : Duration :=
  ⟨d.nanos / unit * unit, Nat.lt_of_le_of_lt (Nat.div_mul_le_self _ _) d.nanos_lt⟩

theorem ofMicros_micros (d : Duration) : ofMicros d.micros = d.whole 1000 :=
  dif_pos (d.whole 1000).nanos_lt

theorem ofMillis_millis (d : Duration) : ofMillis d.millis = d.whole 1000000 :=
  dif_pos (d.whole 1000000).nanos_lt

end Duration

/-! ### Names -/

theorem Strategy.parse_text (s : Strategy) : Strategy.parse s.text = .ok s := by cases s <;> cbv

theorem Fairness.parse_text (f : Fairness) :
    Fairness.parse f.text =
      .ok (match f with | .sticky _ => standard | .roundRobin => .roundRobin) := by
  cases f <;> cbv

/-! ### Configurations -/

namespace Config

/-- Every number of a configuration fits in the bits that are there for it. -/
structure Fits (c : Config) : Prop where
  workers : c.workers < 2 ^ 64
  chunk : c.chunk < 2 ^ 64
  tries : c.tries < 2 ^ 32
  queueThreshold : c.queueThreshold < 2 ^ 64
  streak : ∀ n, c.fairness = .sticky n → n < 2 ^ 32
  locations : c.locations < 2 ^ 64
  poolSize : c.poolSize < 2 ^ 64
  stallMultiple : c.stallMultiple < 2 ^ 32

variable {c defaults : Config}

/-- A parameter that a user has set keeps its value, and the others get those of the
configuration. -/
theorem get?_registerDefaults (c : Config) (p : Parameters) (key : String) :
    (c.registerDefaults p).get? key = (p.get? key).or (c.toEntries.lookup key) :=
  Parameters.get?_setDefaults c.toEntries p key

theorem get?_registered (c : Config) (key : String) :
    (c.registerDefaults .empty).get? key = c.toEntries.lookup key :=
  get?_registerDefaults c .empty key

section Registered

variable {key raw : String}

theorem parse_registered {β : Type} {read : String → Except String β} {v : β}
    (h : c.toEntries.lookup key = some raw) (hread : read raw = .ok v) :
    (c.registerDefaults .empty).parse read key = .ok (some v) := by
  rw [Parameters.parse, get?_registered, h]
  simp only [hread]

theorem parse_registered_of_error {β : Type} {read : String → Except String β} {reason : String}
    (h : c.toEntries.lookup key = some raw) (hread : read raw = .error reason) :
    (c.registerDefaults .empty).parse read key = .error (.invalidValue key raw reason) := by
  rw [Parameters.parse, get?_registered, h]
  simp only [hread]

/-- The name of the policy and the length of a streak are two parameters, the second of which is not
there for every policy. -/
theorem fairnessOf_registered (hc : c.Fits) (standard : Fairness) :
    fairnessOf (c.registerDefaults .empty) standard = .ok c.fairness := by
  have policy : (c.registerDefaults .empty).parse Fairness.parse Key.fairness = .ok (some _) :=
    parse_registered rfl c.fairness.parse_text
  unfold fairnessOf
  rw [policy]
  cases hf : c.fairness with
  | sticky n =>
    have streak : (c.registerDefaults .empty).parse (Parameters.natural 32) Key.stickyStreak =
        .ok (some n) :=
      parse_registered (by rw [toEntries, hf]; rfl) (Parameters.natural_toString (hc.streak n hf))
    rw [streak]
    rfl
  | roundRobin =>
    have streak : (c.registerDefaults .empty).parse (Parameters.natural 32) Key.stickyStreak =
        .ok none := by
      rw [Parameters.parse, get?_registered, toEntries, hf]
      rfl
    rw [streak]
    rfl

end Registered

/-- The configuration as it comes back: the first wait in whole microseconds, the check-in time in
whole milliseconds. -/
def rounded (c : Config) : Config :=
  { c with firstWait := c.firstWait.whole 1000, checkin := c.checkin.whole 1000000 }

/-- What has to be true of a configuration that can be used. -/
theorem validate_eq_ok_iff (c : Config) :
    c.validate = .ok () ↔
      c.workers ≠ 0 ∧ c.chunk ≠ 0 ∧ c.queueThreshold ≠ 0 ∧ c.locations ≠ 0 ∧
        ¬ (c.limitInFlight = true ∧ c.poolSize = 0) ∧
        c.stallMultiple ≠ 0 ∧ ¬ c.checkin.isZero = true ∧ c.fairness ≠ .sticky 0 := by
  unfold validate complaint
  split_ifs <;> simp_all

/-- What is left of a check-in time may be nothing. -/
theorem validate_rounded (hv : c.validate = .ok ()) :
    c.rounded.validate = if c.checkin.millis = 0 then .error (.invalid "checkin_time must be > 0")
      else .ok () := by
  have nothing : (c.checkin.whole 1000000).isZero = true ↔ c.checkin.millis = 0 := by
    simp only [Duration.whole, Duration.isZero, Duration.millis, beq_iff_eq]
    omega
  obtain ⟨workers, chunk, queueThreshold, locations, pool, stallMultiple, -, fairness⟩ :=
    (validate_eq_ok_iff c).1 hv
  unfold validate complaint rounded
  rw [if_neg workers, if_neg chunk, if_neg queueThreshold, if_neg locations, if_neg pool,
    if_neg stallMultiple]
  by_cases hmillis : c.checkin.millis = 0
  · rw [if_pos (nothing.2 hmillis), if_pos hmillis]
  · rw [if_neg (mt nothing.1 hmillis), if_neg fairness, if_neg hmillis]

/-- **What comes back.** The first of two numbers that does not fit is complained about, and then a
check-in time of which nothing is left. -/
theorem ofParameters_registered (hc : c.Fits) (hv : c.validate = .ok ()) :
    ofParameters defaults (c.registerDefaults .empty) =
      if c.firstWait.micros < 2 ^ 64 then
        if c.checkin.millis < 2 ^ 64 then
          if c.checkin.millis = 0 then .error (.invalid "checkin_time must be > 0")
            else .ok c.rounded
        else .error (.invalidValue Key.checkin (toString c.checkin.millis)
          Text.Numeral.Fault.tooLarge.message)
      else .error (.invalidValue Key.firstWait (toString c.firstWait.micros)
        Text.Numeral.Fault.tooLarge.message) := by
  have number {bits n : Nat} {key : String} (h : n < 2 ^ bits)
      (hkey : c.toEntries.lookup key = some (toString n)) :
      (c.registerDefaults .empty).parse (Parameters.natural bits) key = .ok (some n) :=
    parse_registered hkey (Parameters.natural_toString h)
  have tooLarge {n : Nat} {key : String} (h : ¬ n < 2 ^ 64)
      (hkey : c.toEntries.lookup key = some (toString n)) :
      (c.registerDefaults .empty).parse (Parameters.natural 64) key =
        .error (.invalidValue key (toString n) Text.Numeral.Fault.tooLarge.message) :=
    parse_registered_of_error hkey (Parameters.natural_toString_of_le (Nat.not_lt.1 h))
  have strategy : (c.registerDefaults .empty).parse Strategy.parse Key.strategy =
      .ok (some c.strategy) :=
    parse_registered rfl c.strategy.parse_text
  have limit : (c.registerDefaults .empty).parse Parameters.truth Key.limitInFlight =
      .ok (some c.limitInFlight) :=
    parse_registered rfl (Parameters.truth_text _)
  unfold ofParameters
  rw [fairnessOf_registered hc, strategy, number hc.workers rfl, number hc.chunk rfl]
  by_cases hfirst : c.firstWait.micros < 2 ^ 64
  · rw [if_pos hfirst, number hfirst rfl]
    by_cases hcheckin : c.checkin.millis < 2 ^ 64
    · rw [if_pos hcheckin, number hcheckin rfl, number hc.tries rfl, number hc.queueThreshold rfl,
        number hc.locations rfl, limit, number hc.poolSize rfl, number hc.stallMultiple rfl]
      have read : (do c.rounded.validate; pure c.rounded) =
          if c.checkin.millis = 0 then .error (.invalid "checkin_time must be > 0")
            else .ok c.rounded := by
        rw [validate_rounded hv]
        split <;> rfl
      rw [← read, rounded, ← Duration.ofMicros_micros, ← Duration.ofMillis_millis]
      rfl
    · rw [if_neg hcheckin, tooLarge hcheckin rfl]
      rfl
  · rw [if_neg hfirst, tooLarge hfirst rfl]
    rfl

/-- **A configuration survives the parameters.** Write a configuration that can be used, and whose
numbers fit, into an empty store. It is read back just if its check-in time is at least one
millisecond and has no more whole milliseconds, and its first wait no more whole microseconds, than
fit in 64 bits; and what is read is the same configuration, except that the first wait is cut to
whole microseconds and the check-in time to whole milliseconds. Whatever store it is written into, a
parameter that was set before keeps its value. -/
theorem survives_parameters (hc : c.Fits) (hv : c.validate = .ok ()) (defaults : Config) :
    ((∃ d, ofParameters defaults (c.registerDefaults .empty) = .ok d) ↔
      1000000 ≤ c.checkin.nanos ∧ c.checkin.millis < 2 ^ 64 ∧ c.firstWait.micros < 2 ^ 64) ∧
    (∀ d, ofParameters defaults (c.registerDefaults .empty) = .ok d →
      d = { c with firstWait := c.firstWait.whole 1000, checkin := c.checkin.whole 1000000 }) ∧
    ∀ (p : Parameters) (key value : String), p.get? key = some value →
      (c.registerDefaults p).get? key = some value := by
  have left : c.checkin.millis = 0 ↔ ¬ 1000000 ≤ c.checkin.nanos := by
    unfold Duration.millis
    omega
  rw [ofParameters_registered hc hv]
  refine ⟨?_, fun d hd => ?_, fun p key value h => ?_⟩
  · constructor
    · rintro ⟨d, hd⟩
      split_ifs at hd with hfirst hcheckin hzero
      exact ⟨Decidable.of_not_not fun hshort => hzero (left.2 hshort), hcheckin, hfirst⟩
    · rintro ⟨hlong, hcheckin, hfirst⟩
      rw [if_pos hfirst, if_pos hcheckin, if_neg fun hzero => left.1 hzero hlong]
      exact ⟨_, rfl⟩
  · split_ifs at hd
    cases hd
    rfl
  · rw [get?_registerDefaults, h, Option.some_or]

/-- A configuration with the largest numbers, a first wait that is not in whole microseconds and a
check-in time that is not in whole milliseconds. -/
def uneven : Config where
  workers := 2 ^ 64 - 1
  chunk := 2 ^ 64 - 1
  strategy := .linear
  firstWait := ⟨2 ^ 64 * 1000 - 1, by decide⟩
  checkin := ⟨2 ^ 64 * 1000000 - 1, by decide⟩
  tries := 2 ^ 32 - 1
  queueThreshold := 1
  fairness := .sticky (2 ^ 32 - 1)
  locations := 7
  limitInFlight := false
  poolSize := 0
  stallMultiple := 2 ^ 32 - 1

theorem fits_uneven : uneven.Fits :=
  ⟨by decide, by decide, by decide, by decide,
    fun n hn => by cases hn; decide, by decide, by decide, by decide⟩

theorem survives_parameters_uneven :
    uneven.Fits ∧ uneven.validate = .ok () ∧
      ofParameters { workers := 1 } (uneven.registerDefaults .empty) =
        .ok { uneven with firstWait := .ofMicros (2 ^ 64 - 1), checkin := .ofMillis (2 ^ 64 - 1) } ∧
      (uneven.registerDefaults ⟨[(Key.chunk, "7")]⟩).get? Key.chunk = some "7" := by
  have valid : uneven.validate = .ok () := rfl
  obtain ⟨succeeds, back, keeps⟩ := survives_parameters fits_uneven valid { workers := 1 }
  obtain ⟨d, hd⟩ := succeeds.2 (by decide)
  refine ⟨fits_uneven, valid, ?_, keeps _ _ _ rfl⟩
  rw [hd, back d hd, show uneven.firstWait.whole 1000 = .ofMicros (2 ^ 64 - 1) by decide,
    show uneven.checkin.whole 1000000 = .ofMillis (2 ^ 64 - 1) by decide]

end Config

end Pipework
