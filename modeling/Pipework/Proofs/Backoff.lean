import Mathlib.Algebra.GroupWithZero.Nat
import Mathlib.Data.List.Induction
import Mathlib.Data.List.Range
import Mathlib.Order.Monotone.Basic
import Pipework.Backoff

/-!
# The schedule of a backoff

How long the waits of a backoff are, and how many there are. The wait number `n` is `Knobs.wait n`
nanoseconds long: a multiple of the first wait that stops at the longest duration and is cut off at
the check-in time, and never less than the wait before it. Whatever is asked of a backoff, since the
last reset it has granted the first waits of this schedule, as many as the knobs allow, and none
after them (`Backoff.schedule`).
-/

namespace Pipework

/-! ### Multiples of a duration -/

namespace Duration

/-- `k` times a duration, with seconds and nanoseconds multiplied apart: what the nanoseconds make
up in whole seconds is carried over, and if the seconds no longer fit in 64 bits the longest
duration is taken. -/
def timesCarrying (d : Duration) (k : Nat) : Duration :=
  let fraction := d.subsecNanos * k
  let seconds := d.seconds * k + fraction / 1000000000
  if h : seconds < 1 <<< 64 then
    ⟨seconds * 1000000000 + fraction % 1000000000, by
      simp only [limit, Nat.shiftLeft_eq] at h ⊢; omega⟩
  else max

/-- Nothing is lost by multiplying the parts. -/
theorem times_eq_timesCarrying (d : Duration) (k : Nat) : d.times k = d.timesCarrying k := by
  have parts : d.nanos * k = 1000000000 * (d.seconds * k) + d.subsecNanos * k := by
    rw [← Nat.mul_assoc, ← Nat.add_mul, seconds, subsecNanos, Nat.div_add_mod]
  have carry : d.nanos * k =
      (d.seconds * k + d.subsecNanos * k / 1000000000) * 1000000000 +
        d.subsecNanos * k % 1000000000 := by
    omega
  have fits : d.nanos * k < limit ↔ d.seconds * k + d.subsecNanos * k / 1000000000 < 1 <<< 64 := by
    simp only [limit, Nat.shiftLeft_eq]
    omega
  unfold times timesCarrying clip
  by_cases h : d.nanos * k < limit
  · simp only [dif_pos h, dif_pos (fits.1 h), ← carry]
  · simp only [dif_neg h, dif_neg (mt fits.2 h)]

end Duration

/-! ### The wait before an attempt -/

/-- How many first waits the wait number `n` comes to, before it is cut off. -/
def Strategy.growth : Strategy → Nat → Nat
  | .constant, _ => 1
  | .linear, n => n
  | .exponential, n => min (2 ^ (n - 1)) (2 ^ 32 - 1)

theorem Strategy.factor_eq_growth (s : Strategy) (n : Nat) : s.factor n = s.growth n := by
  cases s with
  | constant => rfl
  | linear => rfl
  | exponential =>
    simp only [factor, growth, Nat.one_shiftLeft]
    split
    · next h =>
      have small : 2 ^ (n - 1) ≤ 2 ^ 31 := Nat.pow_le_pow_right (by decide) (by omega)
      omega
    · next h =>
      have large : 2 ^ 32 ≤ 2 ^ (n - 1) := Nat.pow_le_pow_right (by decide) (by omega)
      omega

theorem Strategy.growth_mono (s : Strategy) : Monotone s.growth := by
  intro m n h
  cases s with
  | constant => exact Nat.le_refl 1
  | linear => exact h
  | exponential =>
    have power : 2 ^ (m - 1) ≤ 2 ^ (n - 1) := Nat.pow_le_pow_right (by decide) (by omega)
    simp only [growth]
    omega

/-- The nanoseconds of the wait number `n`, counted from 1. -/
def Knobs.wait (k : Knobs) (n : Nat) : Nat :=
  let uncut := min (k.firstWait.nanos * k.strategy.growth n) Duration.max.nanos
  if k.checkin.nanos = 0 then uncut else min k.checkin.nanos uncut

theorem Knobs.wait_mono (k : Knobs) : Monotone k.wait := by
  intro m n h
  have grows : k.firstWait.nanos * k.strategy.growth m ≤ k.firstWait.nanos * k.strategy.growth n :=
    Nat.mul_le_mul_left _ (k.strategy.growth_mono h)
  simp only [wait]
  split <;> omega

theorem Knobs.wait_le_checkin (k : Knobs) (hk : k.checkin.nanos ≠ 0) (n : Nat) :
    k.wait n ≤ k.checkin.nanos := by
  unfold wait
  rw [if_neg hk]
  exact Nat.min_le_left _ _

namespace Backoff

theorem nanos_wait (stage : Nat) (k : Knobs) {n : Nat} (hn : 1 ≤ n) :
    ((start stage k).wait n).nanos = k.wait n := by
  have uncut : (k.strategy.delay k.firstWait n).nanos =
      min (k.firstWait.nanos * k.strategy.growth n) Duration.max.nanos := by
    rw [Strategy.delay, Nat.max_eq_left hn, Duration.nanos_times, Strategy.factor_eq_growth]
  unfold wait Knobs.wait
  by_cases h : k.checkin.nanos = 0
  · simp [start, Duration.isZero, h, uncut]
  · simp [start, Duration.isZero, h, Duration.nanos_min, uncut, Nat.min_comm]

/-! ### Whatever is asked -/

/-- What can be asked of a backoff. -/
inductive Ask where
  | next
  | reset

/-- A backoff, and what it has answered since the last reset. -/
structure Course where
  state : Backoff
  answers : List (Option Duration) := []

def Course.after (c : Course) : Ask → Course
  | .next => { state := c.state.next.2, answers := c.answers ++ [c.state.next.1] }
  | .reset => { state := c.state.reset }

/-- A fresh backoff of which one thing after the other is asked. -/
def course (stage : Nat) (k : Knobs) (asks : List Ask) : Course :=
  asks.foldl Course.after { state := start stage k }

/-- The backoff of a stage that has granted some waits: it remembers how many they were, and the
last of them. -/
def past (stage : Nat) (k : Knobs) (waits : List Duration) : Backoff :=
  { start stage k with attempt := waits.length, lastWait := waits.getLast?.getD .zero }

theorem next_past_of_lt {stage : Nat} {k : Knobs} {waits : List Duration}
    (h : waits.length < k.tries) :
    (past stage k waits).next =
      (some ((start stage k).wait (waits.length + 1)),
        past stage k (waits ++ [(start stage k).wait (waits.length + 1)])) := by
  have left : ¬ (past stage k waits).tries ≤ (past stage k waits).attempt := Nat.not_le.2 h
  unfold Backoff.next
  rw [if_neg left]
  simp only [past, List.length_append, List.length_singleton, List.getLast?_concat,
    Option.getD_some]
  rfl

theorem next_past_of_le {stage : Nat} {k : Knobs} {waits : List Duration}
    (h : k.tries ≤ waits.length) :
    (past stage k waits).next = (none, past stage k waits) := if_pos h

/-- The answers are waits of the schedule as long as there are any left and nothing from then on. -/
structure Keeps (stage : Nat) (k : Knobs) (waits : List Duration) (c : Course) : Prop where
  answers : c.answers = waits.map some ++ List.replicate (c.answers.length - k.tries) none
  length : waits.length = min k.tries c.answers.length
  nanos : waits.map (·.nanos) = (List.range waits.length).map fun i => k.wait (i + 1)
  state : c.state = past stage k waits

namespace Keeps

variable {stage : Nat} {k : Knobs} {waits : List Duration} {c : Course}

theorem fresh (stage : Nat) (k : Knobs) : Keeps stage k [] { state := start stage k } :=
  ⟨by simp, by simp, rfl, rfl⟩

/-- If there is a wait left all answers so far were waits, and the next one is the next of the
schedule. -/
theorem next_of_lt (h : Keeps stage k waits c) (hlt : waits.length < k.tries) :
    Keeps stage k (waits ++ [(start stage k).wait (waits.length + 1)]) (c.after .next) := by
  have granted : c.answers.length = waits.length := by have := h.length; omega
  have answers : c.answers = waits.map some := by
    have hanswers := h.answers
    rwa [show c.answers.length - k.tries = 0 by omega, List.replicate_zero, List.append_nil]
      at hanswers
  rw [Course.after, h.state, next_past_of_lt hlt]
  refine ⟨?_, ?_, ?_, rfl⟩
  · rw [answers, List.length_append, List.length_map, List.length_singleton,
      show waits.length + 1 - k.tries = 0 by omega,
        List.replicate_zero, List.append_nil, List.map_append, List.map_singleton]
  · rw [List.length_append, List.length_append, List.length_singleton,
      List.length_singleton, granted]
    omega
  · rw [List.map_append, h.nanos, List.length_append, List.length_singleton, List.range_succ,
      List.map_append, List.map_singleton, List.map_singleton,
      nanos_wait stage k (Nat.le_add_left 1 _)]

/-- If there is none left nothing is granted, and nothing changes. -/
theorem next_of_le (h : Keeps stage k waits c) (hle : k.tries ≤ waits.length) :
    Keeps stage k waits (c.after .next) := by
  have hlength := h.length
  rw [Course.after, h.state, next_past_of_le hle]
  refine ⟨?_, ?_, h.nanos, rfl⟩
  · rw [List.length_append, List.length_singleton,
      show c.answers.length + 1 - k.tries = (c.answers.length - k.tries) + 1 by omega,
        List.replicate_succ',
      ← List.append_assoc, ← h.answers]
  · rw [List.length_append, List.length_singleton]
    omega

theorem after (h : Keeps stage k waits c) (a : Ask) :
    ∃ waits', Keeps stage k waits' (c.after a) := by
  cases a with
  | reset =>
    have anew : c.after .reset = { state := start stage k } := by rw [Course.after, h.state]; rfl
    exact ⟨[], anew ▸ fresh stage k⟩
  | next =>
    rcases Nat.lt_or_ge waits.length k.tries with hlt | hle
    · exact ⟨_, h.next_of_lt hlt⟩
    · exact ⟨waits, h.next_of_le hle⟩

theorem course (stage : Nat) (k : Knobs) (asks : List Ask) :
    ∃ waits, Keeps stage k waits (course stage k asks) := by
  induction asks using List.reverseRecOn with
  | nil => exact ⟨[], fresh stage k⟩
  | append_singleton asks a ih =>
    obtain ⟨waits, keeps⟩ := ih
    rw [Backoff.course, List.foldl_concat]
    exact keeps.after a

end Keeps

/-- **A backoff follows its schedule.** Ask a fresh backoff for waits and reset it, in any order.
Since the last reset it has granted a wait as often as it was asked for one, but no more often than
the knobs allow, and after that nothing; the wait number `i + 1` is that of the schedule, to the
nanosecond. So no wait is shorter than the one before or longer than a check-in time that is not
zero. The backoff counts the waits and remembers the last, and it is exhausted just if the next
thing it would grant is nothing. -/
theorem schedule (stage : Nat) (k : Knobs) (asks : List Ask) :
    let c := course stage k asks
    ∃ waits : List Duration,
      c.answers = waits.map some ++ List.replicate (c.answers.length - k.tries) none ∧
      waits.length = min k.tries c.answers.length ∧
      (∀ i (hi : i < waits.length), waits[i].nanos = k.wait (i + 1)) ∧
      waits.Pairwise (fun d e => d.nanos ≤ e.nanos) ∧
      (∀ d ∈ waits, k.checkin.nanos ≠ 0 → d.nanos ≤ k.checkin.nanos) ∧
      c.state.attempt = waits.length ∧ c.state.attempt ≤ k.tries ∧
      (c.state.exhausted = true ↔ c.state.next.1 = none) ∧
      c.state.lastWait = waits.getLast?.getD .zero := by
  intro c
  obtain ⟨waits, keeps⟩ : ∃ waits, Keeps stage k waits c := Keeps.course stage k asks
  have nanos : ∀ i (hi : i < waits.length), waits[i].nanos = k.wait (i + 1) := fun i hi => by
    have hi' : i < (waits.map (·.nanos)).length := by simpa using hi
    simpa using List.getElem_of_eq keeps.nanos hi'
  have attempt : c.state.attempt = waits.length := congrArg attempt keeps.state
  refine ⟨waits, keeps.answers, keeps.length, nanos, ?_, ?_, attempt, ?_, ?_,
    congrArg lastWait keeps.state⟩
  · refine List.pairwise_iff_getElem.2 fun i j hi hj hij => ?_
    rw [nanos i hi, nanos j hj]
    exact k.wait_mono (by omega)
  · intro d hd hk
    obtain ⟨i, hi, rfl⟩ := List.getElem_of_mem hd
    rw [nanos i hi]
    exact k.wait_le_checkin hk (i + 1)
  · rw [attempt, keeps.length]
    exact Nat.min_le_left _ _
  · unfold exhausted Backoff.next
    split <;> simp_all

/-- The waits double up to the thirty-second; the next one is a little shorter than twice as long,
and then they stay the same. -/
example :
    let k : Knobs := { firstWait := .ofMicros 1, checkin := .zero, tries := 40 }
    k.wait 32 = 2 ^ 31 * 1000 ∧ k.wait 33 = (2 ^ 32 - 1) * 1000 ∧ k.wait 34 = k.wait 33 := by
  decide

end Backoff

end Pipework
