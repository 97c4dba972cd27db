import Mathlib.Algebra.BigOperators.Group.List.Basic
import Mathlib.Data.Nat.Choose.Basic
import Mathlib.Data.UInt
import Pipework.Checksum

/-!
# What the final check accepts

However source and processor take turns, the source has emitted the first numbers in order, and the
processor remembers how many parcels it has seen and their sum (`Checksum.Ran.accounts`). So at the
end of a run in which each number below `blocks * blockSize` is seen once, in any order, count and
sum are known. The check compares the sum with half of a product that stops at the largest 64-bit
number: it accepts such a run exactly if that product is below `2 ^ 64`
(`Checksum.check_accepts_iff`). There are such runs for all sizes (`Checksum.Ran.exists_complete`),
and those on which product and sum lie on different sides of `2 ^ 64` are refused
(`Checksum.check_refuses_correct_run`).
-/

namespace Pipework.Checksum

/-! ### Sums of consecutive numbers -/

theorem consecutive_add (first : UInt64) (m n : Nat) :
    consecutive first (m + n) = consecutive first m ++ consecutive (first + m.toUInt64) n := by
  simp [consecutive, List.range_add, UInt64.add_assoc]

@[simp] theorem length_consecutive (first : UInt64) (n : Nat) :
    (consecutive first n).length = n := by
  simp [consecutive]

theorem sum_consecutive (n : Nat) : (consecutive 0 n).sum = (n * (n - 1) / 2).toUInt64 := by
  induction n with
  | zero => rfl
  | succ n ih =>
    rw [consecutive_add, List.sum_append, ih, Nat.triangle_succ]
    simp [consecutive, UInt64.ofNat_add]

/-! ### The expected sum -/

theorem check_eq_none_iff (blocks : UInt64) (blockSize : Nat) (t : Tally) :
    check blocks blockSize t = none ↔
      t.count = expectedCount blocks blockSize ∧
      t.sum = expectedSum (expectedCount blocks blockSize) := by
  simp only [check]
  split
  case isTrue h => simpa only [reduceCtorEq, false_iff, not_and_or] using h
  case isFalse h => simpa only [true_iff, not_or, not_not, ne_eq] using h

theorem expectedCount_eq (blocks : UInt64) (blockSize : Nat) :
    expectedCount blocks blockSize = (blocks.toNat * blockSize).toUInt64 := by
  rw [← UInt64.toNat_inj]
  simp [expectedCount]

/-- Half of the product is the sum of the numbers below `n` as long as the product does not stop at
the largest number: from there on the half is less than `2 ^ 63`, and the sum is not. -/
theorem expectedSum_eq_iff {n : Nat} (hn : n < 2 ^ 64) (hsum : n * (n - 1) / 2 < 2 ^ 64) :
    (n * (n - 1) / 2).toUInt64 = expectedSum n.toUInt64 ↔ n * (n - 1) < 2 ^ 64 := by
  obtain ⟨k, hk⟩ : 2 ∣ n * (n - 1) := (Nat.even_mul_pred_self n).two_dvd
  have hcomm : (n - 1) * n = 2 * k := by rw [Nat.mul_comm, hk]
  have htotal : n.toUInt64.toNat = n := UInt64.toNat_ofNat_of_lt hn
  rw [expectedSum, htotal, hcomm, hk, ← UInt64.toNat_inj]
  rw [hk] at hsum
  simp only [Nat.toUInt64_eq, UInt64.toNat_ofNat', Nat.shiftLeft_eq]
  omega

/-! ### Pools of empty blocks -/

/-- The pool lends blocks without numbers. -/
def LendsEmpty (s : Stock) : Prop :=
  ∀ p, s.pools[pool]? = some p → (∀ a ∈ p.free, a.values = []) ∧ ∀ n, (p.make n).values = []

/-- Borrowing a block touches nothing but the pool, and the block is empty. -/
theorem LendsEmpty.acquire {s s' : Stock} {block : Option Parcel} (h : LendsEmpty s)
    (ha : s.acquire pool = (block, s')) :
    LendsEmpty s' ∧ s'.env = s.env ∧ ∀ a ∈ block, a.values = [] := by
  unfold Store.acquire at ha
  cases hp : s.pools[pool]? with
  | none =>
    simp only [hp] at ha
    cases ha
    exact ⟨h, rfl, nofun⟩
  | some p =>
    obtain ⟨hfree, hmake⟩ := h p hp
    have hlt : pool < s.pools.length := (List.getElem?_eq_some_iff.1 hp).1
    have still : ∀ q : Pool Parcel, (∀ a ∈ q.free, a.values = []) → (∀ n, (q.make n).values = []) →
        LendsEmpty { s with pools := s.pools.set pool q } := by
      intro q hq hm p' hp'
      rw [List.getElem?_set_self hlt] at hp'
      cases hp'
      exact ⟨hq, hm⟩
    simp only [hp, Pool.acquire] at ha
    cases hf : p.free with
    | cons a rest =>
      simp only [hf] at ha hfree
      cases ha
      refine ⟨still _ (fun b hb => hfree b (List.mem_cons_of_mem a hb)) hmake, rfl, fun b hb => ?_⟩
      cases hb
      exact hfree _ List.mem_cons_self
    | nil =>
      cases hl : p.limited with
      | true =>
        simp only [hf, hl, if_true] at ha
        cases ha
        exact ⟨still p hfree hmake, rfl, nofun⟩
      | false =>
        simp only [hf, hl, Bool.false_eq_true, if_false] at ha
        cases ha
        refine ⟨still _ (by simp) hmake, rfl, fun b hb => ?_⟩
        cases hb
        exact hmake p.made

/-! ### Runs -/

/-- The parcel that a producer gives, if it gives one. -/
def given : Poll Parcel → List Parcel
  | .item a => [a]
  | _ => []

/-- Polls of the source and parcels shown to the processor, in any order, with the blocks that were
emitted and the parcels that were seen. In between others may do anything that leaves alone what the
two remember and puts no block with numbers into the pool. -/
inductive Ran (blockSize : Nat) (s₀ : Stock) : List Parcel → List Parcel → Stock → Prop where
  | start : Ran blockSize s₀ [] [] s₀
  | poll {emitted seen : List Parcel} {s : Stock} : Ran blockSize s₀ emitted seen s →
    Ran blockSize s₀ (emitted ++ given ((filler blockSize).poll s).1) seen
      ((filler blockSize).poll s).2
  | process {emitted seen : List Parcel} {s : Stock} (a : Parcel) :
    Ran blockSize s₀ emitted seen s →
    Ran blockSize s₀ emitted (seen ++ [a]) (adder.process a s).2
  | others {emitted seen : List Parcel} {s s' : Stock} : Ran blockSize s₀ emitted seen s →
    { s'.env with messages := s.env.messages } = s.env → LendsEmpty s' →
    Ran blockSize s₀ emitted seen s'

/-- What is remembered agrees with what was emitted and seen. -/
structure Accounts (blocks : UInt64) (blockSize : Nat) (emitted seen : List Parcel) (s : Stock) :
    Prop where
  numbers : emitted.flatMap Parcel.values = consecutive 0 (emitted.length * blockSize)
  next : s.env.next = (emitted.length * blockSize).toUInt64
  remaining : s.env.remaining.toNat + emitted.length = blocks.toNat
  count : s.env.count = seen.length.toUInt64
  sum : s.env.sum = (seen.map Parcel.value).sum
  lends : LendsEmpty s

namespace Accounts

variable {blocks : UInt64} {blockSize : Nat} {emitted seen : List Parcel} {s s' : Stock}

/-- A poll gives the next block, or nothing. -/
theorem poll (h : Accounts blocks blockSize emitted seen s) :
    Accounts blocks blockSize (emitted ++ given ((filler blockSize).poll s).1) seen
      ((filler blockSize).poll s).2 := by
  by_cases hr : s.env.remaining = 0
  · simpa [filler, hr, given] using h
  · rcases ha : s.acquire pool with ⟨_ | block, s'⟩
    · obtain ⟨lends, env, -⟩ := h.lends.acquire ha
      have hpoll : (filler blockSize).poll s = (.empty, s') := by simp [filler, hr, ha]
      rw [hpoll]
      simp only [given, List.append_nil]
      exact ⟨h.numbers, env ▸ h.next, env ▸ h.remaining, env ▸ h.count, env ▸ h.sum, lends⟩
    · obtain ⟨lends, env, empty⟩ := h.lends.acquire ha
      have hpoll : (filler blockSize).poll s = (.item (.block (consecutive s.env.next blockSize)),
          { s' with env := { s.env with
            next := s.env.next + blockSize.toUInt64, remaining := s.env.remaining - 1 } }) := by
        simp [filler, hr, ha, env, empty block rfl]
      have hlength : (emitted.length + 1) * blockSize = emitted.length * blockSize + blockSize :=
        Nat.succ_mul _ _
      have hone : (1 : UInt64) ≤ s.env.remaining := by
        have hne : s.env.remaining.toNat ≠ 0 := fun hz => hr (UInt64.toNat_inj.1 hz)
        exact UInt64.le_iff_toNat_le.2 (Nat.one_le_iff_ne_zero.2 hne)
      rw [hpoll]
      refine ⟨?_, ?_, ?_, h.count, h.sum, lends⟩
      · simp only [given, List.flatMap_append, h.numbers, List.flatMap_singleton, Parcel.values,
          List.length_append, List.length_singleton, hlength, consecutive_add, h.next,
          UInt64.zero_add]
      · simp only [given, List.length_append, List.length_singleton, hlength, h.next,
          Nat.toUInt64_eq, UInt64.ofNat_add]
      · have hle : 1 ≤ s.env.remaining.toNat := UInt64.le_iff_toNat_le.1 hone
        have hremaining := h.remaining
        simp only [given, UInt64.toNat_sub_of_le _ _ hone, List.length_append,
          List.length_singleton]
        change s.env.remaining.toNat - 1 + (emitted.length + 1) = blocks.toNat
        omega

/-- The processor counts and adds up. -/
theorem process (h : Accounts blocks blockSize emitted seen s) (a : Parcel) :
    Accounts blocks blockSize emitted (seen ++ [a]) (adder.process a s).2 where
  numbers := h.numbers
  next := h.next
  remaining := h.remaining
  count := by simp [adder, h.count, UInt64.ofNat_add]
  sum := by simp [adder, h.sum]
  lends := h.lends

theorem others (h : Accounts blocks blockSize emitted seen s)
    (he : { s'.env with messages := s.env.messages } = s.env) (hl : LendsEmpty s') :
    Accounts blocks blockSize emitted seen s' where
  numbers := h.numbers
  next := (congrArg Tally.next he).trans h.next
  remaining := by rw [← h.remaining, ← congrArg Tally.remaining he]
  count := (congrArg Tally.count he).trans h.count
  sum := (congrArg Tally.sum he).trans h.sum
  lends := hl

end Accounts

theorem Ran.accounts {blocks : UInt64} {blockSize : Nat} {emitted seen : List Parcel} {s₀ s : Stock}
    (hr : Ran blockSize s₀ emitted seen s) (henv : s₀.env = { remaining := blocks })
    (hl : LendsEmpty s₀) :
    Accounts blocks blockSize emitted seen s := by
  induction hr with
  | start =>
    exact ⟨by simp [consecutive], by simp [henv], by simp [henv], by simp [henv], by simp [henv],
      hl⟩
  | poll _ ih => exact ih.poll
  | process a _ ih => exact ih.process a
  | others _ he hlends ih => exact ih.others he hlends

/-! ### Complete runs -/

/-- At the start nothing has been emitted or seen, and the pool lends empty blocks. -/
theorem start_of_pipeline {blocks : UInt64} {blockSize : Nat} {c : Config}
    {n : Pipeline Parcel Tally} (h : pipeline blocks blockSize c = .ok n) :
    n.store.env = { remaining := blocks } ∧ LendsEmpty n.store := by
  cases h
  refine ⟨rfl, fun p hp => ?_⟩
  cases hp
  refine ⟨fun a ha => ?_, fun _ => rfl⟩
  obtain ⟨_, -, rfl⟩ := List.mem_map.1 ha
  rfl

/-- A pool that makes a block whenever one is wanted. -/
def generous : Pool Parcel := .filled "blocks" 0 false (fun _ => .block []) id

namespace Ran

variable {blocks : UInt64} {blockSize : Nat} {emitted seen : List Parcel} {s₀ s : Stock}

/-- As many blocks as are wanted may be emitted before anything is seen. -/
theorem exists_emitted (henv : s₀.env = { remaining := blocks }) (hl : LendsEmpty s₀) :
    ∀ k ≤ blocks.toNat, ∃ emitted s, Ran blockSize s₀ emitted [] s ∧ emitted.length = k := by
  intro k
  induction k with
  | zero => exact fun _ => ⟨[], s₀, .start, rfl⟩
  | succ k ih =>
    intro hk
    obtain ⟨emitted, s, hr, hlength⟩ := ih (Nat.le_of_succ_le hk)
    have hremaining := (hr.accounts henv hl).remaining
    have hne : s.env.remaining ≠ 0 := fun hz => by
      rw [hz, hlength] at hremaining
      simp at hremaining
      omega
    have lends : LendsEmpty { s with pools := [generous] } := by
      intro p hp
      cases hp
      exact ⟨by simp [generous, Pool.filled], fun _ => rfl⟩
    have waited : Ran blockSize s₀ emitted [] { s with pools := [generous] } := .others hr rfl lends
    refine ⟨_, _, .poll waited, ?_⟩
    simp [filler, hne, Store.acquire, pool, generous, Pool.filled, Pool.acquire, given, hlength]

/-- The processor may be shown any parcels. -/
theorem exists_seen (hr : Ran blockSize s₀ emitted seen s) (xs : List Parcel) :
    ∃ s', Ran blockSize s₀ emitted (seen ++ xs) s' ∧ s'.env.remaining = s.env.remaining := by
  induction xs generalizing seen s with
  | nil => exact ⟨s, by rwa [List.append_nil], rfl⟩
  | cons a xs ih =>
    obtain ⟨s', hr', hs'⟩ := ih (hr.process a)
    exact ⟨s', by simpa using hr', hs'⟩

/-- The numbers in some blocks, each as a parcel of its own. -/
def unpacked (blocks : List Parcel) : List Parcel := (blocks.flatMap Parcel.values).map .number

/-- Blocks of all numbers and sizes may be emitted, and all their numbers seen. -/
theorem exists_complete (henv : s₀.env = { remaining := blocks }) (hl : LendsEmpty s₀)
    (blockSize : Nat) :
    ∃ emitted s, Ran blockSize s₀ emitted (unpacked emitted) s ∧
      ((filler blockSize).poll s).1 = .exhausted := by
  obtain ⟨emitted, s, hr, hlength⟩ : ∃ emitted s, Ran blockSize s₀ emitted [] s ∧
      emitted.length = blocks.toNat :=
    exists_emitted henv hl blocks.toNat le_rfl
  obtain ⟨s', hr', hs'⟩ := hr.exists_seen (unpacked emitted)
  have hremaining := (hr.accounts henv hl).remaining
  have hzero : s'.env.remaining = 0 := by
    rw [hs', ← UInt64.toNat_inj]
    simp
    omega
  exact ⟨emitted, s', hr', by simp [filler, hzero]⟩

end Ran

/-- **The check accepts a correct run exactly if the product fits.** Let the source be exhausted and
the processor have seen each number that was emitted once, in any order. The numbers are those below
the number of blocks times their size, which fits in 64 bits, and so does their sum. Then the check
accepts count and sum exactly if twice the sum fits in 64 bits too. -/
theorem check_accepts_iff (blocks : UInt64) (blockSize : Nat) (c : Config)
    {n : Pipeline Parcel Tally} (hp : pipeline blocks blockSize c = .ok n)
    {emitted seen : List Parcel} {s : Stock} (hr : Ran blockSize n.store emitted seen s)
    (hx : ((filler blockSize).poll s).1 = .exhausted) (hseen : seen.Perm (Ran.unpacked emitted))
    (htotal : blocks.toNat * blockSize < 2 ^ 64)
    (hsum : blocks.toNat * blockSize * (blocks.toNat * blockSize - 1) / 2 < 2 ^ 64) :
    let total := blocks.toNat * blockSize
    emitted.flatMap Parcel.values = consecutive 0 total ∧
      (check blocks blockSize s.env = none ↔ total * (total - 1) < 2 ^ 64) := by
  intro total
  obtain ⟨henv, hl⟩ := start_of_pipeline hp
  have accounts := hr.accounts henv hl
  have hzero : s.env.remaining = 0 := by
    by_contra hne
    unfold filler at hx
    simp only [if_neg hne] at hx
    split at hx <;> cases hx
  have hlength : emitted.length = blocks.toNat := by simpa [hzero] using accounts.remaining
  have numbers : emitted.flatMap Parcel.values = consecutive 0 total := by
    rw [accounts.numbers, hlength]
  have count : s.env.count = total.toUInt64 := by
    rw [accounts.count, hseen.length_eq, Ran.unpacked, numbers, List.length_map, length_consecutive]
  have sum : s.env.sum = (total * (total - 1) / 2).toUInt64 := by
    rw [accounts.sum, (hseen.map Parcel.value).sum_eq, Ran.unpacked, numbers, List.map_map,
      ← sum_consecutive]
    exact congrArg List.sum (List.map_id _)
  refine ⟨numbers, ?_⟩
  rw [check_eq_none_iff, expectedCount_eq, count, sum, expectedSum_eq_iff htotal hsum]
  exact ⟨fun h => h.2, fun h => ⟨rfl, h⟩⟩

/-- The check accepts the numbers below `2 ^ 32`, in whatever blocks. -/
theorem check_accepts_iff_largest :
    ∃ (n : Pipeline Parcel Tally) (emitted : List Parcel) (s : Stock),
      pipeline 65536 65536 { workers := 1 } = .ok n ∧
        Ran 65536 n.store emitted (Ran.unpacked emitted) s ∧
        ((filler 65536).poll s).1 = .exhausted ∧ check 65536 65536 s.env = none := by
  obtain ⟨n, hp⟩ : ∃ n, pipeline 65536 65536 { workers := 1 } = .ok n := ⟨_, rfl⟩
  obtain ⟨henv, hl⟩ := start_of_pipeline hp
  obtain ⟨emitted, s, hr, hx⟩ := Ran.exists_complete henv hl 65536
  have accepts :=
    (check_accepts_iff 65536 65536 { workers := 1 } hp hr hx (.refl _) (by decide) (by decide)).2
  exact ⟨n, emitted, s, hp, hr, hx, accepts.2 (by decide)⟩

/-- One more block of numbers, and the check refuses a correct run whose sum is below `2 ^ 64`. -/
theorem check_refuses_correct_run :
    ∃ (n : Pipeline Parcel Tally) (emitted : List Parcel) (s : Stock),
      pipeline 65537 65536 { workers := 1 } = .ok n ∧
        Ran 65536 n.store emitted (Ran.unpacked emitted) s ∧
        ((filler 65536).poll s).1 = .exhausted ∧
        emitted.flatMap Parcel.values = consecutive 0 (65537 * 65536) ∧
        65537 * 65536 * (65537 * 65536 - 1) / 2 < 2 ^ 64 ∧
        check 65537 65536 s.env ≠ none := by
  obtain ⟨n, hp⟩ : ∃ n, pipeline 65537 65536 { workers := 1 } = .ok n := ⟨_, rfl⟩
  obtain ⟨henv, hl⟩ := start_of_pipeline hp
  obtain ⟨emitted, s, hr, hx⟩ := Ran.exists_complete henv hl 65536
  obtain ⟨numbers, accepts⟩ := check_accepts_iff 65537 65536 { workers := 1 } hp hr hx (.refl _)
    (by decide) (by decide)
  exact ⟨n, emitted, s, hp, hr, hx, numbers, by decide, fun h => absurd (accepts.1 h) (by decide)⟩

end Pipework.Checksum
