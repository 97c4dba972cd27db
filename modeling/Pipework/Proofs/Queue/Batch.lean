import Pipework.Proofs.Queue.Mirror

/-!
# Batches and single parcels

Offering a list at once is offering its parcels one by one until one is handed back, and popping
several at once is popping one by one until there is none: the same parcels are left over or popped,
and the same queue is left behind, counters included (`Queue.batch_eq_single`). Both follow from
what the first parcel does to the operation on the list.
-/

namespace Pipework.Queue

variable {α S S' : Type}

/-! ### One by one -/

namespace Ops

/-- Offers parcels one by one until one is handed back; gives that one and those not offered. -/
def pushUntilFull (o : Ops α S) : S → List α → List α × S
  | s, [] => ([], s)
  | s, a :: xs =>
    match o.push s a with
    | (none, s) => o.pushUntilFull s xs
    | (some a, s) => (a :: xs, s)

/-- Pops up to `n` parcels one by one, until there is none, and appends them to a buffer. -/
def popUpTo (o : Ops α S) : S → List α → Nat → List α × S
  | s, buffer, 0 => (buffer, s)
  | s, buffer, n + 1 =>
    match o.pop s with
    | (none, s) => (buffer, s)
    | (some a, s) => o.popUpTo s (buffer ++ [a]) n

variable {o : Ops α S} {o' : Ops α S'} {f : S → S'}

theorem Agree.pushUntilFull (h : o.Agree o' f) (s : S) (xs : List α) :
    o'.pushUntilFull (f s) xs = ((o.pushUntilFull s xs).1, f (o.pushUntilFull s xs).2) := by
  induction xs generalizing s with
  | nil => rfl
  | cons a xs ih =>
    simp only [Ops.pushUntilFull, h.push]
    rcases o.push s a with ⟨_ | b, s'⟩
    · exact ih s'
    · rfl

theorem Agree.popUpTo (h : o.Agree o' f) (s : S) (buffer : List α) (n : Nat) :
    o'.popUpTo (f s) buffer n = ((o.popUpTo s buffer n).1, f (o.popUpTo s buffer n).2) := by
  induction n generalizing s buffer with
  | zero => rfl
  | succ n ih =>
    simp only [Ops.popUpTo, h.pop]
    rcases o.pop s with ⟨_ | a, s'⟩
    · rfl
    · exact ih s' (buffer ++ [a])

end Ops

/-! ### The first parcel of a batch -/

variable {q : Queue α} {a : α} {rest : List α}

/-- A counter goes on by one and then by the others. -/
theorem count_succ (c : UInt64) (k : Nat) : c + (k + 1).toUInt64 = c + 1 + k.toUInt64 := by
  simp only [Nat.toUInt64_eq, UInt64.ofNat_add, UInt64.add_assoc, UInt64.add_comm (UInt64.ofNat k)]
  rfl

@[simp] theorem pushMany_nil (q : Queue α) : q.pushMany [] = ([], q) := by
  simp [pushMany]

/-- If the first parcel finds room the others are offered after it. -/
theorem pushMany_cons_of_lt (h : q.depth < q.threshold) (xs : List α) :
    q.pushMany (a :: xs) = (q.push a).2.pushMany xs := by
  have hpush : (q.push a).2 = { q with items := q.items ++ [a], pushed := q.pushed + 1 } := by
    rw [push, if_neg (Nat.not_le.2 h)]
  have hroom : min q.free (a :: xs).length = min (q.push a).2.free xs.length + 1 := by
    rw [hpush]
    simp only [free, depth, List.length_append, List.length_cons, List.length_nil] at h ⊢
    omega
  unfold pushMany
  rw [hroom]
  simp only [hpush, List.drop_succ_cons, List.take_succ_cons, List.append_assoc,
    List.singleton_append, count_succ]

/-- If the first parcel finds no room nothing is taken, and that counts as one refusal. -/
theorem pushMany_cons_of_le (h : q.threshold ≤ q.depth) (xs : List α) :
    q.pushMany (a :: xs) = (a :: xs, (q.push a).2) := by
  have hfree : q.free = 0 := Nat.sub_eq_zero_of_le h
  simp [pushMany, push, h, hfree]

theorem popMany_of_nil (h : q.items = []) (n : Nat) : q.popMany n = ([], q) := by
  have hq : { q with items := [] } = q := by rw [← h]
  simp [popMany, h, hq]

theorem popMany_of_cons (h : q.items = a :: rest) (n : Nat) :
    q.popMany (n + 1) = (a :: (q.pop.2.popMany n).1, (q.pop.2.popMany n).2) := by
  have hpop : q.pop = (some a, { q with items := rest, popped := q.popped + 1 }) := by
    rw [pop, h]
  simp only [popMany, hpop, h, List.take_succ_cons, List.drop_succ_cons,
    List.length_cons, count_succ]

/-! ### Whole batches -/

theorem pushMany_eq_pushUntilFull (q : Queue α) (xs : List α) :
    q.pushMany xs = ops.pushUntilFull q xs := by
  induction xs generalizing q with
  | nil => exact pushMany_nil q
  | cons a xs ih =>
    by_cases h : q.depth < q.threshold
    · have hpush : q.push a = (none, (q.push a).2) := by rw [push, if_neg (Nat.not_le.2 h)]
      rw [pushMany_cons_of_lt h, ih, Ops.pushUntilFull, show ops.push q a = _ from hpush]
    · have hpush : q.push a = (some a, (q.push a).2) := by rw [push, if_pos (Nat.not_lt.1 h)]
      rw [pushMany_cons_of_le (Nat.not_lt.1 h), Ops.pushUntilFull, show ops.push q a = _ from hpush]

theorem popInto_eq_popUpTo (q : Queue α) (buffer : List α) (n : Nat) :
    ops.popInto q buffer n = ops.popUpTo q buffer n := by
  induction n generalizing q buffer with
  | zero => simp [ops, popMany, Ops.popUpTo]
  | succ n ih =>
    cases h : q.items with
    | nil =>
      have hpop : ops.pop q = (none, q) := by simp [ops, pop, h]
      rw [Ops.popUpTo, hpop]
      simp [ops, popMany_of_nil h]
    | cons a rest =>
      have hpop : ops.pop q = (some a, q.pop.2) := by simp [ops, pop, h]
      have hmany : ops.popInto q buffer (n + 1) = ops.popInto q.pop.2 (buffer ++ [a]) n := by
        simp [ops, popMany_of_cons h]
      rw [Ops.popUpTo, hpop, hmany, ih]

/-- **A batch is single parcels one after the other.** Whatever state a queue is in, also with more
parcels than its threshold allows: offering a list at once leaves over the same parcels as offering
them one by one until one is handed back, and popping up to `n` at once fills a buffer as popping
one by one does until there is none; each time contents, depth and all counters are the same
afterwards. So it is for a queue that mirrors its depth and returns early where it says that there
is nothing to do. -/
theorem batch_eq_single (q : Queue α) :
    (∀ xs, q.pushMany xs = ops.pushUntilFull q xs) ∧
    (∀ buffer n, ops.popInto q buffer n = ops.popUpTo q buffer n) ∧
    (∀ n, q.popMany n = ops.popUpTo q [] n) ∧
    (∀ xs, q.mirrored.pushMany xs = Mirrored.ops.pushUntilFull q.mirrored xs) ∧
    (∀ buffer n, q.mirrored.popInto buffer n = Mirrored.ops.popUpTo q.mirrored buffer n) ∧
    (∀ n, q.mirrored.popMany n = Mirrored.ops.popUpTo q.mirrored [] n) := by
  have mirroredPop : ∀ buffer n, q.mirrored.popInto buffer n =
      Mirrored.ops.popUpTo q.mirrored buffer n := by
    intro buffer n
    rw [mirrors.popUpTo, ← popInto_eq_popUpTo]
    exact mirrors.popInto q buffer n
  refine ⟨pushMany_eq_pushUntilFull q, popInto_eq_popUpTo q, popInto_eq_popUpTo q [], fun xs => ?_,
    mirroredPop, mirroredPop []⟩
  rw [mirrors.pushUntilFull, ← pushMany_eq_pushUntilFull]
  exact mirrors.pushMany q xs

end Pipework.Queue
