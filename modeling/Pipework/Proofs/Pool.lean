import Mathlib.Data.List.Induction
import Mathlib.Data.List.Range
import Pipework.Pool

/-!
# The accounts of a pool

Parcels are borrowed from a pool and given back, also such as were never borrowed. The parcels at
hand and those in use are counted apart, and a surplus parcel changes neither or only one of the
two; all the same they come to the capacity of a limited pool after any history, and to no less for
one without a limit (`Pool.Sound`, kept by `Sound.acquire` and `Sound.release`). Each parcel that
was made, and each that was kept when it came back, is lent once or lies ready
(`Pool.accounts_balance`).
-/

namespace Pipework.Pool

variable {α : Type}

/-! ### Histories -/

/-- What can be done to a pool. A parcel that is given back need not have been borrowed. -/
inductive Act (α : Type) where
  | acquire
  | release (a : α)

/-- A pool, the parcels that it has lent so far, and those that were given back and kept, as they
were when they came. -/
structure Ledger (α : Type) where
  pool : Pool α
  lent : List α := []
  kept : List α := []

/-- The ledger after one more act. -/
def Ledger.enter (l : Ledger α) : Act α → Ledger α
  | .acquire => { l with pool := l.pool.acquire.2, lent := l.lent ++ l.pool.acquire.1.toList }
  | .release a =>
    { l with
      pool := (l.pool.release a).2, kept := l.kept ++ if (l.pool.release a).1 then [a] else [] }

/-- The ledger of a pool to which one thing after the other is done. -/
def history (p : Pool α) (acts : List (Act α)) : Ledger α := acts.foldl Ledger.enter { pool := p }

/-! ### Borrowing and giving back -/

/-- What borrowing can do: hand out the parcel that was given back last, make one, or refuse. -/
theorem acquire_cases (p : Pool α) :
    (∃ a rest, p.free = a :: rest ∧
      p.acquire = (some a, { p with free := rest, inUse := p.inUse + 1 })) ∨
      (p.free = [] ∧ p.limited = false ∧
        p.acquire = (some (p.make p.made), { p with made := p.made + 1, inUse := p.inUse + 1 })) ∨
      (p.free = [] ∧ p.limited = true ∧ p.acquire = (none, p)) := by
  unfold acquire
  cases hfree : p.free with
  | cons a rest => exact .inl ⟨a, rest, rfl, rfl⟩
  | nil =>
    cases hlimited : p.limited with
    | false => exact .inr (.inl ⟨rfl, rfl, rfl⟩)
    | true => exact .inr (.inr ⟨rfl, rfl, rfl⟩)

/-- What giving back can do: keep the parcel, once it is reset, or drop it. -/
theorem release_cases (p : Pool α) (a : α) :
    (p.available < p.capacity ∧
        p.release a = (true, { p with free := p.reset a :: p.free, inUse := p.inUse - 1 })) ∨
      (p.capacity ≤ p.available ∧ p.release a = (false, { p with inUse := p.inUse - 1 })) := by
  unfold release
  rcases Nat.lt_or_ge p.available p.capacity with h | h
  · exact .inl ⟨h, if_neg (Nat.not_le.2 h)⟩
  · exact .inr ⟨h, if_pos h⟩

/-! ### What every act keeps -/

/-- The pool of a ledger has room for what is at hand, at hand and in use there are as many parcels
as it may have, at least, and what was made or kept is what was lent or lies ready. -/
structure Sound (p₀ : Pool α) (l : Ledger α) : Prop where
  capacity : l.pool.capacity = p₀.capacity
  limited : l.pool.limited = p₀.limited
  make : l.pool.make = p₀.make
  reset : l.pool.reset = p₀.reset
  room : l.pool.available ≤ p₀.capacity
  enough : p₀.capacity ≤ l.pool.available + l.pool.inUse
  exact : p₀.limited = true → l.pool.available + l.pool.inUse = p₀.capacity
  parcels : ((List.range l.pool.made).map p₀.make ++ l.kept.map p₀.reset).Perm
    (l.lent ++ l.pool.free)

namespace Sound

variable {p₀ : Pool α} {l : Ledger α}

theorem filled (name : String) (capacity : Nat) (limited : Bool) (make : Nat → α) (reset : α → α) :
    Sound (filled name capacity limited make reset)
      { pool := .filled name capacity limited make reset } := by
  have full : (Pool.filled name capacity limited make reset).available = capacity := by
    simp [Pool.filled, available]
  refine ⟨rfl, rfl, rfl, rfl, full.le, full.ge.trans (Nat.le_add_right _ _), fun _ => full, ?_⟩
  simp [Pool.filled]

theorem acquire (h : Sound p₀ l) : Sound p₀ (l.enter .acquire) := by
  obtain ⟨capacity, limited, make, reset, room, enough, exact, parcels⟩ := h
  unfold Ledger.enter
  rcases l.pool.acquire_cases with ⟨a, rest, hfree, he⟩ | ⟨hfree, hlimited, he⟩ |
    ⟨hfree, hlimited, he⟩ <;> rw [he]
  · simp only [available, hfree, List.length_cons] at room enough exact
    refine ⟨capacity, limited, make, reset, ?_, ?_, fun hl => ?_, ?_⟩ <;> simp only [available]
    · omega
    · omega
    · have := exact hl
      omega
    · rw [hfree] at parcels
      simpa using parcels
  · refine ⟨capacity, limited, make, reset, room,
      by simp only [available] at enough ⊢; omega, fun hl => ?_, ?_⟩
    · exact absurd (hlimited.symm.trans (limited.trans hl)) (by decide)
    · rw [hfree, List.append_nil] at parcels ⊢
      rw [List.range_succ, List.map_append, List.map_singleton, make, List.append_assoc]
      exact (List.perm_middle.trans (parcels.cons _)).trans (List.perm_append_singleton _ _).symm
  · simpa using ⟨capacity, limited, make, reset, room, enough, exact, parcels⟩

theorem release (h : Sound p₀ l) (a : α) : Sound p₀ (l.enter (.release a)) := by
  obtain ⟨capacity, limited, make, reset, room, enough, exact, parcels⟩ := h
  simp only [Ledger.enter]
  rcases l.pool.release_cases a with ⟨hroom, he⟩ | ⟨hfull, he⟩ <;> rw [he]
  · refine ⟨capacity, limited, make, reset, ?_, ?_, fun hl => ?_, ?_⟩ <;>
      simp only [available, List.length_cons]
    · rw [← capacity]
      exact hroom
    · simp only [available] at hroom enough
      omega
    · have := exact hl
      simp only [available] at hroom this
      omega
    · rw [if_pos trivial, List.map_append, List.map_singleton, ← List.append_assoc, reset]
      exact ((parcels.append_right _).trans (List.perm_append_singleton _ _)).trans
        List.perm_middle.symm
  · refine ⟨capacity, limited, make, reset, room, ?_, fun hl => ?_, ?_⟩
    · exact (capacity ▸ hfull).trans (Nat.le_add_right _ _)
    · have := exact hl
      simp only [available] at hfull this ⊢
      omega
    · simpa using parcels

theorem enter (h : Sound p₀ l) (act : Act α) : Sound p₀ (l.enter act) := by
  cases act with
  | acquire => exact h.acquire
  | release a => exact h.release a

theorem history (h : Sound p₀ { pool := p₀ }) (acts : List (Act α)) :
    Sound p₀ (history p₀ acts) := by
  induction acts using List.reverseRecOn with
  | nil => exact h
  | append_singleton acts act ih =>
    rw [Pool.history, List.foldl_concat]
    exact ih.enter act

/-- A limited pool refuses just if all its parcels are in use. -/
theorem acquire_eq_none_iff (h : Sound p₀ l) (hl : p₀.limited = true) :
    l.pool.acquire.1 = none ↔ l.pool.inUse = p₀.capacity := by
  have sum := h.exact hl
  rcases l.pool.acquire_cases with ⟨a, rest, hfree, he⟩ | ⟨-, hlimited, -⟩ | ⟨hfree, -, he⟩
  · simp only [available, hfree, List.length_cons] at sum
    simp only [he, reduceCtorEq, false_iff]
    omega
  · exact absurd (hlimited.symm.trans (h.limited.trans hl)) (by decide)
  · simp only [available, hfree, List.length_nil] at sum
    simp only [he, true_iff]
    omega

/-- A limited pool keeps what is given back just if something is in use. -/
theorem release_eq_true_iff (h : Sound p₀ l) (hl : p₀.limited = true) (a : α) :
    (l.pool.release a).1 = true ↔ 0 < l.pool.inUse := by
  have sum := h.exact hl
  have capacity := h.capacity
  rcases l.pool.release_cases a with ⟨hroom, he⟩ | ⟨hfull, he⟩
  · simp only [he, true_iff]
    omega
  · simp only [he, Bool.false_eq_true, false_iff]
    omega

theorem acquire_ne_none (h : Sound p₀ l) (hl : p₀.limited = false) : l.pool.acquire.1 ≠ none := by
  rcases l.pool.acquire_cases with ⟨a, rest, -, he⟩ | ⟨-, -, he⟩ | ⟨-, hlimited, -⟩
  · simp [he]
  · simp [he]
  · exact absurd (hlimited.symm.trans (h.limited.trans hl)) (by decide)

theorem mem_lent (h : Sound p₀ l) {a : α} (ha : a ∈ l.lent) :
    (∃ n < l.pool.made, a = p₀.make n) ∨ ∃ b ∈ l.kept, a = p₀.reset b := by
  have mem := h.parcels.mem_iff.2 (List.mem_append_left l.pool.free ha)
  rcases List.mem_append.1 mem with hmade | hkept
  · obtain ⟨n, hn, rfl⟩ := List.mem_map.1 hmade
    exact .inl ⟨n, List.mem_range.1 hn, rfl⟩
  · obtain ⟨b, hb, rfl⟩ := List.mem_map.1 hkept
    exact .inr ⟨b, hb, rfl⟩

end Sound

/-- **The accounts of a pool balance.** Fill a pool and do anything to it, also give back what was
never borrowed. There are never more parcels at hand than its capacity.

- If it is limited, what is at hand and what is in use come to its capacity; it refuses just if all
  is in use, and it keeps what is given back just if something is in use.
- If it is not, they come to no less than its capacity, and it never refuses.

The parcels that were made, and those that were kept when they came back, each of them reset, are
the parcels that were lent and those at hand, each as often: what lies ready is lent once for each
time it was put there. And a parcel that was lent was new, or it has been reset since it was given
back. -/
theorem accounts_balance (name : String) (capacity : Nat) (limited : Bool) (make : Nat → α)
    (reset : α → α) (acts : List (Act α)) :
    let l := history (filled name capacity limited make reset) acts
    let p := l.pool
    p.available ≤ capacity ∧
    (limited = true → p.available + p.inUse = capacity ∧ (p.acquire.1 = none ↔ p.inUse = capacity) ∧
      ∀ a, (p.release a).1 = true ↔ 0 < p.inUse) ∧
    (limited = false → capacity ≤ p.available + p.inUse ∧ p.acquire.1 ≠ none) ∧
    ((List.range p.made).map make ++ l.kept.map reset).Perm (l.lent ++ p.free) ∧
    ∀ a ∈ l.lent, (∃ n < p.made, a = make n) ∨ ∃ b ∈ l.kept, a = reset b := by
  intro l p
  have sound : Sound (filled name capacity limited make reset) l :=
    (Sound.filled name capacity limited make reset).history acts
  exact ⟨sound.room, fun hl => ⟨sound.exact hl, sound.acquire_eq_none_iff hl,
    sound.release_eq_true_iff hl⟩,
    fun hl => ⟨sound.enough, sound.acquire_ne_none hl⟩, sound.parcels, fun a => sound.mem_lent⟩

/-- A surplus parcel is dropped while all is at hand; one that takes the place of a borrowed one is
kept, and then that one is the surplus. -/
example :
    let l := history (filled "numbers" 2 true id (fun _ => 0)) [.release 7, .acquire, .release 8,
      .release 1, .acquire, .acquire]
    l.kept = [8] ∧ l.lent = [1, 0, 0] ∧ l.pool.available + l.pool.inUse = 2 := by
  decide

end Pipework.Pool
