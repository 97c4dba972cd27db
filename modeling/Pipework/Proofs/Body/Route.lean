import Pipework.Proofs.Body.Chain

/-!
# Routes

A `Route` is what a chain of a source, maps and a sink does to a parcel: one partial function after
the other, and then some tests. What is on a route is listed from the sink back to the source, each
parcel as it will arrive if it does (`Route.onTheWay`). The list grows at its end by what a source
polls (`backwards_feed`), loses at its front what a sink takes (`backwards_take`), and is the same
after a map has moved parcels from one queue to the next one (`backwards_move`).
-/

namespace Pipework

/-! ### Lists from the last column to the first -/

section

variable {β : Type} {f f' : Nat → List β} {xs : List β} {i n : Nat}

/-- All columns up to one, the last one first. -/
def backwards (f : Nat → List β) (n : Nat) : List β := (List.range (n + 1)).reverse.flatMap f

theorem backwards_zero (f : Nat → List β) : backwards f 0 = f 0 := by
  simp [backwards]

theorem backwards_succ (f : Nat → List β) (n : Nat) :
    backwards f (n + 1) = f (n + 1) ++ backwards f n := by
  unfold backwards
  rw [List.range_succ, List.reverse_append, List.flatMap_append]
  simp

theorem backwards_congr (h : ∀ j ≤ n, f' j = f j) : backwards f' n = backwards f n := by
  induction n with
  | zero => rw [backwards_zero, backwards_zero, h 0 (Nat.le_refl 0)]
  | succ n ih =>
    rw [backwards_succ, backwards_succ, h _ (Nat.le_refl _),
      ih fun j hj => h j (Nat.le_succ_of_le hj)]

theorem backwards_eq_nil (h : ∀ j ≤ n, f j = []) : backwards f n = [] :=
  List.flatMap_eq_nil_iff.2 fun j hj => h j (by simpa [Nat.lt_succ_iff] using hj)

/-- What is added to the first column comes last. -/
theorem backwards_feed (h₀ : f' 0 = f 0 ++ xs) (h : ∀ j, 0 < j → j ≤ n → f' j = f j) :
    backwards f' n = backwards f n ++ xs := by
  induction n with
  | zero => rw [backwards_zero, backwards_zero, h₀]
  | succ n ih =>
    rw [backwards_succ, backwards_succ, h _ (Nat.succ_pos n) (Nat.le_refl _),
      ih fun j hj hjn => h j hj (Nat.le_succ_of_le hjn), List.append_assoc]

/-- Only the first column counts if all others are empty. -/
theorem backwards_eq_first (h : ∀ j, 0 < j → j ≤ n → f j = []) : backwards f n = f 0 := by
  have hnil : backwards (fun _ => ([] : List β)) n = [] := backwards_eq_nil fun _ _ => rfl
  rw [backwards_feed (f := fun _ => []) rfl h, hnil, List.nil_append]

/-- What is taken from the front of the last column came first. -/
theorem backwards_take (hn : f n = xs ++ f' n) (h : ∀ j < n, f' j = f j) :
    backwards f n = xs ++ backwards f' n := by
  cases n with
  | zero => rw [backwards_zero, backwards_zero, hn]
  | succ n =>
    rw [backwards_succ, backwards_succ, hn, backwards_congr fun j hj => h j (Nat.lt_succ_of_le hj),
      List.append_assoc]

/-- What goes from the front of a column to the end of the next one stays where it is. -/
theorem backwards_move (hi : f i = xs ++ f' i) (hi' : f' (i + 1) = f (i + 1) ++ xs) (hin : i < n)
    (h : ∀ j ≤ n, j ≠ i → j ≠ i + 1 → f' j = f j) : backwards f' n = backwards f n := by
  induction n with
  | zero => exact absurd hin (Nat.not_lt_zero i)
  | succ n ih =>
    rcases Nat.lt_or_ge i n with hlt | hge
    · rw [backwards_succ, backwards_succ, h _ (Nat.le_refl _) (by omega) (by omega),
        ih hlt fun j hj => h j (Nat.le_succ_of_le hj)]
    · obtain rfl : i = n := by omega
      have htake : backwards f i = xs ++ backwards f' i :=
        backwards_take hi fun j hj => h j (by omega) (by omega) (by omega)
      rw [backwards_succ, backwards_succ, hi', htake, List.append_assoc]

end

/-! ### What becomes of a parcel -/

/-- A source, a map for each of some functions, and a sink with some tests. The queue `belt j` leads
from the stage `stage j` to the stage `stage (j + 1)`. -/
structure Route (α : Type) where
  stage : Nat → StageId
  belt : Nat → QueueId
  codes : List (α → Option α)
  tests : List (α → Bool)

namespace Route

variable {α : Type} {c : Route α} {j : Nat}

/-- How many maps there are. -/
abbrev length (c : Route α) : Nat := c.codes.length

/-- What arrives of a parcel to which the functions from a number on are still to be applied, if
none of them fails and it passes all tests. -/
def arrival (c : Route α) (j : Nat) (a : α) : Option α :=
  ((c.codes.drop j).foldlM (fun a (code : α → Option α) => code a) a).filter (Sink.passes c.tests)

theorem arrival_of_lt (h : j < c.length) (a : α) :
    c.arrival j a = (c.codes[j] a).bind (c.arrival (j + 1)) := by
  unfold arrival
  rw [List.drop_eq_getElem_cons h, List.foldlM_cons]
  cases c.codes[j] a <;> rfl

/-- One more function has been applied to some parcels. -/
theorem filterMap_arrival_of_lt (h : j < c.length) (xs : List α) :
    (xs.filterMap c.codes[j]).filterMap (c.arrival (j + 1)) = xs.filterMap (c.arrival j) := by
  rw [List.filterMap_filterMap]
  exact congrArg (xs.filterMap ·) (funext fun a => (arrival_of_lt h a).symm)

/-- All functions have been applied to some parcels. -/
theorem filterMap_arrival_length (c : Route α) (xs : List α) :
    xs.filterMap (c.arrival c.length) = xs.filter (Sink.passes c.tests) := by
  rw [← List.filterMap_eq_filter]
  refine congrArg (xs.filterMap ·) (funext fun a => ?_)
  unfold arrival
  rw [List.drop_length]
  rfl

end Route

/-! ### What a call polls, and what a body keeps -/

namespace Body

variable {α σ : Type}

/-- The parcels that a source polls in a call. -/
def polled (b : Body α σ) (v : Visit) (s : Store α σ) : List α :=
  match b with
  | .source b => b.polled v s
  | _ => []

/-- The parcels that wait in a body for room in its output queue. -/
def waiting : Body α σ → List α
  | .source b => b.overflow.toList
  | b => b.leftover

/-- Nothing waits in a body that has not been called yet. -/
theorem waiting_eq_nil {b : Body α σ} (h : b.core = b) : b.waiting = [] := by
  rw [← h]
  cases b <;> rfl

end Body

end Pipework
