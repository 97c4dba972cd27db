import Pipework.Queue

/-!
# Queues with a mirrored depth

A queue that several workers use at once keeps its depth a second time beside its parcels, for
readers that do not look at these. A `Queue.Mirrored` is such a queue: each operation sets the
mirror anew once it has changed the parcels, and returns at once where the mirror or the argument
says that there is nothing to do. As long as the mirror is right it makes no difference: the
operations are those of the queue, and the mirror is right afterwards (`Queue.mirrors`).
-/

namespace Pipework.Queue

variable {α S S' : Type}

/-! ### Operations -/

/-- The operations of a queue whose states are of type `S`. -/
structure Ops (α S : Type) where
  /-- Offers one parcel; gives it if it was handed back. -/
  push : S → α → Option α × S
  /-- Offers parcels; gives those left over. -/
  pushMany : S → List α → List α × S
  pop : S → Option α × S
  popMany : S → Nat → List α × S
  /-- Appends what is popped to a buffer. -/
  popInto : S → List α → Nat → List α × S
  requeue : S → List α → S
  setThreshold : S → Nat → S

/-- The operations of a queue. -/
def ops : Ops α (Queue α) where
  push := push
  pushMany := pushMany
  pop := pop
  popMany := popMany
  popInto q buffer n := (buffer ++ (q.popMany n).1, (q.popMany n).2)
  requeue := requeue
  setThreshold := setThreshold

/-- Two families of operations answer alike on states that correspond, and lead to states that
correspond. -/
structure Ops.Agree (o : Ops α S) (o' : Ops α S') (f : S → S') : Prop where
  push : ∀ s a, o'.push (f s) a = ((o.push s a).1, f (o.push s a).2)
  pushMany : ∀ s xs, o'.pushMany (f s) xs = ((o.pushMany s xs).1, f (o.pushMany s xs).2)
  pop : ∀ s, o'.pop (f s) = ((o.pop s).1, f (o.pop s).2)
  popMany : ∀ s n, o'.popMany (f s) n = ((o.popMany s n).1, f (o.popMany s n).2)
  popInto : ∀ s buffer n, o'.popInto (f s) buffer n =
    ((o.popInto s buffer n).1, f (o.popInto s buffer n).2)
  requeue : ∀ s xs, o'.requeue (f s) xs = f (o.requeue s xs)
  setThreshold : ∀ s n, o'.setThreshold (f s) n = f (o.setThreshold s n)

/-! ### The mirror -/

/-- A queue whose depth is kept beside its parcels. -/
structure Mirrored (α : Type) extends Queue α where
  mirror : Nat

/-- The queue with a mirror that is right. -/
def mirrored (q : Queue α) : Mirrored α := { q with mirror := q.depth }

namespace Mirrored

/-- How many parcels the queue holds, as the mirror says. -/
def len (m : Mirrored α) : Nat := m.mirror

/-- Changes the parcels, and sets the mirror. -/
def setItems (m : Mirrored α) (items : List α) : Mirrored α :=
  { m with items, mirror := items.length }

def push (m : Mirrored α) (a : α) : Option α × Mirrored α :=
  if m.threshold ≤ m.items.length then (some a, { m with rejected := m.rejected + 1 })
  else (none, { m.setItems (m.items ++ [a]) with pushed := m.pushed + 1 })

def pushMany (m : Mirrored α) (xs : List α) : List α × Mirrored α :=
  if xs.isEmpty then ([], m)
  else
    let n := min (m.threshold - m.items.length) xs.length
    let rest := xs.drop n
    let m := { m.setItems (m.items ++ xs.take n) with pushed := m.pushed + n.toUInt64 }
    (rest, if rest.isEmpty then m else { m with rejected := m.rejected + 1 })

def popInto (m : Mirrored α) (buffer : List α) (n : Nat) : List α × Mirrored α :=
  if n = 0 ∨ m.mirror = 0 then (buffer, m)
  else
    let k := min n m.items.length
    (buffer ++ m.items.take k, { m.setItems (m.items.drop k) with popped := m.popped + k.toUInt64 })

def popMany (m : Mirrored α) (n : Nat) : List α × Mirrored α := m.popInto [] n

def pop (m : Mirrored α) : Option α × Mirrored α :=
  if m.mirror = 0 then (none, m)
  else
    match m.items with
    | [] => (none, m.setItems [])
    | a :: rest => (some a, { m.setItems rest with popped := m.popped + 1 })

/-- Puts parcels back one by one, the last one first. -/
def requeue (m : Mirrored α) (xs : List α) : Mirrored α :=
  if xs.isEmpty then m
  else
    { m.setItems (xs.reverse.foldl (fun items a => a :: items) m.items) with
      popped := m.popped - xs.length.toUInt64 }

def setThreshold (m : Mirrored α) (n : Nat) : Mirrored α := { m with threshold := max n 1 }

/-- The operations of a queue with a mirror. -/
def ops : Ops α (Mirrored α) where
  push := push
  pushMany := pushMany
  pop := pop
  popMany := popMany
  popInto := popInto
  requeue := requeue
  setThreshold := setThreshold

/-! ### One operation after the other -/

theorem push_mirrored (q : Queue α) (a : α) :
    q.mirrored.push a = ((q.push a).1, (q.push a).2.mirrored) := by
  unfold push Queue.push
  by_cases h : q.threshold ≤ q.depth
  · have hm : q.mirrored.threshold ≤ q.mirrored.items.length := h
    rw [if_pos h, if_pos hm]
    rfl
  · have hm : ¬ q.mirrored.threshold ≤ q.mirrored.items.length := h
    rw [if_neg h, if_neg hm]
    rfl

theorem pushMany_mirrored (q : Queue α) (xs : List α) :
    q.mirrored.pushMany xs = ((q.pushMany xs).1, (q.pushMany xs).2.mirrored) := by
  unfold pushMany
  by_cases h : xs.isEmpty
  · obtain rfl := List.isEmpty_iff.1 h
    simp [Queue.pushMany, mirrored, depth]
  · rw [if_neg h]
    by_cases hrest : (xs.drop (min (q.threshold - q.items.length) xs.length)).isEmpty <;>
      simp [Queue.pushMany, free, mirrored, depth, setItems, hrest]

theorem popInto_mirrored (q : Queue α) (buffer : List α) (n : Nat) :
    q.mirrored.popInto buffer n = (buffer ++ (q.popMany n).1, (q.popMany n).2.mirrored) := by
  unfold popInto Queue.popMany
  by_cases h : n = 0 ∨ q.depth = 0
  · -- nothing is taken, and the counter moves by nothing
    have hm : n = 0 ∨ q.mirrored.mirror = 0 := h
    have hnone : q.items.take n = [] ∧ q.items.drop n = q.items := by
      rcases h with rfl | h
      · simp
      · simp [List.length_eq_zero_iff.1 h]
    rw [if_pos hm]
    simp [hnone]
  · have hm : ¬ (n = 0 ∨ q.mirrored.mirror = 0) := h
    have hdrop : q.items.drop (min n q.items.length) = q.items.drop n := List.drop_eq_drop_min.symm
    rw [if_neg hm]
    simp [mirrored, depth, setItems, hdrop]

theorem pop_mirrored (q : Queue α) : q.mirrored.pop = (q.pop.1, q.pop.2.mirrored) := by
  unfold pop Queue.pop
  cases h : q.items with
  | nil => simp [mirrored, depth, h]
  | cons a rest => simp [mirrored, depth, setItems, h]

theorem requeue_mirrored (q : Queue α) (xs : List α) :
    q.mirrored.requeue xs = (q.requeue xs).mirrored := by
  unfold requeue Queue.requeue
  cases xs with
  | nil => simp [mirrored, depth]
  | cons a xs => simp [mirrored, depth, setItems]

end Mirrored

/-- **The mirror makes no difference.** Where the mirror is right each operation answers as that of
the queue without it, and the mirror is right afterwards. -/
theorem mirrors : Ops.Agree (α := α) ops Mirrored.ops mirrored where
  push := Mirrored.push_mirrored
  pushMany := Mirrored.pushMany_mirrored
  pop := Mirrored.pop_mirrored
  popMany q n := Mirrored.popInto_mirrored q [] n
  popInto := Mirrored.popInto_mirrored
  requeue := Mirrored.requeue_mirrored
  setThreshold _ _ := rfl

end Pipework.Queue
