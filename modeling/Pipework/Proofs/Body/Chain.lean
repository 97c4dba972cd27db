import Pipework.Proofs.Body.Transfer

/-!
# Chains

A `Chain` is a source, any number of maps and a sink, with a queue between each and the next one.
What is on the way through a chain is `Chain.transit`: the contents of the queues and what the maps
have left over, all of it as it will arrive at the end. What the source sends arrives last
(`transit_feed`), what the sink takes was to arrive first (`transit_take`), and what a map moves was
to arrive anyhow (`transit_move`).
-/

namespace Pipework

/-- A source, `length` maps and a sink. The queue `belt j` leads from the stage `stage j` to the
stage `stage (j + 1)`, and the function of the latter is `code j`, if it is a map. -/
structure Chain (α : Type) where
  length : Nat
  stage : Nat → StageId
  belt : Nat → QueueId
  code : Nat → α → α

namespace Chain

variable {α : Type}

/-! ### What is on the way -/

/-- What becomes of a parcel of the first queue in the queue with a number. -/
def through (c : Chain α) : Nat → α → α
  | 0, a => a
  | j + 1, a => c.code j (c.through j a)

/-- All parcels that a queue holds or is still to receive, given what each queue holds and what each
map has left over. -/
def transit (c : Chain α) (held left : Nat → List α) : Nat → List α
  | 0 => held 0
  | j + 1 => held (j + 1) ++ left j ++ (c.transit held left j).map (c.code j)

variable {c : Chain α} {held held' left left' : Nat → List α} {xs : List α} {i j : Nat}

theorem transit_congr (hh : ∀ i ≤ j, held' i = held i) (hl : ∀ i < j, left' i = left i) :
    c.transit held' left' j = c.transit held left j := by
  induction j with
  | zero => exact hh 0 (Nat.le_refl 0)
  | succ j ih =>
    rw [transit, transit, hh (j + 1) (Nat.le_refl _), hl j (Nat.lt_succ_self j),
      ih (fun i hi => hh i (Nat.le_succ_of_le hi)) fun i hi => hl i (Nat.lt_succ_of_lt hi)]

theorem transit_eq_nil (hh : ∀ i ≤ j, held i = []) (hl : ∀ i < j, left i = []) :
    c.transit held left j = [] := by
  induction j with
  | zero => exact hh 0 (Nat.le_refl 0)
  | succ j ih =>
    rw [transit, hh (j + 1) (Nat.le_refl _), hl j (Nat.lt_succ_self j),
      ih (fun i hi => hh i (Nat.le_succ_of_le hi)) fun i hi => hl i (Nat.lt_succ_of_lt hi)]
    rfl

/-- What is put into the first queue arrives last. -/
theorem transit_feed (h₀ : held' 0 = held 0 ++ xs) (hh : ∀ i, 0 < i → i ≤ j → held' i = held i)
    (hl : ∀ i < j, left' i = left i) :
    c.transit held' left' j = c.transit held left j ++ xs.map (c.through j) := by
  induction j with
  | zero => exact h₀.trans (by rw [transit, show c.through 0 = id from rfl, List.map_id])
  | succ j ih =>
    rw [transit, transit, hh (j + 1) (Nat.succ_pos j) (Nat.le_refl _), hl j (Nat.lt_succ_self j),
      ih (fun i hi hij => hh i hi (Nat.le_succ_of_le hij)) fun i hi => hl i (Nat.lt_succ_of_lt hi),
      List.map_append, List.map_map, List.append_assoc, List.append_assoc, List.append_assoc]
    rfl

/-- What is taken from a queue was to arrive there first. -/
theorem transit_take (h : held j = xs ++ held' j) (hh : ∀ i < j, held' i = held i)
    (hl : ∀ i < j, left' i = left i) :
    c.transit held left j = xs ++ c.transit held' left' j := by
  cases j with
  | zero => exact h
  | succ j =>
    rw [transit, transit, h, hl j (Nat.lt_succ_self j), transit_congr (c := c) (j := j)
      (fun i hi => hh i (Nat.lt_succ_of_le hi)) fun i hi => hl i (Nat.lt_succ_of_lt hi),
      List.append_assoc, List.append_assoc, List.append_assoc]

/-- A map takes parcels from one queue and adds what becomes of them to the next one: this changes
nothing there. -/
theorem transit_move (hin : held i = xs ++ held' i)
    (hout : held' (i + 1) ++ left' i = held (i + 1) ++ left i ++ xs.map (c.code i)) (hij : i < j)
    (hh : ∀ k ≤ j, k ≠ i → k ≠ i + 1 → held' k = held k) (hl : ∀ k < j, k ≠ i → left' k = left k) :
    c.transit held' left' j = c.transit held left j := by
  induction j with
  | zero => exact absurd hij (Nat.not_lt_zero i)
  | succ j ih =>
    rcases Nat.lt_or_ge i j with h | h
    · rw [transit, transit, hh (j + 1) (Nat.le_refl _) (by omega) (by omega),
        hl j (Nat.lt_succ_self j) (by omega), ih h (fun k hk => hh k (Nat.le_succ_of_le hk))
          fun k hk => hl k (Nat.lt_succ_of_lt hk)]
    · obtain rfl : i = j := by omega
      have htake : c.transit held left i = xs ++ c.transit held' left' i :=
        transit_take hin (fun k hk => hh k (by omega) (by omega) (by omega)) fun k hk =>
          hl k (by omega) (by omega)
      calc held' (i + 1) ++ left' i ++ (c.transit held' left' i).map (c.code i)
        _ = held (i + 1) ++ left i ++ (xs ++ c.transit held' left' i).map (c.code i) := by
          rw [hout, List.map_append, List.append_assoc]
        _ = held (i + 1) ++ left i ++ (c.transit held left i).map (c.code i) := by rw [htake]

end Chain

/-! ### What a call sends and accepts -/

namespace Body

variable {α σ : Type}

/-- The parcels that a source pushes to its output queue in a call. -/
def sends (b : Body α σ) (v : Visit) (s : Store α σ) : List α :=
  match b with
  | .source b => ((b.execute v s).store.contents b.output).drop (s.contents b.output).length
  | _ => []

/-- The parcels that all processors of a sink accept in a call. -/
def accepts (b : Body α σ) (v : Visit) (s : Store α σ) : List α :=
  match b with
  | .sink b => b.accepted v s
  | _ => []

variable {b : Body α σ} {v : Visit} {s : Store α σ}

theorem source_of_core {b₀ : Source α σ} (h : b.core = .source b₀) :
    ∃ b', b = .source b' ∧ b'.core = b₀ := by
  cases b with
  | source b => exact ⟨b, rfl, Body.source.inj h⟩
  | _ => cases h

theorem map_of_core {m₀ : Map α σ} (h : b.core = .map m₀) : ∃ m', b = .map m' ∧ m'.core = m₀ := by
  cases b with
  | map m => exact ⟨m, rfl, Body.map.inj h⟩
  | _ => cases h

theorem sink_of_core {b₀ : Sink α σ} (h : b.core = .sink b₀) :
    ∃ b', b = .sink b' ∧ b'.core = b₀ := by
  cases b with
  | sink b => exact ⟨b, rfl, Body.sink.inj h⟩
  | _ => cases h

/-- An idle body has nothing in the queue that it reads. -/
theorem Idle.contents {b₀ : Body α σ} {q : QueueId} (h : b.Idle s) (hb : b.core = b₀)
    (hq : b₀.reads = some q) :
    s.contents q = [] := by
  refine h.dry q ?_
  rw [← reads_core, hb, hq]

end Body

end Pipework
