import Pipework.Proofs.Body.Transfer

/-!
# The results of a map

The output queue of a map may be filled by others, and by the very function of the map while it
runs. That can delay the results and does nothing else to them: what was pushed and what is left
over are always the results on the parcels that were taken, in the order in which these came
(`Map.keeps_results`).
-/

namespace Pipework

variable {α σ : Type}

namespace Map

/-- The function does not panic, and it does not touch the contents of the input queue. It may do to
any other queue what it likes, except remove it. -/
structure Minds (m : Map α σ) : Prop where
  sober : m.Sober
  keeps : ∀ (a : α) (s : Store α σ), s.Keeps m.input (m.apply a s).2

/-- What has passed through a map so far: the parcels that were put into its input, those to which
the function was applied, each with its result, and those that the map has pushed. -/
structure Log (α : Type) where
  put : List α
  tried : List (α × Option α) := []
  pushed : List α := []

/-- A map is called again and again. Between the calls others put parcels behind those in the input,
and do to all other queues, and to any threshold, what they like. -/
inductive Operated (m₀ : Map α σ) (s₀ : Store α σ) : Log α → Map α σ → Store α σ → Prop where
  | start : Operated m₀ s₀ { put := s₀.contents m₀.input } m₀ s₀
  | call {log : Log α} {m : Map α σ} {s : Store α σ} (v : Visit) : Operated m₀ s₀ log m s →
      Operated m₀ s₀
        { log with
          tried := log.tried ++ m.tries v s,
          pushed := log.pushed ++ (m.flushed s ++ m.delivered v s) }
        (m.execute v s).body (m.execute v s).store
  | others {log : Log α} {m : Map α σ} {s s' : Store α σ} (xs : List α) : Operated m₀ s₀ log m s →
      s'.contents m₀.input = s.contents m₀.input ++ xs → s.queues.length ≤ s'.queues.length →
      Operated m₀ s₀ { log with put := log.put ++ xs } m s'

/-- The log of a map is right. -/
structure Kept (m₀ : Map α σ) (log : Log α) (m : Map α σ) (s : Store α σ) : Prop where
  core : m.core = m₀.core
  exists_input : m₀.input < s.queues.length
  exists_output : m₀.output < s.queues.length
  results : log.pushed ++ m.overflow = log.tried.filterMap (·.2)
  input : log.tried.map (·.1) ++ s.contents m.input = log.put
  answers : ∀ t ∈ log.tried, ∃ s, (m₀.apply t.1 s).1.Gives t.2

namespace Kept

variable {m₀ m : Map α σ} {log : Log α} {s s' : Store α σ}

theorem start (fresh : m₀.overflow = []) (hi : m₀.input < s.queues.length)
    (ho : m₀.output < s.queues.length) :
    Kept m₀ { put := s.contents m₀.input } m₀ s :=
  ⟨rfl, hi, ho, by simp [fresh], rfl, nofun⟩

theorem apply_eq (h : Kept m₀ log m s) : m.apply = m₀.apply :=
  have happly := congrArg Map.apply h.core
  happly

theorem input_eq (h : Kept m₀ log m s) : m.input = m₀.input :=
  have hinput := congrArg Map.input h.core
  hinput

theorem output_eq (h : Kept m₀ log m s) : m.output = m₀.output :=
  have houtput := congrArg Map.output h.core
  houtput

theorem minds (h : Kept m₀ log m s) (hm : m₀.Minds) : m.Minds := by
  refine ⟨fun a s p => ?_, fun a s => ?_⟩
  · rw [h.apply_eq]
    exact hm.sober a s p
  · rw [h.apply_eq, h.input_eq]
    exact hm.keeps a s

theorem serves (h : Kept m₀ log m s) (hm : m₀.Minds) (hio : m₀.input ≠ m₀.output) (v : Visit) :
    m.Serves v s :=
  have hm := h.minds hm
  serves_execute hm.sober (fun a s => (hm.keeps a s).length) (by rwa [h.input_eq, h.output_eq]) v
    (h.input_eq ▸ h.exists_input) (h.output_eq ▸ h.exists_output)

/-- A call keeps the log right: what was left over goes first, and what was not tried goes back. -/
theorem call (h : Kept m₀ log m s) (hm : m₀.Minds) (hio : m₀.input ≠ m₀.output) (v : Visit) :
    Kept m₀ { log with
      tried := log.tried ++ m.tries v s, pushed := log.pushed ++ (m.flushed s ++ m.delivered v s) }
      (m.execute v s).body (m.execute v s).store := by
  have serves := h.serves hm hio v
  have minds := h.minds hm
  have hcore : (m.execute v s).body.core = m.core := m.core_execute v s
  have hinput := congrArg Map.input hcore
  obtain ⟨htried, hresults, -⟩ := applyAll_of_sober minds.sober (m.batch v s).1 (m.batch v s).2
  have keeps : (m.batch v s).2.Keeps m.input (m.answered v s).store :=
    applyAll_stable (P := fun s' => (m.batch v s).2.Keeps m.input s')
      (fun a s' h => h.trans (minds.keeps a s')) _ (.refl _ _)
  have hlong : s.queues.length ≤ (m.execute v s).store.queues.length := by
    rw [serves.after.length, ← serves.before.length]
    exact keeps.length
  refine ⟨hcore.trans h.core, h.exists_input.trans_le hlong, h.exists_output.trans_le hlong, ?_, ?_,
    ?_⟩
  · rw [List.append_assoc, serves.left, ← List.append_assoc, h.results, List.filterMap_append]
    exact congrArg (_ ++ ·) hresults
  · rw [show (m.execute v s).body.input = m.input from hinput, serves.back, keeps.contents,
      List.map_append, List.append_assoc, ← List.append_assoc ((m.tries v s).map (·.1)), ← h.input,
      serves.taken]
    exact congrArg (fun xs => log.tried.map (·.1) ++ (xs ++ (m.batch v s).2.contents m.input))
      htried.symm
  · intro t ht
    rcases List.mem_append.1 ht with ht | ht
    · exact h.answers t ht
    · exact h.apply_eq ▸ gives_of_mem_trials minds.sober ht

/-- What others put into the input comes behind what is there. -/
theorem others (h : Kept m₀ log m s) {xs : List α}
    (hxs : s'.contents m₀.input = s.contents m₀.input ++ xs)
    (hlong : s.queues.length ≤ s'.queues.length) :
    Kept m₀ { log with put := log.put ++ xs } m s' := by
  refine ⟨h.core, h.exists_input.trans_le hlong, h.exists_output.trans_le hlong, h.results,
    ?_, h.answers⟩
  rw [h.input_eq, hxs, ← List.append_assoc, ← h.input_eq, h.input]

end Kept

theorem Operated.kept {m₀ m : Map α σ} {s₀ s : Store α σ} {log : Log α} (h : Operated m₀ s₀ log m s)
    (fresh : m₀.overflow = []) (hm : m₀.Minds) (hio : m₀.input ≠ m₀.output)
    (hi : m₀.input < s₀.queues.length) (ho : m₀.output < s₀.queues.length) : Kept m₀ log m s := by
  induction h with
  | start => exact .start fresh hi ho
  | call v _ ih => exact ih.call hm hio v
  | others xs _ hxs hlong ih => exact ih.others hxs hlong

/-- **A map keeps every result, in order.** Its function may fail, and while it runs it may push to
the output queue and change its threshold; others may put parcels into the input and do to the
output what they like. What the map has pushed, followed by what is left over, is the results on the
parcels to which the function was applied, without those on which it failed. These parcels, followed
by those in the input, are the ones that were put there. The pending work is what is in the input
and what is left over. What a further call takes, pushes and gives back is seen at the queues. -/
theorem keeps_results {m₀ : Map α σ} {s₀ : Store α σ} (fresh : m₀.overflow = []) (hm : m₀.Minds)
    (hio : m₀.input ≠ m₀.output) (hi : m₀.input < s₀.queues.length)
    (ho : m₀.output < s₀.queues.length) {log : Log α} {m : Map α σ} {s : Store α σ}
    (h : Operated m₀ s₀ log m s) :
    log.pushed ++ m.overflow = log.tried.filterMap (·.2) ∧
      log.tried.map (·.1) ++ s.contents m.input = log.put ∧
      (∀ t ∈ log.tried, ∃ s', (m₀.apply t.1 s').1.Gives t.2) ∧
      (∀ f : α → Option α, (∀ a s', (m₀.apply a s').1.Gives (f a)) →
        log.pushed ++ m.overflow = (log.tried.map (·.1)).filterMap f) ∧
      m.pending s = (s.contents m.input).length + m.overflow.length ∧
      ∀ v, m.Serves v s := by
  have kept := h.kept fresh hm hio hi ho
  refine ⟨kept.results, kept.input, kept.answers, fun f hf => ?_, rfl, kept.serves hm hio⟩
  rw [kept.results, filterMap_tried hf kept.answers]

/-- A map that multiplies by ten, except that it fails on 2. At each parcel its function pushes a
zero to the output. -/
def crowding : Map Nat Unit where
  apply a s := (if a = 2 then .failed ⟨"two"⟩ else .ok (10 * a), (s.push 1 0).2)
  input := 0
  output := 1

/-- Four parcels wait, and the output has room for four. -/
def crowded : Store Nat Unit where
  queues := [{ name := "in", items := [1, 3, 2, 4], threshold := unlimited }, .bounded "out" 4]
  env := ()

theorem minds_crowding : crowding.Minds where
  sober a s p := by
    unfold crowding
    simp only
    split <;> simp
  keeps a s := .setQueue s (by decide) _

/-- In the first call the zeros leave room for one result. Once others have taken three parcels from
the output the second result goes first, and then the parcel that had gone back has its turn. -/
theorem keeps_results_crowded :
    let v := Visit.start 0 0 4
    let r := crowding.execute v crowded
    let s := (r.store.popMany 1 3).2
    let r' := r.body.execute v s
    r.store.contents 1 = [0, 0, 0, 10] ∧ r.body.overflow = [30] ∧ r.store.contents 0 = [4] ∧
      r'.store.contents 1 = [10, 30, 0, 40] ∧
        ∃ log, Operated crowding crowded log r'.body r'.store ∧
        log.pushed ++ r'.body.overflow =
          [1, 3, 2, 4].filterMap (fun a => if a = 2 then none else some (10 * a)) := by
  intro v r s r'
  have history : Operated crowding crowded _ r'.body r'.store :=
    .call v
      (.others [] (.call v .start) (by decide +kernel : s.contents 0 = r.store.contents 0 ++ [])
      (by decide +kernel : r.store.queues.length ≤ s.queues.length))
  refine ⟨by decide +kernel, by decide +kernel, by decide +kernel, by decide +kernel, _,
    history, ?_⟩
  obtain ⟨-, -, -, hresults, -⟩ :=
    keeps_results rfl minds_crowding (by decide) (by decide) (by decide) history
  refine (hresults (fun a => if a = 2 then none else some (10 * a)) fun a s' => ?_).trans ?_
  · unfold crowding
    simp only
    split <;> rfl
  · decide +kernel

end Map

end Pipework
