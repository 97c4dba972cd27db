import Mathlib.Logic.Relation
import Pipework.Proofs.Graph.Wiring

/-!
# The order of a walk

A walk that begins with some stages and goes on from each stage to its listeners, the last one
first, comes to every stage once at most (`Graph.tour`). Whether it comes to a stage after all the
feeders of that stage (`Graph.Follows`) depends on the order in which edges were added, also in a
graph without cycles.
-/

namespace Pipework.Graph

variable {g : Graph} {i j : StageId} {unseen work : List StageId} {done : StageId → Prop}

/-! ### Edges -/

/-- Whether there is an edge from one stage to another. -/
def Feeds (g : Graph) (i j : StageId) : Prop := j ∈ (g.stage i).listeners

/-- No path leads back to where it began. -/
def Acyclic (g : Graph) : Prop := ∀ i, ¬ Relation.TransGen g.Feeds i i

/-- Whether a path leads from a source to a stage. -/
def Sourced (g : Graph) (i : StageId) : Prop := ∃ s ∈ g.sources, Relation.ReflTransGen g.Feeds s i

/-- Where every edge leads to a stage that was added later there is no cycle. -/
theorem acyclic_of_lt (h : ∀ i < g.size, ∀ j ∈ (g.stage i).listeners, i < j) : g.Acyclic := by
  have step : ∀ i j, g.Feeds i j → i < j := by
    intro i j hf
    by_cases hi : i < g.size
    · exact h i hi j hf
    · rw [Feeds, stage_of_size_le (Nat.le_of_not_lt hi)] at hf
      exact absurd hf List.not_mem_nil
  have path : ∀ i j, Relation.TransGen g.Feeds i j → i < j := by
    intro i j hp
    induction hp with
    | single hf => exact step _ _ hf
    | tail _ hf ih => exact Nat.lt_trans ih (step _ _ hf)
  exact fun i hp => Nat.lt_irrefl i (path i i hp)

theorem Sourced.start (h : i ∈ g.sources) : g.Sourced i := ⟨i, h, .refl⟩

theorem Sourced.next (h : g.Sourced i) (hf : j ∈ (g.stage i).listeners) : g.Sourced j := by
  obtain ⟨s, hs, hp⟩ := h
  exact ⟨s, hs, hp.tail hf⟩

/-! ### Walks -/

/-- The unseen stages in the order in which a walk from the stages of a list comes to them. -/
def tour (g : Graph) (unseen work : List StageId) : List StageId :=
  match work with
  | [] => []
  | i :: work =>
    if _h : i ∈ unseen then i :: g.tour (unseen.erase i) ((g.stage i).listeners.reverse ++ work)
    else g.tour unseen work
  termination_by (unseen.length, work.length)
  decreasing_by
    · apply Prod.Lex.left
      have := List.length_pos_of_mem _h
      rw [List.length_erase_of_mem _h]
      omega
    · apply Prod.Lex.right
      simp

/-- The order in which a walk from the sources, the last one first, comes to the stages. -/
def order (g : Graph) : List StageId := g.tour (List.range g.size) g.sources.reverse

@[simp] theorem tour_nil (g : Graph) (unseen : List StageId) : g.tour unseen [] = [] := by
  rw [tour]

theorem tour_cons {more : List StageId} (hi : i ∈ unseen)
    (hm : (g.stage i).listeners.reverse ++ work = more) :
    g.tour unseen (i :: work) = i :: g.tour (unseen.erase i) more := by
  rw [tour, dif_pos hi, hm]

theorem tour_cons_of_not_mem (hi : i ∉ unseen) :
    g.tour unseen (i :: work) = g.tour unseen work := by
  rw [tour, dif_neg hi]

/-- A walk depends on the edges, and on nothing that happens to the stages. -/
theorem tour_of_bare {g' : Graph} (h : g.bare = g'.bare) (unseen work : List StageId) :
    g.tour unseen work = g'.tour unseen work := by
  fun_induction tour g unseen work with
  | case1 => rw [tour_nil]
  | case2 unseen i work hi ih => rw [ih, listeners_of_bare h, tour_cons hi rfl]
  | case3 unseen i work hi ih => rw [ih, tour_cons_of_not_mem hi]

theorem order_of_bare {g' : Graph} (h : g.bare = g'.bare) : g.order = g'.order := by
  unfold order
  rw [tour_of_bare h, size_of_bare h, sources_of_bare h]

/-! ### Feeders first -/

/-- Every stage is done already, or comes up in a list after all its feeders that are not. -/
def Follows (g : Graph) (done : StageId → Prop) (list : List StageId) : Prop :=
  ∀ i < g.size, done i ∨
    (i ∈ list ∧ ∀ u ∈ (g.stage i).feeders, done u ∨ u ∈ list.takeWhile (· != i))

instance [DecidablePred done] (list : List StageId) : Decidable (g.Follows done list) :=
  inferInstanceAs (Decidable (∀ i < g.size, _))

/-- Whether a walk from the sources comes to every stage after all its feeders. -/
def FedInOrder (g : Graph) : Prop := g.Follows (fun i => (g.stage i).isSource = true) g.order

theorem follows_nil : g.Follows done [] ↔ ∀ i < g.size, done i := by
  refine ⟨fun h i hi => ?_, fun h i hi => .inl (h i hi)⟩
  rcases h i hi with hd | ⟨hm, -⟩
  · exact hd
  · exact absurd hm List.not_mem_nil

/-- A stage that is done, or could be by now, can be taken for done in what comes after it. -/
theorem follows_cons {list : List StageId} (hi : done i ∨ ∀ u ∈ (g.stage i).feeders, done u) :
    g.Follows done (i :: list) ↔ g.Follows (fun k => done k ∨ k = i) list := by
  have taken : ∀ k, k ≠ i →
      (i :: list).takeWhile (· != k) = i :: list.takeWhile (· != k) := fun k hk =>
    List.takeWhile_cons_of_pos (by simpa using Ne.symm hk)
  constructor
  · intro h k hk
    by_cases hki : k = i
    · exact .inl (.inr hki)
    rcases h k hk with hd | ⟨hm, hf⟩
    · exact .inl (.inl hd)
    · refine .inr ⟨(List.mem_cons.1 hm).resolve_left hki, fun u hu => ?_⟩
      rw [taken k hki] at hf
      rcases hf u hu with hd | hm
      · exact .inl (.inl hd)
      · exact (List.mem_cons.1 hm).imp .inr id
  · intro h k hk
    by_cases hki : k = i
    · subst hki
      exact hi.imp id fun hf => ⟨List.mem_cons_self .., fun u hu => .inl (hf u hu)⟩
    · rcases h k hk with hd | ⟨hm, hf⟩
      · exact .inl (hd.resolve_right hki)
      · refine .inr ⟨List.mem_cons_of_mem _ hm, fun u hu => ?_⟩
        rw [taken k hki]
        rcases hf u hu with (hd | rfl) | hm
        · exact .inl hd
        · exact .inr (List.mem_cons_self ..)
        · exact .inr (List.mem_cons_of_mem _ hm)

/-- That a stage comes up too early cannot be made good later. -/
theorem not_follows_cons {list : List StageId} (hi : i < g.size) (hd : ¬ done i)
    (hf : ¬ ∀ u ∈ (g.stage i).feeders, done u) : ¬ g.Follows done (i :: list) := by
  intro h
  rcases h i hi with hd' | ⟨-, hb⟩
  · exact hd hd'
  · rw [List.takeWhile_cons_of_neg (by simp)] at hb
    exact hf fun u hu => (hb u hu).resolve_right List.not_mem_nil

theorem follows_congr {done' : StageId → Prop} {list : List StageId} (h : ∀ i, done i ↔ done' i) :
    g.Follows done list ↔ g.Follows done' list := by
  unfold Follows
  simp only [h]

end Pipework.Graph
