import Mathlib.Algebra.GroupWithZero.Nat
import Pipework.Proofs.Graph.Wiring

/-!
# How far activation reaches

Activation goes from a dormant stage to its listeners and stops wherever a stage is not dormant.
`Graph.Reaches` says to which stages a path of dormant stages leads, `Graph.wave` in which order the
walk sets them running. The walk does not keep a record of where it has been: a stage that runs by
then is dormant no more. So it comes to exactly those stages, in graphs with cycles and joins too
(`mem_wave_iff`), and to each of them once (`nodup_wave`).
-/

namespace Pipework.Graph

variable {g : Graph} {i j k : StageId} {work : List StageId}

/-! ### Paths of dormant stages -/

/-- Whether a stage would be set running if the walk came to it. -/
def Waits (g : Graph) (i : StageId) : Prop := i < g.size ∧ (g.stage i).dormant = true

instance (g : Graph) (i : StageId) : Decidable (g.Waits i) := inferInstanceAs (Decidable (_ ∧ _))

/-- Whether a path leads from one stage to another on which all stages are dormant, its two ends
too. -/
inductive Reaches (g : Graph) (i : StageId) : StageId → Prop where
  | here : g.Waits i → g.Reaches i i
  | onward {j k : StageId} : g.Reaches i j → k ∈ (g.stage j).listeners → g.Waits k → g.Reaches i k

namespace Reaches

theorem waits (h : g.Reaches i j) : g.Waits j := by
  cases h with
  | here hi => exact hi
  | onward _ _ hk => exact hk

theorem starts (h : g.Reaches i j) : g.Waits i := by
  induction h with
  | here hi => exact hi
  | onward _ _ _ ih => exact ih

/-- A path may be extended at its beginning. -/
theorem after (h : g.Reaches j k) (hi : g.Waits i) (hj : j ∈ (g.stage i).listeners) :
    g.Reaches i k := by
  induction h with
  | here hw => exact .onward (.here hi) hj hw
  | onward _ hl hw ih => exact .onward ih hl hw

/-- What holds at the beginning and goes on to dormant listeners holds at the end of a path. -/
theorem stays {P : StageId → Prop} (h : g.Reaches i j) (h₀ : P i)
    (hP : ∀ j, P j → ∀ k ∈ (g.stage j).listeners, g.Waits k → P k) : P j := by
  induction h with
  | here _ => exact h₀
  | onward _ hl hw ih => exact hP _ ih _ hl hw

end Reaches

/-! ### When one stage is dormant no more -/

theorem waits_enterRunning (hi : i < g.size) : (g.enterRunning i).Waits j ↔ i ≠ j ∧ g.Waits j := by
  have life := congrArg Stage.Life.state (life_enterRunning hi j)
  unfold Waits Stage.dormant
  rw [size_enterRunning]
  by_cases hij : i = j
  · subst hij
    rw [if_pos rfl] at life
    rw [show ((g.enterRunning i).stage i).state = .running from life]
    simp
  · rw [if_neg hij] at life
    rw [show ((g.enterRunning i).stage j).state = (g.stage j).state from life]
    simp [hij]

theorem listeners_enterRunning (g : Graph) (i j : StageId) :
    ((g.enterRunning i).stage j).listeners = (g.stage j).listeners :=
  listeners_of_bare (bare_enterRunning g i) j

theorem Reaches.of_enterRunning (hi : i < g.size) (h : (g.enterRunning i).Reaches j k) :
    g.Reaches j k := by
  induction h with
  | here hw => exact .here ((waits_enterRunning hi).1 hw).2
  | onward _ hl hw ih =>
    exact .onward ih (by rwa [listeners_enterRunning] at hl) ((waits_enterRunning hi).1 hw).2

/-- A stage that is set running changes nothing but stages and the number of those that run. -/
theorem enterRunning_eq (g : Graph) (i : StageId) :
    g.enterRunning i =
      { g with stages := (g.enterRunning i).stages, running := g.running + 1 } := by
  have key : ∀ (is : List StageId) (g : Graph) (f : Stage → Stage),
      g.modifyAll is f = { g with stages := (g.modifyAll is f).stages } := by
    intro is
    induction is with
    | nil => exact fun _ _ => rfl
    | cons i is ih => exact fun g f => ih (g.modify i f) f
  unfold enterRunning
  simp only
  rw [key]
  rfl

/-- A path avoids a stage, or its last part leads from a listener of that stage to its end, or ends
there. -/
theorem Reaches.cut (hi : i < g.size) (h : g.Reaches j k) :
    k = i ∨ (g.enterRunning i).Reaches j k ∨
    ∃ l ∈ (g.stage i).listeners, (g.enterRunning i).Reaches l k := by
  induction h with
  | here hw =>
    by_cases hji : j = i
    · exact .inl hji
    · exact .inr (.inl (.here ((waits_enterRunning hi).2 ⟨Ne.symm hji, hw⟩)))
  | @onward u v _ hl hw ih =>
    by_cases hvi : v = i
    · exact .inl hvi
    have hw' : (g.enterRunning i).Waits v := (waits_enterRunning hi).2 ⟨Ne.symm hvi, hw⟩
    have hl' : v ∈ ((g.enterRunning i).stage u).listeners := by rwa [listeners_enterRunning]
    rcases ih with rfl | havoids | ⟨l, hlm, hlast⟩
    · exact .inr (.inr ⟨v, hl, .here hw'⟩)
    · exact .inr (.inl (.onward havoids hl' hw'))
    · exact .inr (.inr ⟨l, hlm, .onward hlast hl' hw'⟩)

/-! ### The walk -/

/-- The stages that activation sets running when it begins with some stages, in this order. -/
def wave (g : Graph) (work : List StageId) : List StageId :=
  match work with
  | [] => []
  | i :: work =>
    if _h : g.Waits i then
      i :: (g.enterRunning i).wave ((g.stage i).listeners.reverse ++ work)
    else g.wave work
  termination_by (g.dormantCount, work.length)
  decreasing_by
    · exact Prod.Lex.left _ _ (dormantCount_enterRunning_lt _h.1 _h.2)
    · apply Prod.Lex.right
      simp

@[simp] theorem wave_nil (g : Graph) : g.wave [] = [] := by
  rw [wave]

theorem wave_cons (hi : g.Waits i) :
    g.wave (i :: work) = i :: (g.enterRunning i).wave ((g.stage i).listeners.reverse ++ work) := by
  rw [wave, dif_pos hi]

theorem wave_cons_of_not (hi : ¬ g.Waits i) : g.wave (i :: work) = g.wave work := by
  rw [wave, dif_neg hi]

/-- **The walk comes to a stage exactly if a path of dormant stages leads to it** from one with
which it begins. -/
theorem mem_wave_iff (g : Graph) (work : List StageId) (j : StageId) :
    j ∈ g.wave work ↔ ∃ i ∈ work, g.Reaches i j := by
  fun_induction wave g work with
  | case1 g => simp
  | case2 g i work hi ih =>
    rw [List.mem_cons, ih]
    constructor
    · rintro (rfl | ⟨k, hk, hr⟩)
      · exact ⟨j, List.mem_cons_self .., .here hi⟩
      · have hr := hr.of_enterRunning hi.1
        rcases List.mem_append.1 hk with hk | hk
        · exact ⟨i, List.mem_cons_self .., hr.after hi (List.mem_reverse.1 hk)⟩
        · exact ⟨k, List.mem_cons_of_mem _ hk, hr⟩
    · rintro ⟨k, hk, hr⟩
      rcases hr.cut hi.1 with rfl | havoids | ⟨l, hl, hlast⟩
      · exact .inl rfl
      · -- a path that avoids the first stage does not begin with it
        have hki : k ≠ i := Ne.symm ((waits_enterRunning hi.1).1 havoids.starts).1
        exact .inr ⟨k, List.mem_append_right _ ((List.mem_cons.1 hk).resolve_left hki), havoids⟩
      · exact .inr ⟨l, List.mem_append_left _ (List.mem_reverse.2 hl), hlast⟩
  | case3 g i work hi ih =>
    rw [ih]
    constructor
    · rintro ⟨k, hk, hr⟩
      exact ⟨k, List.mem_cons_of_mem _ hk, hr⟩
    · rintro ⟨k, hk, hr⟩
      rcases List.mem_cons.1 hk with rfl | hk
      · exact absurd hr.starts hi
      · exact ⟨k, hk, hr⟩

theorem waits_of_mem_wave (h : j ∈ g.wave work) : g.Waits j := by
  obtain ⟨i, -, hr⟩ := (mem_wave_iff g work j).1 h
  exact hr.waits

/-- **The walk sets no stage running twice.** -/
theorem nodup_wave (g : Graph) (work : List StageId) : (g.wave work).Nodup := by
  fun_induction wave g work with
  | case1 g => exact List.nodup_nil
  | case2 g i work hi ih =>
    refine List.nodup_cons.2 ⟨fun hm => ?_, ih⟩
    exact ((waits_enterRunning hi.1).1 (waits_of_mem_wave hm)).1 rfl
  | case3 g i work hi ih => exact ih

/-- The walk depends on stages only, not on the failure. -/
theorem wave_withFailure (g : Graph) (f : Option Failure) (work : List StageId) :
    (g.withFailure f).wave work = g.wave work := by
  fun_induction wave g work with
  | case1 g => exact wave_nil _
  | case2 g i work hi ih =>
    have henter : (g.withFailure f).enterRunning i = (g.enterRunning i).withFailure f := by
      unfold enterRunning
      simp only [stage_withFailure, modify_withFailure, modifyAll_withFailure]
      rfl
    rw [wave_cons (show (g.withFailure f).Waits i from hi), henter, stage_withFailure, ih]
  | case3 g i work hi ih => rw [wave_cons_of_not (show ¬ (g.withFailure f).Waits i from hi), ih]

/-! ### Feeders that were set running -/

theorem countP_mem_cons {is : List StageId} (hi : i ∉ is) (us : List StageId) :
    us.countP (· ∈ i :: is) = us.count i + us.countP (· ∈ is) := by
  induction us with
  | nil => rfl
  | cons x us ih =>
    rw [List.countP_cons, List.countP_cons, List.count_cons, ih]
    by_cases hx : x = i
    · subst hx
      simp [hi]
      omega
    · simp [hx]
      omega

/-- In a wired graph a stage is told by the stages of a list as often as it has feeders among
them. -/
theorem Wired.sum_listeners_count (w : g.Wired) {is : List StageId} (hn : is.Nodup) (j : StageId) :
    (is.map fun u => (g.stage u).listeners.count j).sum = (g.stage j).feeders.countP (· ∈ is) := by
  induction is with
  | nil => simp
  | cons i is ih =>
    obtain ⟨hi, hn⟩ := List.nodup_cons.1 hn
    rw [List.map_cons, List.sum_cons, ih hn, countP_mem_cons hi, w.mirror]

end Pipework.Graph
