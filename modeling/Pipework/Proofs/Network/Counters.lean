import Pipework.Proofs.Network.Calls

/-!
# The counters of a graph

A graph counts its running stages, and each stage counts its running feeders. Both counters are
exact after any calls whatever, provided that no edge is added once a stage has been activated
(`counters_exact`). Hence no subtraction from a counter is ever cut off at zero, and a graph is
drained exactly when no stage is running.
-/

namespace Pipework

namespace Graph

variable {g g' : Graph} {i j : StageId}

/-- Both kinds of counters are exact. -/
structure Counted (g : Graph) : Prop where
  running : g.running = g.stages.countP (·.state == .running)
  feeders : ∀ i, (g.stage i).runningFeeders = (g.stage i).feeders.countP fun u =>
    (g.stage u).state == .running

/-- From `g` to `g'` a stage has left the running state, and no counter was cut off at zero. -/
structure LowersTo (g g' : Graph) (i : StageId) : Prop where
  running : g'.running + 1 = g.running
  feeders : ∀ j, (g'.stage j).runningFeeders + (g.stage i).listeners.count j =
    (g.stage j).runningFeeders

/-- Two tests that differ in one place count that place. -/
theorem countP_add_count {p q : StageId → Bool} (hp : p i = false) (hq : q i = true)
    {l : List StageId} (h : ∀ k ∈ l, i ≠ k → p k = q k) : l.countP q = l.countP p + l.count i := by
  induction l with
  | nil => rfl
  | cons k l ih =>
    have ih := ih fun x hx => h x (List.mem_cons_of_mem _ hx)
    by_cases hk : i = k
    · subst hk
      simp only [List.countP_cons, List.count_cons_self, hp, hq, ih]
      simp
      omega
    · have := h k (List.mem_cons_self ..) hk
      simp only [List.countP_cons, ih, this, List.count_cons_of_ne (Ne.symm hk)]
      omega

theorem Wired.lt_size_of_mem_feeders (w : g.Wired) (h : i ∈ (g.stage j).feeders) : i < g.size :=
  (w.lt_size_of_mem_listeners (w.mem_listeners_iff.2 h)).1

theorem count_range (h : i < g.size) : (List.range g.size).count i = 1 := by
  rw [List.nodup_range.count, if_pos (List.mem_range.2 h)]

/-- What is fixed is the state of every stage but one: then the counts differ by that one. -/
theorem countP_states (hb : g'.bare = g.bare) (hi : i < g.size) (hp : (g.stage i).state ≠ .running)
    (hq : (g'.stage i).state = .running)
    (h : ∀ j, j < g.size → i ≠ j → (g'.stage j).state = (g.stage j).state) :
    g'.stages.countP (·.state == .running) = g.stages.countP (·.state == .running) + 1 := by
  rw [countP_stages, countP_stages, size_of_bare hb, ← count_range hi]
  refine countP_add_count (by simpa using hp) (by simpa using hq) fun k hk hik => ?_
  rw [h k (List.mem_range.1 hk) hik]

/-! ### The number of running stages -/

/-- The graph counts its running stages, whatever it knows of its edges. -/
def CountsRunning (g : Graph) : Prop := g.running = g.stages.countP (·.state == .running)

namespace CountsRunning

theorem countP_range {k : Nat} (h : g.size ≤ k) :
    g.stages.countP (·.state == .running) = (List.range k).countP fun i =>
      (g.stage i).state == .running := by
  obtain ⟨d, rfl⟩ := Nat.exists_eq_add_of_le h
  rw [countP_stages, List.range_add, List.countP_append, List.countP_map]
  have beyond : ∀ i, (g.stage (g.size + i)).state ≠ .running := by
    intro i
    rw [stage_of_size_le (Nat.le_add_right ..)]
    simp [default]
  have hzero : (List.range d).countP ((fun i => (g.stage i).state == .running) ∘ (g.size + ·)) =
      0 := by
    rw [List.countP_eq_zero]
    intro i _
    simpa using beyond i
  rw [hzero, Nat.add_zero]

variable (hc : g.CountsRunning)
include hc

/-- The number depends on which stages run, and on nothing else. -/
theorem congr (hr : g'.running = g.running)
    (hs : ∀ i, (g'.stage i).state = .running ↔ (g.stage i).state = .running) :
    g'.CountsRunning := by
  have hs' : ∀ i, ((g'.stage i).state == .running) = ((g.stage i).state == .running) := by
    intro i
    rw [Bool.eq_iff_iff, beq_iff_eq, beq_iff_eq, hs]
  unfold CountsRunning
  rw [hr, hc, countP_range (Nat.le_max_left g.size g'.size),
    countP_range (Nat.le_max_right g.size g'.size)]
  simp only [hs']

theorem pos (hs : (g.stage i).state = .running) : 0 < g.running := by
  rw [hc, countP_stages, List.countP_pos_iff]
  exact ⟨i, List.mem_range.2 (lt_size_of_state_ne (by simp [hs])), by simp [hs]⟩

theorem eq_zero (hs : ∀ i, (g.stage i).state ≠ .running) : g.running = 0 := by
  rw [hc, countP_stages, List.countP_eq_zero]
  intro i _
  simpa using hs i

theorem enterRunning (hi : i < g.size) (hs : (g.stage i).state ≠ .running) :
    (g.enterRunning i).CountsRunning := by
  have hq : ((g.enterRunning i).stage i).state = .running := by rw [stage_enterRunning hi]; simp
  have ho : ∀ j, j < g.size → i ≠ j → ((g.enterRunning i).stage j).state = (g.stage j).state := by
    intro j hj hij
    rw [stage_enterRunning hj]
    simp [hij]
  unfold CountsRunning
  rw [countP_states (bare_enterRunning g i) hi hs hq ho, running_enterRunning, hc]

/-- One stage less is running. -/
theorem lowers (hb : g'.bare = g.bare) (hs : (g.stage i).state = .running)
    (hi : (g'.stage i).state ≠ .running)
    (ho : ∀ j, j < g.size → i ≠ j → (g'.stage j).state = (g.stage j).state)
    (hr : g'.running + 1 = g.running) :
    g'.CountsRunning := by
  have hsize := size_of_bare hb
  have hi' : i < g'.size := hsize ▸ lt_size_of_state_ne (by simp [hs])
  have := countP_states hb.symm hi' hi hs fun j hj hij => (ho j (hsize ▸ hj) hij).symm
  unfold CountsRunning at hc ⊢
  omega

theorem halt (hs : (g.stage i).state = .running) : (g.halt i).CountsRunning := by
  have hr : (g.halt i).running = g.running - 1 := by
    rw [halt_of_running hs]
    rfl
  have hpos := hc.pos hs
  refine hc.lowers (bare_halt g i) hs ?_ (fun j hj hij => ?_) (by omega)
  · rw [state_halt hs, if_pos rfl]
    simp
  · rw [state_halt hs, if_neg hij]

theorem retire (hi : i < g.size) : (g.retire i).CountsRunning := by
  have hstate : ∀ j, j < g.size →
      ((g.retire i).stage j).state = if i = j then .finished else (g.stage j).state := by
    intro j hj
    rw [stage_retire hj]
  by_cases hs : (g.stage i).state = .running
  · have hr := running_retire g i
    rw [if_pos hs] at hr
    have hpos := hc.pos hs
    refine hc.lowers (bare_retire g i) hs ?_ (fun j hj hij => ?_) (by omega)
    · rw [hstate i hi, if_pos rfl]
      simp
    · rw [hstate j hj, if_neg hij]
  · -- a stage that did not run was not counted
    refine hc.congr (by rw [running_retire, if_neg hs]) fun j => ?_
    by_cases hj : j < g.size
    · rw [hstate j hj]
      by_cases hij : i = j
      · subst hij
        simp [hs]
      · simp [hij]
    · rw [stage_of_size_le (Nat.le_of_not_lt hj), stage_of_size_le (by simpa using hj)]

theorem alike (h : g.Alike g') : g'.CountsRunning := hc.congr h.running fun i => by rw [h.state]

theorem add (p : Part) : (g.add p).CountsRunning :=
  hc.congr (fields_add g p).1 fun i => by rw [state_add]

end CountsRunning

/-! ### Running feeders -/

theorem countP_feeders (w : g.Wired) (hb : g'.bare = g.bare) (hp : (g.stage i).state ≠ .running)
    (hq : (g'.stage i).state = .running)
    (h : ∀ j, j < g.size → i ≠ j → (g'.stage j).state = (g.stage j).state) (j : StageId) :
    ((g'.stage j).feeders.countP fun u => (g'.stage u).state == .running) =
      ((g.stage j).feeders.countP fun u => (g.stage u).state == .running) +
        (g.stage i).listeners.count j := by
  rw [feeders_of_bare hb, w.mirror]
  refine countP_add_count (by simpa using hp) (by simpa using hq) fun k hk hik => ?_
  rw [h k (w.lt_size_of_mem_feeders hk) hik]

/-! ### Entering and leaving -/

theorem Counted.enterRunning (hc : g.Counted) (w : g.Wired) (hi : i < g.size)
    (hs : (g.stage i).state ≠ .running) :
    (g.enterRunning i).Counted := by
  have hb := bare_enterRunning g i
  have hq : ((g.enterRunning i).stage i).state = .running := by rw [stage_enterRunning hi]; simp
  have ho : ∀ j, j < g.size → i ≠ j → ((g.enterRunning i).stage j).state = (g.stage j).state := by
    intro j hj hij
    rw [stage_enterRunning hj]
    simp [hij]
  refine ⟨CountsRunning.enterRunning hc.running hi hs, fun j => ?_⟩
  rw [countP_feeders w hb hs hq ho, ← hc.feeders]
  by_cases hj : j < g.size
  · rw [stage_enterRunning hj]
  · have hj' : g.size ≤ j := Nat.le_of_not_lt hj
    have hl : (g.stage i).listeners.count j = 0 :=
      List.count_eq_zero.2 fun hm => hj (w.lt_size_of_mem_listeners hm).2
    rw [stage_of_size_le (by simpa using hj'), stage_of_size_le hj', hl]
    rfl

/-- A stage that runs is counted, so there is something to take away when it stops. -/
theorem Counted.lowersTo (hc : g.Counted) (w : g.Wired) (hs : (g.stage i).state = .running)
    (hsize : g'.size = g.size) (hr : g'.running = g.running - 1)
    (hf : ∀ j, j < g.size →
      (g'.stage j).runningFeeders = (g.stage j).runningFeeders - (g.stage i).listeners.count j) :
    g.LowersTo g' i := by
  refine ⟨?_, fun j => ?_⟩
  · have := CountsRunning.pos hc.running hs
    omega
  · by_cases hj : j < g.size
    · have hle : (g.stage i).listeners.count j ≤ (g.stage j).runningFeeders := by
        rw [w.mirror, hc.feeders, List.count_eq_countP]
        refine List.countP_mono_left fun u _ hu => ?_
        rw [show u = i by simpa using hu, hs]
        rfl
      have := hf j hj
      omega
    · have hj' : g.size ≤ j := Nat.le_of_not_lt hj
      have hl : (g.stage i).listeners.count j = 0 :=
        List.count_eq_zero.2 fun hm => hj (w.lt_size_of_mem_listeners hm).2
      rw [stage_of_size_le (by omega), stage_of_size_le hj', hl]
      rfl

theorem Counted.of_lowersTo (hc : g.Counted) (w : g.Wired) (hb : g'.bare = g.bare)
    (hs : (g.stage i).state = .running) (hi : (g'.stage i).state ≠ .running)
    (ho : ∀ j, j < g.size → i ≠ j → (g'.stage j).state = (g.stage j).state) (hl : g.LowersTo g' i) :
    g'.Counted := by
  have ho' : ∀ j, j < g'.size → i ≠ j → (g.stage j).state = (g'.stage j).state := fun j hj hij =>
    (ho j (size_of_bare hb ▸ hj) hij).symm
  refine ⟨CountsRunning.lowers hc.running hb hs hi ho hl.running, fun j => ?_⟩
  have hcount := countP_feeders (w.of_bare hb) hb.symm hi hs ho' j
  have h₁ := hl.feeders j
  have h₂ := hc.feeders j
  rw [listeners_of_bare hb] at hcount
  omega

theorem Counted.halt_lowersTo (hc : g.Counted) (w : g.Wired) (hs : (g.stage i).state = .running) :
    g.LowersTo (g.halt i) i :=
  hc.lowersTo w hs (size_halt g i) (by rw [halt_of_running hs]; rfl) fun j hj => by
    rw [stage_halt hs hj]

theorem Counted.halt (hc : g.Counted) (w : g.Wired) (hs : (g.stage i).state = .running) :
    (g.halt i).Counted := by
  have hi : i < g.size := lt_size_of_state_ne (by simp [hs])
  refine hc.of_lowersTo w (bare_halt g i) hs ?_ (fun j hj hij => ?_) (hc.halt_lowersTo w hs)
  · rw [stage_halt hs hi]
    simp
  · rw [stage_halt hs hj]
    simp [hij]

theorem Counted.retire_lowersTo (hc : g.Counted) (w : g.Wired) (hs : (g.stage i).state = .running) :
    g.LowersTo (g.retire i) i :=
  hc.lowersTo w hs (size_retire g i) (by rw [running_retire, if_pos hs]) fun j hj => by
    rw [stage_retire hj]
    simp [hs]

/-- Both counters depend on the wiring and on which stages run, and on nothing else. -/
theorem Counted.congr (hc : g.Counted) (hrun : g'.running = g.running)
    (hrf : ∀ j, (g'.stage j).runningFeeders = (g.stage j).runningFeeders)
    (hf : ∀ j, (g'.stage j).feeders = (g.stage j).feeders)
    (hs : ∀ j, (g'.stage j).state = .running ↔ (g.stage j).state = .running) : g'.Counted := by
  have hs' : ∀ j, ((g'.stage j).state == .running) = ((g.stage j).state == .running) := fun j => by
    rw [Bool.eq_iff_iff, beq_iff_eq, beq_iff_eq, hs]
  refine ⟨CountsRunning.congr hc.running hrun hs, fun j => ?_⟩
  rw [hrf, hf, hc.feeders]
  simp only [hs']

theorem Counted.alike (hc : g.Counted) (h : g.Alike g') : g'.Counted :=
  hc.congr h.running h.runningFeeders (feeders_of_bare h.bare) fun j => by rw [h.state]

theorem Counted.retire (hc : g.Counted) (w : g.Wired) (hi : i < g.size) : (g.retire i).Counted := by
  by_cases hs : (g.stage i).state = .running
  · refine hc.of_lowersTo w (bare_retire g i) hs ?_ (fun j hj hij => ?_) (hc.retire_lowersTo w hs)
    · rw [stage_retire hi]
      simp
    · rw [stage_retire hj]
      simp [hij]
  · -- no counter changes, because the stage did not run before either
    have key : ∀ j, ((g.retire i).stage j).runningFeeders = (g.stage j).runningFeeders ∧
        (((g.retire i).stage j).state = .running ↔ (g.stage j).state = .running) := by
      intro j
      by_cases hj : j < g.size
      · rw [stage_retire hj]
        by_cases hij : i = j
        · subst hij
          simp [hs]
        · simp [hs, hij]
      · have hj' := Nat.le_of_not_lt hj
        rw [stage_of_size_le hj', stage_of_size_le (by simpa using hj')]
        exact ⟨rfl, Iff.rfl⟩
    exact hc.congr (by rw [running_retire, if_neg hs]) (fun j => (key j).1)
      (feeders_of_bare (bare_retire g i)) fun j => (key j).2

/-! ### Building -/

theorem counted_empty : empty.Counted := ⟨rfl, fun _ => rfl⟩

theorem Fresh.counted (hg : g.Fresh) : g.Counted := by
  have hs : ∀ i, ((g.stage i).state == .running) = false := fun i => by
    rw [hg.state i]
    rfl
  refine ⟨?_, fun i => ?_⟩
  · rw [hg.running, countP_stages]
    simp [hs]
  · rw [hg.runningFeeders]
    simp [hs]

theorem Counted.addStage {name : String} {kind : Kind} {parallel : Bool} (hc : g.Counted)
    (h : g.addStage name kind parallel = .ok g') : g'.Counted := by
  have hf := map_stage_addStage Stage.feeders h rfl
  have hs := map_stage_addStage Stage.state h rfl
  refine ⟨?_, fun j => ?_⟩
  · unfold Graph.addStage at h
    split at h
    · cases h
    · cases h
      simpa using hc.running
  · rw [map_stage_addStage Stage.runningFeeders h rfl, hc.feeders, hf]
    simp only [hs]

/-- A new edge counts for nothing as long as its feeder does not run. -/
theorem Counted.connect {a b : StageId} (hc : g.Counted) (hs : (g.stage a).state ≠ .running)
    (h : g.connect a b = .ok g') : g'.Counted := by
  obtain ⟨ha, hb, hab, ⟨-, rfl⟩ | ⟨-, rfl⟩⟩ := connect_ok h
  · exact hc
  · have key := fun j => stage_connect ha hb hab j
    refine ⟨?_, fun j => ?_⟩
    · have hst : ∀ j, (((g.modify a fun s => { s with listeners := s.listeners ++ [b] }).modify b
          fun s => { s with feeders := s.feeders ++ [a] }).stage j).state = (g.stage j).state :=
            fun j => by rw [key j]
      rw [countP_stages, size_modify, size_modify]
      simp only [hst]
      exact hc.running.trans (countP_stages g _)
    · simp only [key]
      by_cases hj : j = b
      · simp [hj, hc.feeders b, hs]
      · simp [hj, hc.feeders j]

theorem Counted.add (hc : g.Counted) (p : Part)
    (h : ∀ a b, p = .edge a b → (g.stage a).state ≠ .running) : (g.add p).Counted := by
  have hs := state_add g p
  have hrf := runningFeeders_add g p
  have hrun := (fields_add g p).1
  rcases add_cases g p with he | ⟨_, _, _, -, he⟩ | ⟨a, b, rfl, he⟩ | ⟨k, -, he⟩ | ⟨k, -, he⟩ |
    ⟨k, f, -, he⟩
  · rw [he]
    exact hc
  · exact hc.addStage he
  · exact hc.connect (h a b rfl) he
  · obtain ⟨hk, hg | hg⟩ := markSource_ok he
    · rw [hg]
      exact hc
    · refine hc.congr hrun hrf (fun j => ?_) fun j => by rw [hs j]
      · rw [hg]
        exact map_stage_modify Stage.feeders (f := fun s => { s with isSource := true })
          (fun _ => rfl) k j
  · obtain ⟨l, hl⟩ := markSink_ok he
    rw [hl]
    exact hc.congr rfl (fun _ => rfl) (fun _ => rfl) fun _ => Iff.rfl
  · rw [he]
    exact hc.congr rfl (by rwa [he] at hrf)
      (feeders_of_bare (bare_modifyKnobs g k f)) fun j => by rw [← he, hs j]

/-- An exact counter tells whether any stage is running. -/
theorem Counted.drained_iff (hc : g.Counted) :
    g.drained = true ↔ ∀ i, (g.stage i).state ≠ .running := by
  unfold drained
  rw [beq_iff_eq, hc.running, countP_stages, List.countP_eq_zero]
  constructor
  · intro h i hi
    exact h i (List.mem_range.2 (lt_size_of_state_ne (by simp [hi]))) (by simp [hi])
  · intro h i _
    simpa using h i

end Graph

/-! ### Courses and calls -/

section

variable {W : Type} {B : Bodies W} {n m : Network W} {call : Call W}

theorem Course.counted (w : n.graph.Wired) (hc : n.graph.Counted) (h : Course B n m) :
    m.graph.Counted := by
  induction h with
  | start => exact hc
  | opens c hm hi hd ih =>
    obtain ⟨f, hf⟩ := Network.openOne_graph _ B _ c
    rw [hf]
    refine (ih.enterRunning (w.of_bare hm.bare) hi fun hr => ?_).alike (.withFailure _ f)
    rw [Stage.dormant, hr] at hd
    cases hd
  | halts hm hr ih => exact ih.halt (w.of_bare hm.bare) hr
  | completes c hm hi hf ih =>
    obtain ⟨f, hg⟩ := Network.complete_graph (B := B) (c := c) hf
    rw [hg]
    exact (ih.retire (w.of_bare hm.bare) hi).alike (.withFailure _ f)
  | alters _ ha ih => exact ih.alike ha

/-- The number of running stages stays exact, also if edges come late. -/
theorem stable_countsRunning (B : Bodies W) : Stable B fun n => n.graph.CountsRunning where
  opens {n i} c h hi hd := by
    obtain ⟨f, hf⟩ := n.openOne_graph B i c
    rw [hf]
    refine (h.enterRunning hi fun hr => ?_).alike (.withFailure _ f)
    rw [Stage.dormant, hr] at hd
    cases hd
  halts h hr := h.halt hr
  completes {n i} c h hi hf := by
    obtain ⟨f, hg⟩ := Network.complete_graph (B := B) (c := c) hf
    rw [hg]
    exact (h.retire hi).alike (.withFailure _ f)

/-- As long as nothing is activated no further stage runs. -/
theorem lasting_among (B : Bodies W) (g : Graph) :
    Lasting B fun n => ∀ i, (n.graph.stage i).state = .running → (g.stage i).state = .running where
  halts {n i} h hr j hj := by
    rw [Network.graph_mapGraph, Graph.state_halt hr] at hj
    split at hj
    · cases hj
    · exact h j hj
  completes {n i} c h hi hf j hj := by
    rw [Network.state_complete hi] at hj
    split at hj
    · cases hj
    · exact h j hj

theorem lasting_idle (B : Bodies W) :
    Lasting B fun n => ∀ i, (n.graph.stage i).state ≠ .running where
  halts h hr := absurd hr (h _)
  completes {n i} c h hi hf j := by
    rw [Network.state_complete hi]
    split
    · decide
    · exact h j

/-- What calls preserve, given that the edges come first: exact counters on a wired graph, and that
no stage runs as long as edges may still be added. -/
structure Network.Tidy (n : Network W) (calls : List (Call W)) : Prop where
  wired : n.graph.Wired
  counted : n.graph.Counted
  idle : (∃ call ∈ calls, call.connects = true) → ∀ i, (n.graph.stage i).state ≠ .running

theorem Network.Tidy.perform {calls : List (Call W)} (h : n.Tidy (call :: calls))
    (he : call.activates = true → ∀ b ∈ calls, b.connects = false) :
    (n.perform B call).Tidy calls := by
  have idle : (∃ b ∈ calls, b.connects = true) →
      ∀ i, (n.graph.stage i).state ≠ .running := fun ⟨b, hb, hc⟩ =>
    h.idle ⟨b, List.mem_cons_of_mem _ hb, hc⟩
  by_cases hb : call.builds = true
  · cases call with
    | build p =>
      refine ⟨h.wired.add p, h.counted.add p fun a b hp => ?_, fun hc i => ?_⟩
      · exact h.idle ⟨_, List.mem_cons_self .., by rw [hp]; rfl⟩ a
      · have := idle hc i
        rwa [← Graph.state_add n.graph p i] at this
    | _ => cases hb
  · have hb : call.builds = false := by simpa using hb
    have course := course_perform (B := B) h.wired hb
    refine ⟨h.wired.of_bare course.bare, course.counted h.wired h.counted, fun hc => ?_⟩
    have ha : call.activates = false := by
      by_contra ha
      obtain ⟨b, hm, hb⟩ := hc
      rw [he (by simpa using ha) b hm] at hb
      cases hb
    exact (lasting_idle B).perform (fun n m h ha i => by rw [ha.state]; exact h i)
      (fun _ => h.wired.lt_size_of_mem_sources) hb ha (idle hc)

theorem Network.Tidy.foldl {calls : List (Call W)} (h : n.Tidy calls) (he : EdgesFirst calls) :
    (calls.foldl (Network.perform B) n).Tidy [] := by
  induction calls generalizing n with
  | nil => exact h
  | cons call calls ih =>
    obtain ⟨h₁, h₂⟩ := List.pairwise_cons.1 he
    exact ih (h.perform fun ha b hb => h₁ b hb ha) h₂

theorem Network.tidy_ofCalls (B : Bodies W) (world : W) {calls : List (Call W)}
    (he : EdgesFirst calls) :
    (ofCalls B world calls).Tidy [] :=
  Tidy.foldl ⟨Graph.wired_empty, Graph.counted_empty, fun _ i => by
    rw [Graph.stage_of_size_le (Nat.zero_le i)]
    decide⟩ he

/-- **The counters are exact after any calls.** The network counts its running stages and each stage
its running feeders, so it is drained exactly when no stage runs; and whatever is called next is a
course of changes along which every stage that leaves the running state is found in each counter
that is lowered for it. -/
theorem counters_exact (B : Bodies W) (world : W) (calls : List (Call W)) (he : EdgesFirst calls) :
    let n := Network.ofCalls B world calls
    n.graph.running = n.graph.stages.countP (·.state == .running) ∧
      (∀ i, (n.graph.stage i).runningFeeders =
        (n.graph.stage i).feeders.countP fun u => (n.graph.stage u).state == .running) ∧
      (n.graph.drained = true ↔ ∀ i, (n.graph.stage i).state ≠ .running) ∧
      (∀ call : Call W, call.builds = false → Course B n (n.perform B call)) ∧
      ∀ m, Course B n m → ∀ i, (m.graph.stage i).state = .running →
        m.graph.LowersTo (m.graph.halt i) i ∧ m.graph.LowersTo (m.graph.retire i) i := by
  intro n
  have tidy := Network.tidy_ofCalls B world he
  refine ⟨tidy.counted.running, tidy.counted.feeders, tidy.counted.drained_iff,
    fun call => course_perform tidy.wired, fun m hm i hr => ?_⟩
  have w := tidy.wired.of_bare hm.bare
  have counted := hm.counted tidy.wired tidy.counted
  exact ⟨counted.halt_lowersTo w hr, counted.retire_lowersTo w hr⟩

end

/-- A ring of two stages that is paused while a worker holds one of them and another worker gives
back what it never had. -/
def ringCalls : List (Call Unit) :=
  [.build (.stage "a" .source false), .build (.stage "b" .interior true), .build (.edge 0 1),
    .build (.edge 1 0), .build (.source 0), .activate 0, .assign ⟨.sticky 2, 1⟩ 0 none none,
    .pause 1, .activateAll,
    .giveBack ⟨.sticky 2, 1⟩ 1 1 (some .finished),
    .assign ⟨.sticky 2, 1⟩ 0 (some 0) (some .success), .finishSources]

theorem counters_exact_ring :
    EdgesFirst ringCalls ∧
      (Network.ofCalls .inert () ringCalls).graph.running =
        (Network.ofCalls .inert () ringCalls).graph.stages.countP (·.state == .running) :=
  ⟨by decide, (counters_exact .inert () ringCalls (by decide)).1⟩

end Pipework
