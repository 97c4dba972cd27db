import Pipework.Proofs.Graph.Stages

/-!
# The wiring of a graph

What is fixed once a graph is built: its stages without their status (`Graph.bare`), the sources and
the sinks. In a *wired* graph feeders and listeners mirror each other, and nothing refers to a stage
that does not exist. Every graph that is built out of parts is wired and *fresh*, which is to say
that nothing has happened to it (`wired_ofParts`, `fresh_ofParts`).
-/

namespace Pipework

/-! ### Graphs without their status -/

/-- A stage as it was built. -/
def Stage.bare (s : Stage) : Stage :=
  { name := s.name, kind := s.kind, parallel := s.parallel, listeners := s.listeners,
    feeders := s.feeders
    isSource := s.isSource }

/-- What has happened to a stage. -/
def Stage.status (s : Stage) : Stage :=
  { name := "", kind := .interior, parallel := false, metrics := s.metrics, state := s.state,
    holders := s.holders
    runningFeeders := s.runningFeeders, opened := s.opened, closingDue := s.closingDue,
    lastPicked := s.lastPicked
    lastYield := s.lastYield }

namespace Graph

variable {g g' : Graph} {i j : StageId}

/-- A graph as it was built. -/
def bare (g : Graph) : Graph :=
  { stages := g.stages.map Stage.bare, sources := g.sources, sinks := g.sinks }

@[simp] theorem size_bare (g : Graph) : g.bare.size = g.size := by simp [bare, size]

theorem stage_bare (g : Graph) (i : StageId) : g.bare.stage i = (g.stage i).bare := by
  unfold bare stage
  rw [show (default : Stage) = Stage.bare default from rfl, List.getD_map]
  rfl

theorem bare_modify {f : Stage → Stage} (h : ∀ s, (f s).bare = s.bare) (i : StageId) :
    (g.modify i f).bare = g.bare := by
  unfold bare modify
  simp only [mk.injEq, and_true]
  refine List.ext_getElem? fun k => ?_
  rw [List.getElem?_map, List.getElem?_map, List.getElem?_modify]
  by_cases hk : i = k
  · cases g.stages[k]? <;> simp [hk, h]
  · simp [hk]

theorem bare_modifyAll {f : Stage → Stage} (h : ∀ s, (f s).bare = s.bare) (is : List StageId) :
    (g.modifyAll is f).bare = g.bare := by
  induction is generalizing g with
  | nil => rfl
  | cons i is ih => exact ih.trans (bare_modify h i)

@[simp] theorem bare_enterRunning (g : Graph) (i : StageId) : (g.enterRunning i).bare = g.bare :=
  (bare_modifyAll (f := fun s => { s with runningFeeders := s.runningFeeders + 1 })
    (fun _ => rfl) _).trans
    (bare_modify (f := fun s => { s with state := .running, opened := true }) (fun _ => rfl) i)

@[simp] theorem bare_leaveRunning (g : Graph) (i : StageId) : (g.leaveRunning i).bare = g.bare :=
  bare_modifyAll (f := fun s => { s with runningFeeders := s.runningFeeders - 1 }) (fun _ => rfl) _

@[simp] theorem bare_halt (g : Graph) (i : StageId) : (g.halt i).bare = g.bare := by
  unfold halt
  split
  · exact (bare_leaveRunning _ i).trans (bare_modify (f := fun s => { s with state := .paused })
      (fun _ => rfl) i)
  · rfl

@[simp] theorem bare_retire (g : Graph) (i : StageId) : (g.retire i).bare = g.bare := by
  have h := bare_modify (g := g) (f := fun s =>
    { s with
      state := .finished, opened := true, closingDue := s.closingDue || decide (0 < s.holders) })
    (fun _ => rfl) i
  unfold retire
  simp only
  split
  · rw [bare_leaveRunning, h]
  · exact h

@[simp] theorem bare_withFailure (g : Graph) (f : Option Failure) :
    (g.withFailure f).bare = g.bare := rfl

@[simp] theorem bare_recordFailure (g : Graph) (f : Failure) :
    (g.recordFailure f).bare = g.bare := by
  unfold recordFailure
  split <;> rfl

section Bare

variable (h : g.bare = g'.bare)
include h

theorem size_of_bare : g.size = g'.size := by rw [← size_bare g, h, size_bare]

theorem stage_of_bare (i : StageId) : (g.stage i).bare = (g'.stage i).bare := by
  rw [← stage_bare, h, stage_bare]

theorem listeners_of_bare (i : StageId) : (g.stage i).listeners = (g'.stage i).listeners := by
  have := congrArg Stage.listeners (stage_of_bare h i)
  exact this

theorem feeders_of_bare (i : StageId) : (g.stage i).feeders = (g'.stage i).feeders := by
  have := congrArg Stage.feeders (stage_of_bare h i)
  exact this

theorem isSource_of_bare (i : StageId) : (g.stage i).isSource = (g'.stage i).isSource := by
  have := congrArg Stage.isSource (stage_of_bare h i)
  exact this

theorem sources_of_bare : g.sources = g'.sources := by
  have := congrArg Graph.sources h
  exact this

theorem sinks_of_bare : g.sinks = g'.sinks := by
  have := congrArg Graph.sinks h
  exact this

end Bare

/-! ### Wired graphs -/

/-- Feeders and listeners mirror each other, no stage is listed twice or listens to itself, and the
sources are the stages that are marked as such. -/
structure Wired (g : Graph) : Prop where
  mirror : ∀ i j, (g.stage i).listeners.count j = (g.stage j).feeders.count i
  feeders_nodup : ∀ i, (g.stage i).feeders.Nodup
  irreflexive : ∀ i, i ∉ (g.stage i).feeders
  mem_sources : ∀ i, i ∈ g.sources ↔ (g.stage i).isSource = true

namespace Wired

theorem congr (w : g'.Wired) (hl : ∀ i, (g.stage i).listeners = (g'.stage i).listeners)
    (hf : ∀ i, (g.stage i).feeders = (g'.stage i).feeders)
    (hs : ∀ i, (g.stage i).isSource = (g'.stage i).isSource) (hm : g.sources = g'.sources) :
    g.Wired where
  mirror i j := by rw [hl, hf, w.mirror]
  feeders_nodup i := by rw [hf]; exact w.feeders_nodup i
  irreflexive i := by rw [hf]; exact w.irreflexive i
  mem_sources i := by rw [hm, hs, w.mem_sources]

theorem of_bare (w : g'.Wired) (h : g.bare = g'.bare) : g.Wired :=
  w.congr (listeners_of_bare h) (feeders_of_bare h) (isSource_of_bare h) (sources_of_bare h)

section

variable (w : g.Wired)
include w

theorem mem_listeners_iff : j ∈ (g.stage i).listeners ↔ i ∈ (g.stage j).feeders := by
  rw [← List.count_pos_iff, w.mirror, List.count_pos_iff]

theorem lt_size_of_mem_listeners (h : j ∈ (g.stage i).listeners) : i < g.size ∧ j < g.size := by
  constructor
  · by_contra hi
    rw [stage_of_size_le (Nat.le_of_not_lt hi)] at h
    exact List.not_mem_nil h
  · by_contra hj
    have h := w.mem_listeners_iff.1 h
    rw [stage_of_size_le (Nat.le_of_not_lt hj)] at h
    exact List.not_mem_nil h

theorem lt_size_of_mem_sources (h : i ∈ g.sources) : i < g.size := by
  by_contra hi
  have h := (w.mem_sources i).1 h
  rw [stage_of_size_le (Nat.le_of_not_lt hi)] at h
  exact absurd h (by decide)

end

end Wired

/-! ### Linked stages -/

/-- Each stage of a list has the next one as its only listener, which has no other feeder. The last
one has no listener. -/
def Links (g : Graph) : List StageId → Prop
  | [] => True
  | [i] => (g.stage i).listeners = []
  | i :: j :: rest => (g.stage i).listeners = [j] ∧ (g.stage j).feeders = [i] ∧ g.Links (j :: rest)

/-! ### Building -/

/-- A part of a graph. -/
inductive Part where
  | stage (name : String) (kind : Kind) (parallel : Bool)
  | edge (feeder listener : StageId)
  | source (i : StageId)
  | sink (i : StageId)
  | knobs (i : StageId) (f : Knobs → Knobs)

/-- Adds a part to a graph; one that is refused is left out. -/
def add (g : Graph) : Part → Graph
  | .stage name kind parallel => (g.addStage name kind parallel).toOption.getD g
  | .edge feeder listener => (g.connect feeder listener).toOption.getD g
  | .source i => (g.markSource i).toOption.getD g
  | .sink i => (g.markSink i).toOption.getD g
  | .knobs i f => g.modifyKnobs i f

/-- The graph of some parts. -/
def ofParts (parts : List Part) : Graph := parts.foldl add .empty

/-! ### Wiring and status of what was built -/

/-- Nothing has happened to the graph. -/
structure Fresh (g : Graph) : Prop where
  status : ∀ i, (g.stage i).status = Stage.status default
  running : g.running = 0
  failure : g.failure = none
  streaks : g.streaks = []

theorem stage_append (g : Graph) (s : Stage) (i : StageId) :
    ({ g with stages := g.stages ++ [s] } : Graph).stage i =
      if i = g.size then s else g.stage i := by
  unfold stage size
  rcases Nat.lt_trichotomy i g.stages.length with h | h | h
  · rw [if_neg (Nat.ne_of_lt h), List.getD_append _ _ _ _ h]
  · rw [if_pos h, List.getD_append_right _ _ _ _ (Nat.le_of_eq h.symm), h]
    simp
  · rw [if_neg (Nat.ne_of_gt h), List.getD_eq_default _ _ (Nat.le_of_lt h),
      List.getD_eq_default _ _ (by simp; omega)]

/-- A new stage looks as if it had been there all the time. -/
theorem map_stage_addStage {β : Type} (φ : Stage → β) {name : String} {kind : Kind}
    {parallel : Bool} (h : g.addStage name kind parallel = .ok g')
    (hφ : φ { name, kind, parallel } = φ default) (i : StageId) :
    φ (g'.stage i) = φ (g.stage i) := by
  unfold addStage at h
  split at h
  · cases h
  · cases h
    rw [stage_append]
    split
    · subst i
      rw [hφ, stage_of_size_le (Nat.le_refl _)]
    · rfl

theorem connect_ok {a b : StageId} (h : g.connect a b = .ok g') :
    a < g.size ∧ b < g.size ∧ a ≠ b ∧
      (b ∈ (g.stage a).listeners ∧ g' = g ∨
        b ∉ (g.stage a).listeners ∧
          g' = (g.modify a fun s => { s with listeners := s.listeners ++ [b] }).modify b
            fun s => { s with feeders := s.feeders ++ [a] }) := by
  unfold connect check at h
  by_cases ha : a < g.size
  · by_cases hb : b < g.size
    · simp only [ha, hb, if_true] at h
      refine ⟨ha, hb, ?_⟩
      by_cases hab : a = b
      · simp only [hab, if_true] at h
        cases h
      · refine ⟨hab, ?_⟩
        by_cases hl : b ∈ (g.stage a).listeners
        · left
          simp only [hab, hl, if_true, if_false] at h
          cases h
          exact ⟨hl, rfl⟩
        · right
          simp only [hab, hl, if_false] at h
          cases h
          exact ⟨hl, rfl⟩
    · simp only [ha, hb, if_true, if_false] at h
      cases h
  · simp only [ha, if_false] at h
    cases h

/-- A new edge shows at its two ends only. -/
theorem stage_connect {a b : StageId} (ha : a < g.size) (hb : b < g.size) (hab : a ≠ b)
    (i : StageId) :
    ((g.modify a fun s => { s with listeners := s.listeners ++ [b] }).modify b
        fun s => { s with feeders := s.feeders ++ [a] }).stage i =
      { g.stage i with
        listeners := if i = a then (g.stage i).listeners ++ [b] else (g.stage i).listeners
        feeders := if i = b then (g.stage i).feeders ++ [a] else (g.stage i).feeders } := by
  rw [stage_modify, stage_modify]
  by_cases h₁ : i = a
  · subst h₁
    simp [ha, Ne.symm hab, hab]
  · by_cases h₂ : i = b
    · subst h₂
      simp [hb, hab, h₁]
    · simp [h₁, h₂, Ne.symm h₁, Ne.symm h₂]

theorem Wired.connect {a b : StageId} (w : g.Wired) (h : g.connect a b = .ok g') : g'.Wired := by
  obtain ⟨ha, hb, hab, ⟨-, rfl⟩ | ⟨hl, rfl⟩⟩ := connect_ok h
  · exact w
  · have hs := fun i => stage_connect ha hb hab i
    refine ⟨fun i j => ?_, fun i => ?_, fun i => ?_, fun i => ?_⟩
    · rw [hs i, hs j]
      have := w.mirror i j
      by_cases hi : i = a
      · by_cases hj : j = b
        · subst hi hj
          simpa using this
        · subst hi
          simpa [hj, Ne.symm hj] using this
      · by_cases hj : j = b
        · subst hj
          simpa [hi, Ne.symm hi] using this
        · simpa [hi, hj] using this
    · rw [hs i]
      by_cases hi : i = b
      · have hf : a ∉ (g.stage i).feeders := fun hc => hl (w.mem_listeners_iff.2 (hi ▸ hc))
        simp only [hi, if_true]
        rw [List.nodup_append]
        refine ⟨w.feeders_nodup b, by simp, fun x hx y hy => ?_⟩
        rw [List.mem_singleton] at hy
        subst hy
        rintro rfl
        exact hf (hi ▸ hx)
      · simpa [hi] using w.feeders_nodup i
    · rw [hs i]
      by_cases hi : i = b
      · subst hi
        simp [w.irreflexive i, Ne.symm hab]
      · simpa [hi] using w.irreflexive i
    · rw [hs i]
      exact w.mem_sources i

theorem markSource_ok {k : StageId} (h : g.markSource k = .ok g') :
    k < g.size ∧ (g' = g ∨
      g' = { g.modify k (fun s => { s with isSource := true }) with
        sources := g.sources ++ [k] }) := by
  unfold markSource check at h
  by_cases hk : k < g.size
  · refine ⟨hk, ?_⟩
    simp only [hk, if_true] at h
    by_cases hm : k ∈ g.sources
    · simp only [hm, if_true] at h
      cases h
      exact .inl rfl
    · simp only [hm, if_false] at h
      cases h
      exact .inr rfl
  · simp only [hk, if_false] at h
    cases h

theorem Wired.markSource {k : StageId} (w : g.Wired) (h : g.markSource k = .ok g') : g'.Wired := by
  obtain ⟨hk, rfl | rfl⟩ := markSource_ok h
  · exact w
  · have key : ∀ i, ({ g.modify k (fun s => { s with isSource := true }) with
        sources := g.sources ++ [k] } : Graph).stage i =
        { g.stage i with isSource := (g.stage i).isSource || decide (i = k) } := by
      intro i
      refine (stage_modify g k i _).trans ?_
      by_cases hi : k = i
      · subst hi
        simp [hk]
      · simp [hi, Ne.symm hi]
    refine ⟨fun i j => ?_, fun i => ?_, fun i => ?_, fun i => ?_⟩
    · rw [key i, key j]
      exact w.mirror i j
    · rw [key i]
      exact w.feeders_nodup i
    · rw [key i]
      exact w.irreflexive i
    · rw [key i]
      simp [w.mem_sources i]

theorem wired_empty : empty.Wired where
  mirror _ _ := rfl
  feeders_nodup _ := List.nodup_nil
  irreflexive _ := List.not_mem_nil
  mem_sources _ := by simp [empty, stage]

theorem Wired.addStage {name : String} {kind : Kind} {parallel : Bool} (w : g.Wired)
    (h : g.addStage name kind parallel = .ok g') : g'.Wired := by
  refine w.congr (map_stage_addStage Stage.listeners h rfl) (map_stage_addStage Stage.feeders h rfl)
    (map_stage_addStage Stage.isSource h rfl) ?_
  unfold Graph.addStage at h
  split at h <;> cases h
  rfl

theorem markSink_ok {k : StageId} (h : g.markSink k = .ok g') :
    ∃ l, g' = { g with sinks := l } := by
  unfold markSink check at h
  by_cases hk : k < g.size
  · simp only [hk, if_true] at h
    by_cases hm : k ∈ g.sinks
    · simp only [hm, if_true] at h
      cases h
      exact ⟨g.sinks, rfl⟩
    · simp only [hm, if_false] at h
      cases h
      exact ⟨_, rfl⟩
  · simp only [hk, if_false] at h
    cases h

theorem bare_modifyKnobs (g : Graph) (i : StageId) (f : Knobs → Knobs) :
    (g.modifyKnobs i f).bare = g.bare :=
  bare_modify (f := fun s => { s with knobs := f s.knobs }) (fun _ => rfl) i

/-- A part is added or refused. -/
theorem add_cases (g : Graph) (p : Part) :
    g.add p = g ∨
      (∃ name kind parallel, p = .stage name kind parallel ∧
        g.addStage name kind parallel = .ok (g.add p)) ∨
      (∃ a b, p = .edge a b ∧ g.connect a b = .ok (g.add p)) ∨
      (∃ i, p = .source i ∧ g.markSource i = .ok (g.add p)) ∨
      (∃ i, p = .sink i ∧ g.markSink i = .ok (g.add p)) ∨
      ∃ i f, p = .knobs i f ∧ g.add p = g.modifyKnobs i f := by
  cases p with
  | stage name kind parallel =>
    cases h : g.addStage name kind parallel with
    | error e => left; simp [add, h, Except.toOption]
    | ok g' => right; left; exact ⟨_, _, _, rfl, by simp [add, h, Except.toOption]⟩
  | edge a b =>
    cases h : g.connect a b with
    | error e => left; simp [add, h, Except.toOption]
    | ok g' => right; right; left; exact ⟨_, _, rfl, by simp [add, h, Except.toOption]⟩
  | source i =>
    cases h : g.markSource i with
    | error e => left; simp [add, h, Except.toOption]
    | ok g' => right; right; right; left; exact ⟨_, rfl, by simp [add, h, Except.toOption]⟩
  | sink i =>
    cases h : g.markSink i with
    | error e => left; simp [add, h, Except.toOption]
    | ok g' => right; right; right; right; left; exact ⟨_, rfl, by simp [add, h, Except.toOption]⟩
  | knobs i f => right; right; right; right; right; exact ⟨i, f, rfl, rfl⟩

theorem Wired.add (w : g.Wired) (p : Part) : (g.add p).Wired := by
  rcases add_cases g p with h | ⟨_, _, _, -, h⟩ | ⟨_, _, -, h⟩ | ⟨_, -, h⟩ | ⟨_, -, h⟩ |
    ⟨i, f, -, h⟩
  · rw [h]
    exact w
  · exact w.addStage h
  · exact w.connect h
  · exact w.markSource h
  · obtain ⟨l, hl⟩ := markSink_ok h
    rw [hl]
    exact w.congr (fun _ => rfl) (fun _ => rfl) (fun _ => rfl) rfl
  · rw [h]
    exact w.of_bare (bare_modifyKnobs g i f)

/-- Building does not touch what has happened. -/
theorem status_add (g : Graph) (p : Part) (i : StageId) :
    ((g.add p).stage i).status = (g.stage i).status := by
  rcases add_cases g p with h | ⟨_, _, _, -, h⟩ | ⟨a, b, -, h⟩ | ⟨k, -, h⟩ | ⟨_, -, h⟩ |
    ⟨k, f, -, h⟩
  · rw [h]
  · exact map_stage_addStage Stage.status h rfl i
  · obtain ⟨ha, hb, hab, ⟨-, h⟩ | ⟨-, h⟩⟩ := connect_ok h
    · rw [h]
    · rw [h, stage_connect ha hb hab]
      rfl
  · obtain ⟨-, h | h⟩ := markSource_ok h
    · rw [h]
    · rw [h]
      exact map_stage_modify Stage.status (f := fun s => { s with isSource := true })
        (fun _ => rfl) k i
  · obtain ⟨l, hl⟩ := markSink_ok h
    rw [hl]
    rfl
  · rw [h]
    exact map_stage_modify Stage.status (f := fun s => { s with knobs := f s.knobs })
      (fun _ => rfl) k i

theorem state_add (g : Graph) (p : Part) (i : StageId) :
    ((g.add p).stage i).state = (g.stage i).state := by
  have := congrArg Stage.state (status_add g p i)
  exact this

theorem runningFeeders_add (g : Graph) (p : Part) (i : StageId) :
    ((g.add p).stage i).runningFeeders = (g.stage i).runningFeeders := by
  have := congrArg Stage.runningFeeders (status_add g p i)
  exact this

theorem holders_add (g : Graph) (p : Part) (i : StageId) :
    ((g.add p).stage i).holders = (g.stage i).holders := by
  have := congrArg Stage.holders (status_add g p i)
  exact this

theorem life_add (g : Graph) (p : Part) (i : StageId) :
    ((g.add p).stage i).life = (g.stage i).life := by
  have := congrArg Stage.life (status_add g p i)
  exact this

theorem lastPicked_add (g : Graph) (p : Part) (i : StageId) :
    ((g.add p).stage i).lastPicked = (g.stage i).lastPicked := by
  have := congrArg Stage.lastPicked (status_add g p i)
  exact this

theorem fields_add (g : Graph) (p : Part) :
    (g.add p).running = g.running ∧ (g.add p).failure = g.failure ∧ (g.add p).streaks = g.streaks ∧
      (g.add p).tick = g.tick := by
  rcases add_cases g p with h | ⟨_, _, _, -, h⟩ | ⟨a, b, -, h⟩ | ⟨k, -, h⟩ | ⟨_, -, h⟩ |
    ⟨k, f, -, h⟩
  · rw [h]
    exact ⟨rfl, rfl, rfl, rfl⟩
  · unfold addStage at h
    split at h
    · cases h
    · rw [← Except.ok.inj h]
      exact ⟨rfl, rfl, rfl, rfl⟩
  · obtain ⟨-, -, -, ⟨-, h⟩ | ⟨-, h⟩⟩ := connect_ok h <;> rw [h] <;> exact ⟨rfl, rfl, rfl, rfl⟩
  · obtain ⟨-, h | h⟩ := markSource_ok h <;> rw [h] <;> exact ⟨rfl, rfl, rfl, rfl⟩
  · obtain ⟨l, hl⟩ := markSink_ok h
    rw [hl]
    exact ⟨rfl, rfl, rfl, rfl⟩
  · rw [h]
    exact ⟨rfl, rfl, rfl, rfl⟩

theorem Fresh.add (hg : g.Fresh) (p : Part) : (g.add p).Fresh where
  status i := (status_add g p i).trans (hg.status i)
  running := (fields_add g p).1.trans hg.running
  failure := (fields_add g p).2.1.trans hg.failure
  streaks := (fields_add g p).2.2.1.trans hg.streaks

theorem fresh_empty : empty.Fresh := ⟨fun _ => rfl, rfl, rfl, rfl⟩

/-- What holds of the empty graph and survives every part holds of every graph that is built. -/
theorem ofParts_induction {P : Graph → Prop} (h₀ : P empty) (h : ∀ g p, P g → P (g.add p))
    (parts : List Part) :
    P (ofParts parts) := by
  unfold ofParts
  generalize empty = g at h₀
  induction parts generalizing g with
  | nil => exact h₀
  | cons p parts ih => exact ih _ (h _ p h₀)

/-- **Every graph that is built out of parts is wired.** -/
theorem wired_ofParts (parts : List Part) : (ofParts parts).Wired :=
  ofParts_induction wired_empty (fun _ p w => w.add p) parts

theorem fresh_ofParts (parts : List Part) : (ofParts parts).Fresh :=
  ofParts_induction fresh_empty (fun _ p hg => hg.add p) parts

section

variable (hg : g.Fresh)
include hg

theorem Fresh.state (i : StageId) : (g.stage i).state = .unopened := by
  have := congrArg Stage.state (hg.status i)
  exact this

theorem Fresh.holders (i : StageId) : (g.stage i).holders = 0 := by
  have := congrArg Stage.holders (hg.status i)
  exact this

theorem Fresh.runningFeeders (i : StageId) : (g.stage i).runningFeeders = 0 := by
  have := congrArg Stage.runningFeeders (hg.status i)
  exact this

theorem Fresh.metrics (i : StageId) : (g.stage i).metrics = {} := by
  have := congrArg Stage.metrics (hg.status i)
  exact this

theorem Fresh.opened (i : StageId) : (g.stage i).opened = false := by
  have := congrArg Stage.opened (hg.status i)
  exact this

theorem Fresh.closingDue (i : StageId) : (g.stage i).closingDue = false := by
  have := congrArg Stage.closingDue (hg.status i)
  exact this

end

end Graph

end Pipework
