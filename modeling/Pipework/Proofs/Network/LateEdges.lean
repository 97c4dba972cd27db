import Pipework.Proofs.Network.Counters

/-!
# Edges that come late

An edge may be added while its feeder is running already. Its listener is not told: of such *late*
edges the counter of running feeders knows nothing, and when the feeder stops something is taken
away that was never added, unless the counter is at zero. This module follows how far each counter
is behind. It is never ahead, it falls behind by at most one for each late edge, and it is exact at
all times exactly if no late edge leads to its stage (`runningFeeders_exact_iff`).
-/

namespace Pipework

namespace Graph

variable {g g' : Graph} {i j : StageId} {d : Nat}

/-- How many feeders of a stage are running. -/
def feeding (g : Graph) (j : StageId) : Nat :=
  (g.stage j).feeders.countP fun u => (g.stage u).state == .running

/-- Whether an edge between two stages would be new and its feeder is running. -/
def late (g : Graph) (a b : StageId) : Bool :=
  decide (a ≠ b) && decide (b < g.size) && decide (b ∉ (g.stage a).listeners) &&
    (g.stage a).state == .running

/-- The counter of a stage is behind the number of its running feeders, by `d` at most. -/
structure Lags (g : Graph) (j : StageId) (d : Nat) : Prop where
  le : (g.stage j).runningFeeders ≤ g.feeding j
  feeding_le : g.feeding j ≤ (g.stage j).runningFeeders + d

theorem lags_empty (j : StageId) : empty.Lags j 0 := ⟨Nat.le_refl 0, Nat.le_refl 0⟩

theorem lags_of_size_le (h : g.size ≤ j) (d : Nat) : g.Lags j d := by
  have hfeeding : g.feeding j = 0 := by
    unfold feeding
    rw [stage_of_size_le h]
    rfl
  have hcount : (g.stage j).runningFeeders = 0 := by rw [stage_of_size_le h]; rfl
  exact ⟨by omega, by omega⟩

theorem Lags.exact (h : g.Lags j 0) : (g.stage j).runningFeeders = g.feeding j :=
  Nat.le_antisymm h.le h.feeding_le

/-! ### Changes of status -/

theorem feeding_congr (hf : (g'.stage j).feeders = (g.stage j).feeders)
    (hs : ∀ i, (g'.stage i).state = .running ↔ (g.stage i).state = .running) :
    g'.feeding j = g.feeding j := by
  have hs' : ∀ i, ((g'.stage i).state == .running) = ((g.stage i).state == .running) := fun i => by
    rw [Bool.eq_iff_iff, beq_iff_eq, beq_iff_eq, hs]
  unfold feeding
  simp only [hf, hs']

theorem Lags.congr (h : g.Lags j d) (hr : (g'.stage j).runningFeeders = (g.stage j).runningFeeders)
    (hf : (g'.stage j).feeders = (g.stage j).feeders)
    (hs : ∀ i, (g'.stage i).state = .running ↔ (g.stage i).state = .running) : g'.Lags j d := by
  have hfeeding := feeding_congr hf hs
  exact ⟨by rw [hr, hfeeding]; exact h.le, by rw [hr, hfeeding]; exact h.feeding_le⟩

theorem Lags.alike (h : g.Lags j d) (ha : g.Alike g') : g'.Lags j d :=
  h.congr (ha.runningFeeders j) (feeders_of_bare ha.bare j) fun i => by rw [ha.state]

/-- A stage that starts to run is told to those that listen to it by then. -/
theorem Lags.enterRunning (h : g.Lags j d) (w : g.Wired) (hi : i < g.size)
    (hs : (g.stage i).state ≠ .running) (hj : j < g.size) : (g.enterRunning i).Lags j d := by
  have hq : ((g.enterRunning i).stage i).state = .running := by rw [stage_enterRunning hi]; simp
  have ho : ∀ k, k < g.size → i ≠ k → ((g.enterRunning i).stage k).state = (g.stage k).state := by
    intro k hk hik
    rw [stage_enterRunning hk]
    simp [hik]
  have hfeeding : (g.enterRunning i).feeding j = g.feeding j + (g.stage i).listeners.count j :=
    countP_feeders w (bare_enterRunning g i) hs hq ho j
  have hcount : ((g.enterRunning i).stage j).runningFeeders =
      (g.stage j).runningFeeders + (g.stage i).listeners.count j := by rw [stage_enterRunning hj]
  have := h.le
  have := h.feeding_le
  exact ⟨by omega, by omega⟩

/-- When a stage stops, a counter that is not ahead does not get ahead, even where it is cut off at
zero. -/
theorem Lags.lower (h : g.Lags j d) (w : g.Wired) (hb : g'.bare = g.bare)
    (hs : (g.stage i).state = .running) (hi : (g'.stage i).state ≠ .running)
    (ho : ∀ k, k < g.size → i ≠ k → (g'.stage k).state = (g.stage k).state)
    (hr : (g'.stage j).runningFeeders =
      (g.stage j).runningFeeders - (g.stage i).listeners.count j) :
    g'.Lags j d := by
  have ho' : ∀ k, k < g'.size → i ≠ k → (g.stage k).state = (g'.stage k).state := fun k hk hik =>
    (ho k (size_of_bare hb ▸ hk) hik).symm
  have hfeeding : g.feeding j = g'.feeding j + (g'.stage i).listeners.count j :=
    countP_feeders (w.of_bare hb) hb.symm hi hs ho' j
  rw [listeners_of_bare hb] at hfeeding
  have := h.le
  have := h.feeding_le
  exact ⟨by omega, by omega⟩

theorem Lags.halt (h : g.Lags j d) (w : g.Wired) (hs : (g.stage i).state = .running)
    (hj : j < g.size) :
    (g.halt i).Lags j d := by
  refine h.lower w (bare_halt g i) hs ?_ (fun k hk hik => ?_) (by rw [stage_halt hs hj])
  · rw [state_halt hs, if_pos rfl]
    decide
  · rw [state_halt hs, if_neg hik]

theorem Lags.retire (h : g.Lags j d) (w : g.Wired) (hi : i < g.size) (hj : j < g.size) :
    (g.retire i).Lags j d := by
  have hstate : ∀ k, k < g.size →
      ((g.retire i).stage k).state = if i = k then .finished else (g.stage k).state :=
    fun k hk => by rw [stage_retire hk]
  by_cases hs : (g.stage i).state = .running
  · refine h.lower w (bare_retire g i) hs ?_ (fun k hk hik => ?_)
      (by rw [stage_retire hj]; simp [hs])
    · rw [hstate i hi, if_pos rfl]
      decide
    · rw [hstate k hk, if_neg hik]
  · refine h.congr (by rw [stage_retire hj]; simp [hs]) (feeders_of_bare (bare_retire g i) j)
      fun k => ?_
    by_cases hk : k < g.size
    · rw [hstate k hk]
      by_cases hik : i = k
      · subst hik
        simp [hs]
      · rw [if_neg hik]
    · have hk := Nat.le_of_not_lt hk
      rw [stage_of_size_le hk, stage_of_size_le (by simpa using hk)]

/-! ### Building -/

/-- Whether a part is a late edge to a stage. -/
def addsLate (g : Graph) (j : StageId) : Part → Bool
  | .edge a b => decide (b = j) && g.late a b
  | _ => false

theorem connect_of_late {a b : StageId} (h : g.late a b = true) :
    g.connect a b = .ok ((g.modify a fun s => { s with listeners := s.listeners ++ [b] }).modify b
      fun s => { s with feeders := s.feeders ++ [a] }) := by
  unfold late at h
  simp only [Bool.and_eq_true, decide_eq_true_eq, beq_iff_eq] at h
  obtain ⟨⟨⟨hab, hb⟩, hl⟩, hs⟩ := h
  have ha : a < g.size := lt_size_of_state_ne (by simp [hs])
  simp only [connect, check, ha, hb, hab, hl, if_true, if_false]
  rfl

theorem feeding_connect {a b : StageId} (h : g.connect a b = .ok g') (j : StageId) :
    g'.feeding j = g.feeding j + (g.addsLate j (.edge a b)).toNat := by
  obtain ⟨ha, hb, hab, ⟨hl, rfl⟩ | ⟨hl, rfl⟩⟩ := connect_ok h
  · simp [addsLate, late, hl]
  · unfold feeding
    simp only [stage_connect ha hb hab]
    by_cases hj : j = b
    · subst hj
      by_cases hs : (g.stage a).state = .running <;> simp [addsLate, late, hab, hb, hl, hs]
    · simp [addsLate, hj, Ne.symm hj]

/-- Of all parts only a late edge feeds a stage. -/
theorem feeding_add (g : Graph) (p : Part) (j : StageId) :
    (g.add p).feeding j = g.feeding j + (g.addsLate j p).toNat := by
  have same : (∀ i, ((g.add p).stage i).feeders = (g.stage i).feeders) →
      (g.add p).feeding j = g.feeding j := fun hf =>
    feeding_congr (hf j) fun i => by rw [state_add]
  rcases add_cases g p with he | ⟨_, _, _, rfl, he⟩ | ⟨a, b, rfl, he⟩ | ⟨k, rfl, he⟩ |
    ⟨k, rfl, he⟩ | ⟨k, f, rfl, he⟩
  · cases hlate : g.addsLate j p with
    | false => rw [he, Bool.toNat_false, Nat.add_zero]
    | true =>
      -- a late edge is not refused
      cases p with
      | edge a b =>
        have hl : g.late a b = true := (Bool.and_eq_true_iff.1 hlate).2
        have hc := connect_of_late hl
        rw [← hlate]
        exact feeding_connect (hc.trans (by simp [add, hc, Except.toOption])) j
      | _ => cases hlate
  · exact same (map_stage_addStage Stage.feeders he rfl)
  · exact feeding_connect he j
  · obtain ⟨-, hg | hg⟩ := markSource_ok he
    · exact same fun i => by rw [hg]
    · exact same fun i => by
        rw [hg]
        exact map_stage_modify Stage.feeders (f := fun s => { s with isSource := true })
          (fun _ => rfl) k i
  · obtain ⟨l, hl⟩ := markSink_ok he
    exact same fun i => by rw [hl]; rfl
  · exact same (feeders_of_bare (bare_modifyKnobs g k f))

theorem Lags.add (h : g.Lags j d) (p : Part) : (g.add p).Lags j (d + (g.addsLate j p).toNat) := by
  have hfeeding := feeding_add g p j
  have hcount := runningFeeders_add g p j
  have := h.le
  have := h.feeding_le
  exact ⟨by omega, by omega⟩

end Graph

/-! ### Calls -/

section

variable {W : Type} {B : Bodies W} {n m : Network W} {j : StageId} {d : Nat} {call : Call W}

theorem Course.lags (w : n.graph.Wired) (h : n.graph.Lags j d) (hm : Course B n m) :
    m.graph.Lags j d := by
  by_cases hj : j < n.graph.size
  swap
  · exact Graph.lags_of_size_le (Graph.size_of_bare hm.bare ▸ Nat.le_of_not_lt hj) d
  induction hm with
  | start => exact h
  | opens c hm hi hd ih =>
    obtain ⟨f, hf⟩ := Network.openOne_graph _ B _ c
    rw [hf]
    refine (ih.enterRunning (w.of_bare hm.bare) hi (fun hr => ?_) ?_).alike (.withFailure _ f)
    · rw [Stage.dormant, hr] at hd
      cases hd
    · exact (Graph.size_of_bare hm.bare).symm ▸ hj
  | halts hm hr ih => exact ih.halt (w.of_bare hm.bare) hr ((Graph.size_of_bare hm.bare).symm ▸ hj)
  | completes c hm hi hf ih =>
    obtain ⟨f, hg⟩ := Network.complete_graph (B := B) (c := c) hf
    rw [hg]
    exact (ih.retire (w.of_bare hm.bare) hi ((Graph.size_of_bare hm.bare).symm ▸ hj)).alike
      (.withFailure _ f)
  | alters _ ha ih => exact ih.alike ha

namespace Network

/-- Whether a call adds a late edge to a stage. -/
def addsLate (n : Network W) (j : StageId) : Call W → Bool
  | .build p => n.graph.addsLate j p
  | _ => false

/-- How many late edges to a stage some calls add. -/
def lateEdges (B : Bodies W) (j : StageId) : Network W → List (Call W) → Nat
  | _, [] => 0
  | n, call :: calls => (n.addsLate j call).toNat + lateEdges B j (n.perform B call) calls

/-- A call leaves the counter of a stage behind by one more if it adds a late edge, and by no more
otherwise. -/
theorem lags_perform (w : n.graph.Wired) (h : n.graph.Lags j d) (call : Call W) :
    (n.perform B call).graph.Lags j (d + (n.addsLate j call).toNat) := by
  cases call with
  | build p => exact h.add p
  | _ => exact (course_perform w rfl).lags w h

theorem wired_perform (w : n.graph.Wired) (call : Call W) : (n.perform B call).graph.Wired := by
  cases call with
  | build p => exact w.add p
  | _ => exact w.of_bare (course_perform w rfl).bare

theorem lags_foldl (w : n.graph.Wired) (h : n.graph.Lags j d) (calls : List (Call W)) :
    (calls.foldl (perform B) n).graph.Lags j (d + lateEdges B j n calls) := by
  induction calls generalizing n d with
  | nil => exact h
  | cons call calls ih =>
    have := ih (wired_perform w call) (lags_perform (B := B) w h call)
    rwa [Nat.add_assoc] at this

/-- Whether the counter of a stage is exact. -/
def Exact (n : Network W) (j : StageId) : Prop :=
  (n.graph.stage j).runningFeeders = n.graph.feeding j

/-- After a late edge the counter is not exact any more. -/
theorem not_exact_of_addsLate (h : n.Exact j) (hlate : n.addsLate j call = true) :
    ¬ (n.perform B call).Exact j := by
  cases call with
  | build p =>
    have hfeeding := Graph.feeding_add n.graph p j
    have hcount := Graph.runningFeeders_add n.graph p j
    rw [show n.graph.addsLate j p = true from hlate] at hfeeding
    intro hexact
    have hexact : ((n.graph.add p).stage j).runningFeeders = (n.graph.add p).feeding j := hexact
    have h : (n.graph.stage j).runningFeeders = n.graph.feeding j := h
    simp only [Bool.toNat_true] at hfeeding
    omega
  | _ => cases hlate

theorem exact_foldl_iff (w : n.graph.Wired) (h : n.graph.Lags j 0) (calls : List (Call W)) :
    (∀ before, before <+: calls → (before.foldl (perform B) n).Exact j) ↔
    lateEdges B j n calls = 0 := by
  induction calls generalizing n with
  | nil =>
    refine ⟨fun _ => rfl, fun _ before hb => ?_⟩
    rw [List.prefix_nil.1 hb]
    exact h.exact
  | cons call calls ih =>
    cases hlate : n.addsLate j call with
    | true =>
      refine ⟨fun hall => ?_, fun hz => ?_⟩
      · exact absurd (hall [call] (List.prefix_append [call] calls))
          (not_exact_of_addsLate h.exact hlate)
      · rw [lateEdges, hlate] at hz
        simp at hz
    | false =>
      have next := lags_perform (B := B) w h call
      rw [hlate] at next
      rw [lateEdges, hlate, Bool.toNat_false, Nat.zero_add, ← ih (wired_perform w call) next]
      constructor
      · intro hall before hb
        exact hall (call :: before) (List.cons_prefix_cons.2 ⟨rfl, hb⟩)
      · intro hall before hb
        rcases List.prefix_cons_iff.1 hb with rfl | ⟨rest, rfl, hrest⟩
        · exact h.exact
        · exact hall rest hrest

end Network

/-- **Exactly the late edges are missing from the counters.** Whatever is built and called in
whatever order, the counter of a stage is never above the number of its running feeders and never
below it by more than the number of late edges to the stage; and it is exact all the time if and
only if there is no late edge to the stage. -/
theorem runningFeeders_exact_iff (B : Bodies W) (world : W) (calls : List (Call W)) (j : StageId) :
    let n := Network.ofCalls B world calls
    let late := Network.lateEdges B j ⟨.empty, world⟩ calls
    (n.graph.stage j).runningFeeders ≤ n.graph.feeding j ∧
      n.graph.feeding j ≤ (n.graph.stage j).runningFeeders + late ∧
      ((∀ before, before <+: calls → (Network.ofCalls B world before).Exact j) ↔ late = 0) := by
  intro n late
  have lags : n.graph.Lags j (0 + late) :=
    Network.lags_foldl Graph.wired_empty (Graph.lags_empty j) calls
  rw [Nat.zero_add] at lags
  exact ⟨lags.le, lags.feeding_le,
    Network.exact_foldl_iff Graph.wired_empty (Graph.lags_empty j) calls⟩

/-- A stage is activated and only then listened to. -/
def lateCalls : List (Call Unit) :=
  [.build (.stage "a" .source true), .build (.stage "b" .sink true), .build (.source 0),
    .activate 0, .build (.edge 0 1)]

/-- The one feeder of the second stage is running, and the counter of the second stage says that
none is. -/
theorem runningFeeders_late :
    let n := Network.ofCalls .inert () lateCalls
    (n.graph.stage 1).feeders = [0] ∧ (n.graph.stage 0).state = .running ∧
      (n.graph.stage 1).runningFeeders = 0 ∧
      ¬ n.Exact 1 := by
  have late : Network.ofCalls .inert () lateCalls =
      ((Network.ofCalls .inert () (lateCalls.take 3)).openOne .inert 0 none).2.mapGraph
        (·.add (.edge 0 1)) :=
    congrArg (fun n : Network Unit => n.mapGraph (·.add (.edge 0 1)))
      (Network.activate_of_no_listeners (by decide) (by decide) (by decide))
  rw [late]
  refine ⟨by decide, by decide, by decide, ?_⟩
  unfold Network.Exact
  decide

end

end Pipework
