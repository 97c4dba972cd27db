import Pipework.Proofs.Network.Counters
import Pipework.Proofs.Network.Holders

/-!
# The clock of a graph

A graph counts its assignments and notes for each stage when it was last handed out. Nothing but
handing out moves this clock (`Graph.SameTime`), and handing out a stage, whether to a new worker or
to the one that keeps it, moves it by one and makes that stage the latest (`Graph.HandsOut`). As
long as the clock does not overflow, no stage was last handed out in the future (`Graph.Timely`).

The time makes up for the work that waits. A stage that has work is passed over in favour of another
one only if the other one was last handed out not much later than it was, and then the other one
becomes the latest. So it can be passed over as often as the others are early enough, or the clock
is (`Graph.leeway`), and no more often.
-/

namespace Pipework

namespace Graph

variable {g g' g'' : Graph} {i j : StageId}

/-- When a stage was last handed out. -/
def pickedAt (g : Graph) (i : StageId) : Nat := (g.stage i).lastPicked.toNat

/-- The time is the same, and for every stage the time at which it was last handed out. -/
structure SameTime (g g' : Graph) : Prop where
  tick : g'.tick = g.tick
  lastPicked : ∀ i, (g'.stage i).lastPicked = (g.stage i).lastPicked

/-- From the first graph to the second, a stage has been handed out. -/
structure HandsOut (g : Graph) (i : StageId) (g' : Graph) : Prop where
  tick : g'.tick = g.tick + 1
  latest : (g'.stage i).lastPicked = g.tick + 1
  others : ∀ k, i ≠ k → (g'.stage k).lastPicked = (g.stage k).lastPicked

/-- No stage was last handed out in the future. -/
def Timely (g : Graph) : Prop := ∀ i, g.pickedAt i ≤ g.tick.toNat

namespace SameTime

theorem refl (g : Graph) : g.SameTime g := ⟨rfl, fun _ => rfl⟩

theorem trans (h : g.SameTime g') (h' : g'.SameTime g'') : g.SameTime g'' :=
  ⟨h'.tick.trans h.tick, fun i => (h'.lastPicked i).trans (h.lastPicked i)⟩

theorem withFailure (g : Graph) (f : Option Failure) : g.SameTime (g.withFailure f) :=
  ⟨rfl, fun _ => rfl⟩

theorem recordFailure (g : Graph) (f : Failure) : g.SameTime (g.recordFailure f) := by
  unfold Graph.recordFailure
  split
  · exact refl g
  · exact withFailure g _

theorem modify (g : Graph) (i : StageId) {f : Stage → Stage}
    (hf : ∀ s, (f s).lastPicked = s.lastPicked) :
    g.SameTime (g.modify i f) := ⟨rfl, map_stage_modify Stage.lastPicked hf i⟩

theorem modifyAll (g : Graph) (is : List StageId) {f : Stage → Stage}
    (hf : ∀ s, (f s).lastPicked = s.lastPicked) :
    g.SameTime (g.modifyAll is f) := by
  induction is generalizing g with
  | nil => exact refl g
  | cons i is ih => exact (modify g i hf).trans (ih _)

theorem clearStreak (g : Graph) (w : WorkerId) : g.SameTime (g.clearStreak w) := ⟨rfl, fun _ => rfl⟩

theorem enterRunning (g : Graph) (i : StageId) : g.SameTime (g.enterRunning i) :=
  have marked := modify g i (f := fun s => { s with state := .running, opened := true })
    fun _ => rfl
  have listeners := marked.trans
    (modifyAll _ (g.stage i).listeners
      (f := fun s => { s with runningFeeders := s.runningFeeders + 1 }) fun _ => rfl)
  ⟨listeners.tick, listeners.lastPicked⟩

theorem leaveRunning (g : Graph) (i : StageId) : g.SameTime (g.leaveRunning i) :=
  have listeners := modifyAll g (g.stage i).listeners
    (f := fun s => { s with runningFeeders := s.runningFeeders - 1 }) fun _ => rfl
  ⟨listeners.tick, listeners.lastPicked⟩

theorem halt (g : Graph) (i : StageId) : g.SameTime (g.halt i) := by
  unfold Graph.halt
  split
  · exact (modify g i (f := fun s => { s with state := .paused }) fun _ => rfl).trans
      (leaveRunning _ i)
  · exact refl g

theorem retire (g : Graph) (i : StageId) : g.SameTime (g.retire i) := by
  have marked := modify g i (f := fun s =>
    { s with
      state := .finished, opened := true, closingDue := s.closingDue || decide (0 < s.holders) })
      fun _ => rfl
  unfold Graph.retire
  simp only
  split
  · exact marked.trans (leaveRunning _ i)
  · exact marked

theorem add (g : Graph) (p : Part) : g.SameTime (g.add p) :=
  ⟨(fields_add g p).2.2.2, lastPicked_add g p⟩

theorem timely (h : g.SameTime g') (ht : g.Timely) : g'.Timely := by
  intro i
  unfold pickedAt
  rw [h.tick, h.lastPicked]
  exact ht i

end SameTime

section

variable (h : g.HandsOut i g') (hlt : g.tick.toNat + 1 < UInt64.size)
include h hlt

theorem HandsOut.toNat_tick : g'.tick.toNat = g.tick.toNat + 1 := by
  rw [h.tick, UInt64.toNat_add]
  exact Nat.mod_eq_of_lt hlt

theorem HandsOut.pickedAt_self : g'.pickedAt i = g.tick.toNat + 1 := by
  rw [← h.toNat_tick hlt, pickedAt, h.latest, h.tick]

omit hlt in
theorem HandsOut.pickedAt_ne {k : StageId} (hk : i ≠ k) : g'.pickedAt k = g.pickedAt k := by
  rw [pickedAt, h.others k hk, pickedAt]

/-- The clock is ahead of every stage as long as it does not overflow. -/
theorem HandsOut.timely (ht : g.Timely) : g'.Timely := by
  intro k
  rw [h.toNat_tick hlt]
  by_cases hk : i = k
  · subst hk
    exact Nat.le_of_eq (h.pickedAt_self hlt)
  · rw [h.pickedAt_ne hk]
    exact Nat.le_succ_of_le (ht k)

end

end Graph

/-! ### What moves the clock -/

variable {W : Type} {B : Bodies W} {n : Network W} {i : StageId} {w : WorkerId} {sc : Scheduler}

/-- The life of stages does not move the clock. -/
theorem stable_sameTime (B : Bodies W) (g : Graph) : Stable B fun n => g.SameTime n.graph where
  opens {n i} c h _ _ := by
    obtain ⟨f, hf⟩ := n.openOne_graph B i c
    rw [hf]
    exact (h.trans (.enterRunning _ i)).trans (.withFailure _ f)
  halts h _ := h.trans (.halt _ _)
  completes {n i} c h _ hf := by
    obtain ⟨f, hg⟩ := Network.complete_graph (B := B) (c := c) hf
    rw [hg]
    exact (h.trans (.retire _ i)).trans (.withFailure _ f)

namespace Network

theorem sameTime_complete (n : Network W) (B : Bodies W) (i : StageId) (c : Option Caller) :
    n.graph.SameTime (n.complete B i c).2.graph := by
  by_cases hf : (n.graph.stage i).state = .finished
  · rw [complete_of_finished hf]
    exact .refl _
  · obtain ⟨f, hg⟩ := complete_graph (B := B) (c := c) hf
    rw [hg]
    exact (Graph.SameTime.retire _ i).trans (.withFailure _ f)

theorem sameTime_closeDue (n : Network W) (B : Bodies W) (i : StageId) (c : Option Caller) :
    n.graph.SameTime (n.closeDue B i c).2.graph := by
  obtain ⟨f, hf⟩ := n.closeDue_graph B i c
  rw [hf]
  refine Graph.SameTime.trans ?_ (.withFailure _ f)
  split
  · exact .modify _ i fun _ => rfl
  · exact .refl _

theorem sameTime_surrender (n : Network W) (B : Bodies W) (i : StageId) (caller : Caller)
    (result : Option Outcome) :
    n.graph.SameTime (n.surrender B i caller result).2.graph := by
  have hgo : n.graph.SameTime (n.graph.letGo i ⟨caller.worker, result == some .comeBackLater⟩) :=
    .modify _ i fun _ => rfl
  unfold surrender
  refine Graph.SameTime.trans ?_ (sameTime_closeDue _ B i _)
  split
  · exact hgo.trans (sameTime_complete
      (n.mapGraph (·.letGo i ⟨caller.worker, result == some .comeBackLater⟩)) B i _)
  · exact hgo

theorem sameTime_call (n : Network W) (B : Bodies W) (i : StageId) (v : Visit) :
    n.graph.SameTime (n.call B i v).2.2.graph := by
  obtain ⟨m, hm⟩ := n.call_graph B i v
  rw [hm]
  exact .modify _ i fun _ => rfl

end Network

namespace Scheduler

theorem sameTime_giveBack (sc : Scheduler) (B : Bodies W) (n : Network W) (w : WorkerId)
    (i : StageId) (result : Option Outcome) : n.graph.SameTime (sc.giveBack B n w i result).graph :=
  ((stable_sameTime B n.graph).settling.handBack
    (n.sameTime_surrender B i (sc.caller w) result)).trans (.clearStreak _ w)

theorem sameTime_freed (sc : Scheduler) (B : Bodies W) (n : Network W) (w : WorkerId)
    (previous : Option StageId) (result : Option Outcome) :
    n.graph.SameTime (sc.freed B n w previous result).graph := by
  cases previous with
  | none => exact .clearStreak _ w
  | some i => exact sc.sameTime_giveBack B n w i result

theorem handsOut_keep (hi : i < n.graph.size) (w : WorkerId) :
    n.graph.HandsOut i (keep n w i).graph := by
  have hstage : ∀ k, (keep n w i).graph.stage k =
      (n.graph.modify i fun s => { s with lastPicked := n.graph.tick + 1 }).stage k := fun _ => rfl
  refine ⟨rfl, ?_, fun k hk => ?_⟩
  · rw [hstage, Graph.stage_modify_self hi]
  · rw [hstage, Graph.stage_modify_ne hk]

theorem handsOut_take (hi : i < n.graph.size) (w : WorkerId) :
    n.graph.HandsOut i (take n w i).graph := by
  refine ⟨rfl, ?_, fun k hk => ?_⟩
  · rw [stage_take hi, if_pos rfl]
  · rw [stage_take hi, if_neg hk]

end Scheduler

/-! ### How often a stage can be passed over -/

namespace Graph

variable {g g' : Graph} {i j : StageId} {P : Nat}

/-- Whether a stage was last handed out so early, compared with `j`, that waiting work of up to `P`
can still put it before `j`. -/
def early (g : Graph) (P : Nat) (j i : StageId) : Bool :=
  i != j && decide (g.pickedAt i < g.pickedAt j + P)

/-- How often other stages with waiting work of up to `P` can still be put before `j`. -/
def leeway (g : Graph) (P : Nat) (j : StageId) : Nat :=
  (List.range g.size).countP (g.early P j) + (g.pickedAt j + P - 1 - g.tick.toNat)

theorem leeway_lt (ht : g.Timely) (hP : 1 ≤ P) : g.leeway P j < P + g.size := by
  have hcount : (List.range g.size).countP (g.early P j) ≤ g.size := by
    have := List.countP_le_length (p := g.early P j) (l := List.range g.size)
    rwa [List.length_range] at this
  have := ht j
  unfold leeway
  omega

theorem SameTime.leeway (h : g.SameTime g') (hsize : g'.size = g.size) :
    g'.leeway P j = g.leeway P j := by
  have hpicked : ∀ k, g'.pickedAt k = g.pickedAt k := by
    intro k
    unfold pickedAt
    rw [h.lastPicked]
  have hearly : g'.early P j = g.early P j := by
    funext k
    simp [early, hpicked]
  unfold Graph.leeway
  rw [hsize, hearly, hpicked, h.tick]

section HandsOut

variable (h : g.HandsOut i g') (hij : i ≠ j) (hlt : g.tick.toNat + 1 < UInt64.size)
include h hij hlt

omit hlt in
theorem HandsOut.early_ne {k : StageId} (hk : i ≠ k) : g'.early P j k = g.early P j k := by
  simp only [early, h.pickedAt_ne hk, h.pickedAt_ne hij]

theorem HandsOut.early_self : g'.early P j i = decide (g.tick.toNat + 1 < g.pickedAt j + P) := by
  simp [early, hij, h.pickedAt_self hlt, h.pickedAt_ne hij]

/-- Handing out another stage leaves no more leeway than there was. -/
theorem HandsOut.leeway_le (ht : g.Timely) (hsize : g'.size = g.size) :
    g'.leeway P j ≤ g.leeway P j := by
  have hcount : (List.range g.size).countP (g'.early P j) ≤
      (List.range g.size).countP (g.early P j) := by
    refine List.countP_mono_left fun k _ hk => ?_
    by_cases hik : i = k
    · subst hik
      rw [h.early_self hij hlt] at hk
      have := ht i
      have hk : g.tick.toNat + 1 < g.pickedAt j + P := by simpa using hk
      simp only [early, bne_iff_ne, ne_eq, Bool.and_eq_true, decide_eq_true_eq]
      exact ⟨hij, by omega⟩
    · rwa [h.early_ne hij hik] at hk
  unfold Graph.leeway
  rw [hsize, h.pickedAt_ne hij, h.toNat_tick hlt]
  omega

/-- Handing out an early stage uses leeway up: it is no longer early, unless the clock itself is. -/
theorem HandsOut.leeway_lt (hi : i < g.size) (hsize : g'.size = g.size)
    (he : g.early P j i = true) :
    g'.leeway P j < g.leeway P j := by
  unfold Graph.leeway
  rw [hsize, h.pickedAt_ne hij, h.toNat_tick hlt]
  by_cases hclock : g.tick.toNat + 1 < g.pickedAt j + P
  · have hcount : (List.range g.size).countP (g'.early P j) =
        (List.range g.size).countP (g.early P j) := by
      refine List.countP_congr fun k _ => ?_
      by_cases hik : i = k
      · subst hik
        simp [h.early_self hij hlt, hclock, he]
      · rw [h.early_ne hij hik]
    omega
  · have hself : g'.early P j i = false := by
      rw [h.early_self hij hlt]
      simpa using hclock
    have hcount := countP_add_count hself he (l := List.range g.size) fun k _ hik =>
      h.early_ne hij hik
    rw [count_range hi] at hcount
    omega

end HandsOut

end Graph

/-! ### Who can be put first -/

namespace Scheduler

variable {j : StageId} {P : Nat}

/-- **A stage is put before one with waiting work only if it is early.** -/
theorem early_of_below (ht : n.graph.Timely) (hP : n.graph.tick.toNat + P < UInt64.size)
    (hij : i ≠ j) (hj : 0 < B.pending j n.world) (hi : B.pending i n.world ≤ P)
    (hb : (rank B n w j).below (rank B n w i)) :
    n.graph.early P j i = true := by
  obtain ⟨hwaiting, hload⟩ := hb.of_waiting (by simpa [rank] using hj)
  have hpos : 0 < B.pending i n.world := by simpa [rank] using hwaiting
  have hti := ht i
  have htj := ht j
  simp only [rank, age] at hload
  change min (B.pending j n.world + (n.graph.tick.toNat - n.graph.pickedAt j)) (UInt64.size - 1) ≤
    min (B.pending i n.world + (n.graph.tick.toNat - n.graph.pickedAt i)) (UInt64.size - 1) at hload
  have : n.graph.pickedAt i < n.graph.pickedAt j + P := by omega
  simp [Graph.early, hij, this]

end Scheduler

end Pipework
