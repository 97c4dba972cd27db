import Pipework.Proofs.Network.Counters
import Pipework.Proofs.Network.Holders

/-!
# Networks at rest

What hooks leave of the world they leave of it whatever is done to stages (`Bodies.Keeps`). Where
nobody holds a stage (`Network.Calm`), one that never has work is settled as soon as no feeder runs
(`Calm.settled_iff`), and stays so until it is paused or finished: if every stage that runs is
settled, none does once they have been dealt with (`Calm.idle_settle`).
-/

namespace Pipework

/-- Hooks lead from worlds of this kind to worlds of this kind. -/
def Bodies.Keeps {W : Type} (B : Bodies W) (Q : W → Prop) : Prop :=
  ∀ hook i w, Q w → Q (B.hook hook i w).2

/-- A stage without work has none after a hook. -/
def Bodies.BringNoWork {W : Type} (B : Bodies W) : Prop := ∀ i, B.Keeps fun w => B.pending i w = 0

/-- Whether only the sources of a graph have work. -/
def Bodies.Quiet {W : Type} (B : Bodies W) (g : Graph) (w : W) : Prop :=
  ∀ i < g.size, (g.stage i).isSource = false → B.pending i w = 0

theorem Bodies.BringNoWork.quiet {W : Type} {B : Bodies W} (hB : B.BringNoWork) (g : Graph) :
    B.Keeps (B.Quiet g) :=
  fun hook i w h j hj hs => hB j hook i w (h j hj hs)

/-! ### Worlds that hooks keep -/

namespace Bodies.Keeps

variable {W : Type} {B : Bodies W} {Q : W → Prop} {n : Network W} {i : StageId} {c : Option Caller}
  {sc : Scheduler} {w : WorkerId} {result : Option Outcome}
variable (hB : B.Keeps Q)
include hB

/-- Of a network only hooks change the world. -/
theorem aloof : Aloof B fun n => Q n.world where
  maps h _ := h
  hooks {n} hook i c h := by
    rw [Network.world_runHook]
    exact hB hook i n.world h

theorem openOne (h : Q n.world) : Q (n.openOne B i c).2.world := hB.aloof.openOne h

theorem complete (h : Q n.world) : Q (n.complete B i c).2.world := hB.aloof.complete h

theorem stable : Stable B fun n => Q n.world := hB.aloof.stable

theorem closeDue (h : Q n.world) : Q (n.closeDue B i c).2.world := hB.aloof.closeDue h

theorem giveBack (h : Q n.world) : Q (sc.giveBack B n w i result).world := hB.aloof.giveBack h

theorem assign (h : Q n.world) (previous : Option StageId) :
    Q (sc.assign B n w previous result).2.world :=
  hB.aloof.assign h previous

end Bodies.Keeps

/-! ### Settled stages -/

namespace Bodies.BringNoWork

variable {W : Type} {B : Bodies W} {n : Network W} {i k : StageId} {c : Option Caller}
variable (hB : B.BringNoWork)
include hB

/-- A settled stage stays settled when another one is dealt with, however it is wired. -/
theorem settled_settleOne (hk : n.settled B k = true) (hki : k ≠ i) (hs : n.settled B i = true) :
    (n.settleOne B k c).2.2.settled B i = true := by
  obtain ⟨hholders, hr, hsource, hrf, hfeeders, hpending⟩ := Network.settled_iff.1 hs
  have hi : i < n.graph.size := Graph.lt_size_of_state_ne (by simp [hr])
  rcases n.settleOne_cases B k c with ⟨-, -, he⟩ | ⟨-, -, he⟩ | ⟨hns, -⟩
  · rw [he]
    have hkf : (n.graph.stage k).state ≠ .finished := by simp [Network.state_of_settled hk]
    obtain ⟨f, hg⟩ := Network.complete_graph (B := B) (c := c) hkf
    rw [Network.settled_iff, hg]
    refine ⟨?_, ?_, ?_, ?_, fun u hu => ?_, (hB i).complete hpending⟩
    · rwa [Graph.stage_withFailure, Graph.holders_retire]
    · rwa [Graph.stage_withFailure, Graph.stage_retire hi, if_neg hki]
    · rwa [Graph.stage_withFailure, Graph.isSource_of_bare (Graph.bare_retire n.graph k)]
    · rw [Graph.stage_withFailure, Graph.stage_retire hi]
      simp [hrf]
    · rw [Graph.stage_withFailure, Graph.feeders_of_bare (Graph.bare_retire n.graph k)] at hu
      rw [Graph.stage_withFailure, Graph.holders_retire]
      exact hfeeders u hu
  · rw [he]
    have hkr := Network.state_of_settled hk
    rw [Network.settled_iff, Network.graph_mapGraph]
    refine ⟨?_, ?_, ?_, ?_, fun u hu => ?_, hpending⟩
    · rwa [Graph.holders_halt]
    · rwa [Graph.state_halt hkr, if_neg hki]
    · rwa [Graph.isSource_of_bare (Graph.bare_halt n.graph k)]
    · rw [Graph.stage_halt hkr hi]
      simp [hrf]
    · rw [Graph.feeders_of_bare (Graph.bare_halt n.graph k)] at hu
      rw [Graph.holders_halt]
      exact hfeeders u hu
  · exact absurd (hk.symm.trans hns) (by decide)

/-- If every running stage is settled none runs once the settled ones have been dealt with. -/
theorem idle_settle (hs : ∀ i, (n.graph.stage i).state = .running → n.settled B i = true)
    (i : StageId) :
    ((n.settle B (Scheduler.idle B n) c).2.graph.stage i).state ≠ .running := by
  have anything : Settling B fun _ : Network W => True :=
    ⟨fun _ _ _ => trivial, fun _ _ _ _ => trivial⟩
  exact anything.idle_settle trivial (fun _ => hB.settled_settleOne) hs i

end Bodies.BringNoWork

/-! ### Counters -/

/-- The counters stay exact. -/
theorem stable_counted {W : Type} (B : Bodies W) {g : Graph} (wd : g.Wired) :
    Stable B fun n => n.graph.bare = g.bare ∧ n.graph.Counted where
  opens c h hi hd :=
    have course := Course.opens c .start hi hd
    ⟨course.bare.trans h.1, course.counted (wd.of_bare h.1) h.2⟩
  halts h hr :=
    have course : Course B _ _ := .halts .start hr
    ⟨course.bare.trans h.1, course.counted (wd.of_bare h.1) h.2⟩
  completes c h hi hf :=
    have course := Course.completes c .start hi hf
    ⟨course.bare.trans h.1, course.counted (wd.of_bare h.1) h.2⟩

/-! ### Nobody at work -/

/-- A network that is wired like a graph, with exact counters, without holders, and in a world of a
certain kind. -/
structure Network.Calm {W : Type} (g : Graph) (Q : W → Prop) (n : Network W) : Prop where
  bare : n.graph.bare = g.bare
  counted : n.graph.Counted
  free : ∀ i, (n.graph.stage i).holders = 0
  world : Q n.world

namespace Network.Calm

variable {W : Type} {B : Bodies W} {g : Graph} {Q : W → Prop} {n m : Network W} {i j : StageId}
  {c : Option Caller}

theorem stable (wd : g.Wired) (hB : B.Keeps Q) : Stable B (Network.Calm g Q) where
  opens c h hi hd :=
    have counted := (stable_counted B wd).opens c ⟨h.bare, h.counted⟩ hi hd
    ⟨counted.1, counted.2, (stable_holders B fun _ => 0).opens c h.free hi hd, hB.openOne h.world⟩
  halts h hr :=
    have counted := (stable_counted B wd).halts ⟨h.bare, h.counted⟩ hr
    ⟨counted.1, counted.2, (stable_holders B fun _ => 0).halts h.free hr, h.world⟩
  completes c h hi hf :=
    have counted := (stable_counted B wd).completes c ⟨h.bare, h.counted⟩ hi hf
    ⟨counted.1, counted.2, (stable_holders B fun _ => 0).completes c h.free hi hf,
      hB.complete h.world⟩

variable (h : n.Calm g Q)
include h

/-- The counter of running feeders tells whether any feeder runs. -/
theorem runningFeeders_eq_zero_iff :
    (n.graph.stage i).runningFeeders = 0 ↔
    ∀ u ∈ (g.stage i).feeders, (n.graph.stage u).state ≠ .running := by
  rw [h.counted.feeders, List.countP_eq_zero, Graph.feeders_of_bare h.bare]
  simp

/-- A stage without work is settled as soon as no feeder runs, unless it is a source. -/
theorem settled_iff (hp : B.pending i n.world = 0) :
    n.settled B i = true ↔
      (n.graph.stage i).state = .running ∧ (g.stage i).isSource = false ∧
        ∀ u ∈ (g.stage i).feeders, (n.graph.stage u).state ≠ .running := by
  rw [Network.settled_iff, h.runningFeeders_eq_zero_iff, Graph.isSource_of_bare h.bare]
  constructor
  · rintro ⟨-, hr, hs, hf, -, -⟩
    exact ⟨hr, hs, hf⟩
  · rintro ⟨hr, hs, hf⟩
    exact ⟨h.free i, hr, hs, hf, fun u _ => h.free u, hp⟩

/-- A settled stage stays settled as long as it runs and has no work, while stages stop running. -/
theorem settled_mono (hm : m.Calm g Q) (hp : B.pending i m.world = 0) (hs : n.settled B i = true)
    (hr : (m.graph.stage i).state = .running)
    (hle : ∀ u, (m.graph.stage u).state = .running → (n.graph.stage u).state = .running) :
    m.settled B i = true := by
  obtain ⟨-, -, -, -, -, hpn⟩ := Network.settled_iff.1 hs
  obtain ⟨-, hsource, hf⟩ := (h.settled_iff hpn).1 hs
  exact (hm.settled_iff hp).2 ⟨hr, hsource, fun u hu hur => hf u hu (hle u hur)⟩

/-- **If every running stage is settled and never has work, none runs once the settled ones have
been dealt with.** -/
theorem idle_settle (wd : g.Wired) (hB : B.Keeps Q)
    (hs : ∀ i, (n.graph.stage i).state = .running → (∀ w, Q w → B.pending i w = 0) ∧
      n.settled B i = true)
    (i : StageId) :
    ((n.settle B (Scheduler.idle B n) c).2.graph.stage i).state ≠ .running := by
  -- besides, nothing is set running
  have keeps : Lasting B fun m => m.Calm g Q ∧ ∀ i, (m.graph.stage i).state = .running →
      (n.graph.stage i).state = .running :=
    { halts := fun hm hr => ⟨(stable wd hB).halts hm.1 hr, (lasting_among B n.graph).halts hm.2 hr⟩
      completes := fun c hm hi hf =>
        ⟨(stable wd hB).completes c hm.1 hi hf, (lasting_among B n.graph).completes c hm.2 hi hf⟩ }
  refine keeps.settling.idle_settle ⟨h, fun _ => id⟩ (fun {m k i} hm hk hki hi => ?_)
    (fun i hr => (hs i hr).2) i
  have calm' := (stable wd hB).toLasting.settling.settleOne (i := k) (c := c) hm.1
  have hri := Network.state_of_settled hi
  exact hm.1.settled_mono calm' ((hs i (hm.2 i hri)).1 _ calm'.world) hi
    ((Network.running_settleOne hk).2 ⟨hki, hri⟩)
    fun u hu => ((Network.running_settleOne hk).1 hu).2

end Network.Calm

end Pipework
