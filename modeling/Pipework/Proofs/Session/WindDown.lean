import Pipework.Proofs.Network.Sweep
import Pipework.Proofs.Session.Events

/-!
# Winding down

Once the sources are finished and no stage has work, a worker that finds nothing to do at whatever
it is given should in the end be given nothing. It is, at its first request, if no running stage
feeds a running stage: then all stages that run are settled. Otherwise some stage that runs waits
for a feeder that nobody looks at again, is given out, handed back and given out again, and no
request is ever answered with nothing (`winds_down_iff`, `spins_kite`).
-/

namespace Pipework

/-- Whether in a world no stage has work, and a call finds nothing to do and changes nothing. -/
def Bodies.Idle {W : Type} (B : Bodies W) (w : W) : Prop :=
  ∀ i, B.pending i w = 0 ∧ ∀ v, B.call i v w = (.returned .comeBackLater, v, w)

theorem Bodies.Welcomes.keeps {W : Type} {B : Bodies W} {Q : W → Prop} (hB : B.Welcomes Q) :
    B.Keeps Q :=
  fun hook i w h => (hB hook i w h).2

/-- Whether no running stage is fed by a running stage. -/
def Graph.Unfed (g : Graph) : Prop :=
  ∀ i < g.size, (g.stage i).state = .running →
    ∀ u ∈ (g.stage i).feeders, (g.stage u).state ≠ .running

instance (g : Graph) : Decidable g.Unfed := inferInstanceAs (Decidable (∀ i < g.size, _))

/-! ### Networks without work -/

namespace Network

variable {W : Type} {B : Bodies W} {g : Graph} {n : Network W} {i : StageId} {c : Option Caller}
  {sc : Scheduler} {w : WorkerId}

theorem alike_surrender (B : Bodies W) (i : StageId) (caller : Caller) {result : Option Outcome}
    (h : result ≠ some .finished) :
    n.graph.Alike (n.surrender B i caller result).2.graph := by
  unfold surrender
  simp only
  rw [if_neg h]
  have letGo := Graph.Alike.letGo n.graph i ⟨caller.worker, result == some .comeBackLater⟩
  exact letGo.trans
    ((n.mapGraph (·.letGo i ⟨caller.worker, result == some .comeBackLater⟩)).alike_closeDue B i _)

/-- A running stage with a running feeder can be handed back without consequences, unless its worker
has finished it. -/
theorem alike_giveBack {result : Option Outcome} (hr : (n.graph.stage i).state = .running)
    (hf : (n.graph.stage i).runningFeeders ≠ 0) (h : result ≠ some .finished) :
    n.graph.Alike (sc.giveBack B n w i result).graph := by
  have surrendered := n.alike_surrender B i (sc.caller w) h
  have hs : (n.surrender B i (sc.caller w) result).2.settled B i = false := by
    by_contra hs
    exact hf ((surrendered.runningFeeders i).symm.trans (settled_iff.1 (by simpa using hs)).2.2.2.1)
  have nothing : ((n.surrender B i (sc.caller w) result).2.settle B [i] (some (sc.caller w))).2 =
      (n.surrender B i (sc.caller w) result).2 := by
    refine settleEach_of_unsettled fun j hj => ?_
    obtain rfl : j = i := by simpa using hj
    exact ⟨(surrendered.state j).trans hr, hs⟩
  unfold Scheduler.giveBack handBack
  simp only
  rw [nothing]
  exact surrendered.trans (alike_clearStreak _ w)

/-- What can be handed out where nothing has work and the sources are finished are the running
stages with a running feeder. -/
theorem eligible_iff_of_idle (hp : B.pending i n.world = 0)
    (hh : ∀ j, (n.graph.stage j).holders = 0)
    (hs : (n.graph.stage i).isSource = true → (n.graph.stage i).state = .finished) :
    Scheduler.eligible B n i = true ↔ (n.graph.stage i).state = .running ∧
      (n.graph.stage i).runningFeeders ≠ 0 := by
  rw [Scheduler.eligible_iff]
  constructor
  · rintro ⟨hr, -, he⟩
    refine ⟨hr, fun hf => ?_⟩
    have hsource : (n.graph.stage i).isSource = false := by
      by_contra hsource
      have := hs (by simpa using hsource)
      rw [hr] at this
      cases this
    have hsettled : n.settled B i = true :=
      settled_iff.2 ⟨hh i, hr, hsource, hf, fun u _ => hh u, hp⟩
    unfold settled at hsettled
    rw [he, Bool.and_false] at hsettled
    cases hsettled
  · rintro ⟨hr, hf⟩
    refine ⟨hr, .inl (hh i), ?_⟩
    simp [exhausted, hf]

end Network

/-! ### A worker that finds nothing to do -/

namespace Session

variable {W : Type} {B : Bodies W} {g : Graph} {s : Session W} {w : WorkerId} {h : Hold}

/-- The session after a worker has asked for a stage so many times, and has called each that it was
given. -/
def spin (s : Session W) (B : Bodies W) (w : WorkerId) : Nat → Session W
  | 0 => s
  | k + 1 => (((s.spin B w k).next B w).2.exec B w).2

/-- A session in which nothing has happened to the stages of a graph, and nobody but one worker
holds one, which waits for a feeder and was found without work. -/
structure Spinning (B : Bodies W) (g : Graph) (w : WorkerId) (s : Session W) : Prop where
  alike : g.Alike s.network.graph
  healthy : s.network.Healthy B.Idle
  tallied : s.Tallied
  own : ∀ h ∈ s.holds, h.worker = w ∧ h.result = some .comeBackLater ∧
    (g.stage h.stage).state = .running ∧ (g.stage h.stage).runningFeeders ≠ 0

namespace Spinning

variable (sp : s.Spinning B g w)
include sp

theorem others_eq_nil : s.others w = [] := by
  refine List.eq_nil_iff_forall_not_mem.2 fun h hm => ?_
  obtain ⟨hm, hw⟩ := mem_others.1 hm
  exact hw (sp.own h hm).1

theorem free (j : StageId) : ((s.freed B w).graph.stage j).holders = 0 := by
  rw [sp.tallied.freed, sp.others_eq_nil]
  rfl

/-- Handing back what it holds the worker changes nothing. -/
theorem freed (hB : B.Welcomes B.Idle) :
    g.Alike (s.freed B w).graph ∧ (s.freed B w).Healthy B.Idle := by
  refine ⟨sp.alike.trans ?_, sp.healthy.freed hB _⟩
  unfold Session.freed
  cases hh : s.holdOf w with
  | none => exact s.network.alike_clearStreak w
  | some h =>
    obtain ⟨-, hresult, hr, hf⟩ := sp.own h (mem_of_holdOf hh).1
    refine Network.alike_giveBack ((sp.alike.state h.stage).trans hr) ?_ ?_
    · rw [sp.alike.runningFeeders]
      exact hf
    · change h.result ≠ _
      rw [hresult]
      simp

/-- What could be handed out to the worker are the running stages with a running feeder. -/
theorem eligible_iff (hB : B.Welcomes B.Idle)
    (hs : ∀ i, (g.stage i).isSource = true → (g.stage i).state = .finished) (i : StageId) :
    Scheduler.eligible B (s.freed B w) i = true ↔ (g.stage i).state = .running ∧
      (g.stage i).runningFeeders ≠ 0 := by
  obtain ⟨alike, healthy⟩ := sp.freed hB
  rw [Network.eligible_iff_of_idle (healthy.world i).1 sp.free, alike.state, alike.runningFeeders]
  rw [Graph.isSource_of_bare alike.bare, alike.state]
  exact hs i

omit sp in
/-- A worker that calls a stage without work has found nothing to do, and has changed nothing. -/
theorem exec {i : StageId} (alike : g.Alike s.network.graph) (healthy : s.network.Healthy B.Idle)
    (t : s.Tallied) (hh : s.holds = [{ worker := w, stage := i }])
    (hr : (g.stage i).state = .running) (hf : (g.stage i).runningFeeders ≠ 0) :
    (s.exec B w).2.Spinning B g w := by
  let h : Hold := { worker := w, stage := i }
  have hhold : s.holdOf w = some h := by
    unfold holdOf
    rw [hh]
    exact List.find?_cons_of_pos (by simp)
  have hcall := (healthy.world i).2 (s.visit h)
  have houtcome : (s.network.call B i (s.visit h)).1 = some .comeBackLater := by
    rw [Network.outcome_call, hcall]
    rfl
  have tallied := t.exec (B := B) w
  rw [exec_of_some hhold rfl] at tallied ⊢
  refine ⟨alike.trans (s.network.alike_call B i (s.visit h)), ⟨?_, ?_⟩, tallied, fun h' hm => ?_⟩
  · change B.Idle (s.network.call B i (s.visit h)).2.2.world
    rw [Network.world_call, hcall]
    exact healthy.world
  · obtain ⟨m, hm⟩ := s.network.call_graph B i (s.visit h)
    change (s.network.call B i (s.visit h)).2.2.graph.failure = none
    rw [hm]
    exact healthy.failure
  · rcases List.mem_cons.1 hm with rfl | hm
    · exact ⟨rfl, houtcome, hr, hf⟩
    · obtain ⟨hm, hw⟩ := mem_others.1 hm
      rw [hh, List.mem_singleton] at hm
      exact absurd (congrArg Hold.worker hm) hw

/-- **As long as a running stage feeds a running stage the worker is given one that is of no use to
it, and nothing changes.** -/
theorem round (hB : B.Welcomes B.Idle)
    (hs : ∀ i, (g.stage i).isSource = true → (g.stage i).state = .finished) (hc : g.Counted)
    (hf : ¬ g.Unfed) :
    (s.next B w).1 ≠ none ∧ ((s.next B w).2.exec B w).2.Spinning B g w := by
  obtain ⟨alike, healthy⟩ := sp.freed hB
  rcases s.next_cases B w with ⟨h, hh, hk, -⟩ | ⟨i, hi, hel, -, he⟩ | ⟨hfail, -⟩ | ⟨-, hnone, -⟩
  · -- nobody keeps a stage at which there was nothing to do
    rw [(sp.own h (mem_of_holdOf hh).1).2.1] at hk
    unfold Scheduler.mayKeep at hk
    split at hk
    · rename_i heq
      cases heq
    · cases hk
  · obtain ⟨hr, hrf⟩ := (sp.eligible_iff hB hs i).1 hel
    have tallied := sp.tallied.next (B := B) w
    rw [he] at tallied ⊢
    refine ⟨nofun, exec (i := i) (alike.trans (Network.alike_take _ w i))
      ⟨healthy.world, healthy.failure⟩ tallied ?_ hr hrf⟩
    change ({ worker := w, stage := i } :: s.others w : List Hold) = _
    rw [sp.others_eq_nil]
  · rw [healthy.failure] at hfail
    cases hfail
  · -- there is a stage that could be handed out
    refine absurd (fun i hi hr u hu hur => ?_) hf
    have hrf : (g.stage i).runningFeeders ≠ 0 := by
      rw [hc.feeders]
      exact Nat.ne_of_gt (List.countP_pos_iff.2 ⟨u, hu, by simp [hur]⟩)
    have hel := hnone i (by rwa [Graph.size_of_bare alike.bare])
    rw [(sp.eligible_iff hB hs i).2 ⟨hr, hrf⟩] at hel
    cases hel

end Spinning

/-- A worker that spins is given some stage at every request. -/
theorem Spinning.spin (sp : s.Spinning B g w) (hB : B.Welcomes B.Idle)
    (hs : ∀ i, (g.stage i).isSource = true → (g.stage i).state = .finished) (hc : g.Counted)
    (hf : ¬ g.Unfed) (k : Nat) :
    (s.spin B w k).Spinning B g w := by
  induction k with
  | zero => exact sp
  | succ k ih => exact (ih.round hB hs hc hf).2

/-- If no running stage feeds a running stage the first request finds nothing, and everything that
ran is settled. -/
theorem next_of_unfed (hB : B.Welcomes B.Idle) (wd : s.network.graph.Wired)
    (hc : s.network.graph.Counted)
    (hs : ∀ i ∈ s.network.graph.sources, (s.network.graph.stage i).state = .finished)
    (hfail : s.network.graph.failure = none) (hh : ∀ i, (s.network.graph.stage i).holders = 0)
    (hw : B.Idle s.network.world) (hn : s.holds = []) (hu : s.network.graph.Unfed) :
    (s.next B w).1 = none ∧ ∀ i, ((s.next B w).2.network.graph.stage i).state ≠ .running := by
  have hhold : s.holdOf w = none := by
    unfold holdOf
    rw [hn]
    rfl
  have hfreed : s.freed B w = s.network.mapGraph (·.clearStreak w) := by
    unfold Session.freed
    rw [hhold]
    rfl
  have calm : (s.freed B w).Calm s.network.graph B.Idle := by
    rw [hfreed]
    exact ⟨rfl, hc.alike (s.network.alike_clearStreak w), hh, hw⟩
  have settled : ∀ i, ((s.freed B w).graph.stage i).state = .running →
      (∀ w, B.Idle w → B.pending i w = 0) ∧ (s.freed B w).settled B i = true := by
    intro i hr
    refine ⟨fun w hw => (hw i).1, ?_⟩
    rw [calm.settled_iff (calm.world i).1]
    rw [hfreed] at hr ⊢
    replace hr : (s.network.graph.stage i).state = .running := hr
    refine ⟨hr, ?_, hu i (Graph.lt_size_of_state_ne (by simp [hr])) hr⟩
    by_contra hsource
    have := hs i ((wd.mem_sources i).2 (by simpa using hsource))
    rw [hr] at this
    cases this
  rcases s.next_cases B w with ⟨h, hh', -, -⟩ | ⟨i, -, hel, -, -⟩ | ⟨hfail', -⟩ | ⟨-, -, he⟩
  · rw [hhold] at hh'
    cases hh'
  · obtain ⟨hr, -, he⟩ := Scheduler.eligible_iff.1 hel
    have hsettled := (settled i hr).2
    unfold Network.settled at hsettled
    rw [he, Bool.and_false] at hsettled
    cases hsettled
  · rw [hfreed] at hfail'
    exact absurd (show s.network.graph.failure.isSome = true from hfail') (by rw [hfail]; decide)
  · rw [he]
    exact ⟨rfl, calm.idle_settle wd hB.keeps settled⟩

end Session

/-- **When a drained network winds down.** Suppose that all sources are finished, nothing has
failed, nobody holds a stage, no stage has work, and hooks succeed and bring none. A worker that
asks for a stage again and again, handing back each as one at which there was nothing to do, is
given none at some time exactly if no running stage feeds a running stage; and then already the
first request is answered so, and no stage runs any more. -/
theorem winds_down_iff {W : Type} (B : Bodies W) (world : W) (calls : List (Call W))
    (he : EdgesFirst calls) (sc : Scheduler) (w : WorkerId) (hB : B.Welcomes B.Idle) :
    let n := Network.ofCalls B world calls
    let s : Session W := ⟨n, sc, []⟩
    (∀ i ∈ n.graph.sources, (n.graph.stage i).state = .finished) → n.graph.failure = none →
    (∀ i, (n.graph.stage i).holders = 0) → B.Idle n.world →
      ((∃ k, ((s.spin B w k).next B w).1 = none) ↔ n.graph.Unfed) ∧
      (n.graph.Unfed →
        (s.next B w).1 = none ∧ ∀ i, ((s.next B w).2.network.graph.stage i).state ≠ .running) := by
  intro n s hs hfail hh hw
  have tidy := Network.tidy_ofCalls B world he
  have winds := Session.next_of_unfed (s := s) (w := w) hB tidy.wired tidy.counted hs
    hfail hh hw rfl
  refine ⟨⟨fun hnone => ?_, fun hu => ⟨0, (winds hu).1⟩⟩, winds⟩
  by_contra hu
  have sources : ∀ i, (n.graph.stage i).isSource = true →
      (n.graph.stage i).state = .finished := fun i hi =>
    hs i ((tidy.wired.mem_sources i).2 hi)
  have sp : s.Spinning B n.graph w :=
    ⟨.refl _, ⟨hw, hfail⟩, ⟨List.nodup_nil, hh⟩, fun _ hm => absurd hm List.not_mem_nil⟩
  obtain ⟨k, hk⟩ := hnone
  exact ((sp.spin hB sources tidy.counted hu k).round hB sources tidy.counted hu).1 hk

/-! ### A join with and without a tail -/

/-- The calls that build a graph, activate it, and finish its sources. -/
def Call.stop {W : Type} (parts : List Graph.Part) : List (Call W) :=
  Call.launch parts ++ [.finishSources]

section Stop

variable {W : Type} (B : Bodies W) (parts : List Graph.Part) (world : W)

theorem Network.ofCalls_stop :
    ofCalls B world (Call.stop parts) =
      ((ofCalls B world (Call.launch parts)).finishSources B).2 := by
  unfold ofCalls Call.stop
  rw [List.foldl_append]
  rfl

theorem edgesFirst_stop : EdgesFirst (Call.stop (W := W) parts) := by
  refine List.pairwise_append.2 ⟨edgesFirst_launch parts, List.pairwise_singleton ..,
    fun a _ b hb => ?_⟩
  rw [List.mem_singleton] at hb
  exact fun _ => hb ▸ rfl

theorem Network.holders_stop (i : StageId) :
    ((ofCalls B world (Call.stop parts)).graph.stage i).holders = 0 := by
  have wd : (ofCalls B world (Call.launch parts)).graph.Wired :=
    (tidy_ofCalls B world (edgesFirst_launch parts)).wired
  rw [ofCalls_stop]
  exact (stable_holders B fun _ => 0).finishSources (holders_launch B parts world)
    (fun _ => wd.lt_size_of_mem_sources) i

variable {B world} in
/-- Where hooks succeed the calls leave no failure. -/
theorem Network.healthy_stop {Q : W → Prop} (hB : B.Welcomes Q) (hw : Q world) :
    (ofCalls B world (Call.stop parts)).Healthy Q := by
  have wd : (ofCalls B world (Call.launch parts)).graph.Wired :=
    (tidy_ofCalls B world (edgesFirst_launch parts)).wired
  have launched : (ofCalls B world (Call.launch parts)).Healthy Q := by
    rw [ofCalls_launch]
    exact (Healthy.stable hB).activateAll ⟨hw, (Graph.fresh_ofParts parts).failure⟩
  rw [ofCalls_stop]
  exact (Healthy.stable hB).finishSources launched fun _ => wd.lt_size_of_mem_sources

end Stop

theorem welcomes_inert : Bodies.inert.Welcomes Bodies.inert.Idle := by
  intro hook i w hw
  cases hook <;> exact ⟨rfl, hw⟩

theorem idle_inert (w : Unit) : Bodies.inert.Idle w := fun _ => ⟨rfl, fun _ => rfl⟩

/-- The join that goes on running after the source of a diamond has been finished is settled at the
first request. -/
theorem winds_down_diamond :
    let n := Network.ofCalls .inert () (Call.stop diamond)
    let s : Session Unit := ⟨n, ⟨.sticky 2, 1⟩, []⟩
    (n.graph.stage 3).state = .running ∧ (s.next .inert 0).1 = none ∧
      ∀ i, ((s.next .inert 0).2.network.graph.stage i).state ≠ .running := by
  intro n s
  have hn : n = diamondStopped := by
    rw [← finishSources_diamond, ← ofCalls_diamond]
    exact Network.ofCalls_stop .inert diamond ()
  have sources : ∀ i ∈ n.graph.sources, (n.graph.stage i).state = .finished := by
    rw [hn]
    decide
  have healthy : n.Healthy Bodies.inert.Idle :=
    Network.healthy_stop diamond welcomes_inert (idle_inert ())
  have unfed : n.graph.Unfed := by
    rw [hn]
    decide
  have main := winds_down_iff .inert () (Call.stop diamond) (edgesFirst_stop diamond) ⟨.sticky 2, 1⟩
    0 welcomes_inert sources healthy.failure (Network.holders_stop .inert diamond ()) healthy.world
  refine ⟨?_, main.2 unfed⟩
  rw [hn]
  decide

/-- A diamond whose join feeds another stage. -/
def kite : List Graph.Part :=
  [.stage "source" .source true, .stage "left" .interior true, .stage "right" .interior true,
    .stage "join" .interior true, .stage "tail" .sink true, .edge 0 1, .edge 0 2, .edge 1 3,
    .edge 2 3, .edge 3 4, .source 0]

/-- The kite with all its stages running. -/
def kiteRunning : Network Unit :=
  (((((Network.openOne ⟨.ofParts kite, ()⟩ .inert 0 none).2.openOne .inert 2 none).2.openOne .inert
    3 none).2.openOne .inert 4 none).2.openOne .inert 1 none).2

/-- The kite after its source has been finished. -/
def kiteStopped : Network Unit :=
  (((kiteRunning.complete .inert 0 none).2.complete .inert 2 none).2.complete .inert 1 none).2

theorem ofCalls_kite : Network.ofCalls .inert () (Call.launch kite) = kiteRunning := by
  rw [Network.ofCalls_launch]
  unfold Network.activateAll kiteRunning
  rw [show (Network.mk (Graph.ofParts kite) ()).graph.sources = [0] by decide +kernel]
  simp only [Network.activateSources]
  rw [Network.activateEach_cons [2, 1] (by decide +kernel) (by decide +kernel) (by decide +kernel),
    List.append_nil, Network.activateEach_cons [3] (by decide +kernel) (by decide +kernel)
      (by decide +kernel), List.singleton_append,
    Network.activateEach_cons [4] (by decide +kernel) (by decide +kernel) (by decide +kernel),
    List.singleton_append,
    Network.activateEach_cons [] (by decide +kernel) (by decide +kernel) (by decide +kernel),
    List.nil_append,
    Network.activateEach_cons [3] (by decide +kernel) (by decide +kernel) (by decide +kernel),
    List.singleton_append,
    Network.activateEach_cons_of_not (by decide +kernel), Network.activateEach_nil]

/-- The walk comes to the join between its two feeders, and does not come to the tail. -/
theorem finishSources_kite : (kiteRunning.finishSources .inert).2 = kiteStopped := by
  unfold Network.finishSources kiteStopped
  rw [show kiteRunning.graph.sources = [0] by decide +kernel]
  simp only [Network.completeEach, Network.settle]
  rw [show (kiteRunning.complete .inert 0 none).2.graph.size = 5 by decide +kernel,
    List.reverse_singleton,
    Network.settleEach_cons 0 [] [2, 1] (by decide +kernel) (by decide +kernel),
    Network.settleOne_of_finished (by decide +kernel), List.append_nil,
    Network.settleEach_cons 2 [1] [3] (by decide +kernel) (by decide +kernel),
    Network.settleOne_of_settled (by decide +kernel) (by decide +kernel),
    List.singleton_append, Network.settleEach_cons 3 [1] [] (by decide +kernel) (by decide +kernel),
    Network.settleOne_of_unsettled (by decide +kernel) (by decide +kernel), List.nil_append,
    Network.settleEach_cons 1 [] [3] (by decide +kernel) (by decide +kernel),
    Network.settleOne_of_settled (by decide +kernel) (by decide +kernel),
    List.append_nil, Network.settleEach_cons_of_not_mem (by decide +kernel), Network.settleEach_nil]

/-- In a graph without cycles whose sources are finished, without failures, holders or work, where
calls find nothing to do and hooks succeed and change nothing, a worker is given some stage at every
request, however often it asks. -/
theorem spins_kite :
    let n := Network.ofCalls .inert () (Call.stop kite)
    let s : Session Unit := ⟨n, ⟨.sticky 2, 1⟩, []⟩
    n.graph.Acyclic ∧ (∀ i ∈ n.graph.sources, (n.graph.stage i).state = .finished) ∧
      n.graph.failure = none ∧
      (∀ i, (n.graph.stage i).holders = 0) ∧ Bodies.inert.Idle n.world ∧
      Bodies.inert.Welcomes Bodies.inert.Idle ∧
      ∀ k, ((s.spin .inert 0 k).next .inert 0).1 ≠ none := by
  intro n s
  have hn : n = kiteStopped := by
    rw [← finishSources_kite, ← ofCalls_kite]
    exact Network.ofCalls_stop .inert kite ()
  have tidy := Network.tidy_ofCalls .inert () (edgesFirst_stop kite)
  have acyclic : n.graph.Acyclic := by
    rw [hn]
    exact Graph.acyclic_of_lt (by decide +kernel)
  have sources : ∀ i ∈ n.graph.sources, (n.graph.stage i).state = .finished := by
    rw [hn]
    decide +kernel
  have healthy : n.Healthy Bodies.inert.Idle :=
    Network.healthy_stop kite welcomes_inert (idle_inert ())
  have free : ∀ i, (n.graph.stage i).holders = 0 := Network.holders_stop .inert kite ()
  have fed : ¬ n.graph.Unfed := by
    rw [hn]
    decide +kernel
  have marked : ∀ i, (n.graph.stage i).isSource = true →
      (n.graph.stage i).state = .finished := fun i hi =>
    sources i ((tidy.wired.mem_sources i).2 hi)
  have sp : s.Spinning .inert n.graph 0 :=
    ⟨.refl _, healthy, ⟨List.nodup_nil, free⟩, fun _ hm => absurd hm List.not_mem_nil⟩
  exact ⟨acyclic, sources, healthy.failure, free, healthy.world, welcomes_inert, fun k =>
    ((sp.spin welcomes_inert marked tidy.counted fed k).round welcomes_inert marked
      tidy.counted fed).1⟩

end Pipework
