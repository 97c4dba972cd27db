import Mathlib.Logic.Function.Iterate
import Pipework.Proofs.Graph.Reach
import Pipework.Proofs.Network.HookFailures
import Pipework.Proofs.Session.Reached

/-!
# What activation does

Activation opens the stages of a wave one after the other (`activateEach_eq`), and it is over after
as many steps as there were stages on its list (`activateStep_iterate`). So all that it changes can
be read off the stages that a path of dormant stages leads to (`activate_exact`).
-/

namespace Pipework

variable {W : Type} {B : Bodies W} {n : Network W} {c : Option Caller} {i v : StageId}
  {is work : List StageId}

namespace Network

/-! ### The walk -/

theorem wave_openOne (n : Network W) (B : Bodies W) (c : Option Caller) (i : StageId)
    (work : List StageId) :
    (n.openOne B i c).2.graph.wave work = (n.graph.enterRunning i).wave work := by
  obtain ⟨f, hf⟩ := n.openOne_graph B i c
  rw [hf, Graph.wave_withFailure]

theorem listeners_openOne (n : Network W) (B : Bodies W) (c : Option Caller) (i v : StageId) :
    ((n.openOne B i c).2.graph.stage v).listeners = (n.graph.stage v).listeners := by
  obtain ⟨f, hf⟩ := n.openOne_graph B i c
  rw [hf, Graph.stage_withFailure, Graph.listeners_enterRunning]

/-- Activation opens the stages of the wave, one after the other. -/
theorem activateEach_eq (n : Network W) (B : Bodies W) (c : Option Caller) (work : List StageId) :
    (n.activateEach B c work).2 = (n.graph.wave work).foldl (fun n k => (n.openOne B k c).2) n := by
  fun_induction activateEach n B c work with
  | case1 n => rw [Graph.wave_nil, List.foldl_nil]
  | case2 n i work hi r rest ih =>
    rw [Graph.wave_cons hi, List.foldl_cons, ← n.wave_openOne B c i]
    exact ih
  | case3 n i work hi ih =>
    rw [Graph.wave_cons_of_not hi]
    exact ih

/-- One round of activation: the first stage of the list is opened and replaced by its listeners, if
it is dormant, and passed over otherwise. -/
def activateStep (B : Bodies W) (c : Option Caller) :
    List StageId × Network W → List StageId × Network W
  | ([], n) => ([], n)
  | (i :: work, n) =>
    if n.graph.Waits i then ((n.graph.stage i).listeners.reverse ++ work, (n.openOne B i c).2)
      else (work, n)

/-- Activation is over after one round for each stage that is on the list or gets there as a
listener. -/
theorem activateStep_iterate (n : Network W) (B : Bodies W) (c : Option Caller)
    (work : List StageId) :
    (activateStep B c)^[work.length +
      ((n.graph.wave work).map fun v => (n.graph.stage v).listeners.length).sum] (work, n) =
      ([], (n.activateEach B c work).2) := by
  fun_induction activateEach n B c work with
  | case1 n => simp
  | case2 n i work hi r rest ih =>
    have hstep : activateStep B c (i :: work, n) =
        ((n.graph.stage i).listeners.reverse ++ work, r.2) := if_pos hi
    have hrounds : (i :: work).length +
        ((n.graph.wave (i :: work)).map fun v => (n.graph.stage v).listeners.length).sum =
        ((n.graph.stage i).listeners.reverse ++ work).length +
          ((r.2.graph.wave ((n.graph.stage i).listeners.reverse ++ work)).map
            fun v => (r.2.graph.stage v).listeners.length).sum + 1 := by
      rw [Graph.wave_cons hi, ← n.wave_openOne B c i]
      simp only [r, listeners_openOne, List.map_cons, List.sum_cons, List.length_cons,
        List.length_append, List.length_reverse]
      omega
    rw [hrounds, Function.iterate_succ_apply, hstep]
    exact ih
  | case3 n i work hi ih =>
    have hstep : activateStep B c (i :: work, n) = (work, n) := if_neg hi
    rw [Graph.wave_cons_of_not hi, List.length_cons, Nat.add_right_comm,
      Function.iterate_succ_apply, hstep]
    exact ih

/-! ### Opening one stage after the other -/

/-- What is opened one by one runs, and its listeners are told. -/
theorem stage_openEach (his : ∀ i ∈ is, i < n.graph.size) (hv : v < n.graph.size) :
    (is.foldl (fun n k => (n.openOne B k c).2) n).graph.stage v =
      { n.graph.stage v with
        state := if v ∈ is then .running else (n.graph.stage v).state
        opened := (n.graph.stage v).opened || decide (v ∈ is)
        runningFeeders := (n.graph.stage v).runningFeeders +
          (is.map fun u => (n.graph.stage u).listeners.count v).sum } := by
  induction is generalizing n with
  | nil => simp
  | cons i is ih =>
    obtain ⟨f, hf⟩ := n.openOne_graph B i c
    have hsize := n.size_openOne B i c
    rw [List.foldl_cons, ih (fun k hk => hsize ▸ his k (List.mem_cons_of_mem _ hk)) (hsize ▸ hv)]
    simp only [listeners_openOne]
    rw [hf, Graph.stage_withFailure, Graph.stage_enterRunning hv]
    by_cases hvi : i = v
    · subst hvi
      simp [Nat.add_assoc]
    · simp [hvi, Ne.symm hvi, Nat.add_assoc]

/-- Opening stages leaves the rest of a graph alone, but for the number of running stages and the
failure. -/
theorem graph_openEach (n : Network W) (B : Bodies W) (c : Option Caller) (is : List StageId) :
    ∃ stages failure, (is.foldl (fun n k => (n.openOne B k c).2) n).graph =
      { n.graph with stages, running := n.graph.running + is.length, failure } := by
  induction is generalizing n with
  | nil => exact ⟨n.graph.stages, n.graph.failure, rfl⟩
  | cons i is ih =>
    obtain ⟨f, hf⟩ := n.openOne_graph B i c
    obtain ⟨stages, failure, hg⟩ := ih (n.openOne B i c).2
    refine ⟨stages, failure, ?_⟩
    rw [List.foldl_cons, hg, hf, Graph.enterRunning_eq, List.length_cons, Nat.add_comm is.length,
      ← Nat.add_assoc]
    rfl

/-- What is opened one by one has its opening hook called, if that has not been done before. -/
theorem notes_openEach {n : Network (Noted W)} (hn : is.Nodup) (his : ∀ i ∈ is, i < n.graph.size) :
    (is.foldl (fun n k => (n.openOne B.noting k c).2) n).world.2 =
      n.world.2 ++ (is.filter fun v => !(n.graph.stage v).opened).map (·, .hook .opening) := by
  induction is generalizing n with
  | nil => simp
  | cons i is ih =>
    obtain ⟨hi, hn⟩ := List.nodup_cons.1 hn
    obtain ⟨f, hf⟩ := n.openOne_graph B.noting i c
    have hsize := n.size_openOne B.noting i c
    have hopened : ∀ v ∈ is, ((n.openOne B.noting i c).2.graph.stage v).opened =
        (n.graph.stage v).opened := fun v hv => by
      have hiv : i ≠ v := fun h => hi (h ▸ hv)
      rw [hf, Graph.stage_withFailure, Graph.stage_enterRunning (his v (List.mem_cons_of_mem _ hv))]
      simp [hiv]
    rw [List.foldl_cons, ih hn fun k hk => hsize ▸ his k (List.mem_cons_of_mem _ hk),
      n.world_openOne, List.filter_congr fun v hv => by rw [hopened v hv]]
    cases ho : (n.graph.stage i).opened <;> simp [ho, Bodies.noting]

/-! ### Activating one stage -/

theorem activate_of_size_le (h : n.graph.size ≤ i) :
    n.activate B i = (.error (.stageNotFound i), n) := by
  unfold activate Graph.check
  rw [if_neg (Nat.not_lt.2 h)]

theorem activate_of_lt (h : i < n.graph.size) : n.activate B i = n.activateEach B none [i] := by
  unfold activate Graph.check
  rw [if_pos h]

/-- What activation answers says whether a hook has failed, and the failure is kept if there was
none before. -/
theorem failure_activate (B : Bodies W) (h : i < n.graph.size) :
    ∃ f, (n.activate B i).2.graph.failure = n.graph.failure.or f ∧
      ((n.activate B i).1 = .ok () ↔ f = none) := by
  obtain ⟨hreply, hgraph, -⟩ := obey_recording (B := B) (n := ⟨n.graph, n.world, []⟩) (m := n) rfl
    rfl (.activate i)
  obtain ⟨called, -, hreport, hfailure⟩ :=
    (reported_obey (B := B) (n := ⟨n.graph, n.world, []⟩) (g := n.graph) rfl
    (d := .activate i) fun k hk => Option.some.inj hk ▸ h).called
  refine ⟨called.findSome? (·.failure n.graph none), ?_, ?_⟩
  · exact (congrArg Graph.failure hgraph).symm.trans hfailure
  · rw [show (n.activate B i).1 = report n.graph called from hreply.symm.trans hreport,
      report_eq_ok_iff, List.findSome?_eq_none_iff]
    simp [HookCall.failure]

end Network

/-- **Activation reaches exactly as far as dormant stages do.** In every state of every session,
whatever has been built and done before, activating a stage ends after finitely many rounds: one for
the stage itself and one for each listener of a stage that is reached. The stages that are reached
are those to which a path of dormant stages leads, and they are the ones whose state changes: they
run. Each of them that has never been opened has its opening hook called once, and nothing else is
called. The number of running stages grows by their number, the counter of each stage by the number
of its feeders among them, and nothing else changes, but for the failure of a hook, which is kept if
there was none before. -/
theorem activate_exact {W : Type} (B : Bodies W) (world : W) (sc : Scheduler)
    {s : Session (Noted W)} (hr : Session.Reached B.noting Session.KeepsNotes (world, []) sc s)
    (i : StageId) :
    let n := s.network
    let r := n.activate B.noting i
    (n.graph.size ≤ i → r = (.error (.stageNotFound i), n)) ∧
    (i < n.graph.size → ∃ reached : List StageId, reached.Nodup ∧
      (∀ v, v ∈ reached ↔ n.graph.Reaches i v) ∧
      (Network.activateStep B.noting none)^[1 +
        (reached.map fun v => (n.graph.stage v).listeners.length).sum] ([i], n) = ([], r.2) ∧
      (∀ v, (r.2.graph.stage v).state ≠ (n.graph.stage v).state ↔ v ∈ reached) ∧
      (∀ v < n.graph.size, r.2.graph.stage v =
        { n.graph.stage v with
          state := if v ∈ reached then .running else (n.graph.stage v).state
          opened := (n.graph.stage v).opened || decide (v ∈ reached)
          runningFeeders :=
            (n.graph.stage v).runningFeeders + (n.graph.stage v).feeders.countP (· ∈ reached) }) ∧
      r.2.world.2 = n.world.2 ++
        (reached.filter fun v => .hook .opening ∉ n.historyOf v).map (·, .hook .opening) ∧
      r.2.graph.size = n.graph.size ∧
      ∃ stages f, r.2.graph =
          { n.graph with
            stages, running := n.graph.running + reached.length, failure := n.graph.failure.or f } ∧
        (r.1 = .ok () ↔ f = none)) := by
  intro n r
  refine ⟨fun hi => Network.activate_of_size_le hi, fun hi => ?_⟩
  have heach : r.2 = (n.activateEach B.noting none [i]).2 :=
    congrArg Prod.snd (Network.activate_of_lt hi)
  have heq : r.2 = (n.graph.wave [i]).foldl (fun n k => (n.openOne B.noting k none).2) n :=
    heach.trans (n.activateEach_eq B.noting none [i])
  have hn := n.graph.nodup_wave [i]
  have hwaits : ∀ v ∈ n.graph.wave [i], n.graph.Waits v := fun v hv => Graph.waits_of_mem_wave hv
  have hlt : ∀ v ∈ n.graph.wave [i], v < n.graph.size := fun v hv => (hwaits v hv).1
  have hstage : ∀ v < n.graph.size, r.2.graph.stage v = _ := fun v hv => by
    rw [heq, Network.stage_openEach hlt hv, hr.wired.sum_listeners_count hn]
  obtain ⟨stages, f, hgraph⟩ := n.graph_openEach B.noting none (n.graph.wave [i])
  rw [← heq] at hgraph
  have hsize : r.2.graph.size = n.graph.size :=
    Graph.size_of_bare ((Stable.activate (stable_bare B.noting _)) rfl)
  refine ⟨n.graph.wave [i], hn, fun v => ?_, ?_, fun v => ?_, hstage, ?_, hsize, stages, ?_⟩
  · simp [Graph.mem_wave_iff]
  · rw [heach]
    exact n.activateStep_iterate B.noting none [i]
  · by_cases hv : v < n.graph.size
    · rw [hstage v hv]
      by_cases hm : v ∈ n.graph.wave [i]
      · have hd := (hwaits v hm).2
        simp only [hm, if_true, iff_true]
        intro hs
        rw [Stage.dormant, ← hs] at hd
        exact absurd hd (by decide)
      · simp [hm]
    · have hle := Nat.le_of_not_lt hv
      rw [Graph.stage_of_size_le hle, Graph.stage_of_size_le (hsize ▸ hle)]
      exact iff_of_false (fun h => h rfl) fun hm => hv (hlt v hm)
  · rw [heq, Network.notes_openEach hn hlt]
    congr 2
    refine List.filter_congr fun v _ => ?_
    have hopened : (n.graph.stage v).opened = true ↔ .hook .opening ∈ n.historyOf v :=
      (hr.inOrder.framed v).opened_iff
    rw [Bool.eq_iff_iff, Bool.not_eq_true', decide_eq_true_eq, ← hopened, Bool.not_eq_true]
  · obtain ⟨f', hf, hreply⟩ := Network.failure_activate (n := n) B.noting hi
    have hkept : f = n.graph.failure.or f' := (congrArg Graph.failure hgraph).symm.trans hf
    exact ⟨f', hkept ▸ hgraph, hreply⟩

/-- A cycle of three stages. Two of them feed a common listener, and one feeds a stage that runs
already, behind which another one waits. -/
def whirl : Session (Noted Unit) :=
  let n : Network (Noted Unit) :=
    ⟨.ofParts (["a", "b", "c", "d", "e", "f"].map (.stage · .interior true)), (), []⟩
  let edges := [(0, 1), (1, 2), (2, 0), (2, 3), (3, 4), (1, 5), (2, 5)]
  ⟨(n.openOne Bodies.inert.noting 3 none).2.mapGraph fun g =>
    edges.foldl (fun g e => g.add (.edge e.1 e.2)) g, ⟨.roundRobin, 1⟩, []⟩

theorem reached_whirl :
    Session.Reached Bodies.inert.noting Session.KeepsNotes ((), []) ⟨.roundRobin, 1⟩ whirl := by
  have built := Session.Reached.parts Bodies.inert.noting Session.KeepsNotes ((), [])
    ⟨.roundRobin, 1⟩ (["a", "b", "c", "d", "e", "f"].map (.stage · .interior true))
  have running := built.opens 3 nofun (by decide) (by decide) rfl
  have ring := ((running.build (.edge 0 1)).build (.edge 1 2)).build (.edge 2 0)
  exact (((ring.build (.edge 2 3)).build (.edge 3 4)).build (.edge 1 5)).build (.edge 2 5)

/-- The cycle is gone round once, the common listener is opened once, and the stage that runs is not
passed. -/
theorem activate_exact_whirl :
    let r := whirl.network.activate Bodies.inert.noting 0
    (∀ v, (r.2.graph.stage v).state ≠ (whirl.network.graph.stage v).state ↔ v ∈ [0, 1, 2, 5]) ∧
      whirl.network.graph.running = 1 ∧ r.2.graph.running = 5 ∧
      (r.2.graph.stage 5).runningFeeders = 2 := by
  intro r
  obtain ⟨-, hreach⟩ := activate_exact .inert () ⟨.roundRobin, 1⟩ reached_whirl 0
  obtain ⟨reached, hn, hmem, -, hstate, hstage, -, -, stages, f, hgraph, -⟩ := hreach (by decide)
  have hpaths : ∀ v, v ∈ reached ↔ v ∈ [0, 1, 2, 5] := by
    intro v
    rw [hmem]
    constructor
    · intro h
      exact h.stays (P := fun v => v ∈ [0, 1, 2, 5]) (by decide) (by decide)
    · have h₀ : whirl.network.graph.Reaches 0 0 := .here (by decide)
      have h₁ := h₀.onward (k := 1) (by decide) (by decide)
      have h₂ := h₁.onward (k := 2) (by decide) (by decide)
      have h₅ := h₁.onward (k := 5) (by decide) (by decide)
      simp only [List.mem_cons, List.not_mem_nil, or_false]
      rintro (rfl | rfl | rfl | rfl) <;> assumption
  have hperm : reached.Perm [0, 1, 2, 5] := (List.perm_ext_iff_of_nodup hn (by decide)).2 hpaths
  refine ⟨fun v => (hstate v).trans (hpaths v), by decide, ?_, ?_⟩
  · have hrunning := congrArg Graph.running hgraph
    rw [hperm.length_eq] at hrunning
    exact hrunning
  · rw [show r.2.graph.stage 5 = _ from hstage 5 (by decide)]
    simp only [hpaths]
    decide

end Pipework
