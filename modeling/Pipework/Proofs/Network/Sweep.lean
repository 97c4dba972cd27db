import Pipework.Proofs.Graph.Tour
import Pipework.Proofs.Network.Calm
import Pipework.Proofs.Network.Health

/-!
# Finishing the sources of a network at rest

When the sources of a network are finished while every stage runs, nobody holds one and none but the
sources has work, a single walk over the graph finishes what it can. A stage that the walk comes to
before one of its feeders goes on running, and no walk comes back to it. So everything finishes
exactly if the walk from the sources comes to each stage after all its feeders
(`finishSources_finishes_iff`), which a graph without cycles does not warrant
(`finishSources_strands_join`).
-/

namespace Pipework

variable {W : Type} {B : Bodies W} {g : Graph} {n : Network W} {i j : StageId} {c : Option Caller}
  {unseen work : List StageId}

namespace Network

/-! ### One stage of the walk -/

/-- A stage that has been seen keeps its state. -/
theorem state_settleEach_of_seen (h : j ∉ unseen) :
    ((n.settleEach B c unseen work).2.graph.stage j).state = (n.graph.stage j).state := by
  have : ∃ left : List StageId, j ∉ left ∧
      ((n.settleEach B c unseen work).2.graph.stage j).state = (n.graph.stage j).state := by
    refine settleEach_induction
      (P := fun unseen (_ : List StageId) m => j ∉ unseen ∧
        (m.graph.stage j).state = (n.graph.stage j).state)
      (fun m k unseen work hm hk => ?_) (fun m k unseen work hm _ => hm) ⟨h, rfl⟩
    refine ⟨fun he => hm.1 (List.mem_of_mem_erase he), (state_settleOne_ne ?_).trans hm.2⟩
    rintro rfl
    exact hm.1 hk
  exact this.elim fun _ h => h.2

/-! ### The walk -/

/-- A network at rest whose sources are finished and all other stages running or finished. -/
structure Stopped (B : Bodies W) (g : Graph) (n : Network W) : Prop
    extends n.Calm g (B.Quiet g) where
  alive : n.graph.Alive
  sources : ∀ i, (g.stage i).isSource = true → (n.graph.stage i).state = .finished

namespace Stopped

theorem size (h : n.Stopped B g) : n.graph.size = g.size := Graph.size_of_bare h.bare

theorem complete (h : n.Stopped B g) (wd : g.Wired) (hB : B.BringNoWork) (hi : i < g.size) :
    (n.complete B i c).2.Stopped B g where
  toCalm := (Calm.stable wd (hB.quiet g)).complete h.toCalm (by rwa [h.size])
  alive := h.alive.complete (by rwa [h.size])
  sources j hj := by
    rw [state_complete (by rwa [h.size])]
    split
    · rfl
    · exact h.sources j hj

/-- A running stage is settled exactly if its feeders are finished. -/
theorem settled_iff (h : n.Stopped B g) (wd : g.Wired) (hr : (n.graph.stage i).state = .running) :
    n.settled B i = true ↔ ∀ u ∈ (g.stage i).feeders, (n.graph.stage u).state = .finished := by
  have hi : i < g.size := by
    rw [← h.size]
    exact Graph.lt_size_of_state_ne (by simp [hr])
  have hs : (g.stage i).isSource = false := by
    by_contra hs
    have := h.sources i (by simpa using hs)
    rw [hr] at this
    cases this
  rw [h.toCalm.settled_iff (h.world i hi hs)]
  constructor
  · rintro ⟨-, -, hf⟩ u hu
    have hu' : u < n.graph.size := by
      rw [h.size]
      exact wd.lt_size_of_mem_feeders hu
    exact (h.alive u hu').resolve_left (hf u hu)
  · intro hf
    refine ⟨hr, hs, fun u hu => ?_⟩
    rw [hf u hu]
    decide

/-- What settling finds settled it finishes. -/
theorem settling (wd : g.Wired) (hB : B.BringNoWork) : Settling B fun n => n.Stopped B g where
  pauses {n i} h hs hf := by
    refine absurd (fun u hu => ?_) hf
    rw [Graph.feeders_of_bare h.bare] at hu
    exact (h.settled_iff wd (state_of_settled hs)).1 hs u hu
  finishes {n i} c h hs _ := by
    refine h.complete wd hB ?_
    rw [← h.size]
    exact Graph.lt_size_of_state_ne (by simp [state_of_settled hs])

/-- A stage that is finished, or could be, is finished when the walk leaves it, and the walk goes on
from there. -/
theorem settleOne_done (h : n.Stopped B g) (wd : g.Wired) (hB : B.BringNoWork) (hi : i < g.size)
    (hd : (n.graph.stage i).state = .finished ∨
      ∀ u ∈ (g.stage i).feeders, (n.graph.stage u).state = .finished) :
    (n.settleOne B i c).1 = true ∧ (n.settleOne B i c).2.2.Stopped B g ∧
      ∀ j, ((n.settleOne B i c).2.2.graph.stage j).state = .finished ↔
        (n.graph.stage j).state = .finished ∨ j = i := by
  have hi' : i < n.graph.size := by rwa [h.size]
  rcases h.alive i hi' with hr | hf
  · have hfeeders := hd.resolve_left (by rw [hr]; decide)
    have hs := (h.settled_iff wd hr).2 hfeeders
    rw [settleOne_of_settled hs (by rwa [Graph.feeders_of_bare h.bare])]
    refine ⟨rfl, h.complete wd hB hi, fun j => ?_⟩
    rw [state_complete hi']
    by_cases hij : i = j
    · simp [hij]
    · simp [hij, Ne.symm hij]
  · rw [settleOne_of_finished hf]
    refine ⟨rfl, h, fun j => ⟨.inl, ?_⟩⟩
    rintro (hj | rfl)
    · exact hj
    · exact hf

/-- At a stage that the walk comes to too early nothing happens. -/
theorem settleOne_early (h : n.Stopped B g) (wd : g.Wired) (hi : i < g.size)
    (hf : (n.graph.stage i).state ≠ .finished)
    (hd : ¬ ∀ u ∈ (g.stage i).feeders, (n.graph.stage u).state = .finished) :
    n.settleOne B i c = (false, .ok (), n) := by
  have hr := (h.alive i (by rwa [h.size])).resolve_right hf
  refine settleOne_of_unsettled hr ?_
  by_contra hs
  exact hd ((h.settled_iff wd hr).1 (by simpa using hs))

/-- **A walk finishes everything exactly if it comes to each stage after all its feeders.** -/
theorem finished_settleEach_iff (h : n.Stopped B g) (wd : g.Wired) (hB : B.BringNoWork)
    (hu : unseen.Nodup) (hlt : ∀ i ∈ unseen, i < g.size) :
    (∀ i < g.size, ((n.settleEach B c unseen work).2.graph.stage i).state = .finished) ↔
      g.Follows (fun i => (n.graph.stage i).state = .finished) (g.tour unseen work) := by
  fun_induction settleEach n B c unseen work with
  | case1 n unseen => rw [Graph.tour_nil, Graph.follows_nil]
  | case2 n unseen i work hi down r m hm more rest ih =>
    have hi' := hlt i hi
    have hu' := hu.erase i
    have hlt' : ∀ k ∈ unseen.erase i, k < g.size := fun k hk => hlt k (List.mem_of_mem_erase hk)
    by_cases hd : (n.graph.stage i).state = .finished ∨
        ∀ u ∈ (g.stage i).feeders, (n.graph.stage u).state = .finished
    · obtain ⟨hdown, hstopped, hstates⟩ := h.settleOne_done (c := c) wd hB hi' hd
      rw [hm] at hdown hstopped hstates
      have hmore : more = (g.stage i).listeners.reverse := by
        rw [← Graph.listeners_of_bare hstopped.bare]
        exact if_pos hdown
      rw [Graph.tour_cons hi (congrArg (· ++ work) hmore.symm), Graph.follows_cons hd,
        ← Graph.follows_congr hstates]
      exact ih hstopped hu' hlt'
    · obtain ⟨hf, hfeeders⟩ := not_or.1 hd
      have hsame := h.settleOne_early (c := c) wd hi' hf hfeeders
      rw [hm] at hsame
      obtain ⟨-, -, rfl⟩ : down = false ∧ r = .ok () ∧ m = n := by simpa using hsame
      rw [Graph.tour_cons hi rfl]
      refine ⟨fun hall => absurd (hall i hi') ?_,
        fun hfol => absurd hfol (Graph.not_follows_cons hi' hf hfeeders)⟩
      -- it has been seen by now, and goes on running
      rw [show rest = m.settleEach B c (unseen.erase i) (more ++ work) from rfl,
        state_settleEach_of_seen hu.not_mem_erase]
      exact hf
  | case3 n unseen i work hi ih =>
    rw [Graph.tour_cons_of_not_mem hi]
    exact ih h hu hlt

end Stopped

/-! ### Finishing the sources -/

theorem state_completeEach {is : List StageId} (hi : ∀ i ∈ is, i < n.graph.size) (j : StageId) :
    ((completeEach B is n).2.graph.stage j).state =
      if j ∈ is then .finished else (n.graph.stage j).state := by
  induction is generalizing n with
  | nil => rfl
  | cons i is ih =>
    have hi' := hi i (List.mem_cons_self ..)
    refine (ih (n := (n.complete B i none).2) fun k hk => ?_).trans ?_
    · rw [size_complete]
      exact hi k (List.mem_cons_of_mem _ hk)
    · rw [state_complete hi']
      by_cases hj : j ∈ is
      · simp [hj]
      · by_cases hij : i = j
        · simp [hij]
        · simp [hj, hij, Ne.symm hij]

/-- Once the sources are finished, and before anything else is, a network at rest is stopped. -/
theorem stopped_completeEach (wd : n.graph.Wired) (hB : B.BringNoWork) (hc : n.graph.Counted)
    (hr : ∀ i < n.graph.size, (n.graph.stage i).state = .running)
    (hh : ∀ i, (n.graph.stage i).holders = 0) (hp : B.Quiet n.graph n.world) :
    (completeEach B n.graph.sources n).2.Stopped B n.graph where
  toCalm := (Calm.stable wd (hB.quiet n.graph)).completeEach ⟨rfl, hc, hh, hp⟩ fun _ =>
    wd.lt_size_of_mem_sources
  alive := Graph.Alive.completeEach (fun i hi => .inl (hr i hi)) fun _ => wd.lt_size_of_mem_sources
  sources i hi := by
    rw [state_completeEach (fun _ => wd.lt_size_of_mem_sources), if_pos ((wd.mem_sources i).2 hi)]

end Network

/-- **When finishing the sources finishes everything.** Suppose that all stages of a network are
running, nobody holds one, none but the sources has work, and hooks bring none. Once the sources
have been finished all stages have, and the network is drained, exactly if the walk from the sources
comes to each stage after all its feeders. -/
theorem finishSources_finishes_iff (B : Bodies W) (world : W) (calls : List (Call W))
    (he : EdgesFirst calls) (hB : B.BringNoWork) :
    let n := Network.ofCalls B world calls
    let m := (n.finishSources B).2
    (∀ i < n.graph.size, (n.graph.stage i).state = .running) →
    (∀ i, (n.graph.stage i).holders = 0) →
    B.Quiet n.graph n.world →
      ((∀ i < m.graph.size, (m.graph.stage i).state = .finished) ↔ n.graph.FedInOrder) ∧
      (m.graph.drained = true ↔ n.graph.FedInOrder) := by
  intro n m hr hh hp
  have tidy := Network.tidy_ofCalls B world he
  have wd : n.graph.Wired := tidy.wired
  have stopped := Network.stopped_completeEach wd hB tidy.counted hr hh hp
  have settled : m.Stopped B n.graph := (Network.Stopped.settling wd hB).settle stopped
  have finished : (∀ i < m.graph.size, (m.graph.stage i).state = .finished) ↔
      n.graph.FedInOrder := by
    have sources : ∀ i, ((Network.completeEach B n.graph.sources n).2.graph.stage i).state =
        .finished ↔
        (n.graph.stage i).isSource = true := by
      intro i
      refine ⟨fun hf => ?_, stopped.sources i⟩
      rw [Network.state_completeEach fun _ => wd.lt_size_of_mem_sources] at hf
      split at hf
      · rename_i hi
        exact (wd.mem_sources i).1 hi
      · rw [hr i (Graph.lt_size_of_state_ne (by simp [hf]))] at hf
        cases hf
    rw [settled.size]
    refine (stopped.finished_settleEach_iff wd hB List.nodup_range fun i hi => ?_).trans ?_
    · rw [← stopped.size]
      exact List.mem_range.1 hi
    · rw [Graph.follows_congr sources, stopped.size]
      exact Iff.rfl
  refine ⟨finished, ?_⟩
  rw [← finished, settled.counted.drained_iff]
  refine ⟨fun hn i hi => (settled.alive i hi).resolve_left (hn i), fun hf i hr => ?_⟩
  rw [hf i (Graph.lt_size_of_state_ne (by simp [hr]))] at hr
  cases hr

/-! ### Two ways to a join -/

/-- The calls that build a graph and activate it. -/
def Call.launch {W : Type} (parts : List Graph.Part) : List (Call W) :=
  parts.map .build ++ [.activateAll]

section Launch

variable (B) (parts : List Graph.Part) (world : W)

theorem Network.ofCalls_launch :
    ofCalls B world (Call.launch parts) = (activateAll ⟨.ofParts parts, world⟩ B).2 := by
  have built : ∀ (parts : List Graph.Part) (g : Graph),
      (parts.map Call.build).foldl (perform B) ⟨g, world⟩ = ⟨parts.foldl Graph.add g, world⟩ := by
    intro parts
    induction parts with
    | nil => exact fun _ => rfl
    | cons p parts ih => exact fun g => ih (g.add p)
  unfold ofCalls Call.launch
  rw [List.foldl_append, built]
  rfl

theorem edgesFirst_launch : EdgesFirst (Call.launch (W := W) parts) := by
  refine List.pairwise_append.2 ⟨?_, List.pairwise_singleton .., fun a ha b hb => ?_⟩
  · rw [List.pairwise_map]
    exact List.pairwise_of_forall fun _ _ => nofun
  · obtain ⟨p, -, rfl⟩ := List.mem_map.1 ha
    exact nofun

theorem Network.bare_launch :
    (ofCalls B world (Call.launch parts)).graph.bare = (Graph.ofParts parts).bare := by
  rw [ofCalls_launch]
  exact (stable_bare B _).activateAll rfl

theorem Network.holders_launch (i : StageId) :
    ((ofCalls B world (Call.launch parts)).graph.stage i).holders = 0 := by
  rw [ofCalls_launch]
  exact (stable_holders B fun _ => 0).activateAll (n := ⟨.ofParts parts, world⟩)
    (Graph.fresh_ofParts parts).holders i

end Launch

/-- A source feeds a join directly and, by an edge that was added later, through a filter. -/
def triangle : List Graph.Part :=
  [.stage "source" .source true, .stage "filter" .interior true, .stage "join" .sink true,
    .edge 0 2, .edge 0 1, .edge 1 2, .source 0]

theorem ofCalls_triangle :
    Network.ofCalls .inert () (Call.launch triangle) =
      (((Network.openOne ⟨.ofParts triangle, ()⟩ .inert 0 none).2.openOne .inert 1 none).2.openOne
        .inert 2 none).2 := by
  rw [Network.ofCalls_launch]
  unfold Network.activateAll
  rw [show (Network.mk (Graph.ofParts triangle) ()).graph.sources = [0] by decide]
  simp only [Network.activateSources]
  rw [Network.activateEach_cons [1, 2] (by decide) (by decide) (by decide), List.append_nil,
    Network.activateEach_cons [2] (by decide) (by decide) (by decide), List.singleton_append,
    Network.activateEach_cons [] (by decide) (by decide) (by decide), List.nil_append,
    Network.activateEach_cons_of_not (by decide), Network.activateEach_nil]

theorem order_triangle : (Graph.ofParts triangle).order = [0, 1, 2] := by
  unfold Graph.order
  rw [show (Graph.ofParts triangle).sources.reverse = [0] by decide,
    Graph.tour_cons (by decide) (show _ = [1, 2] by decide),
    Graph.tour_cons (by decide) (show _ = [2, 2] by decide),
    Graph.tour_cons (by decide) (show _ = [2] by decide), Graph.tour_cons_of_not_mem (by decide),
    Graph.tour_nil]

/-- The walk over the triangle comes to the join last, so that everything finishes. -/
theorem finishSources_finishes_triangle :
    let n := Network.ofCalls .inert () (Call.launch triangle)
    let m := (n.finishSources .inert).2
    (∀ i < m.graph.size, (m.graph.stage i).state = .finished) ∧ m.graph.drained = true := by
  intro n m
  have hn : n = _ := ofCalls_triangle
  have fed : n.graph.FedInOrder := by
    unfold Graph.FedInOrder
    rw [Graph.order_of_bare (Network.bare_launch .inert triangle ()), order_triangle, hn]
    decide
  have running : ∀ i < n.graph.size, (n.graph.stage i).state = .running := by
    rw [hn]
    decide
  have main := finishSources_finishes_iff .inert () (Call.launch triangle)
    (edgesFirst_launch triangle) (fun _ _ _ _ _ => rfl) running
    (Network.holders_launch .inert triangle ()) fun _ _ _ => rfl
  exact ⟨main.1.2 fed, main.2.2 fed⟩

/-- Two ways lead from a source to a join. -/
def diamond : List Graph.Part :=
  [.stage "source" .source true, .stage "left" .interior true, .stage "right" .interior true,
    .stage "join" .sink true, .edge 0 1, .edge 0 2, .edge 1 3, .edge 2 3, .source 0]

/-- The diamond with all its stages running. -/
def diamondRunning : Network Unit :=
  ((((Network.openOne ⟨.ofParts diamond, ()⟩ .inert 0 none).2.openOne .inert 2 none).2.openOne
    .inert 3 none).2.openOne .inert 1 none).2

theorem ofCalls_diamond : Network.ofCalls .inert () (Call.launch diamond) = diamondRunning := by
  rw [Network.ofCalls_launch]
  unfold Network.activateAll diamondRunning
  rw [show (Network.mk (Graph.ofParts diamond) ()).graph.sources = [0] by decide]
  simp only [Network.activateSources]
  rw [Network.activateEach_cons [2, 1] (by decide) (by decide) (by decide), List.append_nil,
    Network.activateEach_cons [3] (by decide) (by decide) (by decide), List.singleton_append,
    Network.activateEach_cons [] (by decide) (by decide) (by decide), List.nil_append,
    Network.activateEach_cons [3] (by decide) (by decide) (by decide), List.singleton_append,
    Network.activateEach_cons_of_not (by decide), Network.activateEach_nil]

/-- The diamond after its source has been finished. -/
def diamondStopped : Network Unit :=
  (((diamondRunning.complete .inert 0 none).2.complete .inert 2 none).2.complete .inert 1 none).2

/-- The walk comes to the join between its two feeders. -/
theorem finishSources_diamond : (diamondRunning.finishSources .inert).2 = diamondStopped := by
  unfold Network.finishSources diamondStopped
  rw [show diamondRunning.graph.sources = [0] by decide]
  simp only [Network.completeEach, Network.settle]
  rw [show (diamondRunning.complete .inert 0 none).2.graph.size = 4 by decide,
    List.reverse_singleton, Network.settleEach_cons 0 [] [2, 1] (by decide) (by decide),
    Network.settleOne_of_finished (by decide), List.append_nil,
    Network.settleEach_cons 2 [1] [3] (by decide) (by decide),
    Network.settleOne_of_settled (by decide) (by decide),
    List.singleton_append, Network.settleEach_cons 3 [1] [] (by decide) (by decide),
    Network.settleOne_of_unsettled (by decide) (by decide), List.nil_append,
    Network.settleEach_cons 1 [] [3] (by decide) (by decide),
    Network.settleOne_of_settled (by decide) (by decide),
    List.append_nil, Network.settleEach_cons_of_not_mem (by decide), Network.settleEach_nil]

/-- In a graph without cycles, in which every stage can be reached from a source and is running,
nobody holds a stage and none has work, hooks succeed and bring none, a join goes on running after
the sources have been finished. -/
theorem finishSources_strands_join :
    let n := Network.ofCalls .inert () (Call.launch diamond)
    let m := (n.finishSources .inert).2
    n.graph.Acyclic ∧
      (∀ i < n.graph.size, n.graph.Sourced i ∧ (n.graph.stage i).state = .running ∧
        (n.graph.stage i).holders = 0 ∧
        Bodies.inert.pending i n.world = 0) ∧
      (∀ hook i w j, (Bodies.inert.hook hook i w).1 = .ok () ∧
        Bodies.inert.pending j (Bodies.inert.hook hook i w).2 = Bodies.inert.pending j w) ∧
      (m.graph.stage 3).state = .running ∧ m.graph.running = 1 ∧ m.graph.drained = false := by
  intro n m
  have hn : n = diamondRunning := ofCalls_diamond
  have hm : m = diamondStopped :=
    (congrArg (fun n => (n.finishSources .inert).2) hn).trans finishSources_diamond
  have acyclic : n.graph.Acyclic := by
    rw [hn]
    exact Graph.acyclic_of_lt (by decide)
  have sourced : ∀ i < n.graph.size, n.graph.Sourced i := by
    rw [hn]
    have source : diamondRunning.graph.Sourced 0 := .start (by decide)
    have left : diamondRunning.graph.Sourced 1 := source.next (by decide)
    have right : diamondRunning.graph.Sourced 2 := source.next (by decide)
    have join : diamondRunning.graph.Sourced 3 := left.next (by decide)
    intro i hi
    rw [show diamondRunning.graph.size = 4 by decide] at hi
    match i with
    | 0 => exact source
    | 1 => exact left
    | 2 => exact right
    | 3 => exact join
  refine ⟨acyclic, fun i hi => ⟨sourced i hi, ?_, Network.holders_launch .inert diamond () i, rfl⟩,
    ?_, ?_⟩
  · rw [hn] at hi ⊢
    revert i
    decide
  · intro hook i w j
    cases hook <;> exact ⟨rfl, rfl⟩
  · rw [hm]
    decide

end Pipework
