import Pipework.Proofs.Graph.Wiring
import Pipework.Scheduler

/-!
# Elementary changes of a network

Whatever is done to a network is made of few changes: a stage is opened, halted or completed, and a
hook is called on the way. This module says what each of them does to the stages and to the world,
and what the walks of activation and settling preserve if each change does
(`activateEach_induction`, `settleEach_induction`).
-/

namespace Pipework

/-- Calls a hook of a body. -/
def Bodies.hook {W : Type} (B : Bodies W) : Hook → StageId → W → Reply Unit × W
  | .opening => B.opening
  | .closing => B.closing

namespace Network

variable {W : Type} {n : Network W} {B : Bodies W} {i j : StageId} {c : Option Caller} {hook : Hook}

@[simp] theorem graph_mapGraph (n : Network W) (f : Graph → Graph) :
    (n.mapGraph f).graph = f n.graph := rfl

@[simp] theorem world_mapGraph (n : Network W) (f : Graph → Graph) :
    (n.mapGraph f).world = n.world := rfl

/-! ### Hooks -/

/-- All that a hook does to the graph is to leave a failure. -/
theorem runHook_graph (n : Network W) (B : Bodies W) (hook : Hook) (i : StageId)
    (c : Option Caller) :
    ∃ f, (n.runHook B hook i c).2.graph = n.graph.withFailure f := by
  unfold runHook
  cases hook <;> simp only <;> split
  all_goals first
    | exact ⟨n.graph.failure, rfl⟩
    | unfold Graph.recordFailure
      simp only
      split
      · exact ⟨n.graph.failure, rfl⟩
      · exact ⟨_, rfl⟩

@[simp] theorem world_runHook (n : Network W) (B : Bodies W) (hook : Hook) (i : StageId)
    (c : Option Caller) :
    (n.runHook B hook i c).2.world = (B.hook hook i n.world).2 := by
  unfold runHook Bodies.hook
  cases hook <;> simp only <;> split <;> rfl

theorem runHookIf_graph (n : Network W) (cond : Bool) (B : Bodies W) (hook : Hook) (i : StageId)
    (c : Option Caller) : ∃ f, (n.runHookIf cond B hook i c).2.graph = n.graph.withFailure f := by
  unfold runHookIf
  split
  · exact runHook_graph n B hook i c
  · exact ⟨n.graph.failure, rfl⟩

@[simp] theorem world_runHookIf (n : Network W) (cond : Bool) (B : Bodies W) (hook : Hook)
    (i : StageId) (c : Option Caller) :
    (n.runHookIf cond B hook i c).2.world =
      if cond then (B.hook hook i n.world).2 else n.world := by
  unfold runHookIf
  split <;> simp_all

/-! ### Opening -/

theorem openOne_graph (n : Network W) (B : Bodies W) (i : StageId) (c : Option Caller) :
    ∃ f, (n.openOne B i c).2.graph = (n.graph.enterRunning i).withFailure f :=
  runHookIf_graph (n.mapGraph (·.enterRunning i)) (!(n.graph.stage i).opened) B .opening i c

theorem world_openOne (n : Network W) (B : Bodies W) (i : StageId) (c : Option Caller) :
    (n.openOne B i c).2.world =
      if (n.graph.stage i).opened then n.world else (B.opening i n.world).2 := by
  unfold openOne
  rw [world_runHookIf]
  cases (n.graph.stage i).opened <;> rfl

theorem state_openOne (hi : i < n.graph.size) (B : Bodies W) (j : StageId) (c : Option Caller) :
    ((n.openOne B i c).2.graph.stage j).state =
      if i = j then .running else (n.graph.stage j).state := by
  obtain ⟨f, hf⟩ := n.openOne_graph B i c
  have := congrArg Stage.Life.state (Graph.life_enterRunning hi j)
  rw [hf, Graph.stage_withFailure]
  split
  · next hij => rwa [if_pos hij] at this
  · next hij => rwa [if_neg hij] at this

@[simp] theorem size_openOne (n : Network W) (B : Bodies W) (i : StageId) (c : Option Caller) :
    (n.openOne B i c).2.graph.size = n.graph.size := by
  obtain ⟨f, hf⟩ := n.openOne_graph B i c
  rw [hf, Graph.size_withFailure, Graph.size_enterRunning]

/-! ### Completing -/

theorem complete_of_finished (h : (n.graph.stage i).state = .finished) :
    n.complete B i c = (.ok (), n) := if_pos h

/-- Completing a stage retires it, with the opening hook before and the closing hook after. -/
theorem complete_graph (h : (n.graph.stage i).state ≠ .finished) :
    ∃ f, (n.complete B i c).2.graph = (n.graph.retire i).withFailure f := by
  obtain ⟨e, he⟩ := runHookIf_graph n (!(n.graph.stage i).opened) B .opening i c
  have hr :
      ((n.runHookIf (!(n.graph.stage i).opened) B .opening i c).2.mapGraph (·.retire i)).graph =
      (n.graph.retire i).withFailure e := by
    rw [graph_mapGraph, he]
    exact Graph.retire_withFailure n.graph e i
  unfold complete
  rw [if_neg h]
  simp only
  split
  · exact ⟨e, hr⟩
  · obtain ⟨f, hf⟩ := runHook_graph
      ((n.runHookIf (!(n.graph.stage i).opened) B .opening i c).2.mapGraph (·.retire i))
      B .closing i c
    exact ⟨f, hf.trans (by rw [hr]; rfl)⟩

theorem state_complete (hi : i < n.graph.size) (B : Bodies W) (j : StageId) (c : Option Caller) :
    ((n.complete B i c).2.graph.stage j).state =
      if i = j then .finished else (n.graph.stage j).state := by
  by_cases h : (n.graph.stage i).state = .finished
  · rw [complete_of_finished h]
    split
    · next hij => rw [← hij, h]
    · rfl
  · obtain ⟨f, hf⟩ := complete_graph (B := B) (c := c) h
    have := congrArg Stage.Life.state (Graph.life_retire hi j)
    rw [hf, Graph.stage_withFailure]
    split
    · next hij => rwa [if_pos hij] at this
    · next hij => rwa [if_neg hij] at this

theorem world_complete (h : (n.graph.stage i).state ≠ .finished) :
    (n.complete B i c).2.world =
      let w := if (n.graph.stage i).opened then n.world else (B.opening i n.world).2
      if 0 < (n.graph.stage i).holders then w else (B.closing i w).2 := by
  have hw : (n.runHookIf (!(n.graph.stage i).opened) B .opening i c).2.world =
      if (n.graph.stage i).opened then n.world else (B.opening i n.world).2 := by
    rw [world_runHookIf]
    cases (n.graph.stage i).opened <;> rfl
  unfold complete
  rw [if_neg h]
  simp only
  split
  · exact hw
  · rw [world_runHook, world_mapGraph, hw]
    rfl

@[simp] theorem bare_complete (n : Network W) (B : Bodies W) (i : StageId) (c : Option Caller) :
    (n.complete B i c).2.graph.bare = n.graph.bare := by
  by_cases h : (n.graph.stage i).state = .finished
  · rw [complete_of_finished h]
  · obtain ⟨f, hf⟩ := complete_graph (B := B) (c := c) h
    rw [hf, Graph.bare_withFailure, Graph.bare_retire]

@[simp] theorem size_complete (n : Network W) (B : Bodies W) (i : StageId) (c : Option Caller) :
    (n.complete B i c).2.graph.size = n.graph.size :=
  Graph.size_of_bare (bare_complete n B i c)

/-! ### Letting go -/

theorem closeDue_graph (n : Network W) (B : Bodies W) (i : StageId) (c : Option Caller) :
    ∃ f, (n.closeDue B i c).2.graph =
      (if n.graph.closes i then n.graph.modify i fun s => { s with closingDue := false }
        else n.graph).withFailure f := by
  unfold closeDue
  split
  · obtain ⟨f, hf⟩ := runHook_graph
      (n.mapGraph (·.modify i fun s => { s with closingDue := false })) B .closing i c
    exact ⟨f, hf⟩
  · exact ⟨n.graph.failure, rfl⟩

theorem world_closeDue (n : Network W) (B : Bodies W) (i : StageId) (c : Option Caller) :
    (n.closeDue B i c).2.world = if n.graph.closes i then (B.closing i n.world).2 else n.world := by
  unfold closeDue
  split
  · rw [world_runHook]
    rfl
  · rfl

/-! ### Calling -/

/-- All that a call does to the graph is to be counted. -/
theorem call_graph (n : Network W) (B : Bodies W) (i : StageId) (v : Visit) :
    ∃ m : StageMetrics → StageMetrics,
      (n.call B i v).2.2.graph = n.graph.modify i fun s => { s with metrics := m s.metrics } := by
  unfold call
  simp only
  split
  · exact ⟨id, (n.graph.modify_id i).symm⟩
  · next o _ => exact ⟨fun m => m.record o (B.call i v n.world).2.1.items .zero, rfl⟩

theorem outcome_call (n : Network W) (B : Bodies W) (i : StageId) (v : Visit) :
    (n.call B i v).1 = (B.call i v n.world).1.outcome? := by
  unfold call
  simp only
  split
  · next he => exact he.symm
  · next he => exact he.symm

@[simp] theorem world_call (n : Network W) (B : Bodies W) (i : StageId) (v : Visit) :
    (n.call B i v).2.2.world = (B.call i v n.world).2.2 := by
  unfold call
  simp only
  split <;> rfl

/-! ### Settling one stage -/

/-- A settled stage is running, no source, held by nobody, and cut off from work. -/
theorem settled_iff :
    n.settled B i = true ↔
      (n.graph.stage i).holders = 0 ∧ (n.graph.stage i).state = .running ∧
        (n.graph.stage i).isSource = false ∧
        (n.graph.stage i).runningFeeders = 0 ∧
        (∀ u ∈ (n.graph.stage i).feeders, (n.graph.stage u).holders = 0) ∧
        B.pending i n.world = 0 := by
  simp [settled, exhausted, and_assoc]

theorem state_of_settled (h : n.settled B i = true) : (n.graph.stage i).state = .running :=
  (settled_iff.1 h).2.1

/-- Settling completes a settled stage, halts it, or leaves everything as it is. -/
theorem settleOne_cases (n : Network W) (B : Bodies W) (i : StageId) (c : Option Caller) :
    (n.settled B i = true ∧ (∀ u ∈ (n.graph.stage i).feeders, (n.graph.stage u).state = .finished) ∧
        n.settleOne B i c = (true, n.complete B i c)) ∨
      (n.settled B i = true ∧
        ¬ (∀ u ∈ (n.graph.stage i).feeders, (n.graph.stage u).state = .finished) ∧
        n.settleOne B i c = (true, .ok (), n.mapGraph (·.halt i))) ∨
      (n.settled B i = false ∧ ∃ b, n.settleOne B i c = (b, .ok (), n)) := by
  unfold settleOne
  cases hs : n.settled B i with
  | true =>
    rw [state_of_settled hs]
    by_cases hf : ∀ u ∈ (n.graph.stage i).feeders, (n.graph.stage u).state = .finished
    · left
      refine ⟨rfl, hf, ?_⟩
      simp only [if_true]
      rw [if_pos (by simpa using hf)]
    · right
      left
      refine ⟨rfl, hf, ?_⟩
      simp only [if_true]
      rw [if_neg (by simpa using hf)]
  | false =>
    right
    right
    refine ⟨rfl, ?_⟩
    cases (n.graph.stage i).state <;> exact ⟨_, rfl⟩

theorem settleOne_of_not_settled (h : n.settled B i = false) (c : Option Caller) :
    ∃ b, n.settleOne B i c = (b, .ok (), n) := by
  rcases n.settleOne_cases B i c with ⟨hs, -⟩ | ⟨hs, -⟩ | ⟨-, he⟩
  · exact absurd (hs.symm.trans h) (by decide)
  · exact absurd (hs.symm.trans h) (by decide)
  · exact he

theorem settleOne_of_finished (h : (n.graph.stage i).state = .finished) :
    n.settleOne B i c = (true, .ok (), n) := by
  unfold settleOne
  rw [h]

theorem settleOne_of_unsettled (h : (n.graph.stage i).state = .running)
    (hs : n.settled B i = false) :
    n.settleOne B i c = (false, .ok (), n) := by
  unfold settleOne
  rw [h, hs]
  rfl

theorem settleOne_of_settled (hs : n.settled B i = true)
    (hf : ∀ u ∈ (n.graph.stage i).feeders, (n.graph.stage u).state = .finished) :
    n.settleOne B i c = (true, n.complete B i c) := by
  rcases n.settleOne_cases B i c with ⟨-, -, he⟩ | ⟨-, hnf, -⟩ | ⟨hns, -⟩
  · exact he
  · exact absurd hf hnf
  · exact absurd (hs.symm.trans hns) (by decide)

theorem settleOne_of_starved (hs : n.settled B i = true)
    (hf : ¬ ∀ u ∈ (n.graph.stage i).feeders, (n.graph.stage u).state = .finished) :
    n.settleOne B i c = (true, .ok (), n.mapGraph (·.halt i)) := by
  rcases n.settleOne_cases B i c with ⟨-, hall, -⟩ | ⟨-, -, he⟩ | ⟨hns, -⟩
  · exact absurd hall hf
  · exact he
  · exact absurd (hs.symm.trans hns) (by decide)

/-- Settling one stage leaves the state of any other. -/
theorem state_settleOne_ne (h : i ≠ j) :
    ((n.settleOne B i c).2.2.graph.stage j).state = (n.graph.stage j).state := by
  rcases n.settleOne_cases B i c with ⟨hs, -, he⟩ | ⟨hs, -, he⟩ | ⟨-, b, he⟩ <;> rw [he]
  · rw [state_complete (Graph.lt_size_of_state_ne (by simp [state_of_settled hs])), if_neg h]
  · exact (Graph.state_halt (state_of_settled hs) j).trans (if_neg h)

/-- Settling a settled stage stops it, and no other. -/
theorem running_settleOne (hs : n.settled B i = true) :
    ((n.settleOne B i c).2.2.graph.stage j).state = .running ↔
    i ≠ j ∧ (n.graph.stage j).state = .running := by
  have hr := state_of_settled hs
  have hi : i < n.graph.size := Graph.lt_size_of_state_ne (by simp [hr])
  rcases n.settleOne_cases B i c with ⟨-, -, he⟩ | ⟨-, -, he⟩ | ⟨hns, -⟩
  · rw [he, state_complete hi]
    split <;> simp_all
  · rw [he, graph_mapGraph, Graph.state_halt hr]
    split <;> simp_all
  · rw [hs] at hns
    cases hns

/-! ### Walks -/

@[simp] theorem activateEach_nil (n : Network W) (B : Bodies W) (c : Option Caller) :
    (n.activateEach B c []).2 = n := by
  rw [activateEach]

theorem activateEach_cons {work : List StageId} (more : List StageId) (hi : i < n.graph.size)
    (hd : (n.graph.stage i).dormant = true) (hm : (n.graph.stage i).listeners.reverse = more) :
    (n.activateEach B c (i :: work)).2 =
      ((n.openOne B i c).2.activateEach B c (more ++ work)).2 := by
  rw [activateEach, dif_pos ⟨hi, hd⟩, hm]

theorem activateEach_cons_of_not {work : List StageId}
    (h : ¬ (i < n.graph.size ∧ (n.graph.stage i).dormant = true)) :
    (n.activateEach B c (i :: work)).2 = (n.activateEach B c work).2 := by
  rw [activateEach, dif_neg h]

/-- Activating the first of some dormant stages that are linked opens them one by one. -/
theorem activateEach_of_links {g : Graph} {rest : List StageId} (hl : g.Links (i :: rest))
    (hb : n.graph.bare = g.bare) (hn : (i :: rest).Nodup)
    (hd : ∀ k ∈ i :: rest, k < g.size ∧ (n.graph.stage k).dormant = true) :
    (n.activateEach B c [i]).2 = (i :: rest).foldl (fun n k => (n.openOne B k c).2) n := by
  induction rest generalizing i n with
  | nil =>
    obtain ⟨hi, hdi⟩ := hd i (List.mem_cons_self ..)
    rw [← Graph.size_of_bare hb] at hi
    have hlist : (n.graph.stage i).listeners.reverse = [] := by
      rw [Graph.listeners_of_bare hb, hl]
      rfl
    rw [activateEach_cons [] hi hdi hlist, List.nil_append, activateEach_nil]
    rfl
  | cons k rest ih =>
    obtain ⟨hlisteners, -, hl⟩ := hl
    obtain ⟨hik, hn⟩ := List.nodup_cons.1 hn
    obtain ⟨hi, hdi⟩ := hd i (List.mem_cons_self ..)
    rw [← Graph.size_of_bare hb] at hi
    have hlist : (n.graph.stage i).listeners.reverse = [k] := by
      rw [Graph.listeners_of_bare hb, hlisteners]
      rfl
    have hb' : (n.openOne B i c).2.graph.bare = g.bare := by
      obtain ⟨f, hf⟩ := n.openOne_graph B i c
      rw [hf, Graph.bare_withFailure, Graph.bare_enterRunning, hb]
    have hd' : ∀ l ∈ k :: rest, l < g.size ∧
        ((n.openOne B i c).2.graph.stage l).dormant = true := by
      intro l hlm
      obtain ⟨hlt, hdl⟩ := hd l (List.mem_cons_of_mem _ hlm)
      have hil : i ≠ l := by
        rintro rfl
        exact hik hlm
      refine ⟨hlt, ?_⟩
      rwa [Stage.dormant, n.state_openOne hi, if_neg hil]
    rw [activateEach_cons [k] hi hdi hlist, List.append_nil, ih hl hb' hn hd']
    rfl

/-- What is opened one by one runs. -/
theorem state_openEach {is : List StageId} (his : ∀ i ∈ is, i < n.graph.size) (j : StageId) :
    ((is.foldl (fun n k => (n.openOne B k c).2) n).graph.stage j).state =
      if j ∈ is then .running else (n.graph.stage j).state := by
  induction is generalizing n with
  | nil => rfl
  | cons i is ih =>
    have hi := his i (List.mem_cons_self ..)
    rw [List.foldl_cons, ih fun k hk => by
      rw [size_openOne]
      exact his k (List.mem_cons_of_mem _ hk), state_openOne hi]
    by_cases hij : i = j
    · subst hij
      simp
    · simp [hij, Ne.symm hij]

/-- Activating a stage without listeners is opening it. -/
theorem activate_of_no_listeners (hi : i < n.graph.size) (hd : (n.graph.stage i).dormant = true)
    (hl : (n.graph.stage i).listeners = []) : (n.activate B i).2 = (n.openOne B i none).2 := by
  unfold activate Graph.check
  simp only [hi, if_true]
  rw [activateEach_cons [] hi hd (by simp [hl]), List.nil_append, activateEach_nil]

@[simp] theorem settleEach_nil (n : Network W) (B : Bodies W) (c : Option Caller)
    (unseen : List StageId) :
    (n.settleEach B c unseen []).2 = n := by
  rw [settleEach]

theorem settleEach_cons {unseen : List StageId} (i : StageId) (work more : List StageId)
    (hi : i ∈ unseen)
    (hm : (if (n.settleOne B i c).1 then ((n.settleOne B i c).2.2.graph.stage i).listeners.reverse
      else []) = more) :
    (n.settleEach B c unseen (i :: work)).2 =
      ((n.settleOne B i c).2.2.settleEach B c (unseen.erase i) (more ++ work)).2 := by
  rw [settleEach, dif_pos hi, ← hm]

theorem settleEach_cons_of_not_mem {unseen work : List StageId} (h : i ∉ unseen) :
    (n.settleEach B c unseen (i :: work)).2 = (n.settleEach B c unseen work).2 := by
  rw [settleEach, dif_neg h]

/-- Nothing comes of a walk over stages that go on running. -/
theorem settleEach_of_unsettled {unseen work : List StageId}
    (h : ∀ j ∈ work, (n.graph.stage j).state = .running ∧ n.settled B j = false) :
    (n.settleEach B c unseen work).2 = n := by
  induction work generalizing unseen with
  | nil => exact settleEach_nil n B c unseen
  | cons j work ih =>
    have rest := fun k hk => h k (List.mem_cons_of_mem j hk)
    by_cases hj : j ∈ unseen
    · obtain ⟨hr, hs⟩ := h j (List.mem_cons_self ..)
      have hone : n.settleOne B j c = (false, .ok (), n) := settleOne_of_unsettled hr hs
      rw [settleEach_cons j work [] hj (by rw [hone]; rfl), hone]
      exact ih rest
    · rw [settleEach_cons_of_not_mem hj]
      exact ih rest

/-- Nothing comes of settling where nothing is settled and the listeners go on running. -/
theorem settle_of_running_listeners (hi : i < n.graph.size) (hs : n.settled B i = false)
    (hl : ∀ j ∈ (n.graph.stage i).listeners, (n.graph.stage j).state = .running ∧
      n.settled B j = false) :
    (n.settle B [i] c).2 = n := by
  obtain ⟨b, hone⟩ := settleOne_of_not_settled hs c
  unfold settle
  rw [List.reverse_singleton,
    settleEach_cons i [] (if b then (n.graph.stage i).listeners.reverse else [])
    (List.mem_range.2 hi) (by rw [hone]), hone, List.append_nil]
  refine settleEach_of_unsettled fun j hj => ?_
  cases b with
  | true => exact hl j (List.mem_reverse.1 hj)
  | false => exact absurd hj List.not_mem_nil

/-- Finishing a stage without listeners is completing it. -/
theorem finish_of_no_listeners (hi : i < n.graph.size) (hl : (n.graph.stage i).listeners = []) :
    (n.finish B i).2 = (n.complete B i none).2 := by
  have hf : ((n.complete B i none).2.graph.stage i).state = .finished := by
    rw [state_complete hi, if_pos rfl]
  have hone : (n.complete B i none).2.settleOne B i none =
      (true, .ok (), (n.complete B i none).2) := by
    unfold settleOne
    rw [hf]
  have hi' : i ∈ List.range (n.complete B i none).2.graph.size :=
    List.mem_range.2 ((n.size_complete B i none).symm ▸ hi)
  unfold finish Graph.check
  simp only [hi, if_true, settle, List.reverse_singleton]
  rw [settleEach_cons i [] [] hi', hone, List.append_nil, settleEach_nil]
  simp [hone, Graph.listeners_of_bare (n.bare_complete B i none), hl]

/-- What opening preserves, together with the stages still to be visited, activation preserves. -/
theorem activateEach_induction {P : List StageId → Network W → Prop}
    (opens : ∀ n i work, P (i :: work) n → i < n.graph.size → (n.graph.stage i).dormant = true →
      P ((n.graph.stage i).listeners.reverse ++ work) (n.openOne B i c).2)
    (skips : ∀ n i work, P (i :: work) n → ¬ (i < n.graph.size ∧ (n.graph.stage i).dormant = true) →
      P work n)
    {work : List StageId} (h : P work n) : P [] (n.activateEach B c work).2 := by
  fun_induction activateEach n B c work with
  | case1 n => exact h
  | case2 n i work hi r rest ih => exact ih (opens n i work h hi.1 hi.2)
  | case3 n i work hi ih => exact ih (skips n i work h hi)

/-- What settling one stage preserves, together with the stages unseen and those still to be
visited, settling preserves. -/
theorem settleEach_induction {P : List StageId → List StageId → Network W → Prop}
    (visits : ∀ n i unseen work, P unseen (i :: work) n → i ∈ unseen →
      P (unseen.erase i)
        ((if (n.settleOne B i c).1 then ((n.settleOne B i c).2.2.graph.stage i).listeners.reverse
          else []) ++ work)
        (n.settleOne B i c).2.2)
    (skips : ∀ n i unseen work, P unseen (i :: work) n → i ∉ unseen → P unseen work n)
    {unseen work : List StageId} (h : P unseen work n) :
    ∃ left, P left [] (n.settleEach B c unseen work).2 := by
  fun_induction settleEach n B c unseen work with
  | case1 n unseen => exact ⟨unseen, h⟩
  | case2 n unseen i work hi down r m hm more rest ih =>
    have := visits n i unseen work h hi
    rw [hm] at this
    exact ih this
  | case3 n unseen i work hi ih => exact ih (skips n i unseen work h hi)

end Network

end Pipework
