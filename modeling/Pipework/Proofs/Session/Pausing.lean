import Mathlib.Data.List.Induction
import Pipework.Proofs.Network.Sweep
import Pipework.Proofs.Session.Hooks

/-!
# Pausing a line of stages, and finishing it

In a line each stage feeds the next one and no other (`Graph.Line`). If nobody holds a stage and
none but the first has work, whatever is done to the first stage settles the others: activating it
sets them all running, pausing it pauses them all, and finishing it finishes all that run. But what
is paused is not settled any more. So a line whose first stage is finished finishes as a whole if it
runs, and if its first stage has been paused the others remain paused and are never closed
(`pausing_before_stop`, `finishSources_leaves_paused`).
-/

namespace Pipework

/-! ### Lines -/

namespace Graph

variable {g g' : Graph} {i j first : StageId} {rest : List StageId}

/-- The graph is a line of stages, the first of which is the only source. -/
structure Line (g : Graph) (first : StageId) (rest : List StageId) : Prop where
  nodup : (first :: rest).Nodup
  mem_iff : ∀ i, i ∈ first :: rest ↔ i < g.size
  links : g.Links (first :: rest)
  sources : g.sources = [first]

/-- All stages of a list are in the same state. -/
def AllIn (g : Graph) (is : List StageId) (t : State) : Prop := ∀ i ∈ is, (g.stage i).state = t

theorem Line.isSource_rest (h : g.Line first rest) (wd : g.Wired) (hi : i ∈ rest) :
    (g.stage i).isSource = false := by
  by_contra hs
  have hm := (wd.mem_sources i).2 (by simpa using hs)
  rw [h.sources, List.mem_singleton] at hm
  exact (List.nodup_cons.1 h.nodup).1 (hm ▸ hi)

end Graph

/-! ### Walks along a line -/

namespace Network

variable {W : Type} {B : Bodies W} {g : Graph} {n : Network W} {i j u : StageId} {c : Option Caller}
  {rest unseen : List StageId} {t : State}

/-- Activating the first of some dormant stages that are linked sets them all running. -/
theorem state_activateEach_of_links (hl : g.Links (i :: rest)) (hb : n.graph.bare = g.bare)
    (hn : (i :: rest).Nodup) (hd : ∀ k ∈ i :: rest, k < g.size ∧ (n.graph.stage k).dormant = true)
    (j : StageId) :
    ((n.activateEach B c [i]).2.graph.stage j).state =
      if j ∈ i :: rest then .running else (n.graph.stage j).state := by
  rw [activateEach_of_links hl hb hn hd]
  exact state_openEach (fun k hk => by
    rw [Graph.size_of_bare hb]
    exact (hd k hk).1) j

theorem settleOne_of_stopped
    (h : (n.graph.stage i).state = .paused ∨ (n.graph.stage i).state = .finished) :
    n.settleOne B i c = (true, .ok (), n) := by
  unfold settleOne
  rcases h with h | h <;> rw [h]

/-- Among linked stages that are paused or finished settling does nothing. -/
theorem settleEach_of_stopped (hl : g.Links (i :: rest)) (hb : n.graph.bare = g.bare)
    (hn : (i :: rest).Nodup)
    (hs : ∀ k ∈ i :: rest, (n.graph.stage k).state = .paused ∨ (n.graph.stage k).state = .finished)
    (hu : ∀ k ∈ i :: rest, k ∈ unseen) : (n.settleEach B c unseen [i]).2 = n := by
  induction rest generalizing i unseen with
  | nil =>
    have hone := settleOne_of_stopped (B := B) (c := c) (hs i (List.mem_cons_self ..))
    rw [settleEach_cons i [] [] (hu i (List.mem_cons_self ..)) (by
      rw [hone, Graph.listeners_of_bare hb, hl]
      rfl), hone, List.nil_append, settleEach_nil]
  | cons k rest ih =>
    obtain ⟨hlisteners, -, hl⟩ := hl
    obtain ⟨hik, hn⟩ := List.nodup_cons.1 hn
    have hone := settleOne_of_stopped (B := B) (c := c) (hs i (List.mem_cons_self ..))
    rw [settleEach_cons i [] [k] (hu i (List.mem_cons_self ..)) (by
      rw [hone, Graph.listeners_of_bare hb, hlisteners]
      rfl), hone, List.append_nil]
    refine ih hl hn (fun l hlm => hs l (List.mem_cons_of_mem _ hlm)) fun l hlm => ?_
    have hli : l ≠ i := by
      rintro rfl
      exact hik hlm
    exact (List.mem_erase_of_ne hli).2 (hu l (List.mem_cons_of_mem _ hlm))

/-- A running stage whose only feeder has stopped is settled, if it has no work and nobody holds a
stage. -/
theorem Calm.settled_of_links (calm : n.Calm g (B.Quiet g))
    (hr : (n.graph.stage i).state = .running) (hsource : (g.stage i).isSource = false)
    (hf : (g.stage i).feeders = [u]) (hu : (n.graph.stage u).state = t)
    (ht : t = .paused ∨ t = .finished) : n.settled B i = true := by
  have hi : i < g.size := by
    rw [← Graph.size_of_bare calm.bare]
    exact Graph.lt_size_of_state_ne (by simp [hr])
  refine (calm.settled_iff (calm.world i hi hsource)).2 ⟨hr, hsource, fun v hv => ?_⟩
  rw [hf, List.mem_singleton] at hv
  rw [hv, hu]
  rcases ht with rfl | rfl <;> simp

/-- A settled stage with one feeder, which has stopped, comes to be in the same state. -/
theorem settleOne_of_fed (hs : n.settled B i = true) (hf : (n.graph.stage i).feeders = [u])
    (hu : (n.graph.stage u).state = t) (ht : t = .paused ∨ t = .finished) :
    (n.settleOne B i c).1 = true ∧
      ∀ j, ((n.settleOne B i c).2.2.graph.stage j).state =
        if i = j then t else (n.graph.stage j).state := by
  have hr := state_of_settled hs
  have hi : i < n.graph.size := Graph.lt_size_of_state_ne (by simp [hr])
  rcases n.settleOne_cases B i c with ⟨-, hfin, he⟩ | ⟨-, hnot, he⟩ | ⟨hns, -⟩
  · have hfinished : t = .finished := by
      rw [← hu]
      exact hfin u (by simp [hf])
    rw [he, hfinished]
    exact ⟨rfl, fun j => state_complete hi B j c⟩
  · have hpaused : t = .paused := by
      refine ht.resolve_right fun hfinished => hnot fun v hv => ?_
      rw [hf, List.mem_singleton] at hv
      rw [hv, hu, hfinished]
    rw [he, hpaused]
    exact ⟨rfl, fun j => Graph.state_halt hr j⟩
  · rw [hs] at hns
    cases hns

section Calm

variable (wd : g.Wired) (hB : B.BringNoWork)
include wd hB

/-- A running stage whose only feeder has stopped is stopped like that, and the walk goes on with
its listeners. -/
theorem settleEach_of_fed (calm : n.Calm g (B.Quiet g)) (hr : (n.graph.stage i).state = .running)
    (hsource : (g.stage i).isSource = false) (hf : (g.stage i).feeders = [u])
    (hu : (n.graph.stage u).state = t) (ht : t = .paused ∨ t = .finished) (hi : i ∈ unseen) :
    ∃ m : Network W, m.Calm g (B.Quiet g) ∧
      (∀ j, (m.graph.stage j).state = if i = j then t else (n.graph.stage j).state) ∧
      (n.settleEach B c unseen [i]).2 =
        (m.settleEach B c (unseen.erase i) (g.stage i).listeners.reverse).2 := by
  have hs := calm.settled_of_links hr hsource hf hu ht
  obtain ⟨hdown, hstate⟩ :=
    settleOne_of_fed (c := c) hs (by rw [Graph.feeders_of_bare calm.bare, hf]) hu ht
  have calm' := (Calm.stable wd (hB.quiet g)).toLasting.settling.settleOne (i := i) (c := c) calm
  refine ⟨_, calm', hstate, ?_⟩
  rw [settleEach_cons i [] (g.stage i).listeners.reverse hi (by
    rw [hdown, Graph.listeners_of_bare calm'.bare]
    rfl), List.append_nil]

/-- Behind a stage that has stopped, all running stages that are linked come to be in the same
state. -/
theorem state_settleEach_of_links (calm : n.Calm g (B.Quiet g)) (hl : g.Links (u :: i :: rest))
    (hn : (i :: rest).Nodup) (hu : (n.graph.stage u).state = t) (ht : t = .paused ∨ t = .finished)
    (hr : ∀ k ∈ i :: rest, (n.graph.stage k).state = .running ∧ (g.stage k).isSource = false ∧
      k ∈ unseen)
    (j : StageId) :
    ((n.settleEach B c unseen [i]).2.graph.stage j).state =
      if j ∈ i :: rest then t else (n.graph.stage j).state := by
  induction rest generalizing u i n unseen with
  | nil =>
    obtain ⟨-, hfeeders, hlisteners⟩ := hl
    obtain ⟨hri, hsource, hui⟩ := hr i (List.mem_cons_self ..)
    obtain ⟨m, -, hstate, hwalk⟩ :=
      settleEach_of_fed (c := c) wd hB calm hri hsource hfeeders hu ht hui
    rw [hwalk, hlisteners, List.reverse_nil, settleEach_nil, hstate]
    simp [eq_comm]
  | cons k rest ih =>
    obtain ⟨-, hfeeders, hl⟩ := hl
    obtain ⟨hik, hn⟩ := List.nodup_cons.1 hn
    obtain ⟨hri, hsource, hui⟩ := hr i (List.mem_cons_self ..)
    obtain ⟨m, calm', hstate, hwalk⟩ :=
      settleEach_of_fed (c := c) wd hB calm hri hsource hfeeders hu ht hui
    have hr' : ∀ l ∈ k :: rest,
        (m.graph.stage l).state = .running ∧ (g.stage l).isSource = false ∧ l ∈ unseen.erase i := by
      intro l hlm
      obtain ⟨hrl, hsl, hul⟩ := hr l (List.mem_cons_of_mem _ hlm)
      have hil : i ≠ l := by
        rintro rfl
        exact hik hlm
      refine ⟨?_, hsl, (List.mem_erase_of_ne (Ne.symm hil)).2 hul⟩
      rwa [hstate, if_neg hil]
    have hi' : (m.graph.stage i).state = t := by rw [hstate, if_pos rfl]
    rw [hwalk, hl.1, List.reverse_singleton, ih calm' hl hn hi' hr', hstate]
    by_cases hij : i = j
    · subst hij
      simp
    · simp [hij, Ne.symm hij]

end Calm

end Network

/-! ### What is done to the first stage -/

namespace Graph.Line

variable {W : Type} {B : Bodies W} {g : Graph} {n : Network W} {i j first : StageId}
  {c : Option Caller} {rest : List StageId} {t : State}
variable (line : g.Line first rest)
include line

theorem lt_size (hb : n.graph.bare = g.bare) (hi : i ∈ first :: rest) : i < n.graph.size := by
  rw [Graph.size_of_bare hb]
  exact (line.mem_iff i).1 hi

theorem ne_first (hi : i ∈ rest) : first ≠ i := by
  rintro rfl
  exact (List.nodup_cons.1 line.nodup).1 hi

/-! ### Settling from the first stage on -/

/-- What has stopped before stays as it is. -/
theorem settle_of_stopped (hb : n.graph.bare = g.bare)
    (hs : ∀ i ∈ first :: rest, (n.graph.stage i).state = .paused ∨
      (n.graph.stage i).state = .finished) :
    (n.settle B [first] c).2 = n :=
  Network.settleEach_of_stopped line.links hb line.nodup hs fun _ hk =>
    List.mem_range.2 (line.lt_size hb hk)

/-- Once the first stage has stopped, the others stop in the same way if they run. -/
theorem allIn_settle (wd : g.Wired) (hB : B.BringNoWork) (calm : n.Calm g (B.Quiet g))
    (ht : t = .paused ∨ t = .finished) (hfirst : (n.graph.stage first).state = t)
    (hr : n.graph.AllIn rest .running) :
    (n.settle B [first] c).2.graph.AllIn (first :: rest) t := by
  have hlt := line.lt_size calm.bare (List.mem_cons_self ..)
  have hone := Network.settleOne_of_stopped (B := B) (c := c) (show _ ∨ _ from hfirst ▸ ht)
  have hwalk : (n.settle B [first] c).2 =
      (n.settleEach B c ((List.range n.graph.size).erase first)
        (g.stage first).listeners.reverse).2 := by
    unfold Network.settle
    rw [List.reverse_singleton, Network.settleEach_cons first [] (g.stage first).listeners.reverse
      (List.mem_range.2 hlt) (by
      rw [hone, Graph.listeners_of_bare calm.bare]
      rfl), hone, List.append_nil]
  intro i hi
  cases rest with
  | nil =>
    rw [hwalk, show (g.stage first).listeners = [] from line.links, List.reverse_nil,
      Network.settleEach_nil]
    rw [List.mem_singleton.1 hi, hfirst]
  | cons k rest =>
    have hrest : ∀ l ∈ k :: rest, (n.graph.stage l).state = .running ∧
        (g.stage l).isSource = false ∧
        l ∈ (List.range n.graph.size).erase first := by
      intro l hl
      refine ⟨hr l hl, line.isSource_rest wd hl, (List.mem_erase_of_ne (line.ne_first hl).symm).2
        (List.mem_range.2 ?_)⟩
      exact line.lt_size calm.bare (List.mem_cons_of_mem _ hl)
    have hn := (List.nodup_cons.1 line.nodup).2
    rw [hwalk, line.links.1, List.reverse_singleton,
      Network.state_settleEach_of_links wd hB calm line.links hn hfirst ht hrest]
    split
    · rfl
    · next hnm => rw [(List.mem_cons.1 hi).resolve_right hnm, hfirst]

/-! ### Pausing, activating and finishing the first stage -/

section

variable (wd : g.Wired) (hB : B.BringNoWork) (calm : n.Calm g (B.Quiet g))
include wd hB calm

/-- Pausing the first stage pauses a running line. -/
theorem allIn_pause (h : n.graph.AllIn (first :: rest) .running) :
    (n.pause B first).2.graph.AllIn (first :: rest) .paused := by
  have hlt := line.lt_size calm.bare (List.mem_cons_self ..)
  have hstate := Graph.state_halt (h first (List.mem_cons_self ..))
  have halted := (Network.Calm.stable wd (hB.quiet g)).toLasting.halt (i := first) calm
  unfold Network.pause Graph.check
  simp only [hlt, if_true]
  refine line.allIn_settle wd hB halted (.inl rfl) ((hstate first).trans (if_pos rfl))
    fun k hk => ?_
  exact ((hstate k).trans (if_neg (line.ne_first hk))).trans (h k (List.mem_cons_of_mem _ hk))

/-- Finishing the first stage finishes a running line. -/
theorem allIn_finishSources (h : n.graph.AllIn (first :: rest) .running) :
    (n.finishSources B).2.graph.AllIn (first :: rest) .finished := by
  have hlt := line.lt_size calm.bare (List.mem_cons_self ..)
  have hstate := Network.state_complete hlt B (c := none)
  have completed := (Network.Calm.stable wd (hB.quiet g)).toLasting.complete (c := none) calm hlt
  unfold Network.finishSources
  rw [Graph.sources_of_bare calm.bare, line.sources]
  refine line.allIn_settle wd hB completed (.inr rfl) ((hstate first).trans (if_pos rfl))
    fun k hk => ?_
  exact ((hstate k).trans (if_neg (line.ne_first hk))).trans (h k (List.mem_cons_of_mem _ hk))

end

/-- Pausing the first stage changes nothing in a paused line. -/
theorem pause_of_paused (hb : n.graph.bare = g.bare) (h : n.graph.AllIn (first :: rest) .paused) :
    (n.pause B first).2 = n := by
  have hlt := line.lt_size hb (List.mem_cons_self ..)
  have hp : (n.graph.stage first).state ≠ .running := by
    rw [h first (List.mem_cons_self ..)]
    simp
  have hhalt : n.mapGraph (·.halt first) = n := by rw [Network.mapGraph, Graph.halt_of_ne hp]
  unfold Network.pause Graph.check
  simp only [hlt, if_true]
  rw [hhalt, line.settle_of_stopped hb fun k hk => .inl (h k hk)]

/-- Finishing the first stage of a paused line leaves the others paused. -/
theorem state_finishSources_of_paused (hb : n.graph.bare = g.bare)
    (h : n.graph.AllIn (first :: rest) .paused) :
    ((n.finishSources B).2.graph.stage first).state = .finished ∧
    (n.finishSources B).2.graph.AllIn rest .paused := by
  have hlt := line.lt_size hb (List.mem_cons_self ..)
  have hstate := Network.state_complete hlt B (c := none)
  have hb' : (n.complete B first none).2.graph.bare = g.bare :=
    (n.bare_complete B first none).trans hb
  have hrest : ∀ k ∈ rest, ((n.complete B first none).2.graph.stage k).state = .paused := by
    intro k hk
    exact ((hstate k).trans (if_neg (line.ne_first hk))).trans (h k (List.mem_cons_of_mem _ hk))
  have hfirst : ((n.complete B first none).2.graph.stage first).state = .finished :=
    (hstate first).trans (if_pos rfl)
  have hfinish : (n.finishSources B).2 = (n.complete B first none).2 := by
    unfold Network.finishSources
    rw [Graph.sources_of_bare hb, line.sources]
    refine line.settle_of_stopped hb' fun k hk => ?_
    rcases List.mem_cons.1 hk with rfl | hk
    · exact .inr hfirst
    · exact .inl (hrest k hk)
  rw [hfinish]
  exact ⟨hfirst, hrest⟩

/-- Activating the first stage sets a line running that is dormant. -/
theorem allIn_activateEach (hb : n.graph.bare = g.bare)
    (hd : ∀ i ∈ first :: rest, (n.graph.stage i).dormant = true) :
    (n.activateEach B c [first]).2.graph.AllIn (first :: rest) .running := by
  intro i hi
  have hwalk := Network.state_activateEach_of_links (B := B) (c := c) line.links hb line.nodup
    (fun k hk => ⟨(line.mem_iff k).1 hk, hd k hk⟩) i
  rwa [if_pos hi] at hwalk

omit line in
/-- Activating the first stage changes nothing in a running line. -/
theorem activateEach_of_running (h : n.graph.AllIn (first :: rest) .running) :
    (n.activateEach B c [first]).2 = n := by
  have hnot : ¬ (first < n.graph.size ∧ (n.graph.stage first).dormant = true) := by
    rintro ⟨-, hd⟩
    rw [Stage.dormant, h first (List.mem_cons_self ..)] at hd
    cases hd
  rw [Network.activateEach_cons_of_not hnot, Network.activateEach_nil]

theorem activate_eq (hb : n.graph.bare = g.bare) :
    (n.activate B first).2 = (n.activateEach B none [first]).2 := by
  have hlt := line.lt_size hb (List.mem_cons_self ..)
  unfold Network.activate Graph.check
  simp only [hlt, if_true]

theorem activateAll_eq (hb : n.graph.bare = g.bare) :
    (n.activateAll B).2 = (n.activateEach B none [first]).2 := by
  unfold Network.activateAll
  rw [Graph.sources_of_bare hb, line.sources]
  rfl

/-- After the first stage of a running line has been paused and activated in any way, the last of it
decides whether the line runs. -/
theorem allIn_toggled (wd : g.Wired) (hB : B.BringNoWork) (calm : n.Calm g (B.Quiet g))
    (h : n.graph.AllIn (first :: rest) .running) (toggles : List (Call W))
    (ht : ∀ call ∈ toggles, call = .pause first ∨ call = .activate first) :
    (toggles.foldl (Network.perform B) n).Calm g (B.Quiet g) ∧
      (toggles.getLast? ≠ some (.pause first) →
        (toggles.foldl (Network.perform B) n).graph.AllIn (first :: rest) .running) ∧
      (toggles.getLast? = some (.pause first) →
        (toggles.foldl (Network.perform B) n).graph.AllIn (first :: rest) .paused) := by
  have stable := Network.Calm.stable wd (hB.quiet g)
  induction toggles using List.reverseRecOn with
  | nil => exact ⟨calm, fun _ => h, nofun⟩
  | append_singleton toggles call ih =>
    obtain ⟨calm', hrun, hpaused⟩ := ih fun c hc => ht c (List.mem_append_left _ hc)
    simp only [List.foldl_append, List.foldl_cons, List.foldl_nil, List.getLast?_append,
      List.getLast?_singleton, Option.some_or]
    generalize toggles.foldl (Network.perform B) n = m at calm' hrun hpaused ⊢
    by_cases hlast : toggles.getLast? = some (.pause first)
    · have paused := hpaused hlast
      rcases ht call (by simp) with rfl | rfl
      · refine ⟨stable.toLasting.pause calm', fun hne => absurd rfl hne, fun _ => ?_⟩
        rwa [Network.perform, line.pause_of_paused calm'.bare paused]
      · refine ⟨stable.activate calm', fun _ => ?_, nofun⟩
        rw [Network.perform, line.activate_eq calm'.bare]
        refine line.allIn_activateEach calm'.bare fun i hi => ?_
        rw [Stage.dormant, paused i hi]
        rfl
    · have running := hrun hlast
      rcases ht call (by simp) with rfl | rfl
      · exact ⟨stable.toLasting.pause calm', fun hne => absurd rfl hne,
          fun _ => line.allIn_pause wd hB calm' running⟩
      · refine ⟨stable.activate calm', fun _ => ?_, nofun⟩
        rwa [Network.perform, line.activate_eq calm'.bare, activateEach_of_running running]

/-- Activating everything sets a line running to which nothing has happened. -/
theorem allIn_activateAll (hb : n.graph.bare = g.bare)
    (hu : ∀ i, (n.graph.stage i).state = .unopened) :
    (n.activateAll B).2.graph.AllIn (first :: rest) .running := by
  rw [line.activateAll_eq hb]
  refine line.allIn_activateEach hb fun i _ => ?_
  rw [Stage.dormant, hu i]
  rfl

end Graph.Line

/-- What is stable survives that stages are paused and activated. -/
theorem Stable.toggled {W : Type} {B : Bodies W} {P : Network W → Prop} {n : Network W}
    (hP : Stable B P) {toggles : List (Call W)}
    (ht : ∀ call ∈ toggles, ∃ i, call = .pause i ∨ call = .activate i) (h : P n) :
    P (toggles.foldl (Network.perform B) n) := by
  induction toggles generalizing n with
  | nil => exact h
  | cons call toggles ih =>
    refine ih (fun c hc => ht c (List.mem_cons_of_mem _ hc)) ?_
    obtain ⟨i, rfl | rfl⟩ := ht call (List.mem_cons_self ..)
    · exact hP.toLasting.pause h
    · exact hP.activate h

/-! ### What has been noted of a stage that was never called -/

section

variable {W : Type} {B : Bodies W} {n : Network (Noted W)} {f : StageId → Nat} {i : StageId}

theorem Bodies.BringNoWork.noting (hB : B.BringNoWork) : B.noting.BringNoWork := by
  intro i hook j p h
  cases hook with
  | opening => exact hB i .opening j p.1 h
  | closing => exact hB i .closing j p.1 h

theorem Orderly.history_eq (h : Orderly f [] n) (i : StageId) :
    n.historyOf i = (n.graph.stage i).life.frame 0 := by
  obtain ⟨k, hk⟩ := (h.framed i).history
  obtain ⟨more, hmore, hnone⟩ := h.unheld
  have hcall : Note.call ∉ n.historyOf i := by
    intro hm
    rw [Network.historyOf, hmore, List.nil_append] at hm
    obtain ⟨x, hx, hxc⟩ := List.mem_map.1 hm
    exact (hnone x (List.mem_filter.1 hx).1).2 hxc
  rw [hk] at hcall ⊢
  cases k with
  | zero => rfl
  | succ k =>
    unfold Stage.Life.frame at hcall ⊢
    cases ho : (n.graph.stage i).life.opened with
    | false => simp
    | true =>
      rw [ho] at hcall
      simp [List.replicate_succ] at hcall

/-- A finished stage that nobody holds has been opened and closed, once each. -/
theorem Orderly.history_of_finished (h : Orderly (fun _ => 0) [] n)
    (hs : (n.graph.stage i).state = .finished) :
    n.historyOf i = [.hook .opening, .hook .closing] := by
  have hopened : (n.graph.stage i).opened = true := (h.framed i).opened.2 (by simp [Stage.life, hs])
  have hdue : (n.graph.stage i).closingDue = false := by
    by_contra hd
    have hpos := (h.prompt i hs).1 (by simpa [Stage.life] using hd)
    have hzero := h.holders i
    simp only [Stage.life] at hpos
    omega
  rw [h.history_eq]
  simp [Stage.Life.frame, Stage.life, hopened, hs, hdue]

/-- A paused stage has been opened once and not closed. -/
theorem Orderly.history_of_paused (h : Orderly f [] n) (hs : (n.graph.stage i).state = .paused) :
    n.historyOf i = [.hook .opening] := by
  have hopened : (n.graph.stage i).opened = true := (h.framed i).opened.2 (by simp [Stage.life, hs])
  rw [h.history_eq]
  simp [Stage.Life.frame, Stage.life, hopened, hs]

end

/-! ### A line that is finished -/

/-- The network after everything has been activated, some calls have been made, and the sources have
been finished. -/
def Network.lifetime {W : Type} (B : Bodies W) (n : Network W) (calls : List (Call W)) :
    Network W :=
  ((calls.foldl (perform B) (n.activateAll B).2).finishSources B).2

/-- A graph to which nothing has happened, with nothing noted. -/
def Network.unnoted {W : Type} (parts : List Graph.Part) (world : W) : Network (Noted W) :=
  ⟨.ofParts parts, world, []⟩

namespace Graph.Line

variable {W : Type} {B : Bodies W} {parts : List Graph.Part} {first : StageId} {rest : List StageId}
  {world : W} {toggles : List (Call (Noted W))}

/-- Between the activation of everything and the end, and after the end, lives agree with what has
been noted. -/
theorem orderly_lifetime (ht : ∀ call ∈ toggles, call = .pause first ∨ call = .activate first) :
    Orderly (fun _ => 0) [] (Network.lifetime B.noting (.unnoted parts world) toggles) := by
  have wd := Graph.wired_ofParts parts
  have orderly : Orderly (fun _ => 0) [] (Network.unnoted parts world) :=
    (Session.inOrder_fresh wd (Graph.fresh_ofParts parts) world ⟨.roundRobin, 1⟩).orderly
  have steps := stable_orderly B (fun _ => 0) []
  have wiring := stable_bare B.noting (Graph.ofParts parts).bare
  have ht' : ∀ call ∈ toggles, ∃ i, call = .pause i ∨ call = .activate i := fun call hc =>
    ⟨first, ht call hc⟩
  refine steps.toLasting.finishSources (steps.toggled ht' (steps.activateAll orderly)) fun _ => ?_
  exact (wd.of_bare (wiring.toggled ht' (wiring.activateAll rfl))).lt_size_of_mem_sources

variable (line : (Graph.ofParts parts).Line first rest) (hB : B.BringNoWork)
  (hq : B.Quiet (.ofParts parts) world)
  (ht : ∀ call ∈ toggles, call = .pause first ∨ call = .activate first)
include line hB hq ht

/-- The line before its first stage is finished. -/
theorem toggled :
    let n := toggles.foldl (Network.perform B.noting)
      ((Network.unnoted parts world).activateAll B.noting).2
    n.Calm (.ofParts parts) (B.noting.Quiet (.ofParts parts)) ∧
      (toggles.getLast? ≠ some (.pause first) → n.graph.AllIn (first :: rest) .running) ∧
      (toggles.getLast? = some (.pause first) → n.graph.AllIn (first :: rest) .paused) := by
  have wd := Graph.wired_ofParts parts
  have fresh := Graph.fresh_ofParts parts
  have calm :
      (Network.unnoted parts world).Calm (.ofParts parts) (B.noting.Quiet (.ofParts parts)) :=
    ⟨rfl, fresh.counted, fresh.holders, hq⟩
  have hrun := line.allIn_activateAll (n := .unnoted parts world) (B := B.noting) rfl fresh.state
  exact line.allIn_toggled wd hB.noting
    ((Network.Calm.stable wd (hB.noting.quiet _)).activateAll calm) hrun toggles ht

/-- If the first stage has not been paused last, all stages finish when it is finished, and each is
closed once. -/
theorem lifetime_of_running (hlast : toggles.getLast? ≠ some (.pause first)) :
    let n := Network.lifetime B.noting (.unnoted parts world) toggles
    ∀ i ∈ first :: rest, (n.graph.stage i).state = .finished ∧
      n.historyOf i = [.hook .opening, .hook .closing] := by
  intro n i hi
  obtain ⟨calm, hrun, -⟩ := line.toggled hB hq ht
  have hfinished := line.allIn_finishSources (Graph.wired_ofParts parts) hB.noting calm
    (hrun hlast) i hi
  exact ⟨hfinished, (orderly_lifetime ht).history_of_finished hfinished⟩

/-- If the first stage has been paused last, the others remain paused when it is finished, and are
not closed. -/
theorem lifetime_of_paused (hlast : toggles.getLast? = some (.pause first)) :
    let n := Network.lifetime B.noting (.unnoted parts world) toggles
    ((n.graph.stage first).state = .finished ∧
      n.historyOf first = [.hook .opening, .hook .closing]) ∧
      ∀ i ∈ rest, (n.graph.stage i).state = .paused ∧ n.historyOf i = [.hook .opening] := by
  intro n
  obtain ⟨calm, -, hpaused⟩ := line.toggled hB hq ht
  obtain ⟨hfirst, hrest⟩ :=
    line.state_finishSources_of_paused (B := B.noting) calm.bare (hpaused hlast)
  have orderly : Orderly (fun _ => 0) [] n := orderly_lifetime ht
  exact ⟨⟨hfirst, orderly.history_of_finished hfirst⟩,
    fun i hi => ⟨hrest i hi, orderly.history_of_paused (hrest i hi)⟩⟩

end Graph.Line

/-- **Pausing before a stop.** In a line none of whose stages is held, and only the first of which
has work, let everything be activated, the first stage be paused and activated in any way, and the
sources be finished. If the first stage has not been paused last every stage has finished, and has
been opened and closed exactly once. If it has been paused last, it has finished itself, and has
been opened and closed exactly once; but all others are paused, and have not been closed. -/
theorem pausing_before_stop {W : Type} (B : Bodies W) (hB : B.BringNoWork) (parts : List Graph.Part)
    (first : StageId) (rest : List StageId) (line : (Graph.ofParts parts).Line first rest)
    (world : W) (hq : B.Quiet (.ofParts parts) world) (toggles : List (Call (Noted W)))
    (ht : ∀ call ∈ toggles, call = .pause first ∨ call = .activate first) :
    let n := Network.lifetime B.noting (.unnoted parts world) toggles
    (toggles.getLast? ≠ some (.pause first) →
      ∀ i ∈ first :: rest, (n.graph.stage i).state = .finished ∧
        n.historyOf i = [.hook .opening, .hook .closing]) ∧
    (toggles.getLast? = some (.pause first) →
      ((n.graph.stage first).state = .finished ∧
        n.historyOf first = [.hook .opening, .hook .closing]) ∧
        ∀ i ∈ rest, (n.graph.stage i).state = .paused ∧ n.historyOf i = [.hook .opening]) :=
  ⟨line.lifetime_of_running hB hq ht, line.lifetime_of_paused hB hq ht⟩

/-- A source, a stage, and a sink in a line. -/
def threeInLine : List Graph.Part :=
  [.stage "source" .source true, .stage "stage" .interior true, .stage "sink" .sink true, .edge 0 1,
    .edge 1 2, .source 0, .sink 2]

theorem line_threeInLine : (Graph.ofParts threeInLine).Line 0 [1, 2] where
  nodup := by decide
  mem_iff _ := List.mem_range (n := 3)
  links := ⟨rfl, rfl, rfl, rfl, rfl⟩
  sources := rfl

/-- The source is paused and activated again before it is finished. -/
theorem pausing_before_stop_resumed :
    let n := Network.lifetime Bodies.inert.noting (.unnoted threeInLine ()) [.pause 0, .activate 0]
    ∀ i ∈ [0, 1, 2], (n.graph.stage i).state = .finished ∧
      n.historyOf i = [.hook .opening, .hook .closing] := by
  have toggles : ∀ call ∈ ([.pause 0, .activate 0] : List (Call (Noted Unit))), call = .pause 0 ∨
      call = .activate 0 := by
    simp
  exact (pausing_before_stop .inert (fun _ _ _ _ _ => rfl) threeInLine 0 [1, 2] line_threeInLine ()
    (fun _ _ _ => rfl) _ toggles).1 nofun

/-- **A line that is paused is not finished with its source**: the two other stages remain paused
and are never closed. -/
theorem finishSources_leaves_paused :
    let n := Network.lifetime Bodies.inert.noting (.unnoted threeInLine ()) [.pause 0]
    Bodies.inert.BringNoWork ∧ (Graph.ofParts threeInLine).Line 0 [1, 2] ∧
      Bodies.inert.Quiet (.ofParts threeInLine) () ∧
      ∀ i ∈ [1, 2], (n.graph.stage i).state = .paused ∧ n.historyOf i = [.hook .opening] := by
  have toggles : ∀ call ∈ ([.pause 0] : List (Call (Noted Unit))), call = .pause 0 ∨
      call = .activate 0 := by
    simp
  have bring : Bodies.inert.BringNoWork := fun _ _ _ _ _ => rfl
  have quiet : Bodies.inert.Quiet (.ofParts threeInLine) () := fun _ _ _ => rfl
  exact ⟨bring, line_threeInLine, quiet,
    (line_threeInLine.lifetime_of_paused bring quiet toggles rfl).2⟩

end Pipework
