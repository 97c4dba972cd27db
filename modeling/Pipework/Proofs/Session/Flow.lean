import Pipework.Proofs.Network.Counters
import Pipework.Proofs.Session.Events

/-!
# Work is never stranded

Stages that are no sources get their work from their feeders. `Plumbing` collects what has to be
known of bodies for that: a call puts work in front of listeners only, hooks put it nowhere, and
what a stage says of its pending work is true between two calls. Then a stage can neither be paused
nor finished while a feeder runs or is held, and nothing is waiting for a stage that does not run.
The invariant is `Flowing`; it survives every event of a session in which only sources are paused or
finished from outside (`Streaming.perform`).
-/

namespace Pipework

/-- What is known of bodies that work through queues, each a listener of whatever puts something
into its queue. -/
structure Plumbing {W : Type} (B : Bodies W) (g : Graph) where
  /-- The bodies are those that were built. -/
  Good : W → Prop
  /-- Nothing is waiting for a stage. -/
  Clear : StageId → W → Prop
  /-- What a stage says of its pending work is true. -/
  Honest : StageId → W → Prop
  /-- What may happen to the world from outside. -/
  Tuned : W → W → Prop
  hook_good : ∀ {w} hook i, Good w → Good (B.hook hook i w).2
  hook_clear : ∀ {w v} hook i, Good w → Clear v w → Clear v (B.hook hook i w).2
  hook_honest : ∀ {w v} hook i, Good w → Honest v w → Honest v (B.hook hook i w).2
  tuned_good : ∀ {w w'}, Tuned w w' → Good w → Good w'
  tuned_clear : ∀ {w w' v}, Tuned w w' → Clear v w → Clear v w'
  tuned_honest : ∀ {w w' v}, Tuned w w' → Honest v w → Honest v w'
  call_good : ∀ {w} i visit, Good w → i < g.size → Good (B.call i visit w).2.2
  call_clear : ∀ {w v} i visit, Good w → i < g.size → (g.stage v).isSource = false → i ≠ v →
    i ∉ (g.stage v).feeders →
    Clear v w → Clear v (B.call i visit w).2.2
  call_honest : ∀ {w v} i visit, Good w → i ≠ v → Honest v w → Honest v (B.call i visit w).2.2
  return_honest : ∀ {w} i visit o, Good w → i < g.size → (B.call i visit w).1 = .returned o →
    Honest i (B.call i visit w).2.2
  isSource_of_finished : ∀ {w} i visit, Good w → i < g.size →
    (B.call i visit w).1 = .returned .finished →
    (g.stage i).isSource = true
  clear_of_pending : ∀ {w v}, Good w → v < g.size → (g.stage v).isSource = false → Honest v w →
    B.pending v w = 0 → Clear v w

section

variable {W : Type} {B : Bodies W} {g : Graph} {pl : Plumbing B g} {n n' : Network W}
  {i v : StageId} {c : Option Caller} {S S' : StageId → Prop} {work work' : List StageId}

/-! ### Worlds -/

/-- The second world is as good as the first, and nothing is waiting there that was not waiting
before. -/
structure Plumbing.Spared (pl : Plumbing B g) (w w' : W) : Prop where
  good : pl.Good w → pl.Good w'
  clear : ∀ v, pl.Good w → pl.Clear v w → pl.Clear v w'
  honest : ∀ v, pl.Good w → pl.Honest v w → pl.Honest v w'

namespace Plumbing.Spared

theorem refl (w : W) : pl.Spared w w := ⟨id, fun _ _ => id, fun _ _ => id⟩

theorem hook (pl : Plumbing B g) (hook : Hook) (i : StageId) (w : W) :
    pl.Spared w (B.hook hook i w).2 :=
  ⟨pl.hook_good hook i, fun _ => pl.hook_clear hook i, fun _ => pl.hook_honest hook i⟩

theorem trans {w w' w'' : W} (h : pl.Spared w w') (h' : pl.Spared w' w'') : pl.Spared w w'' :=
  ⟨fun hg => h'.good (h.good hg), fun v hg hc => h'.clear v (h.good hg) (h.clear v hg hc),
    fun v hg hc => h'.honest v (h.good hg) (h.honest v hg hc)⟩

theorem openOne (pl : Plumbing B g) (n : Network W) (i : StageId) (c : Option Caller) :
    pl.Spared n.world (n.openOne B i c).2.world := by
  rw [n.world_openOne]
  split
  · exact refl _
  · exact hook pl .opening i _

theorem complete (pl : Plumbing B g) (n : Network W) (i : StageId) (c : Option Caller) :
    pl.Spared n.world (n.complete B i c).2.world := by
  by_cases hf : (n.graph.stage i).state = .finished
  · rw [Network.complete_of_finished hf]
    exact refl _
  · rw [Network.world_complete hf]
    have hw : pl.Spared n.world
        (if (n.graph.stage i).opened then n.world else (B.opening i n.world).2) := by
      split
      · exact refl _
      · exact hook pl .opening i _
    simp only
    split
    · exact hw
    · exact hw.trans (hook pl .closing i _)

theorem closeDue (pl : Plumbing B g) (n : Network W) (i : StageId) (c : Option Caller) :
    pl.Spared n.world (n.closeDue B i c).2.world := by
  rw [n.world_closeDue]
  split
  · exact hook pl .closing i _
  · exact refl _

end Plumbing.Spared

/-! ### The invariant -/

/-- What holds of a network throughout. The stages of `work` are still to be activated; those of `S`
are between two calls. -/
structure Flowing (pl : Plumbing B g) (S : StageId → Prop) (work : List StageId) (n : Network W) :
    Prop where
  bare : n.graph.bare = g.bare
  counted : n.graph.Counted
  good : pl.Good n.world
  finished : ∀ v, (g.stage v).isSource = false → (n.graph.stage v).state = .finished →
    ∀ u ∈ (g.stage v).feeders, (n.graph.stage u).state = .finished ∧ (n.graph.stage u).holders = 0
  dormant : ∀ v, (g.stage v).isSource = false → (n.graph.stage v).dormant = true → v ∈ work ∨
    ∀ u ∈ (g.stage v).feeders, (n.graph.stage u).state ≠ .running ∧ (n.graph.stage u).holders = 0
  held : ∀ v, (g.stage v).isSource = false → 0 < (n.graph.stage v).holders →
    (n.graph.stage v).state = .running
  clear : ∀ v, (g.stage v).isSource = false → (n.graph.stage v).state ≠ .running →
    pl.Clear v n.world
  honest : ∀ v, S v → pl.Honest v n.world
  unheld : ∀ v, (n.graph.stage v).holders = 0 → S v

namespace Flowing

/-- A stage with a feeder that runs or is held runs itself. -/
theorem running_of_fed (f : Flowing pl S [] n) (hv : (g.stage v).isSource = false) {u : StageId}
    (hu : u ∈ (g.stage v).feeders)
    (h : (n.graph.stage u).state = .running ∨ 0 < (n.graph.stage u).holders) :
    (n.graph.stage v).state = .running := by
  by_contra hr
  have key : (n.graph.stage u).state ≠ .running ∧ (n.graph.stage u).holders = 0 := by
    by_cases hf : (n.graph.stage v).state = .finished
    · obtain ⟨hs, hh⟩ := f.finished v hv hf u hu
      exact ⟨by simp [hs], hh⟩
    · have hd : (n.graph.stage v).dormant = true := by
        unfold Stage.dormant
        cases hs : (n.graph.stage v).state with
        | running => exact absurd hs hr
        | finished => exact absurd hs hf
        | unopened => rfl
        | paused => rfl
      rcases f.dormant v hv hd with hm | h
      · exact absurd hm List.not_mem_nil
      · exact h u hu
  rcases h with h | h
  · exact key.1 h
  · omega

/-- A settled stage is cut off: nothing is waiting for it, and no feeder can put anything in front
of it. -/
theorem cut_off (f : Flowing pl S [] n) (hs : n.settled B i = true) :
    (n.graph.stage i).holders = 0 ∧ pl.Clear i n.world ∧
      ∀ u ∈ (g.stage i).feeders, (n.graph.stage u).state ≠ .running ∧
        (n.graph.stage u).holders = 0 := by
  obtain ⟨hh, hr, hsource, hrf, hfeeders, hp⟩ := Network.settled_iff.1 hs
  have hi : i < g.size := by
    rw [← Graph.size_of_bare f.bare]
    exact Graph.lt_size_of_state_ne (by simp [hr])
  rw [Graph.isSource_of_bare f.bare] at hsource
  refine ⟨hh, pl.clear_of_pending f.good hi hsource (f.honest i (f.unheld i hh)) hp, fun u hu => ?_⟩
  rw [← Graph.feeders_of_bare f.bare] at hu
  refine ⟨fun hur => ?_, hfeeders u hu⟩
  have := f.counted.feeders i
  rw [hrf] at this
  exact List.countP_eq_zero.1 this.symm u hu (by simp [hur])

/-- The invariant after a change of one stage that was not finished. If the stage does not run
afterwards it has to be cut off; if it runs, its listeners have to be activated. -/
theorem change (f : Flowing pl S work n) (hb : n'.graph.bare = n.graph.bare) (hc : n'.graph.Counted)
    (hw : pl.Spared n.world n'.world)
    (hh : ∀ j, (n'.graph.stage j).holders = (n.graph.stage j).holders)
    (hs : ∀ j, i ≠ j → (n'.graph.stage j).state = (n.graph.stage j).state)
    (hi : (n.graph.stage i).state ≠ .finished)
    (hquiet : (g.stage i).isSource = false → (n'.graph.stage i).state ≠ .running →
      (n.graph.stage i).holders = 0 ∧ pl.Clear i n.world ∧
        (∀ u ∈ (g.stage i).feeders, (n.graph.stage u).state ≠ .running ∧
          (n.graph.stage u).holders = 0) ∧
        ((n'.graph.stage i).state = .finished →
          ∀ u ∈ (g.stage i).feeders, (n.graph.stage u).state = .finished))
    (hrun : (n'.graph.stage i).state = .running → ∀ v, i ∈ (g.stage v).feeders → v ∈ work')
    (hwork : ∀ v ∈ work, i ≠ v → v ∈ work') (hself : i ∉ (g.stage i).feeders) :
    Flowing pl S work' n' where
  bare := hb.trans f.bare
  counted := hc
  good := hw.good f.good
  finished v hv hvf u hu := by
    rw [hh]
    by_cases hiv : i = v
    · subst hiv
      obtain ⟨-, -, hfeeders, hfin⟩ := hquiet hv (by simp [hvf])
      have hiu : i ≠ u := fun h => hself (h ▸ hu)
      exact ⟨(hs u hiu).trans (hfin hvf u hu), (hfeeders u hu).2⟩
    · rw [hs v hiv] at hvf
      obtain ⟨huf, huh⟩ := f.finished v hv hvf u hu
      have hiu : i ≠ u := fun h => hi (h ▸ huf)
      exact ⟨(hs u hiu).trans huf, huh⟩
  dormant v hv hvd := by
    have hnr : (n'.graph.stage v).state ≠ .running := fun hr => by
      rw [Stage.dormant, hr] at hvd
      cases hvd
    by_cases hiv : i = v
    · subst hiv
      obtain ⟨-, -, hfeeders, -⟩ := hquiet hv hnr
      refine .inr fun u hu => ?_
      have hiu : i ≠ u := fun h => hself (h ▸ hu)
      rw [hh, hs u hiu]
      exact hfeeders u hu
    · by_cases hvw : v ∈ work'
      · exact .inl hvw
      · have hd : (n.graph.stage v).dormant = true := by rwa [Stage.dormant, hs v hiv] at hvd
        rcases f.dormant v hv hd with hm | h
        · exact absurd (hwork v hm hiv) hvw
        · refine .inr fun u hu => ?_
          rw [hh]
          refine ⟨fun hur => ?_, (h u hu).2⟩
          by_cases hiu : i = u
          · subst hiu
            exact hvw (hrun hur v hu)
          · exact (h u hu).1 (by rwa [hs u hiu] at hur)
  held v hv hvh := by
    rw [hh] at hvh
    by_cases hiv : i = v
    · subst hiv
      by_contra hr
      have := (hquiet hv hr).1
      omega
    · rw [hs v hiv]
      exact f.held v hv hvh
  clear v hv hvr := by
    refine hw.clear v f.good ?_
    by_cases hiv : i = v
    · subst hiv
      exact (hquiet hv hvr).2.1
    · rw [hs v hiv] at hvr
      exact f.clear v hv hvr
  honest v hv := hw.honest v f.good (f.honest v hv)
  unheld v hv := f.unheld v (by rwa [hh] at hv)

/-- Nothing else than wiring, states, holders and the world matters. -/
theorem same (f : Flowing pl S work n) (ha : n.graph.Alike n'.graph)
    (hw : pl.Spared n.world n'.world)
    (hh : ∀ j, (n'.graph.stage j).holders = (n.graph.stage j).holders) : Flowing pl S work n' where
  bare := ha.bare.trans f.bare
  counted := f.counted.alike ha
  good := hw.good f.good
  finished v hv hf u hu := by
    rw [ha.state] at hf ⊢
    rw [hh]
    exact f.finished v hv hf u hu
  dormant v hv hd := by
    simp only [Stage.dormant, ha.state] at hd
    simp only [ha.state, hh]
    exact f.dormant v hv hd
  held v hv h := by
    rw [hh] at h
    rw [ha.state]
    exact f.held v hv h
  clear v hv h := by
    rw [ha.state] at h
    exact hw.clear v f.good (f.clear v hv h)
  honest v hv := hw.honest v f.good (f.honest v hv)
  unheld v hv := f.unheld v (by rwa [hh] at hv)

/-- Stages may be trusted less, as long as all that nobody holds are trusted. -/
theorem mono (f : Flowing pl S work n) (h : ∀ v, S' v → S v)
    (hu : ∀ v, (n.graph.stage v).holders = 0 → S' v) :
    Flowing pl S' work n :=
  { f with honest := fun v hv => f.honest v (h v hv), unheld := hu }

variable (w : g.Wired)
include w

theorem wired (f : Flowing pl S work n) : n.graph.Wired := w.of_bare f.bare

/-! ### The life of stages -/

theorem complete (f : Flowing pl S [] n) (hi : i < n.graph.size) (c : Option Caller)
    (h : (g.stage i).isSource = false → (n.graph.stage i).holders = 0 ∧ pl.Clear i n.world ∧
      (∀ u ∈ (g.stage i).feeders, (n.graph.stage u).state ≠ .running ∧
        (n.graph.stage u).holders = 0) ∧
      ∀ u ∈ (g.stage i).feeders, (n.graph.stage u).state = .finished) :
    Flowing pl S [] (n.complete B i c).2 := by
  by_cases hf : (n.graph.stage i).state = .finished
  · rw [Network.complete_of_finished hf]
    exact f
  · have hstate : ∀ j, ((n.complete B i c).2.graph.stage j).state =
        if i = j then .finished else (n.graph.stage j).state :=
      fun j => Network.state_complete hi B j c
    obtain ⟨e, he⟩ := Network.complete_graph (B := B) (c := c) hf
    refine f.change (n.bare_complete B i c) ?_ (.complete pl n i c) (n.holders_complete B i · c)
      (fun j hij => ?_) hf
      (fun hv _ => ?_) (fun hr => ?_) (fun v hv => absurd hv List.not_mem_nil) (w.irreflexive i)
    · rw [he]
      exact (f.counted.retire (f.wired w) hi).alike (.withFailure _ e)
    · rw [hstate, if_neg hij]
    · obtain ⟨hh, hclear, hfeeders, hfin⟩ := h hv
      exact ⟨hh, hclear, hfeeders, fun _ => hfin⟩
    · rw [hstate, if_pos rfl] at hr
      cases hr

theorem halt (f : Flowing pl S [] n) (hr : (n.graph.stage i).state = .running)
    (h : (g.stage i).isSource = false → (n.graph.stage i).holders = 0 ∧ pl.Clear i n.world ∧
      ∀ u ∈ (g.stage i).feeders, (n.graph.stage u).state ≠ .running ∧
        (n.graph.stage u).holders = 0) :
    Flowing pl S [] (n.mapGraph (·.halt i)) := by
  have hlife := fun j => Graph.life_halt hr j
  have hstate : ((n.graph.halt i).stage i).state = .paused := by
    have := congrArg Stage.Life.state (hlife i)
    rwa [if_pos rfl] at this
  refine f.change (n.graph.bare_halt i) (f.counted.halt (f.wired w) hr) (.refl _)
    (n.graph.holders_halt i)
    (fun j hij => ?_) (by simp [hr]) (fun hv _ => ?_) (fun hp => ?_)
    (fun v hv => absurd hv List.not_mem_nil)
    (w.irreflexive i)
  · have := congrArg Stage.Life.state (hlife j)
    rwa [if_neg hij] at this
  · obtain ⟨hh, hclear, hfeeders⟩ := h hv
    refine ⟨hh, hclear, hfeeders, fun hf => ?_⟩
    rw [Network.graph_mapGraph, hstate] at hf
    cases hf
  · rw [Network.graph_mapGraph, hstate] at hp
    cases hp

theorem settling (pl : Plumbing B g) (S : StageId → Prop) : Settling B (Flowing pl S []) where
  pauses f hs _ := f.halt w (Network.state_of_settled hs) fun _ => f.cut_off hs
  finishes {n i} c f hs hf := by
    refine f.complete w (Graph.lt_size_of_state_ne (by simp [Network.state_of_settled hs]))
      c fun _ => ?_
    obtain ⟨hh, hclear, hfeeders⟩ := f.cut_off hs
    exact ⟨hh, hclear, hfeeders, by rwa [Graph.feeders_of_bare f.bare] at hf⟩

/-- Opening a stage leaves its listeners to be activated. -/
theorem openOne (f : Flowing pl S (i :: work) n) (hi : i < n.graph.size)
    (hd : (n.graph.stage i).dormant = true) :
    Flowing pl S ((n.graph.stage i).listeners.reverse ++ work) (n.openOne B i c).2 := by
  obtain ⟨e, he⟩ := n.openOne_graph B i c
  have hstate : ∀ j, ((n.openOne B i c).2.graph.stage j).state =
      if i = j then .running else (n.graph.stage j).state :=
    fun j => Network.state_openOne hi B j c
  have hne : (n.graph.stage i).state ≠ .running ∧ (n.graph.stage i).state ≠ .finished := by
    unfold Stage.dormant at hd
    cases hs : (n.graph.stage i).state <;> simp [hs] at hd ⊢
  refine f.change ?_ ?_ (.openOne pl n i c) (fun j => ?_) (fun j hij => ?_) hne.2 (fun _ hr => ?_)
    (fun _ v hv => ?_) (fun v hv hiv => ?_) (w.irreflexive i)
  · rw [he, Graph.bare_withFailure, Graph.bare_enterRunning]
  · rw [he]
    exact (f.counted.enterRunning (f.wired w) hi hne.1).alike (.withFailure _ e)
  · rw [he, Graph.stage_withFailure, Graph.holders_enterRunning]
  · rw [hstate, if_neg hij]
  · rw [hstate, if_pos rfl] at hr
    exact absurd rfl hr
  · rw [Graph.listeners_of_bare f.bare]
    exact List.mem_append_left _ (List.mem_reverse.2 (w.mem_listeners_iff.2 hv))
  · rcases List.mem_cons.1 hv with rfl | hv
    · exact absurd rfl hiv
    · exact List.mem_append_right _ hv

theorem activateEach (f : Flowing pl S [] n) (c : Option Caller) (work : List StageId) :
    Flowing pl S [] (n.activateEach B c work).2 := by
  refine Network.activateEach_induction (P := fun work n => Flowing pl S work n)
    (fun n i work f hi hd => ?_) (fun n i work f hi => ?_) ?_
  · exact f.openOne w hi hd
  · refine { f with dormant := fun v hv hd => ?_ }
    rcases f.dormant v hv hd with hm | h
    · rcases List.mem_cons.1 hm with rfl | hm
      · by_cases hs : v < n.graph.size
        · exact absurd ⟨hs, hd⟩ hi
        · refine .inr fun u hu => ?_
          rw [← Graph.feeders_of_bare f.bare, Graph.stage_of_size_le (Nat.le_of_not_lt hs)] at hu
          exact absurd hu List.not_mem_nil
      · exact .inl hm
    · exact .inr h
  · refine { f with dormant := fun v hv hd => ?_ }
    exact (f.dormant v hv hd).imp (fun hm => absurd hm List.not_mem_nil) id

theorem activate (f : Flowing pl S [] n) (i : StageId) : Flowing pl S [] (n.activate B i).2 := by
  unfold Network.activate
  split
  · exact f
  · exact f.activateEach w none [i]

theorem activateSources (f : Flowing pl S [] n) (is : List StageId) :
    Flowing pl S [] (Network.activateSources B is n).2 := by
  induction is generalizing n with
  | nil => exact f
  | cons i is ih => exact ih (f.activateEach w none [i])

theorem pause (f : Flowing pl S [] n) (hi : (g.stage i).isSource = true) :
    Flowing pl S [] (n.pause B i).2 := by
  unfold Network.pause
  split
  · exact f
  · refine (settling w pl S).settle ?_
    by_cases hr : (n.graph.stage i).state = .running
    · exact f.halt w hr fun hv => by simp [hi] at hv
    · rw [Network.mapGraph, Graph.halt_of_ne hr]
      exact f

theorem complete_source (f : Flowing pl S [] n) (hi : (g.stage i).isSource = true)
    (c : Option Caller) :
    Flowing pl S [] (n.complete B i c).2 := by
  refine f.complete w ?_ c fun hv => by simp [hi] at hv
  rw [Graph.size_of_bare f.bare]
  exact w.lt_size_of_mem_sources ((w.mem_sources i).2 hi)

theorem finish (f : Flowing pl S [] n) (hi : (g.stage i).isSource = true) :
    Flowing pl S [] (n.finish B i).2 := by
  unfold Network.finish
  split
  · exact f
  · exact (settling w pl S).settle (f.complete_source w hi none)

theorem completeEach {is : List StageId} (h : ∀ i ∈ is, (g.stage i).isSource = true)
    (f : Flowing pl S [] n) :
    Flowing pl S [] (Network.completeEach B is n).2 := by
  induction is generalizing n with
  | nil => exact f
  | cons i is ih =>
    exact ih (fun k hk => h k (List.mem_cons_of_mem _ hk))
      (f.complete_source w (h i (List.mem_cons_self ..)) none)

theorem isSource_of_mem_sources (f : Flowing pl S [] n) :
    ∀ i ∈ n.graph.sources, (g.stage i).isSource = true := by
  intro i hi
  rw [Graph.sources_of_bare f.bare] at hi
  exact (w.mem_sources i).1 hi

theorem finishSources (f : Flowing pl S [] n) : Flowing pl S [] (n.finishSources B).2 :=
  (settling w pl S).settle (f.completeEach w (f.isSource_of_mem_sources w))

/-! ### Workers -/

/-- A worker lets go of a stage; another outcome than that it is finished is of no consequence. -/
theorem surrender (f : Flowing pl S [] n) (caller : Caller) (result : Option Outcome)
    (hr : result = some .finished → (g.stage i).isSource = true) (hS : ∀ v, S' v → S v)
    (hu : ∀ v, (n.graph.stage v).holders - (if i = v then 1 else 0) = 0 → S' v) :
    Flowing pl S' [] (n.surrender B i caller result).2 := by
  have hgo :
      Flowing pl S' [] (n.mapGraph (·.letGo i ⟨caller.worker, result == some .comeBackLater⟩)) := by
    have ha := Graph.Alike.letGo n.graph i ⟨caller.worker, result == some .comeBackLater⟩
    have hh := fun j => n.graph.holders_letGo i j ⟨caller.worker, result == some .comeBackLater⟩
    refine
      { bare := ha.bare.trans f.bare
        counted := f.counted.alike ha
        good := f.good
        finished := fun v hv hf u hu => ?_
        dormant := fun v hv hd => ?_
        held := fun v hv h => ?_
        clear := fun v hv h => ?_
        honest := fun v hv => f.honest v (hS v hv)
        unheld := fun v hv => hu v (by rwa [Network.graph_mapGraph, hh] at hv) }
    · rw [Network.graph_mapGraph, ha.state] at hf ⊢
      obtain ⟨huf, huh⟩ := f.finished v hv hf u hu
      exact ⟨huf, by rw [hh, huh, Nat.zero_sub]⟩
    · simp only [Network.graph_mapGraph, Stage.dormant, ha.state] at hd
      refine (f.dormant v hv hd).imp id fun h u hu => ?_
      rw [Network.graph_mapGraph, ha.state, hh]
      exact ⟨(h u hu).1, by rw [(h u hu).2, Nat.zero_sub]⟩
    · rw [Network.graph_mapGraph, hh] at h
      rw [Network.graph_mapGraph, ha.state]
      exact f.held v hv (by omega)
    · rw [Network.graph_mapGraph, ha.state] at h
      exact f.clear v hv h
  unfold Network.surrender
  simp only
  refine same ?_ (Network.alike_closeDue _ B i _) (.closeDue pl _ i _)
    (Network.holders_closeDue _ B i · _)
  split
  · next hf => exact hgo.complete_source w (hr hf) _
  · exact hgo

theorem giveBack (f : Flowing pl S [] n) (sc : Scheduler) (wk : WorkerId) (result : Option Outcome)
    (hr : result = some .finished → (g.stage i).isSource = true) (hS : ∀ v, S' v → S v)
    (hu : ∀ v, (n.graph.stage v).holders - (if i = v then 1 else 0) = 0 → S' v) :
    Flowing pl S' [] (sc.giveBack B n wk i result) :=
  ((settling w pl S').handBack (f.surrender w (sc.caller wk) result hr hS hu)).same
    (Network.alike_clearStreak _ wk) (.refl _) fun _ => rfl

omit w in
/-- Only a running stage is taken, so that none is held that does not run. -/
theorem take (f : Flowing pl S [] n) (hi : i < n.graph.size)
    (hr : (n.graph.stage i).state = .running) (wk : WorkerId) :
    Flowing pl S [] (Scheduler.take n wk i) := by
  have ha := n.alike_take wk i
  have hh := fun j => Scheduler.holders_take hi wk j
  refine
    { bare := ha.bare.trans f.bare
      counted := f.counted.alike ha
      good := f.good
      finished := fun v hv hf u hu => ?_
      dormant := fun v hv hd => ?_
      held := fun v hv h => ?_
      clear := fun v hv h => ?_
      honest := f.honest
      unheld := fun v hv => f.unheld v ?_ }
  · rw [ha.state] at hf ⊢
    obtain ⟨huf, huh⟩ := f.finished v hv hf u hu
    have hiu : i ≠ u := fun h => by
      rw [← h, hr] at huf
      cases huf
    exact ⟨huf, by rw [hh, huh, if_neg hiu]⟩
  · simp only [Stage.dormant, ha.state] at hd
    refine (f.dormant v hv hd).imp id fun h u hu => ?_
    have hiu : i ≠ u := fun he => (h u hu).1 (he ▸ hr)
    rw [ha.state, hh, if_neg hiu]
    exact h u hu
  · rw [ha.state]
    rw [hh] at h
    by_cases hiv : i = v
    · exact hiv ▸ hr
    · exact f.held v hv (by simpa [hiv] using h)
  · rw [ha.state] at h
    exact f.clear v hv h
  · rw [hh] at hv
    omega

omit w in
/-- A call of a held stage puts work in front of running stages only. -/
theorem call (f : Flowing pl S [] n) (hi : i < n.graph.size) (hh : 0 < (n.graph.stage i).holders)
    (visit : Visit) (hS : ∀ v, i ≠ v → S' v → S v)
    (hself : S' i → pl.Honest i (B.call i visit n.world).2.2)
    (hu : ∀ v, (n.graph.stage v).holders = 0 → S' v) : Flowing pl S' [] (n.call B i visit).2.2 := by
  have ha := n.alike_call B i visit
  have hholders := n.holders_call B i visit
  have hsize : i < g.size := by rwa [← Graph.size_of_bare f.bare]
  refine
    { bare := ha.bare.trans f.bare
      counted := f.counted.alike ha
      good := ?_
      finished := fun v hv hf u hu => ?_
      dormant := fun v hv hd => ?_
      held := fun v hv h => ?_
      clear := fun v hv h => ?_
      honest := fun v hv => ?_
      unheld := fun v hv => hu v (by rwa [hholders] at hv) }
  · rw [n.world_call]
    exact pl.call_good i visit f.good hsize
  · rw [ha.state] at hf ⊢
    rw [hholders]
    exact f.finished v hv hf u hu
  · simp only [Stage.dormant, ha.state] at hd
    simp only [ha.state, hholders]
    exact f.dormant v hv hd
  · rw [hholders] at h
    rw [ha.state]
    exact f.held v hv h
  · rw [ha.state] at h
    rw [n.world_call]
    refine pl.call_clear i visit f.good hsize hv (fun hiv => ?_) (fun hm => ?_) (f.clear v hv h)
    · subst hiv
      exact h (f.held i hv hh)
    · exact h (f.running_of_fed hv hm (.inr hh))
  · rw [n.world_call]
    by_cases hiv : i = v
    · subst hiv
      exact hself hv
    · exact pl.call_honest i visit f.good hiv (f.honest v (hS v hiv hv))

end Flowing

end

/-! ### Sessions -/

namespace Session

variable {W : Type} {B : Bodies W} {g : Graph} {pl : Plumbing B g} {s : Session W} {w : WorkerId}
  {e : Event W}

/-- What may happen if no work is to be stranded: only sources are paused or finished from outside,
the world is tuned at most, no call panics, and a worker reports the outcome of its last call or
none. -/
def Steady (B : Bodies W) (Tuned : W → W → Prop) (s : Session W) : Event W → Prop
  | .order (.pause i) => (s.network.graph.stage i).isSource = true
  | .order (.finish i) => (s.network.graph.stage i).isSource = true
  | .order (.outside world) => Tuned s.network.world world
  | .exec w =>
    ∀ h p, s.holdOf w = some h → (B.call h.stage (s.visit h) s.network.world).1 ≠ .panicked p
  | .report _ result => result = none
  | _ => True

/-- A call that returns is a steady step. -/
theorem Run.exec {Tuned : W → W → Prop} {s₀ : Session W} {o : Outcome}
    (hr : Run B (Steady B Tuned) s₀ s)
    (ho : (s.holdOf w).map (fun h => (B.call h.stage (s.visit h) s.network.world).1) =
      some (.returned o)) :
    Run B (Steady B Tuned) s₀ (s.perform B (.exec w)) := by
  refine .step (.exec w) hr trivial fun h p hh hp => ?_
  rw [hh, Option.map_some, hp] at ho
  cases ho

/-- The same, but calls may panic. -/
def Mild (Tuned : W → W → Prop) (s : Session W) : Event W → Prop
  | .order (.pause i) => (s.network.graph.stage i).isSource = true
  | .order (.finish i) => (s.network.graph.stage i).isSource = true
  | .order (.outside world) => Tuned s.network.world world
  | .report _ result => result = none
  | _ => True

theorem Steady.mild {Tuned : W → W → Prop} (h : Steady B Tuned s e) : Mild Tuned s e := by
  cases e with
  | order call => cases call <;> exact h
  | exec w => trivial
  | _ => exact h

/-- Nobody is away from a stage. -/
def Attended (holds : List Hold) (v : StageId) : Prop := ∀ h ∈ holds, h.stage = v → h.away = false

theorem attended_of_tally {holds : List Hold} {v : StageId} (h : tally holds v = 0) :
    Attended holds v := by
  intro x hx hv
  have := tally_pos hx
  rw [hv] at this
  omega

theorem attended_of_others (hp : s.Present w) (t : s.Tallied) {v : StageId}
    (h : Attended (s.others w) v) :
    Attended s.holds v := by
  intro x hx hv
  by_cases hw : x.worker = w
  · exact hp x (hw ▸ t.holdOf_of_mem hx)
  · exact h x (mem_others.2 ⟨hx, hw⟩) hv

/-- What holds of a session throughout. -/
structure Streaming (pl : Plumbing B g) (s : Session W) : Prop where
  flowing : Flowing pl (Attended s.holds) [] s.network
  tallied : s.Tallied
  results : ∀ h ∈ s.holds, h.result = some .finished → (g.stage h.stage).isSource = true

namespace Streaming

variable (st : Streaming pl s)
include st

theorem sources_lt_size (wd : g.Wired) : ∀ i ∈ s.network.graph.sources, i < s.network.graph.size :=
  fun _ =>
  (st.flowing.wired wd).lt_size_of_mem_sources

theorem order (wd : g.Wired) {call : Call W} (ho : call.isOrder = true)
    (ha : Mild pl.Tuned s (.order call)) :
    Streaming pl (s.perform B (.order call)) := by
  refine ⟨?_, st.tallied.order (st.sources_lt_size wd) ho, st.results⟩
  have f := st.flowing
  cases call with
  | build p =>
    cases p with
    | knobs i k =>
      exact f.same (.modify _ i (f := fun t => { t with knobs := k t.knobs }) (fun _ => rfl)
        (fun _ => rfl) fun _ => rfl)
        (.refl _) (Graph.map_stage_modify Stage.holders
          (f := fun t => { t with knobs := k t.knobs }) (fun _ => rfl) i)
    | _ => cases ho
  | activate i => exact f.activate wd i
  | activateAll => exact f.activateSources wd _
  | pause i => exact f.pause wd ((Graph.isSource_of_bare f.bare i).symm.trans ha)
  | finish i => exact f.finish wd ((Graph.isSource_of_bare f.bare i).symm.trans ha)
  | finishSources => exact f.finishSources wd
  | fail e =>
    exact f.same (.recordFailure _ e) (.refl _) fun j =>
      congrArg Stage.holders (Graph.stage_recordFailure s.network.graph e j)
  | outside world =>
    exact f.same (.refl _)
      ⟨pl.tuned_good ha, fun _ _ => pl.tuned_clear ha, fun _ _ => pl.tuned_honest ha⟩ fun _ => rfl
  | _ => cases ho

/-- Once a worker has let go the others are attended to as before. -/
theorem freed (wd : g.Wired) (hp : s.Present w) :
    Flowing pl (Attended (s.others w)) [] (s.freed B w) := by
  unfold Session.freed
  cases hh : s.holdOf w with
  | none =>
    rw [others_of_none hh]
    exact st.flowing.same (s.network.alike_clearStreak w) (.refl _) fun _ => rfl
  | some h =>
    refine st.flowing.giveBack wd s.scheduler w h.result (st.results h (mem_of_holdOf hh).1)
      (fun v => attended_of_others hp st.tallied) fun v hv => attended_of_tally ?_
    rw [st.tallied.holders, st.tallied.tally_others hh] at hv
    exact (Nat.add_sub_cancel ..).symm.trans hv

theorem next (wd : g.Wired) (hp : s.Present w) : Streaming pl (s.next B w).2 := by
  have tallied := st.tallied.next (B := B) w
  have freed := st.freed (B := B) wd hp
  have results : ∀ h ∈ s.others w, h.result = some .finished →
      (g.stage h.stage).isSource = true := fun h hm =>
    st.results h (mem_others.1 hm).1
  have fresh : ∀ i, ∀ h ∈ ({ worker := w, stage := i } : Hold) :: s.others w,
      h.result = some .finished →
      (g.stage h.stage).isSource = true := by
    intro i h hm
    rcases List.mem_cons.1 hm with rfl | hm
    · exact fun hr => by cases hr
    · exact results h hm
  have others : ∀ i v, Attended ({ worker := w, stage := i } :: s.others w) v →
      Attended (s.others w) v :=
    fun i v h x hx => h x (List.mem_cons_of_mem _ hx)
  rcases s.next_cases B w with ⟨h, hh, hk, he⟩ | ⟨i, hi, hel, hf, he⟩ | ⟨hf, he⟩ | ⟨hf, hel, he⟩ <;>
    rw [he] at tallied ⊢
  · refine ⟨?_, tallied, fresh h.stage⟩
    refine (st.flowing.mono (fun v hv => attended_of_others hp st.tallied (others h.stage v hv))
      fun v hv => ?_).same
      (s.network.alike_keep w h.stage) (.refl _) (Scheduler.holders_keep s.network w h.stage)
    refine attended_of_tally ?_
    rw [tally_cons, ← st.tallied.tally_others hh, ← st.tallied.holders]
    exact hv
  · refine ⟨?_, tallied, fresh i⟩
    have taken := freed.take hi (Scheduler.eligible_iff.1 hel).1 w
    exact taken.mono (others i) fun v hv => attended_of_tally (by rw [← tallied.holders]; exact hv)
  · exact ⟨freed, tallied, results⟩
  · exact ⟨(Flowing.settling wd pl _).settle freed, tallied, results⟩

theorem release (wd : g.Wired) (hp : s.Present w) : Streaming pl (s.release B w).2 := by
  have tallied := st.tallied.release (B := B) w
  have freed := st.freed (B := B) wd hp
  cases hh : s.holdOf w with
  | none =>
    rw [release_of_none hh]
    exact st
  | some h =>
    rw [Session.freed, hh] at freed
    rw [release_of_some hh] at tallied ⊢
    exact ⟨freed, tallied, fun h hm => st.results h (mem_others.1 hm).1⟩

/-- A call that has returned leaves the stage honest; one that is suspended takes the worker
away. -/
theorem exec
    (hx : ∀ h p, s.holdOf w = some h →
      (B.call h.stage (s.visit h) s.network.world).1 = .panicked p →
    pl.Honest h.stage (B.call h.stage (s.visit h) s.network.world).2.2) :
    Streaming pl (s.exec B w).2 := by
  have tallied := st.tallied.exec (B := B) w
  cases hh : s.holdOf w with
  | none =>
    rw [exec_of_none hh]
    exact st
  | some h =>
    obtain ⟨hm, hw⟩ := mem_of_holdOf hh
    have hsize := st.tallied.lt_size hm
    have hresult := s.network.outcome_call B h.stage (s.visit h)
    rw [exec_of_some hh hw] at tallied ⊢
    refine ⟨?_, tallied, fun x hm => ?_⟩
    · refine st.flowing.call hsize (st.tallied.holders_pos hm) (s.visit h)
        (fun v hv hatt x hx hxv => ?_) (fun hatt => ?_) fun v hv => attended_of_tally ?_
      · by_cases hxw : x.worker = w
        · have : x = h := by
            have := st.tallied.holdOf_of_mem hx
            rw [hxw, hh] at this
            exact (Option.some.inj this).symm
          exact absurd (this ▸ hxv) hv
        · exact hatt x (List.mem_cons_of_mem _ (mem_others.2 ⟨hx, hxw⟩)) hxv
      · have := hatt _ (List.mem_cons_self ..) rfl
        simp only [hresult] at this
        cases hc : (B.call h.stage (s.visit h) s.network.world).1 with
        | returned o =>
          exact pl.return_honest h.stage _ o st.flowing.good
            ((Graph.size_of_bare st.flowing.bare).symm ▸ hsize) hc
        | panicked p => exact hx h p hh hc
        | suspended =>
          rw [hc] at this
          cases this
      · rw [← tallied.holders]
        simp only [Network.holders_call]
        exact hv
    · rcases List.mem_cons.1 hm with rfl | hm
      · intro hr
        simp only [hresult] at hr
        refine pl.isSource_of_finished (w := s.network.world) h.stage (s.visit h)
          st.flowing.good ?_ ?_
        · rwa [← Graph.size_of_bare st.flowing.bare]
        · cases hc : (B.call h.stage (s.visit h) s.network.world).1 with
          | returned o =>
            rw [hc] at hr
            cases hr
            rfl
          | panicked p =>
            rw [hc] at hr
            cases hr
          | suspended =>
            rw [hc] at hr
            cases hr
      · exact st.results x (mem_others.1 hm).1

theorem report (w : WorkerId) : Streaming pl (s.perform B (.report w none)) := by
  have hstage : ∀ h, (Hold.reporting w none h).stage = h.stage ∧
      (Hold.reporting w none h).away = h.away := by
    intro h
    unfold Hold.reporting
    split <;> exact ⟨rfl, rfl⟩
  have tallied := st.tallied.report (B := B) w none
  refine ⟨st.flowing.mono (fun v h x hx hv => ?_) fun v hv => ?_, tallied, fun x hx hr => ?_⟩
  · have := h _ (List.mem_map.2 ⟨x, hx, rfl⟩) ((hstage x).1.trans hv)
    rwa [(hstage x).2] at this
  · exact attended_of_tally (by rw [← tallied.holders]; exact hv)
  · obtain ⟨y, hy, rfl⟩ := List.mem_map.1 hx
    rw [(hstage y).1]
    refine st.results y hy ?_
    unfold Hold.reporting at hr
    split at hr
    · cases hr
    · exact hr

/-- Every event preserves the flow, if a call that panics leaves its stage honest. -/
theorem perform_mild (wd : g.Wired) (he : s.Sound e) (hm : Mild pl.Tuned s e)
    (hx : ∀ w h p, e = .exec w → s.holdOf w = some h →
      (B.call h.stage (s.visit h) s.network.world).1 = .panicked p →
      pl.Honest h.stage (B.call h.stage (s.visit h) s.network.world).2.2) :
    Streaming pl (s.perform B e) := by
  cases e with
  | order call => exact st.order wd he hm
  | next w => exact st.next wd he
  | exec w => exact st.exec fun h p => hx w h p rfl
  | release w => exact st.release wd he
  | report w result =>
    cases (show result = none from hm)
    exact st.report w

/-- So it does if no call panics. -/
theorem perform (wd : g.Wired) (he : s.Sound e) (ha : Steady B pl.Tuned s e) :
    Streaming pl (s.perform B e) := by
  refine st.perform_mild wd he ha.mild ?_
  rintro w h p rfl hh hp
  exact absurd hp (ha h p hh)

end Streaming

end Session

end Pipework
