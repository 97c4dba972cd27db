import Pipework.Proofs.Network.Handover
import Pipework.Proofs.Session.Reached

/-!
# The last holder of a stage without input

A stage whose feeders are finished and for which nothing waits is spent: it is no use to give it to
anybody, and nobody who holds it may keep it (`Spent.not_eligible`, `Spent.not_keeps`). Nobody but
the last of its holders can settle it, whatever he reports (`Spent.settles_giveBack`), and nothing
else that happens in the meantime comes between (`Ebbs.perform`). So when the last holder has given
it back it is finished and closed, and not before (`last_holder_settles`).
-/

namespace Pipework

variable {W : Type} {B : Bodies W} {Q : W → Prop} {v : StageId}

namespace Network

/-- All feeders of a stage are finished and held by nobody, the world is such that nothing waits for
it, and it runs or is finished. -/
structure Spent (Q : W → Prop) (v : StageId) (n : Network W) : Prop where
  wired : n.graph.Wired
  noSource : (n.graph.stage v).isSource = false
  feeders : ∀ u ∈ (n.graph.stage v).feeders, (n.graph.stage u).state = .finished ∧
    (n.graph.stage u).holders = 0
  unfed : (n.graph.stage v).runningFeeders = 0
  world : Q n.world
  state : (n.graph.stage v).state = .running ∨ (n.graph.stage v).state = .finished

namespace Spent

variable {n n' : Network W} {i : StageId} {c : Option Caller} {sc : Scheduler} {w : WorkerId}
  {result : Option Outcome}

/-! ### Changes of stages -/

theorem lt_size (h : n.Spent Q v) : v < n.graph.size :=
  Graph.lt_size_of_state_ne (by rcases h.state with hs | hs <;> simp [hs])

theorem not_mem_feeders (h : n.Spent Q v) (hi : (n.graph.stage i).state ≠ .finished) :
    i ∉ (n.graph.stage v).feeders :=
  fun hm => hi (h.feeders i hm).1

/-- A stage that is not finished has nothing to tell to a spent one. -/
theorem count_listeners (h : n.Spent Q v) (hi : (n.graph.stage i).state ≠ .finished) :
    (n.graph.stage i).listeners.count v = 0 := by
  rw [h.wired.mirror, List.count_eq_zero]
  exact h.not_mem_feeders hi

theorem change (h : n.Spent Q v) (hb : n'.graph.bare = n.graph.bare)
    (hfinished : ∀ u, (n.graph.stage u).state = .finished → (n'.graph.stage u).state = .finished)
    (hholders : ∀ u ∈ (n.graph.stage v).feeders, (n'.graph.stage u).holders ≤
      (n.graph.stage u).holders)
    (hunfed : (n'.graph.stage v).runningFeeders ≤ (n.graph.stage v).runningFeeders)
    (hw : Q n'.world)
    (hs : (n'.graph.stage v).state = .running ∨ (n'.graph.stage v).state = .finished) :
    n'.Spent Q v where
  wired := h.wired.of_bare hb
  noSource := (Graph.isSource_of_bare hb v).trans h.noSource
  feeders u hu := by
    rw [Graph.feeders_of_bare hb] at hu
    obtain ⟨hf, hz⟩ := h.feeders u hu
    exact ⟨hfinished u hf, Nat.le_zero.1 (hz ▸ hholders u hu)⟩
  unfed := Nat.le_zero.1 (h.unfed ▸ hunfed)
  world := hw
  state := hs

/-- States and counters are what matters, as long as no feeder is taken. -/
theorem alike (h : n.Spent Q v) (ha : n.graph.Alike n'.graph)
    (hholders : ∀ u ∈ (n.graph.stage v).feeders, (n'.graph.stage u).holders ≤
      (n.graph.stage u).holders)
    (hw : Q n'.world) :
    n'.Spent Q v :=
  h.change ha.bare (fun u hu => (ha.state u).trans hu) hholders (Nat.le_of_eq (ha.runningFeeders v))
    hw (by rw [ha.state]; exact h.state)

section

variable (hB : B.Keeps Q)
include hB

theorem opening : Opening B fun n => n.Spent Q v where
  opens {n i} c h hi hd := by
    have hne : (n.graph.stage i).state ≠ .finished := by
      intro hf
      rw [Stage.dormant, hf] at hd
      cases hd
    obtain ⟨f, hf⟩ := n.openOne_graph B i c
    refine h.change (by rw [hf, Graph.bare_withFailure, Graph.bare_enterRunning]) (fun u hu => ?_)
      (fun u _ => ?_) ?_ (hB.openOne h.world) ?_
    · exact (stable_finished B u).opens c hu hi hd
    · exact Nat.le_of_eq (by rw [hf, Graph.stage_withFailure, Graph.holders_enterRunning])
    · rw [hf, Graph.stage_withFailure, Graph.stage_enterRunning h.lt_size, h.count_listeners hne]
      exact Nat.le_refl _
    · rw [n.state_openOne hi]
      split
      · exact .inl rfl
      · exact h.state

/-- A spent stage is not halted unless somebody asks for it. -/
theorem enduring : Enduring B (· ≠ v) fun n => n.Spent Q v := by
  have halts : ∀ {n : Network W} {i : StageId}, n.Spent Q v → i ≠ v →
      (n.graph.stage i).state = .running →
      (n.mapGraph (·.halt i)).Spent Q v := by
    intro n i h hiv hr
    refine h.change (Graph.bare_halt n.graph i) (fun u hu => (stable_finished B u).halts hu hr)
      (fun u _ => ?_) ?_ h.world ?_
    · exact Nat.le_of_eq (Graph.holders_halt n.graph i u)
    · rw [graph_mapGraph, Graph.stage_halt hr h.lt_size]
      exact Nat.sub_le _ _
    · rw [graph_mapGraph, Graph.state_halt hr, if_neg hiv]
      exact h.state
  have completes : ∀ {n : Network W} {i : StageId} (c : Option Caller), n.Spent Q v →
      i < n.graph.size →
      (n.graph.stage i).state ≠ .finished → (n.complete B i c).2.Spent Q v := by
    intro n i c h hi hf
    obtain ⟨f, hg⟩ := complete_graph (B := B) (c := c) hf
    refine h.change (n.bare_complete B i c) (fun u hu => (stable_finished B u).completes c hu hi hf)
      (fun u _ => ?_) ?_ (hB.complete h.world) ?_
    · exact Nat.le_of_eq (n.holders_complete B i u c)
    · rw [hg, Graph.stage_withFailure, Graph.stage_retire h.lt_size]
      simp only
      split
      · exact Nat.sub_le _ _
      · exact Nat.le_refl _
    · rw [n.state_complete hi]
      split
      · exact .inr rfl
      · exact h.state
  refine ⟨⟨fun {n i} h hs hf => ?_, fun {n i} c h hs _ => ?_⟩, halts, completes⟩
  · refine halts h ?_ (state_of_settled hs)
    rintro rfl
    exact hf fun u hu => (h.feeders u hu).1
  · have hr := state_of_settled hs
    exact completes c h (Graph.lt_size_of_state_ne (by simp [hr])) (by simp [hr])

/-! ### Hand-backs -/

theorem surrender (h : n.Spent Q v) (caller : Caller) :
    (n.surrender B i caller result).2.Spent Q v := by
  have hgo : (n.mapGraph (·.letGo i ⟨caller.worker, result == some .comeBackLater⟩)).Spent Q v := by
    refine h.alike (.letGo _ _ _) (fun u _ => ?_) h.world
    rw [graph_mapGraph, Graph.holders_letGo]
    exact Nat.sub_le _ _
  have closes : ∀ {m : Network W}, m.Spent Q v →
      (m.closeDue B i (some caller)).2.Spent Q v := fun {m} hm =>
    hm.alike (m.alike_closeDue B i _) (fun u _ => Nat.le_of_eq (holders_closeDue m B i u _))
      (hB.closeDue hm.world)
  unfold Network.surrender
  refine closes ?_
  split
  · by_cases hi : i < n.graph.size
    · exact (enduring hB).complete hgo (by simpa [Graph.letGo] using hi)
    · have hle : (n.mapGraph
          (·.letGo i ⟨caller.worker, result == some .comeBackLater⟩)).graph.size ≤ i := by
        simpa [Graph.letGo] using Nat.le_of_not_lt hi
      exact hgo.alike (alike_complete_of_size_le hle)
        (fun u _ => Nat.le_of_eq (holders_complete _ B i u _)) (hB.complete hgo.world)
  · exact hgo

theorem giveBack (h : n.Spent Q v) : (sc.giveBack B n w i result).Spent Q v := by
  have surrendered : (n.surrender B i (sc.caller w) result).2.Spent Q v := h.surrender hB _
  have hback := (enduring hB).toSettling.handBack surrendered
  exact hback.alike (alike_clearStreak _ w) (fun _ _ => Nat.le_refl _) hback.world

theorem freed (h : n.Spent Q v) (previous : Option StageId) :
    (sc.freed B n w previous result).Spent Q v := by
  cases previous with
  | none => exact h.alike (alike_clearStreak n w) (fun _ _ => Nat.le_refl _) h.world
  | some i => exact h.giveBack hB

theorem handOut (h : n.Spent Q v) : (sc.handOut B n w).2.Spent Q v := by
  refine (enduring hB).toSettling.handOut h fun i hi he => ?_
  refine h.alike (alike_take n w i) (fun u hu => ?_) h.world
  -- the stage that is taken runs, and no feeder does
  have hiu : i ≠ u := by
    rintro rfl
    exact h.not_mem_feeders (by simp [(Scheduler.eligible_iff.1 he).1]) hu
  rw [Scheduler.holders_take hi, if_neg hiu]
  exact Nat.le_refl _

theorem assign (h : n.Spent Q v) (previous : Option StageId) :
    (sc.assign B n w previous result).2.Spent Q v := by
  rcases sc.assign_cases B n w previous result with ⟨i, -, -, he⟩ | he <;> rw [he]
  · exact h.alike (alike_keep n w i) (fun u _ => Nat.le_of_eq (Scheduler.holders_keep n w i u))
      h.world
  · exact (h.freed hB previous).handOut hB

end

/-! ### Nobody is given a spent stage -/

section

variable (hQ : ∀ w, Q w → B.pending v w = 0)
include hQ

theorem exhausted (h : n.Spent Q v) (hr : (n.graph.stage v).state = .running) :
    n.exhausted B v = true := by
  simp [Network.exhausted, hr, h.noSource, h.unfed, hQ _ h.world]
  exact fun u hu => (h.feeders u hu).2

theorem not_eligible (h : n.Spent Q v) : Scheduler.eligible B n v = false := by
  by_contra he
  obtain ⟨hr, -, hx⟩ := Scheduler.eligible_iff.1 (by simpa using he)
  rw [h.exhausted hQ hr] at hx
  cases hx

theorem not_keeps (h : n.Spent Q v) : sc.mayKeep B n w v result = false := by
  by_contra hk
  have hk : sc.mayKeep B n w v result = true := by simpa using hk
  have hx := h.exhausted hQ (Scheduler.running_of_mayKeep hk)
  unfold Scheduler.mayKeep at hk
  split at hk
  · simp [hx] at hk
  · cases hk

/-- Once nobody holds a spent stage it is enough to settle it. -/
theorem finished_settle (h : n.Spent Q v) (hz : (n.graph.stage v).holders = 0) :
    ((n.settle B [v] c).2.graph.stage v).state = .finished := by
  have stays := (stable_finished B v).settling
  rcases h.state with hr | hf
  · have hs : n.settled B v = true := by
      rw [settled, hz, h.exhausted hQ hr]
      rfl
    have hone : n.settleOne B v c = (true, n.complete B v c) := by
      rcases n.settleOne_cases B v c with ⟨-, -, he⟩ | ⟨-, hne, -⟩ | ⟨hns, -⟩
      · exact he
      · exact absurd (fun u hu => (h.feeders u hu).1) hne
      · exact absurd (hs.symm.trans hns) (by decide)
    unfold settle
    rw [List.reverse_singleton, settleEach_cons v [] _ (List.mem_range.2 h.lt_size) rfl]
    refine stays.settleEach ?_
    rw [hone, n.state_complete h.lt_size, if_pos rfl]
  · exact stays.settle hf

/-- **Whatever a worker gives back, with whatever result, a spent stage without holders is finished
then**, if it was before. -/
theorem settles_giveBack (hB : B.Keeps Q) (h : n.Spent Q v)
    (hn : (n.graph.stage v).holders = 0 → (n.graph.stage v).state = .finished)
    (hz : ((sc.giveBack B n w i result).graph.stage v).holders = 0) :
    ((sc.giveBack B n w i result).graph.stage v).state = .finished := by
  by_cases hiv : i = v
  · subst hiv
    have surrendered : (n.surrender B i (sc.caller w) result).2.Spent Q i := h.surrender hB _
    have hz' : ((n.surrender B i (sc.caller w) result).2.graph.stage i).holders = 0 := by
      rw [Scheduler.holders_giveBack] at hz
      rw [holders_surrender]
      exact hz
    exact surrendered.finished_settle hQ hz'
  · rw [Scheduler.holders_giveBack, if_neg hiv] at hz
    exact (stable_finished B v).toLasting.giveBack (fun _ _ h ha => (ha.state v).trans h) (hn hz)

end

end Spent

end Network

namespace Session

variable {s : Session W} {w : WorkerId} {e : Event W}

/-! ### Steps of a session -/

/-- A stage is spent, and finished as soon as nobody holds it. -/
structure Ebbs (Q : W → Prop) (v : StageId) (s : Session W) : Prop where
  spent : s.network.Spent Q v
  settles : (s.network.graph.stage v).holders = 0 → (s.network.graph.stage v).state = .finished

namespace Ebbs

theorem exec (h : s.Ebbs Q v) (w : WorkerId) (hq : Q (s.exec B w).2.network.world) :
    (s.exec B w).2.Ebbs Q v := by
  cases hh : s.holdOf w with
  | none =>
    rw [exec_of_none hh]
    exact h
  | some x =>
    rw [exec_of_some hh (mem_of_holdOf hh).2] at hq ⊢
    have alike := s.network.alike_call B x.stage (s.visit x)
    have hholders := s.network.holders_call B x.stage (s.visit x)
    refine ⟨h.spent.alike alike (fun u _ => Nat.le_of_eq (hholders u)) hq, fun hz => ?_⟩
    exact (alike.state v).trans (h.settles ((hholders v).symm.trans hz))

variable (hB : B.Keeps Q)
include hB

theorem order (h : s.Ebbs Q v) (t : s.Tallied) {call : Call W} (ho : call.isOrder = true)
    (hp : call ≠ .pause v) (hq : Q (s.network.perform B call).world) :
    (s.perform B (.order call)).Ebbs Q v := by
  have hs : ∀ i ∈ s.network.graph.sources, i < s.network.graph.size :=
    fun _ => h.spent.wired.lt_size_of_mem_sources
  refine ⟨?_, fun hz => ?_⟩
  · refine (Network.Spent.enduring hB).order (Network.Spent.opening hB) hs ho
      (fun i hi hiv => hp (by rw [hi, hiv])) (fun f => ?_) (fun i f => ?_)
        (fun world hw => ?_) h.spent
    · refine h.spent.alike (.recordFailure _ f) (fun u _ => Nat.le_of_eq ?_) h.spent.world
      rw [Network.graph_mapGraph, Graph.stage_recordFailure]
    · refine h.spent.alike (.modify _ i (fun _ => rfl) (fun _ => rfl) fun _ => rfl) (fun u _ => ?_)
        h.spent.world
      exact Nat.le_of_eq
        (Graph.map_stage_modify Stage.holders (f := fun s => { s with knobs := f s.knobs })
          (fun _ => rfl) i u)
    · refine h.spent.alike (.refl _) (fun _ _ => Nat.le_refl _) ?_
      rw [hw] at hq
      exact hq
  · rw [(t.order (B := B) hs ho).holders] at hz
    exact (stable_finished B v).event (e := .order call) (fun _ _ h ha => (ha.state v).trans h) hs
      ho (h.settles ((t.holders v).trans hz))

variable (hQ : ∀ w, Q w → B.pending v w = 0)
include hQ

theorem freed (h : s.Ebbs Q v) (w : WorkerId) : (s.freed B w).Spent Q v ∧
    (((s.freed B w).graph.stage v).holders = 0 →
      ((s.freed B w).graph.stage v).state = .finished) := by
  unfold Session.freed
  refine ⟨h.spent.freed hB _, fun hz => ?_⟩
  cases hh : s.holdOf w with
  | none =>
    rw [hh] at hz
    exact h.settles hz
  | some x =>
    rw [hh] at hz
    exact h.spent.settles_giveBack hQ hB h.settles hz

/-- Nobody is given the stage. -/
theorem next_ne (h : s.Ebbs Q v) (w : WorkerId) : (s.next B w).1 ≠ some v := by
  obtain ⟨freed, -⟩ := h.freed hB hQ w
  intro hv
  rcases s.next_cases B w with ⟨x, -, hk, he⟩ | ⟨i, -, hel, -, he⟩ | ⟨-, he⟩ | ⟨-, -, he⟩ <;>
    rw [he] at hv
  · have hx : x.stage = v := Option.some.inj hv
    rw [hx, h.spent.not_keeps hQ] at hk
    cases hk
  · have hi : i = v := Option.some.inj hv
    rw [hi, freed.not_eligible hQ] at hel
    cases hel
  · cases hv
  · cases hv

theorem next (h : s.Ebbs Q v) (w : WorkerId) : (s.next B w).2.Ebbs Q v := by
  obtain ⟨freed, hfreed⟩ := h.freed hB hQ w
  refine ⟨h.spent.assign hB _, ?_⟩
  have hne := h.next_ne hB hQ w
  rcases s.next_cases B w with ⟨x, -, -, he⟩ | ⟨i, hi, -, -, he⟩ | ⟨-, he⟩ | ⟨-, -, he⟩ <;>
    rw [he] at hne ⊢
  · intro hz
    rw [Scheduler.holders_keep] at hz
    exact ((Network.alike_keep s.network w x.stage).state v).trans (h.settles hz)
  · intro hz
    have hiv : i ≠ v := fun hiv => hne (congrArg some hiv)
    rw [Scheduler.holders_take hi, if_neg hiv] at hz
    exact ((Network.alike_take (s.freed B w) w i).state v).trans (hfreed hz)
  · exact hfreed
  · intro hz
    have hholders : (((s.freed B w).settle B (Scheduler.idle B (s.freed B w))
        (some (s.scheduler.caller w))).2.graph.stage v).holders =
          ((s.freed B w).graph.stage v).holders :=
      (stable_holders B fun j => ((s.freed B w).graph.stage j).holders).settling.settle
        (fun _ => rfl) v
    exact (stable_finished B v).settling.settle (hfreed (hholders ▸ hz))

theorem release (h : s.Ebbs Q v) (w : WorkerId) : (s.release B w).2.Ebbs Q v := by
  cases hh : s.holdOf w with
  | none =>
    rw [release_of_none hh]
    exact h
  | some x =>
    obtain ⟨freed, hfreed⟩ := h.freed hB hQ w
    rw [Session.freed, hh] at freed hfreed
    rw [release_of_some hh]
    exact ⟨freed, hfreed⟩

/-- A spent stage stays so, and finished if nobody holds it, whatever happens but that somebody
pauses it. -/
theorem perform (h : s.Ebbs Q v) (t : s.Tallied) (he : s.Sound e) (hp : e ≠ .order (.pause v))
    (hq : Q (s.perform B e).network.world) : (s.perform B e).Ebbs Q v := by
  cases e with
  | order call => exact h.order hB t he (fun hc => hp (congrArg Event.order hc)) hq
  | next w => exact h.next hB hQ w
  | exec w => exact h.exec w hq
  | release w => exact h.release hB hQ w
  | report w result => exact ⟨h.spent, h.settles⟩

end Ebbs

end Session

/-- Noting what is called keeps what bodies keep. -/
theorem Bodies.Keeps.noting (hB : B.Keeps Q) : B.noting.Keeps fun p => Q p.1 := by
  intro hook i p hp
  cases hook with
  | opening => exact hB .opening i p.1 hp
  | closing => exact hB .closing i p.1 hp

/-- **The last holder settles a stage without input.** Let a stage be no source and run, held by at
least one worker, with all its feeders finished and held by nobody, and let nothing wait for it as
long as the world is of a kind that hooks keep. Whatever happens from then on in a session, apart
from pausing the stage and from changes of the world that it does not allow, and in whatever order
and with whatever results the stage is given back: nobody is given it any more. While somebody holds
it it has not been closed; as soon as nobody does it is finished, without holders, and closed
exactly once. -/
theorem last_holder_settles (B : Bodies W) (world : W) (sc : Scheduler) {s : Session (Noted W)}
    (hr : Session.Reached B.noting Session.KeepsNotes (world, []) sc s) (v : StageId) (Q : W → Prop)
    (hB : B.Keeps Q) (hQ : ∀ w, Q w → B.pending v w = 0) (hq : Q s.network.world.1)
    (hsource : (s.network.graph.stage v).isSource = false)
    (hruns : (s.network.graph.stage v).state = .running)
    (hheld : 0 < (s.network.graph.stage v).holders)
    (hfeeders : ∀ u ∈ (s.network.graph.stage v).feeders,
      (s.network.graph.stage u).state = .finished ∧ (s.network.graph.stage u).holders = 0)
    {s' : Session (Noted W)}
    (hrun : Session.Run B.noting (fun s e => s.KeepsNotes e ∧ e ≠ .order (.pause v) ∧
      Q (s.perform B.noting e).network.world.1)
      s s') :
    (∀ w, (s'.next B.noting w).1 ≠ some v) ∧
    ((∃ h ∈ s'.holds, h.stage = v) →
      ((s'.network.graph.stage v).state = .running ∨ (s'.network.graph.stage v).state = .finished) ∧
        .hook .closing ∉ s'.network.historyOf v) ∧
    ((∀ h ∈ s'.holds, h.stage ≠ v) →
      (s'.network.graph.stage v).state = .finished ∧ (s'.network.graph.stage v).holders = 0 ∧
        (s'.network.historyOf v).count (.hook .closing) = 1) := by
  have hfeeding : s.network.graph.feeding v = 0 := by
    rw [Graph.feeding, List.countP_eq_zero]
    intro u hu
    simp [(hfeeders u hu).1]
  have hunfed : (s.network.graph.stage v).runningFeeders = 0 := by
    obtain ⟨d, hl⟩ := hr.lags v
    exact Nat.le_zero.1 (hfeeding ▸ hl.le)
  have begins : s.Ebbs (fun p => Q p.1) v :=
    ⟨⟨hr.wired, hsource, hfeeders, hunfed, hq, .inl hruns⟩,
      fun hz => absurd hz (Nat.ne_of_gt hheld)⟩
  have later : s'.InOrder ∧ s'.Ebbs (fun p => Q p.1) v := by
    refine hrun.invariant (P := fun s => s.InOrder ∧ s.Ebbs (fun p => Q p.1) v)
      ⟨hr.inOrder, begins⟩ ?_
    rintro s e ⟨o, h⟩ he ⟨hk, hp, hq⟩
    exact ⟨o.perform he hk, h.perform hB.noting (fun p => hQ p.1) o.tallied he hp hq⟩
  obtain ⟨o, h⟩ := later
  refine ⟨h.next_ne hB.noting (fun p => hQ p.1), ?_, fun hnone => ?_⟩
  · rintro ⟨x, hx, rfl⟩
    refine ⟨h.spent.state, ?_⟩
    rcases h.spent.state with hs | hs
    · exact (o.framed x.stage).closing_not_mem (by simp [Stage.life, hs])
    · intro hc
      have hz := ((o.framed x.stage).closed_iff (o.prompt x.stage) hs).1 hc
      exact absurd hz (Nat.ne_of_gt (o.tallied.holders_pos hx))
  · have hz : (s'.network.graph.stage v).holders = 0 := by
      rw [o.tallied.holders, Session.tally, List.countP_eq_zero]
      simpa using hnone
    have hs := h.settles hz
    exact ⟨hs, hz, (o.framed v).count_closing (o.prompt v) hs hz⟩

/-- Bodies with some work in common, of which each call does one piece. -/
def Bodies.sharing : Bodies Nat where
  opening _ n := (.ok (), n)
  call _ v n := (.returned .success, v.record 1, n - 1)
  closing _ n := (.ok (), n)
  pending _ n := n
  threshold _ _ := 0
  setThreshold _ _ n := n

theorem keeps_sharing : Bodies.sharing.Keeps fun n => n = 0 := by
  intro hook i n hn
  cases hook <;> exact hn

/-- Two workers hold a stage behind one that is finished. One of them has done the last piece of
work. -/
def lastPiece : Session (Noted Nat) :=
  let n : Network (Noted Nat) :=
    ⟨.ofParts [.stage "a" .interior true, .stage "b" .interior true], 1, []⟩
  let started :=
    ((n.openOne Bodies.sharing.noting 1 none).2.complete Bodies.sharing.noting 0 none).2
  [.next 0, .next 1, .exec 0].foldl (Session.perform Bodies.sharing.noting)
    ⟨started.mapGraph (·.add (.edge 0 1)), ⟨.sticky 8, 1⟩, []⟩

theorem reached_lastPiece :
    Session.Reached Bodies.sharing.noting Session.KeepsNotes (1, []) ⟨.sticky 8, 1⟩ lastPiece := by
  have built := Session.Reached.parts Bodies.sharing.noting Session.KeepsNotes (1, [])
    ⟨.sticky 8, 1⟩ [.stage "a" .interior true, .stage "b" .interior true]
  have running := built.opens 1 nofun (by decide) (by decide) rfl
  have started := (running.finishes 0 nofun (by decide) rfl).build (.edge 0 1)
  exact ((started.step
    (.next 0) nofun nofun).step (.next 1) (by decide) nofun).step (.exec 0) trivial nofun

/-- One gives the stage back after its success, the other after an error. The first one would not
have been allowed to keep it. -/
theorem last_holder_settles_lastPiece :
    let s := [.release 0, .report 1 (some (.failed ⟨"broken"⟩)), .release 1].foldl
      (Session.perform Bodies.sharing.noting) lastPiece
    lastPiece.holds = [⟨0, 1, some .success, false⟩, ⟨1, 1, none, false⟩] ∧
      (lastPiece.next Bodies.sharing.noting 0).1 ≠ some 1 ∧
      (s.network.graph.stage 1).state = .finished ∧
      (s.network.graph.stage 1).holders = 0 ∧
      (s.network.historyOf 1).count (.hook .closing) = 1 := by
  intro s
  have keeps : ∀ (s : Session (Noted Nat)) w, s.network.world.1 = 0 →
      (s.perform Bodies.sharing.noting (.release w)).network.world.1 = 0 := by
    intro s w h
    rw [Session.perform]
    cases hh : s.holdOf w with
    | none =>
      rw [Session.release_of_none hh]
      exact h
    | some x =>
      rw [Session.release_of_some hh]
      exact keeps_sharing.noting.giveBack h
  have hworld : lastPiece.network.world.1 = 0 := by decide
  have settles := @last_holder_settles _ .sharing 1 ⟨.sticky 8, 1⟩ _ reached_lastPiece 1
    (fun n => n = 0) keeps_sharing
    (fun _ h => h) hworld (by decide) (by decide) (by decide) (by decide)
  have first := keeps lastPiece 0 hworld
  have hrun : Session.Run Bodies.sharing.noting (fun s e => s.KeepsNotes e ∧ e ≠ .order (.pause 1) ∧
      (s.perform Bodies.sharing.noting e).network.world.1 = 0) lastPiece s :=
    .step (.release 1)
      (.step (.report 1 (some (.failed ⟨"broken"⟩))) (.step (.release 0) .start (by decide)
      ⟨by simp [Session.KeepsNotes], by simp, first⟩) trivial
      ⟨by simp [Session.KeepsNotes], by simp, first⟩) (by decide)
      ⟨by simp [Session.KeepsNotes], by simp, keeps _ 1 first⟩
  have hnone : s.holds = [] := by decide
  exact ⟨by decide, (settles .start).1 0, (settles hrun).2.2 (by simp [hnone])⟩

end Pipework
