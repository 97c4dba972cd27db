import Pipework.Proofs.Network.HookFailures
import Pipework.Proofs.Session.Reached

/-!
# After a failure

The first failure that is recorded, on request or because a hook fails, is the failure of the graph
from then on (`failure_perform`). Nothing is handed out after it, not even by the call in which it
came up (`next_of_failure`). What workers hold they give back all the same, and the last one closes
what is finished by then (`HandsBack`), so that in the end all that was opened and finished has been
closed, and the counters are what they should be (`after_failure`).
-/

namespace Pipework

variable {W : Type} {B : Bodies W}

/-! ### The failure stays -/

theorem Network.aloof_failure (B : Bodies W) (f : Failure) :
    Aloof B fun n => n.graph.failure = some f where
  maps h hf := hf.trans h
  hooks {n} hook i c h := by
    rw [Network.runHook_eq]
    simp [Graph.withFailure, h]

theorem Scheduler.failure_of_mayKeep {sc : Scheduler} {n : Network W} {w : WorkerId} {i : StageId}
    {result : Option Outcome} (h : sc.mayKeep B n w i result = true) : n.graph.failure = none := by
  unfold mayKeep at h
  split at h
  · simp only [Bool.and_eq_true, Option.isNone_iff_eq_none] at h
    exact h.1.1.1
  · cases h

namespace Stage.Life

/-- What is noted when the last holder of a finished stage lets go is the closing hook. -/
theorem Framed.closes {l l' : Stage.Life} {h more : List Note} (hl : l.Framed h)
    (hl' : l'.Framed (h ++ more)) (hp : l.Prompt) (hp' : l'.Prompt) (hf : l.state = .finished)
    (hf' : l'.state = .finished) (hh : 0 < l.holders) (hh' : l'.holders = 0) (hc : .call ∉ more) :
    more = [.hook .closing] := by
  obtain ⟨k, hk⟩ := hl.history
  obtain ⟨k', hk'⟩ := hl'.history
  have hopened : l.opened = true := hl.opened.2 (by simp [hf])
  have hopened' : l'.opened = true := hl'.opened.2 (by simp [hf'])
  have hdue : l.closingDue = true := (hp hf).2 hh
  have hdue' : l'.closingDue = false := by
    by_contra hd
    have := (hp' hf').1 (by simpa using hd)
    omega
  have hmore : more.filter (· != .call) = more := List.filter_eq_self.2 fun x hx => by
    rw [bne_iff_ne]
    rintro rfl
    exact hc hx
  -- without the calls nothing but hooks is left on both sides
  have hhooks := congrArg (List.filter (· != .call)) (hk ▸ hk')
  simpa [frame, hopened, hopened', hf, hf', hdue, hdue', hmore] using hhooks

end Stage.Life

namespace Session

variable {s s' : Session W} {w : WorkerId} {f : Failure} {e : Event W}

theorem failure_next (h : s.network.graph.failure = some f) (w : WorkerId) :
    (s.next B w).2.network.graph.failure = some f := (Network.aloof_failure B f).assign h _

/-- A failure that has been recorded stays the failure of the graph. -/
theorem failure_perform (wd : s.network.graph.Wired) (he : s.Sound e)
    (h : s.network.graph.failure = some f) :
    (s.perform B e).network.graph.failure = some f := by
  have keeps := Network.aloof_failure B f
  cases e with
  | order call =>
    refine keeps.stable.order (fun _ => wd.lt_size_of_mem_sources) he (fun e => ?_) (fun i f => h)
      (fun _ _ => h) h
    rw [Network.graph_mapGraph, Graph.recordFailure_eq, h]
    rfl
  | next w => exact failure_next h w
  | exec w =>
    cases hh : s.holdOf w with
    | none =>
      rw [perform, exec_of_none hh]
      exact h
    | some x =>
      obtain ⟨m, hm⟩ := s.network.call_graph B x.stage (s.visit x)
      rw [perform, exec_of_some hh (mem_of_holdOf hh).2]
      exact (congrArg Graph.failure hm).trans h
  | release w =>
    cases hh : s.holdOf w with
    | none =>
      rw [perform, release_of_none hh]
      exact h
    | some x =>
      rw [perform, release_of_some hh]
      exact keeps.giveBack h
  | report w result => exact h

/-- Where there is a failure in the end, whenever it came up, nothing is handed out. -/
theorem next_of_failure (h : (s.next B w).2.network.graph.failure.isSome = true) :
    (s.next B w).1 = none := by
  rcases s.next_cases B w with ⟨x, -, hk, he⟩ | ⟨i, -, -, hf, he⟩ | ⟨-, he⟩ | ⟨-, -, he⟩ <;>
    rw [he] at h ⊢
  · have hf : s.network.graph.failure = none := Scheduler.failure_of_mayKeep hk
    have hf' : (Scheduler.keep s.network w x.stage).graph.failure = none := hf
    rw [hf'] at h
    cases h
  · have hf' : (Scheduler.take (s.freed B w) w i).graph.failure = none := hf
    rw [hf'] at h
    cases h

/-! ### Giving back -/

/-- One worker has given back what it held: the stage has a holder less, and is closed if it is
finished and this was the last one. -/
structure HandsBack (s : Session (Noted W)) (h : Hold) (s' : Session (Noted W)) : Prop where
  holds : s'.holds = s.others h.worker
  holders : ∀ i, (s.network.graph.stage i).holders =
    (s'.network.graph.stage i).holders + if h.stage = i then 1 else 0
  closes : (s.network.graph.stage h.stage).state = .finished →
    (s.network.graph.stage h.stage).holders = 1 →
    s'.network.historyOf h.stage = s.network.historyOf h.stage ++ [.hook .closing]

/-- A worker that asks for a stage when there is nothing for it gives back what it held, and so does
one that asks for no other. -/
theorem InOrder.gaveBack {s : Session (Noted W)} {h : Hold} {e : Event (Noted W)} (o : s.InOrder)
    (hm : h ∈ s.holds)
    (he : e = .next h.worker ∧ (s.next B.noting h.worker).1 = none ∨ e = .release h.worker) :
    (s.perform B.noting e).holds = s.others h.worker ∧
      Orderly (tally (s.others h.worker)) s.network.world.2 (s.perform B.noting e).network := by
  have hh := o.tallied.holdOf_of_mem hm
  have freed := o.freed (B := B) h.worker
  rcases he with ⟨rfl, hn⟩ | rfl
  · refine ⟨?_, ?_⟩
    · rw [Session.perform, holds_next, hn]
      rfl
    · rw [Session.perform]
      rcases s.next_cases B.noting h.worker with ⟨x, -, -, he⟩ | ⟨i, -, -, -, he⟩ | ⟨-, he⟩ |
        ⟨-, -, he⟩ <;> rw [he] at hn ⊢
      · cases hn
      · cases hn
      · exact freed
      · exact (stable_orderly B _ _).settling.settle freed
  · rw [Session.perform, release_of_some hh]
    refine ⟨rfl, ?_⟩
    rw [Session.freed, hh] at freed
    exact freed

theorem InOrder.handsBack {s : Session (Noted W)} {h : Hold} {e : Event (Noted W)} (o : s.InOrder)
    (hm : h ∈ s.holds)
    (he : e = .next h.worker ∧ (s.next B.noting h.worker).1 = none ∨ e = .release h.worker) :
    s.HandsBack h (s.perform B.noting e) := by
  obtain ⟨hholds, orderly⟩ := o.gaveBack (B := B) hm he
  have htally := o.tallied.tally_others (o.tallied.holdOf_of_mem hm)
  have hholders : ∀ i, (s.network.graph.stage i).holders =
      ((s.perform B.noting e).network.graph.stage i).holders +
        if h.stage = i then 1 else 0 := fun i => by
    rw [o.tallied.holders, orderly.holders, htally]
  refine ⟨hholds, hholders, fun hf hone => ?_⟩
  have hf' : ((s.perform B.noting e).network.graph.stage h.stage).state = .finished := by
    have finished := stable_finished B.noting h.stage
    rcases he with ⟨rfl, -⟩ | rfl
    · exact finished.toLasting.assign (fun _ _ h ha => (ha.state _).trans h) hf
    · rw [Session.perform, release_of_some (o.tallied.holdOf_of_mem hm)]
      exact finished.toLasting.giveBack (fun _ _ h ha => (ha.state _).trans h) hf
  obtain ⟨more, hmore, hnone⟩ := orderly.unheld
  have happend : (s.perform B.noting e).network.historyOf h.stage =
      s.network.historyOf h.stage ++ history more h.stage := by
    simp [Network.historyOf, history, hmore]
  have hcall : Note.call ∉ history more h.stage := fun hc => by
    obtain ⟨x, hx, hxc⟩ := List.mem_map.1 hc
    exact (hnone x (List.mem_filter.1 hx).1).2 hxc
  have hzero := hholders h.stage
  rw [if_pos rfl] at hzero
  rw [happend, (o.framed h.stage).closes (happend ▸ orderly.framed h.stage) (o.prompt h.stage)
    (orderly.prompt h.stage) hf hf'
    (Nat.lt_of_lt_of_eq Nat.one_pos hone.symm) (by simp only [Stage.life]; omega) hcall]

/-! ### The counters -/

/-- What happens to states and counters in a run is a course. -/
theorem Run.course {allowed : Session W → Event W → Prop} (hr : Run B allowed s s')
    (wd : s.network.graph.Wired) :
    Course B s.network s'.network := by
  refine (hr.invariant (P := fun s' => s'.network.graph.Wired ∧ Course B s.network s'.network)
    ⟨wd, .start⟩ ?_).2
  rintro s' e ⟨wd', hc⟩ he -
  exact ⟨wired_perform wd' he, course_perform hc wd' he⟩

/-- A counter that was exact at some time stays exact while no edge is added. -/
theorem Run.exact {allowed : Session W → Event W → Prop} (hr : Run B allowed s s')
    (wd : s.network.graph.Wired) {j : StageId} (h : s.network.Exact j) : s'.network.Exact j := by
  have lags : s.network.graph.Lags j 0 := ⟨Nat.le_of_eq h, Nat.le_of_eq h.symm⟩
  exact ((hr.course wd).lags wd lags).exact

end Session

/-- **After a failure there is nothing but giving back.** In every session, whatever has been built
and done before, a call that leaves a failure, or finds one, hands out nothing, and takes back what
the worker held; so does a worker that asks for no other stage. Once there is a failure it stays the
same; nobody is given a stage any more, whatever he reports; everybody can give back what he holds;
a stage that nobody holds any more has no holders and has been closed exactly once if it is
finished; and the numbers of running stages and of running feeders are right if they were. -/
theorem after_failure {W : Type} (B : Bodies W) (world : W) (sc : Scheduler) {s : Session (Noted W)}
    (hr : Session.Reached B.noting Session.KeepsNotes (world, []) sc s) :
    (∀ w, (s.next B.noting w).2.network.graph.failure.isSome = true →
      (s.next B.noting w).1 = none) ∧
    (∀ h ∈ s.holds, ∀ e, e = .next h.worker ∨ e = .release h.worker →
      (s.perform B.noting e).network.graph.failure.isSome = true →
      s.HandsBack h (s.perform B.noting e)) ∧
    ∀ f, s.network.graph.failure = some f → ∀ s', Session.Run B.noting Session.KeepsNotes s s' →
      s'.network.graph.failure = some f ∧
      (∀ w, (s'.next B.noting w).1 = none) ∧
      (∀ h ∈ s'.holds, s'.HandsBack h (s'.perform B.noting (.next h.worker)) ∧
        s'.HandsBack h (s'.perform B.noting (.release h.worker))) ∧
      (∀ i, (∀ h ∈ s'.holds, h.stage ≠ i) → (s'.network.graph.stage i).holders = 0 ∧
        ((s'.network.graph.stage i).state = .finished →
          (s'.network.historyOf i).count (.hook .closing) = 1)) ∧
      s'.network.graph.running = s'.network.graph.stages.countP (·.state == .running) ∧
      ∀ j, s.network.Exact j → s'.network.Exact j := by
  refine ⟨fun w => Session.next_of_failure, fun h hm e he hf => ?_, fun f hf s' hrun => ?_⟩
  · refine hr.inOrder.handsBack hm ?_
    rcases he with rfl | rfl
    · exact .inl ⟨rfl, Session.next_of_failure hf⟩
    · exact .inr rfl
  · have reached := hr.run hrun
    have o := reached.inOrder
    have hf' : s'.network.graph.Wired ∧ s'.network.graph.failure = some f := by
      refine hrun.invariant (P := fun s => s.network.graph.Wired ∧ s.network.graph.failure = some f)
        ⟨hr.wired, hf⟩ ?_
      rintro s e ⟨wd, hf⟩ he -
      exact ⟨Session.wired_perform wd he, Session.failure_perform wd he hf⟩
    have hnone : ∀ w, (s'.next B.noting w).1 = none := fun w =>
      Session.next_of_failure (by rw [Session.failure_next hf'.2 w]; rfl)
    refine ⟨hf'.2, hnone, fun h hm => ⟨?_, ?_⟩, fun i hi => ?_, reached.countsRunning,
      fun j => hrun.exact hr.wired⟩
    · exact o.handsBack hm (.inl ⟨rfl, hnone h.worker⟩)
    · exact o.handsBack hm (.inr rfl)
    · have hz : (s'.network.graph.stage i).holders = 0 := by
        rw [o.tallied.holders, Session.tally, List.countP_eq_zero]
        simpa using hi
      exact ⟨hz, fun hs => (o.framed i).count_closing (o.prompt i) hs hz⟩

/-- A stage in the hands of two workers when a failure is recorded. -/
def caught : Session (Noted Unit) :=
  let n : Network (Noted Unit) := ⟨.ofParts [.stage "a" .source true, .source 0], (), []⟩
  [.next 0, .next 1, .order (.fail ⟨0, "a", some 0, some 0, "broken"⟩)].foldl
    (Session.perform Bodies.inert.noting)
    ⟨(n.openOne Bodies.inert.noting 0 none).2, ⟨.roundRobin, 1⟩, []⟩

theorem reached_caught :
    Session.Reached Bodies.inert.noting Session.KeepsNotes ((), []) ⟨.roundRobin, 1⟩ caught := by
  have built := Session.Reached.parts Bodies.inert.noting Session.KeepsNotes ((), [])
    ⟨.roundRobin, 1⟩ [.stage "a" .source true, .source 0]
  have running := built.opens 0 nofun (by decide) (by decide) rfl
  exact ((running.step
    (.next 0) nofun nofun).step (.next 1) (by decide) nofun).step (.order (.fail _)) rfl nofun

/-- The first worker reports that it is done and asks for more, the second one just gives the stage
back. Neither is given anything, and the stage is in nobody's hands in the end. -/
theorem after_failure_caught :
    let s := [.report 0 (some .finished), .next 0, .release 1].foldl
      (Session.perform Bodies.inert.noting) caught
    (caught.network.graph.stage 0).holders = 2 ∧
      s.network.graph.failure = some ⟨0, "a", some 0, some 0, "broken"⟩ ∧
      (∀ w, (s.next Bodies.inert.noting w).1 = none) ∧ (s.network.graph.stage 0).holders = 0 ∧
      ((s.network.graph.stage 0).state = .finished →
        (s.network.historyOf 0).count (.hook .closing) = 1) := by
  intro s
  obtain ⟨-, -, kept⟩ := after_failure .inert () ⟨.roundRobin, 1⟩ reached_caught
  have later := kept ⟨0, "a", some 0, some 0, "broken"⟩ (by decide)
  have reported : Session.Run Bodies.inert.noting Session.KeepsNotes caught
      (caught.perform Bodies.inert.noting (.report 0 (some .finished))) :=
      .step (.report 0 (some .finished)) .start trivial nofun
  have one := (later _ reported).2.2.1 ⟨0, 0, some .finished, false⟩ (by decide)
  have asked := reported.step (.next 0) (by decide) nofun
  have hholds :
      ((caught.perform Bodies.inert.noting (.report 0 (some .finished))).perform
        Bodies.inert.noting (.next 0)).holds = [⟨1, 0, none, false⟩] := one.1.holds
  have two :=
    (later _ asked).2.2.1 ⟨1, 0, none, false⟩ (by rw [hholds]; exact List.mem_cons_self ..)
  have released : Session.Run Bodies.inert.noting Session.KeepsNotes caught s :=
    asked.step (.release 1) (fun h hh => by
      rw [Session.holdOf, hholds] at hh
      rw [← Option.some.inj hh]) nofun
  have hnone : s.holds = [] := two.2.holds.trans (by rw [Session.others, hholds]; rfl)
  obtain ⟨hf, hasks, -, hfree, -⟩ := later s released
  exact ⟨by decide, hf, hasks, hfree 0 (by simp [hnone])⟩

end Pipework
