import Pipework.Proofs.Network.Clock
import Pipework.Proofs.Network.Handover
import Pipework.Proofs.Session.Reached

/-!
# No stage is passed over for ever

A stage in demand is one that runs, could be handed out, and has work, while no other stage has more
than a certain amount `P` of it. Whenever another stage is picked instead, that uses up some of the
leeway that the clock gives to the other stages; and nothing gives it back but handing out the stage
itself. So among `P + n` picks in a graph of `n` stages there is one of a stage in demand, unless a
worker that already holds it is allowed to keep it in the meantime (`bounded_bypass`). Keeping a
stage counts as handing it out, so that a worker which keeps a stage for several workers may let all
others go elsewhere (`sticky_bypass`).
-/

namespace Pipework

variable {W : Type} {B : Bodies W} {s s' : Session W} {e : Event W} {w : WorkerId} {i j : StageId}
  {P : Nat} {es : List (Event W)}

/-! ### Picks and continuations -/

namespace Session

/-- Whether a worker that asks keeps the stage that it holds. -/
def keeps (B : Bodies W) (s : Session W) (w : WorkerId) : Bool :=
  (s.holdOf w).any fun h => s.scheduler.mayKeep B s.network w h.stage h.result

/-- The stage that an event hands out as the best one. -/
def picked (B : Bodies W) (s : Session W) : Event W → Option StageId
  | .next w => if s.keeps B w then none else (s.next B w).1
  | _ => none

/-- The stage that an event leaves with the worker that holds it. -/
def kept (B : Bodies W) (s : Session W) : Event W → Option StageId
  | .next w => if s.keeps B w then (s.next B w).1 else none
  | _ => none

/-- The stages that events hand out as the best ones, one after the other. -/
def picks (B : Bodies W) : Session W → List (Event W) → List StageId
  | _, [] => []
  | s, e :: es => (s.picked B e).toList ++ (s.perform B e).picks B es

/-- The stages that events leave with the workers that hold them, one after the other. -/
def continuations (B : Bodies W) : Session W → List (Event W) → List StageId
  | _, [] => []
  | s, e :: es => (s.kept B e).toList ++ (s.perform B e).continuations B es

/-- Whether something holds of each event and the session in which it happens. -/
def Throughout (B : Bodies W) (holds : Session W → Event W → Prop) :
    Session W → List (Event W) → Prop
  | _, [] => True
  | s, e :: es => holds s e ∧ (s.perform B e).Throughout B holds es

end Session

/-- A stage that could be handed out and has work, while no other stage has more work than `P`. -/
structure Network.InDemand (B : Bodies W) (P : Nat) (j : StageId) (n : Network W) : Prop where
  running : (n.graph.stage j).state = .running
  free : (n.graph.stage j).holders = 0 ∨ (n.graph.stage j).parallel = true
  fed : n.exhausted B j = false
  waiting : 0 < B.pending j n.world
  others : ∀ i < n.graph.size, i ≠ j → B.pending i n.world ≤ P

namespace Session

/-- Whether a stage is in demand at the moment in which an event picks one, if it does. -/
def Contested (B : Bodies W) (P : Nat) (j : StageId) (s : Session W) : Event W → Prop
  | .next w => (s.picked B (.next w)).isSome = true → (s.freed B w).InDemand B P j
  | _ => True

/-- A sound event that happens while the clock is not close to its end and the stage is in
demand. -/
structure Regular (B : Bodies W) (P : Nat) (j : StageId) (s : Session W) (e : Event W) : Prop where
  sound : s.Sound e
  clock : s.network.graph.tick.toNat + P < UInt64.size
  contested : s.Contested B P j e

/-! These properties can be checked of a given session. -/

instance (B : Bodies W) (P : Nat) (j : StageId) (n : Network W) : Decidable (n.InDemand B P j) :=
  decidable_of_iff
    ((n.graph.stage j).state = .running ∧
      ((n.graph.stage j).holders = 0 ∨ (n.graph.stage j).parallel = true) ∧
      n.exhausted B j = false ∧ 0 < B.pending j n.world ∧
      ∀ i < n.graph.size, i ≠ j → B.pending i n.world ≤ P)
    ⟨fun ⟨hr, hf, hx, hw, ho⟩ => ⟨hr, hf, hx, hw, ho⟩,
      fun h => ⟨h.running, h.free, h.fed, h.waiting, h.others⟩⟩

instance (B : Bodies W) (P : Nat) (j : StageId) (s : Session W) (e : Event W) :
    Decidable (s.Contested B P j e) :=
  match e with
  | .next w =>
    inferInstanceAs (Decidable ((s.picked B (.next w)).isSome = true →
      (s.freed B w).InDemand B P j))
  | .order _ => isTrue trivial
  | .exec _ => isTrue trivial
  | .release _ => isTrue trivial
  | .report _ _ => isTrue trivial

instance (B : Bodies W) (P : Nat) (j : StageId) (s : Session W) (e : Event W) :
    Decidable (s.Regular B P j e) :=
  decidable_of_iff (s.Sound e ∧ s.network.graph.tick.toNat + P < UInt64.size ∧ s.Contested B P j e)
    ⟨fun ⟨hs, ht, hc⟩ => ⟨hs, ht, hc⟩, fun h => ⟨h.sound, h.clock, h.contested⟩⟩

instance decidableThroughout (B : Bodies W) (holds : Session W → Event W → Prop)
    [∀ s e, Decidable (holds s e)] :
    ∀ (s : Session W) (es : List (Event W)), Decidable (s.Throughout B holds es)
  | _, [] => isTrue trivial
  | s, e :: es =>
    have := decidableThroughout B holds (s.perform B e) es
    inferInstanceAs (Decidable (holds s e ∧ (s.perform B e).Throughout B holds es))

/-! ### What an event does to the clock -/

theorem not_keeps (h : s.keeps B w = false) :
    s.scheduler.assign B s.network w ((s.holdOf w).map (·.stage)) ((s.holdOf w).bind (·.result)) =
      s.scheduler.handOut B (s.freed B w) w := by
  refine Scheduler.assign_of_not_keep fun i hi => ?_
  unfold keeps at h
  cases hh : s.holdOf w with
  | none =>
    rw [hh] at hi
    cases hi
  | some x =>
    rw [hh] at hi h
    cases hi
    simpa using h

theorem sameTime_freed (s : Session W) (B : Bodies W) (w : WorkerId) :
    s.network.graph.SameTime (s.freed B w).graph := s.scheduler.sameTime_freed B s.network w _ _

theorem size_freed (s : Session W) (B : Bodies W) (w : WorkerId) :
    (s.freed B w).graph.size = s.network.graph.size := by
  unfold freed
  refine Graph.size_of_bare ?_
  cases s.holdOf w with
  | none => rfl
  | some h =>
    exact (stable_bare B s.network.graph.bare).toLasting.giveBack (fun _ _ h ha => ha.bare.trans h)
      rfl

/-- A worker that does not keep its stage is given the best one, or nothing, and then the clock does
not move. -/
theorem next_of_not_keeps (h : s.keeps B w = false) :
    (∃ i, Scheduler.pick B (s.freed B w) w = some i ∧ (s.next B w).1 = some i ∧
        (s.next B w).2.network = Scheduler.take (s.freed B w) w i) ∨
      ((s.next B w).1 = none ∧ s.network.graph.SameTime (s.next B w).2.network.graph) := by
  have hnext := next_of_assign (not_keeps h)
  rcases s.scheduler.handOut_cases B (s.freed B w) w with ⟨i, -, -, -, ho⟩ | ⟨-, ho⟩ | ⟨-, -, ho⟩
  · left
    refine ⟨i, Scheduler.pick_of_handOut (by rw [ho]), ?_⟩
    rw [hnext, ho]
    exact ⟨rfl, rfl⟩
  · right
    rw [hnext, ho]
    exact ⟨rfl, s.sameTime_freed B w⟩
  · right
    rw [hnext, ho]
    exact ⟨rfl, (stable_sameTime B s.network.graph).settling.settle (s.sameTime_freed B w)⟩

/-- A worker that keeps its stage is handed it out anew. -/
theorem next_of_keeps (h : s.keeps B w = true) :
    ∃ i, (s.next B w).1 = some i ∧ (s.next B w).2.network = Scheduler.keep s.network w i ∧
      i < s.network.graph.size := by
  unfold keeps at h
  cases hh : s.holdOf w with
  | none =>
    rw [hh] at h
    cases h
  | some x =>
    rw [hh] at h
    have hk : s.scheduler.mayKeep B s.network w x.stage x.result = true := h
    refine ⟨x.stage, ?_, ?_, ?_⟩
    · simp [Session.next, hh, Scheduler.assign, hk]
    · simp [Session.next, hh, Scheduler.assign, hk, setHold]
    · exact Graph.lt_size_of_state_ne (by simp [Scheduler.running_of_mayKeep hk])

/-- An event that hands out no stage does not move the clock. -/
theorem sameTime_perform (wd : s.network.graph.Wired) (he : s.Sound e) (hp : s.picked B e = none)
    (hk : s.kept B e = none) : s.network.graph.SameTime (s.perform B e).network.graph := by
  have unchanged := Graph.SameTime.refl s.network.graph
  cases e with
  | order call =>
    exact (stable_sameTime B s.network.graph).order (fun _ => wd.lt_size_of_mem_sources) he
      (fun f => .recordFailure _ f) (fun i f => .modify _ i fun _ => rfl)
      (fun _ _ => unchanged) unchanged
  | next w =>
    cases hkeeps : s.keeps B w with
    | true =>
      obtain ⟨i, hi, -⟩ := next_of_keeps hkeeps
      simp [kept, hkeeps, hi] at hk
    | false =>
      rcases next_of_not_keeps hkeeps with ⟨i, -, hi, -⟩ | ⟨-, same⟩
      · simp [picked, hkeeps, hi] at hp
      · exact same
  | exec w =>
    cases hh : s.holdOf w with
    | none =>
      rw [perform, exec_of_none hh]
      exact unchanged
    | some h =>
      rw [perform, exec_of_some hh (mem_of_holdOf hh).2]
      exact s.network.sameTime_call B h.stage (s.visit h)
  | release w =>
    cases hh : s.holdOf w with
    | none =>
      rw [perform, release_of_none hh]
      exact unchanged
    | some h =>
      rw [perform, release_of_some hh]
      exact s.scheduler.sameTime_giveBack B s.network w h.stage h.result
  | report w result => exact unchanged

/-- What is picked is handed out to a worker that has let go of what it held. -/
theorem handsOut_of_picked (hp : s.picked B e = some i) :
    ∃ w, e = .next w ∧ Scheduler.pick B (s.freed B w) w = some i ∧
      (s.freed B w).graph.HandsOut i (s.perform B e).network.graph := by
  cases e with
  | next w =>
    refine ⟨w, rfl, ?_⟩
    cases hkeeps : s.keeps B w with
    | true => simp [picked, hkeeps] at hp
    | false =>
      simp only [picked, hkeeps, Bool.false_eq_true, if_false] at hp
      rcases next_of_not_keeps hkeeps with ⟨k, hpick, hk, hn⟩ | ⟨hk, -⟩
      · obtain rfl : i = k := Option.some.inj (hp.symm.trans hk)
        refine ⟨hpick, ?_⟩
        rw [perform, hn]
        exact Scheduler.handsOut_take (Scheduler.eligible_of_pick hpick).1 w
      · rw [hp] at hk
        cases hk
  | _ => cases hp

/-- What is kept is handed out anew. -/
theorem handsOut_of_kept (hk : s.kept B e = some i) :
    s.network.graph.HandsOut i (s.perform B e).network.graph := by
  cases e with
  | next w =>
    cases hkeeps : s.keeps B w with
    | false => simp [kept, hkeeps] at hk
    | true =>
      obtain ⟨k, hi, hn, hlt⟩ := next_of_keeps hkeeps
      simp only [kept, hkeeps, if_true] at hk
      obtain rfl : i = k := Option.some.inj (hk.symm.trans hi)
      rw [perform, hn]
      exact Scheduler.handsOut_keep hlt w
  | _ => cases hk

theorem size_perform (wd : s.network.graph.Wired) (he : s.Sound e) :
    (s.perform B e).network.graph.size = s.network.graph.size :=
  Graph.size_of_bare (bare_perform (fun _ => wd.lt_size_of_mem_sources) he)

/-- The clock stays ahead of every stage until it overflows. -/
theorem timely_perform (wd : s.network.graph.Wired) (he : s.Sound e)
    (hlt : s.network.graph.tick.toNat + 1 < UInt64.size) (ht : s.network.graph.Timely) :
    (s.perform B e).network.graph.Timely := by
  cases hp : s.picked B e with
  | some i =>
    obtain ⟨w, -, -, out⟩ := handsOut_of_picked hp
    have same := s.sameTime_freed B w
    exact out.timely (by rwa [same.tick]) (same.timely ht)
  | none =>
    cases hk : s.kept B e with
    | some i => exact (handsOut_of_kept hk).timely hlt ht
    | none => exact (sameTime_perform wd he hp hk).timely ht

/-! ### Leeway -/

/-- **One event.** Picking another stage than the one in demand uses leeway up, and no event gives
any back, unless it hands out that stage. -/
theorem leeway_perform (wd : s.network.graph.Wired) (ht : s.network.graph.Timely) (hP : 1 ≤ P)
    (hr : s.Regular B P j e) (hp : s.picked B e ≠ some j) (hk : s.kept B e ≠ some j) :
    (s.picked B e).toList.length + (s.perform B e).network.graph.leeway P j ≤
      s.network.graph.leeway P j := by
  have hclock := hr.clock
  have hlt : s.network.graph.tick.toNat + 1 < UInt64.size := by omega
  have hsize := size_perform (B := B) wd hr.sound
  cases hpicked : s.picked B e with
  | some i =>
    obtain ⟨w, rfl, hpick, out⟩ := handsOut_of_picked hpicked
    have hij : i ≠ j := by
      rintro rfl
      exact hp hpicked
    have same := s.sameTime_freed B w
    have hfreed := s.size_freed B w
    have demand : (s.freed B w).InDemand B P j := hr.contested (by simp [hpicked])
    obtain ⟨hi, -⟩ := Scheduler.eligible_of_pick hpick
    have hj : j < (s.freed B w).graph.size := Graph.lt_size_of_state_ne (by simp [demand.running])
    have below := Scheduler.below_of_pick hpick hj
      (Scheduler.eligible_iff.2 ⟨demand.running, demand.free, demand.fed⟩)
    have early := Scheduler.early_of_below (same.timely ht) (by rwa [same.tick]) hij demand.waiting
      (demand.others i hi hij) below
    have := out.leeway_lt hij (by rwa [same.tick]) hi (hsize.trans hfreed.symm) early
    rw [same.leeway hfreed] at this
    simp only [Option.toList_some, List.length_singleton]
    omega
  | none =>
    simp only [Option.toList_none, List.length_nil, Nat.zero_add]
    cases hkept : s.kept B e with
    | some i =>
      have hij : i ≠ j := by
        rintro rfl
        exact hk hkept
      exact (handsOut_of_kept hkept).leeway_le hij hlt ht hsize
    | none => exact Nat.le_of_eq ((sameTime_perform wd hr.sound hpicked hkept).leeway hsize)

/-- **A run of events.** There are no more picks than there is leeway, unless the stage in demand is
handed out. -/
theorem length_picks_le (wd : s.network.graph.Wired) (ht : s.network.graph.Timely) (hP : 1 ≤ P)
    (hes : s.Throughout B (fun s e => s.Regular B P j e) es) (hp : j ∉ s.picks B es)
    (hk : j ∉ s.continuations B es) :
    (s.picks B es).length ≤ s.network.graph.leeway P j := by
  induction es generalizing s with
  | nil => exact Nat.zero_le _
  | cons e es ih =>
    obtain ⟨hr, hes⟩ := hes
    simp only [picks, continuations, List.mem_append, not_or, Option.mem_toList] at hp hk
    have hclock := hr.clock
    have step := leeway_perform wd ht hP hr hp.1 hk.1
    have rest := ih (wired_perform wd hr.sound) (timely_perform wd hr.sound (by omega) ht)
      hes hp.2 hk.2
    simp only [picks, List.length_append]
    omega

/-! ### The policy -/

theorem scheduler_perform (s : Session W) (B : Bodies W) (e : Event W) :
    (s.perform B e).scheduler = s.scheduler := by
  cases e with
  | exec w =>
    rw [perform, exec]
    cases s.holdOf w <;> rfl
  | release w =>
    rw [perform, release]
    cases s.holdOf w <;> rfl
  | _ => rfl

/-- Under the fair policy no worker keeps its stage. -/
theorem continuations_roundRobin (h : s.scheduler.fairness = .roundRobin) :
    s.continuations B es = [] := by
  induction es generalizing s with
  | nil => rfl
  | cons e es ih =>
    have hkept : s.kept B e = none := by
      cases e with
      | next w =>
        have hkeeps : s.keeps B w = false := by
          unfold keeps Scheduler.mayKeep
          rw [h]
          cases s.holdOf w <;> rfl
        simp [kept, hkeeps]
      | _ => rfl
    rw [continuations, hkept, ih (by rw [scheduler_perform, h])]
    rfl

namespace Reached

variable {world : W} {sc : Scheduler}

theorem scheduler_eq {allowed : Session W → Event W → Prop} (h : Reached B allowed world sc s) :
    s.scheduler = sc :=
  h.invariant (P := fun s => s.scheduler = sc) rfl
    (fun s _ hs => (s.scheduler_perform B _).trans hs)
    fun s e hs _ _ => (s.scheduler_perform B e).trans hs

/-- The clock is ahead of every stage, if it has never overflowed. -/
theorem timely (hP : 1 ≤ P)
    (h : Reached B (fun s _ => s.network.graph.tick.toNat + P < UInt64.size) world sc s) :
    s.network.graph.Timely := by
  refine (h.invariant (P := fun s => s.network.graph.Wired ∧ s.network.graph.Timely) ?_ ?_ ?_).2
  · refine ⟨Graph.wired_empty, fun i => ?_⟩
    rw [Graph.pickedAt, Graph.stage_of_size_le (Nat.zero_le i)]
    exact Nat.le_refl _
  · rintro s p ⟨wd, ht⟩
    exact ⟨wd.add p, (Graph.SameTime.add s.network.graph p).timely ht⟩
  · rintro s e ⟨wd, ht⟩ he hlt
    exact ⟨wired_perform wd he, timely_perform wd he (by omega) ht⟩

end Reached

end Session

/-- **Bounded bypass.** Consider any run in a graph of `n` stages in which, whenever a stage is
picked, `j` is in demand and no other stage has more work than `P`. If there are `P + n` picks or
more, `j` is among them, or a worker that holds `j` has been allowed to keep it; under the fair
policy it is among them. -/
theorem bounded_bypass {W : Type} (B : Bodies W) (world : W) (sc : Scheduler) (P : Nat) (hP : 1 ≤ P)
    (s : Session W)
    (hs : Session.Reached B (fun s _ => s.network.graph.tick.toNat + P < UInt64.size) world sc s)
    (j : StageId) (es : List (Event W)) (hes : s.Throughout B (fun s e => s.Regular B P j e) es)
    (hlength : P + s.network.graph.size ≤ (s.picks B es).length) :
    (j ∈ s.picks B es ∨ j ∈ s.continuations B es) ∧
    (sc.fairness = .roundRobin → j ∈ s.picks B es) := by
  have handedOut : j ∈ s.picks B es ∨ j ∈ s.continuations B es := by
    by_contra hnot
    rw [not_or] at hnot
    have hle := Session.length_picks_le hs.wired (hs.timely hP) hP hes hnot.1 hnot.2
    have hlt := Graph.leeway_lt (j := j) (hs.timely hP) hP
    omega
  refine ⟨handedOut, fun hfair => handedOut.resolve_right fun hk => ?_⟩
  rw [Session.continuations_roundRobin (by rw [hs.scheduler_eq, hfair])] at hk
  exact List.not_mem_nil hk

/-- Bodies that always succeed. The first stage has as much work as the world says, every other one
a single piece. -/
def Bodies.swelling : Bodies Nat where
  opening _ w := (.ok (), w)
  call _ v w := (.returned .success, v, w)
  closing _ w := (.ok (), w)
  pending i w := if i = 0 then w else 1
  threshold _ _ := 0
  setThreshold _ _ w := w

/-- Two sources, each of them for several workers, that run. -/
def twoSources (work : Nat) (fairness : Fairness) : Session Nat :=
  let n : Network Nat :=
    ⟨.ofParts [.stage "a" .source true, .stage "b" .source true, .source 0, .source 1], work⟩
  ⟨((n.openOne .swelling 0 none).2.openOne .swelling 1 none).2, ⟨fairness, 1⟩, []⟩

theorem reached_twoSources (work P : Nat) (hP : P < UInt64.size) (fairness : Fairness) :
    Session.Reached .swelling (fun s _ => s.network.graph.tick.toNat + P < UInt64.size) work
      ⟨fairness, 1⟩ (twoSources work fairness) := by
  have early : ∀ n : Nat, n = 0 → n + P < UInt64.size := by omega
  have built := Session.Reached.parts .swelling
    (fun s _ => s.network.graph.tick.toNat + P < UInt64.size) work ⟨fairness, 1⟩
    [.stage "a" .source true, .stage "b" .source true, .source 0, .source 1]
  have first := built.opens 0 (early _ rfl) (Nat.zero_lt_two) rfl rfl
  exact first.opens 1 (early _ rfl) (Nat.one_lt_two) rfl rfl

/-- Three workers ask, one after the other, and the second one is given the second source. -/
theorem bounded_bypass_fair :
    let s := twoSources 1 .roundRobin
    let es := [.next 0, .next 1, .next 2]
    s.Throughout .swelling (fun s e => s.Regular .swelling 1 1 e) es ∧
      1 + s.network.graph.size ≤ (s.picks .swelling es).length ∧ 1 ∈ s.picks .swelling es := by
  intro s es
  have hes : s.Throughout .swelling (fun s e => s.Regular .swelling 1 1 e) es := by decide
  have hlength : 1 + s.network.graph.size ≤ (s.picks .swelling es).length := by decide
  have hs := reached_twoSources 1 1 (by decide) .roundRobin
  exact ⟨hes, hlength, (bounded_bypass .swelling 1 _ 1 (Nat.le_refl 1) s hs 1 es hes hlength).2 rfl⟩

/-- One worker keeps the second source, while each of four others asks once. -/
def bypassing : List (Event Nat) :=
  [.exec 0, .next 0, .next 1, .exec 0, .next 0, .next 2, .exec 0, .next 0, .next 3, .exec 0,
    .next 0, .next 4]

/-- **A stage that a worker keeps can be passed over by all others.** Every time it is kept it
becomes the latest, and the other source, with one piece of work more, is put before it. -/
theorem sticky_bypass :
    let s :=
      ((twoSources 0 (.sticky 8)).perform .swelling
        (.next 0)).perform .swelling (.order (.outside 2))
    Session.Reached .swelling (fun s _ => s.network.graph.tick.toNat + 2 < UInt64.size) 0
      ⟨.sticky 8, 1⟩ s ∧
      s.Throughout .swelling (fun s e => s.Regular .swelling 2 1 e) bypassing ∧
      2 + s.network.graph.size ≤ (s.picks .swelling bypassing).length ∧
      1 ∉ s.picks .swelling bypassing := by
  intro s
  refine ⟨?_, by decide, by decide, by decide⟩
  exact ((reached_twoSources 0 2 (by decide) (.sticky 8)).step
    (.next 0) (by decide) (by decide)).step (.order (.outside 2)) rfl (by decide)

end Pipework
