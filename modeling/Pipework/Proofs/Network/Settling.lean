import Pipework.Proofs.Network.Sweep

/-!
# What settling changes

A call that stops stages consists of changes that are made one after the other: what it is aimed at
is halted or completed, settling looks at one stage after the other, and workers let go of stages
and are given some (`Trail`). Whatever else stops on the way does so because it is settled at that
moment, and it finishes exactly if all its feeders have by then (`Change.stopsAt`). Nothing else
changes (`settling_sound`).
-/

namespace Pipework

variable {W : Type} {B : Bodies W} {n m m' : Network W} {i v : StageId} {c : Option Caller}
  {aims : StageId → Prop}

namespace Network

/-! ### Changes -/

/-- One of the changes of which a call consists that is aimed at certain stages: one of these is
halted or completed, settling looks at a stage, or a worker lets go of a stage, keeps it or is given
it. -/
inductive Change (B : Bodies W) (aims : StageId → Prop) (n : Network W) : Network W → Prop where
  | halts {i : StageId} : aims i → Change B aims n (n.mapGraph (·.halt i))
  | completes {i : StageId} (c : Option Caller) : aims i → Change B aims n (n.complete B i c).2
  | settles (i : StageId) (c : Option Caller) : Change B aims n (n.settleOne B i c).2.2
  | letsGo (i : StageId) (y : Yield) : Change B aims n (n.mapGraph (·.letGo i y))
  | closes (i : StageId) (c : Option Caller) : Change B aims n (n.closeDue B i c).2
  | frees (w : WorkerId) : Change B aims n (n.mapGraph (·.clearStreak w))
  | keeps (w : WorkerId) (i : StageId) : Change B aims n (Scheduler.keep n w i)
  | takes (w : WorkerId) (i : StageId) : Change B aims n (Scheduler.take n w i)

/-- From one network to the next a stage stops that runs, is no source, is held by nobody, has no
work and none to expect: it finishes if all its feeders have, and pauses otherwise. -/
structure StopsAt (B : Bodies W) (v : StageId) (n m : Network W) : Prop where
  running : (n.graph.stage v).state = .running
  noSource : (n.graph.stage v).isSource = false
  unheld : (n.graph.stage v).holders = 0
  workless : B.pending v n.world = 0
  unfed : ∀ u ∈ (n.graph.stage v).feeders, (n.graph.stage u).state ≠ .running ∧
    (n.graph.stage u).holders = 0
  finishes : (∀ u ∈ (n.graph.stage v).feeders, (n.graph.stage u).state = .finished) →
    (m.graph.stage v).state = .finished
  pauses : ¬ (∀ u ∈ (n.graph.stage v).feeders, (n.graph.stage u).state = .finished) →
    (m.graph.stage v).state = .paused

theorem StopsAt.not_running (h : StopsAt B v n m) : (m.graph.stage v).state ≠ .running := by
  by_cases hf : ∀ u ∈ (n.graph.stage v).feeders, (n.graph.stage u).state = .finished
  · rw [h.finishes hf]
    decide
  · rw [h.pauses hf]
    decide

theorem settleOne_of_paused (h : (n.graph.stage i).state = .paused) :
    n.settleOne B i c = (true, .ok (), n) := by
  unfold settleOne
  rw [h]

/-- A settled stage with a feeder that has not finished is halted. -/
theorem settleOne_of_unfinished (hs : n.settled B i = true)
    (hf : ¬ (∀ u ∈ (n.graph.stage i).feeders, (n.graph.stage u).state = .finished)) :
    n.settleOne B i c = (true, .ok (), n.mapGraph (·.halt i)) := by
  rcases n.settleOne_cases B i c with ⟨-, hfin, -⟩ | ⟨-, -, he⟩ | ⟨hns, -⟩
  · exact absurd hfin hf
  · exact he
  · exact absurd (hs.symm.trans hns) (by decide)

/-- Where running feeders are counted, settling stops only what may stop. -/
theorem stopsAt_settleOne (hc : n.graph.Counted) (hs : n.settled B v = true) :
    StopsAt B v n (n.settleOne B v c).2.2 := by
  obtain ⟨hh, hr, hsource, hrf, hheld, hp⟩ := settled_iff.1 hs
  have hi : v < n.graph.size := Graph.lt_size_of_state_ne (by simp [hr])
  have hnone : ∀ u ∈ (n.graph.stage v).feeders, (n.graph.stage u).state ≠ .running := by
    rw [hc.feeders, List.countP_eq_zero] at hrf
    simpa using hrf
  have stopped : ∀ {s : State}, ((n.settleOne B v c).2.2.graph.stage v).state = s →
      ((∀ u ∈ (n.graph.stage v).feeders, (n.graph.stage u).state = .finished) → s = .finished) →
      (¬ (∀ u ∈ (n.graph.stage v).feeders, (n.graph.stage u).state = .finished) → s = .paused) →
      StopsAt B v n (n.settleOne B v c).2.2 := fun he hfin hpause =>
    ⟨hr, hsource, hh, hp, fun u hu => ⟨hnone u hu, hheld u hu⟩, fun hf => he.trans (hfin hf),
      fun hf => he.trans (hpause hf)⟩
  rcases n.settleOne_cases B v c with ⟨-, hf, he⟩ | ⟨-, hf, he⟩ | ⟨hns, -⟩
  · refine stopped (s := .finished) ?_ (fun _ => rfl) fun hnf => absurd hf hnf
    rw [he, state_complete hi, if_pos rfl]
  · refine stopped (s := .paused) ?_ (fun hf' => absurd hf' hf) fun _ => rfl
    rw [he]
    exact (Graph.state_halt hr v).trans (if_pos rfl)
  · exact absurd (hs.symm.trans hns) (by decide)

namespace Change

/-- A change is a course, so that it keeps the wiring and the counters in order. -/
theorem course (h : Change B aims n m) : Course B n m := by
  have hP := stable_course B n
  cases h with
  | halts _ => exact hP.toLasting.halt .start
  | @completes i c _ =>
    by_cases hi : i < n.graph.size
    · exact hP.toLasting.complete .start hi
    · exact .alters .start (alike_complete_of_size_le (Nat.le_of_not_lt hi))
  | settles i c => exact hP.toLasting.settling.settleOne .start
  | letsGo i y => exact .alters .start (.letGo _ i y)
  | closes i c => exact .alters .start (n.alike_closeDue B i c)
  | frees w => exact .alters .start (n.alike_clearStreak w)
  | keeps w i => exact .alters .start (n.alike_keep w i)
  | takes w i => exact .alters .start (n.alike_take w i)

/-- **What changes its state is aimed at, or may stop at that moment.** -/
theorem stopsAt (h : Change B aims n m) (hc : n.graph.Counted)
    (hv : (m.graph.stage v).state ≠ (n.graph.stage v).state) :
    aims v ∨ StopsAt B v n m := by
  cases h with
  | @halts i ha =>
    by_cases hr : (n.graph.stage i).state = .running
    · rw [graph_mapGraph, Graph.state_halt hr] at hv
      split at hv
      · next hiv => exact .inl (hiv ▸ ha)
      · exact absurd rfl hv
    · rw [graph_mapGraph, Graph.halt_of_ne hr] at hv
      exact absurd rfl hv
  | @completes i c ha =>
    by_cases hi : i < n.graph.size
    · rw [state_complete hi] at hv
      split at hv
      · next hiv => exact .inl (hiv ▸ ha)
      · exact absurd rfl hv
    · exact absurd ((alike_complete_of_size_le (Nat.le_of_not_lt hi)).state v) hv
  | settles i c =>
    cases hs : n.settled B i with
    | false =>
      obtain ⟨b, he⟩ := settleOne_of_not_settled hs c
      rw [he] at hv
      exact absurd rfl hv
    | true =>
      by_cases hiv : i = v
      · subst hiv
        exact .inr (stopsAt_settleOne hc hs)
      · exact absurd (state_settleOne_ne hiv) hv
  | letsGo i y => exact absurd ((Graph.Alike.letGo n.graph i y).state v) hv
  | closes i c => exact absurd ((n.alike_closeDue B i c).state v) hv
  | frees w => exact absurd rfl hv
  | keeps w i => exact absurd ((n.alike_keep w i).state v) hv
  | takes w i => exact absurd ((n.alike_take w i).state v) hv

end Change

/-! ### Trails -/

/-- The changes by which one network becomes another, in order, each as the network before it and
the one after it. -/
inductive Trail (B : Bodies W) (aims : StageId → Prop) (n : Network W) :
    List (Network W × Network W) → Network W → Prop where
  | start : Trail B aims n [] n
  | step {changes : List (Network W × Network W)} {m m' : Network W} : Trail B aims n changes m →
      Change B aims m m' →
      Trail B aims n (changes ++ [(m, m')]) m'

/-- There is a trail from one network to another. -/
def Leads (B : Bodies W) (aims : StageId → Prop) (n m : Network W) : Prop :=
  ∃ changes, Trail B aims n changes m

namespace Leads

theorem refl (n : Network W) : Leads B aims n n := ⟨[], .start⟩

theorem step (h : Leads B aims n m) (hm : Change B aims m m') : Leads B aims n m' := by
  obtain ⟨changes, ht⟩ := h
  exact ⟨_, ht.step hm⟩

/-- A settled stage is stopped by settling. -/
theorem settling (B : Bodies W) (aims : StageId → Prop) (n : Network W) :
    Settling B (Leads B aims n) where
  pauses {m i} h hs hf := by
    have hm : (m.settleOne B i none).2.2 = m.mapGraph (·.halt i) := by
      rw [settleOne_of_unfinished hs hf]
    exact hm ▸ h.step (.settles i none)
  finishes {m i} c h hs hf := by
    have hm : (m.settleOne B i c).2.2 = (m.complete B i c).2 := by rw [settleOne_of_settled hs hf]
    exact hm ▸ h.step (.settles i c)

theorem completeEach {is : List StageId} (h : Leads B aims n m) (ha : ∀ i ∈ is, aims i) :
    Leads B aims n (Network.completeEach B is m).2 := by
  induction is generalizing m with
  | nil => exact h
  | cons i is ih =>
    exact ih (h.step (.completes none (ha i (List.mem_cons_self ..)))) fun k hk =>
      ha k (List.mem_cons_of_mem _ hk)

/-- A worker lets go of a stage, which is aimed at if it is handed back as finished. -/
theorem surrender {caller : Caller} {result : Option Outcome} (h : Leads B aims n m)
    (ha : result = some .finished → aims i) :
    Leads B aims n (m.surrender B i caller result).2 := by
  have hgo := h.step (.letsGo i ⟨caller.worker, result == some .comeBackLater⟩)
  unfold Network.surrender
  refine step ?_ (.closes i (some caller))
  split
  · next hr => exact hgo.step (.completes (some caller) (ha hr))
  · exact hgo

variable {sc : Scheduler} {w : WorkerId} {result : Option Outcome}

theorem giveBack (h : Leads B aims n m) (ha : result = some .finished → aims i) :
    Leads B aims n (sc.giveBack B m w i result) :=
  ((settling B aims n).handBack (h.surrender ha)).step (.frees w)

theorem freed {previous : Option StageId} (h : Leads B aims n m)
    (ha : ∀ i, previous = some i → result = some .finished → aims i) :
    Leads B aims n (sc.freed B m w previous result) := by
  cases previous with
  | none => exact h.step (.frees w)
  | some i => exact h.giveBack (ha i rfl)

theorem assign {previous : Option StageId} (h : Leads B aims n m)
    (ha : ∀ i, previous = some i → result = some .finished → aims i) :
    Leads B aims n (sc.assign B m w previous result).2 := by
  rcases sc.assign_cases B m w previous result with ⟨i, -, -, he⟩ | he <;> rw [he]
  · exact h.step (.keeps w i)
  · exact (settling B aims n).handOut (h.freed ha) fun i _ _ => (h.freed ha).step (.takes w i)

end Leads

namespace Trail

variable {changes : List (Network W × Network W)} (h : Trail B aims n changes m) (w : n.graph.Wired)
  (hc : n.graph.Counted)
include h w hc

theorem counted : m.graph.Wired ∧ m.graph.Counted := by
  induction h with
  | start => exact ⟨w, hc⟩
  | step _ hm ih => exact ⟨ih.1.of_bare hm.course.bare, hm.course.counted ih.1 ih.2⟩

/-- Every change of state on the way is aimed at, or due at that moment. -/
theorem stopsAt :
    ∀ t ∈ changes, ∀ v, (t.2.graph.stage v).state ≠ (t.1.graph.stage v).state →
      aims v ∨ StopsAt B v t.1 t.2 := by
  induction h with
  | start => exact nofun
  | step ht hm ih =>
    intro t hmem v hv
    rcases List.mem_append.1 hmem with hmem | hmem
    · exact ih t hmem v hv
    · obtain rfl := List.mem_singleton.1 hmem
      exact hm.stopsAt (ht.counted w hc).2 hv

/-- **A stage that is not aimed at changes its state once at the most**, and that is where it
stops. -/
theorem once (hv : ¬ aims v) : (m.graph.stage v).state = (n.graph.stage v).state ∨
    ∃ t ∈ changes, StopsAt B v t.1 t.2 ∧ (t.1.graph.stage v).state = (n.graph.stage v).state ∧
      (t.2.graph.stage v).state = (m.graph.stage v).state := by
  induction h with
  | start => exact .inl rfl
  | @step changes m m' ht hm ih =>
    by_cases hsame : (m'.graph.stage v).state = (m.graph.stage v).state
    · rw [hsame]
      refine ih.imp id ?_
      rintro ⟨t, hmem, ht⟩
      exact ⟨t, List.mem_append_left _ hmem, ht⟩
    · have hstops := (hm.stopsAt (ht.counted w hc).2 hsame).resolve_left hv
      refine .inr ⟨(m, m'), List.mem_append_right _ (List.mem_singleton_self _), hstops, ?_, rfl⟩
      -- it runs at this moment, so that it has not stopped before
      rcases ih with hn | ⟨t, -, hstopped, -, ht⟩
      · exact hn
      · exact absurd (ht.trans hstops.running) hstopped.not_running

end Trail

end Network

/-! ### Calls that stop stages -/

namespace Call

/-- Whether the call stops stages: it pauses or finishes some, or hands one back. -/
def stops : Call W → Bool
  | .pause _ => true
  | .finish _ => true
  | .finishSources => true
  | .assign .. => true
  | .giveBack .. => true
  | _ => false

/-- The stages at which a call is aimed: the one that is paused or finished, the sources if they
are, and one that is handed back as finished. -/
def Aims (n : Network W) : Call W → StageId → Prop
  | .pause i, v => v = i
  | .finish i, v => v = i
  | .finishSources, v => v ∈ n.graph.sources
  | .assign _ _ previous result, v => result = some .finished ∧ previous = some v
  | .giveBack _ _ i result, v => result = some .finished ∧ v = i
  | _, _ => False

/-- The stages that pass from hand to hand in a call: the one that is handed back and the one that
is handed out. -/
def Passes (B : Bodies W) (n : Network W) : Call W → StageId → Prop
  | .assign sc w previous result, v =>
    previous = some v ∨ (sc.assign B n w previous result).1 = some v
  | .giveBack _ _ i _, v => v = i
  | _, _ => False

end Call

namespace Network

variable {call : Call W}

/-- A call that stops stages is a trail of changes. -/
theorem leads_perform (B : Bodies W) (n : Network W) (h : call.stops = true) :
    Leads B (call.Aims n) n (n.perform B call) := by
  have start : Leads B (call.Aims n) n n := .refl n
  cases call with
  | pause i =>
    change Leads B _ n (n.pause B i).2
    unfold pause
    split
    · exact start
    · exact (Leads.settling ..).settle (start.step (.halts rfl))
  | finish i =>
    change Leads B _ n (n.finish B i).2
    unfold finish
    split
    · exact start
    · exact (Leads.settling ..).settle (start.step (.completes none rfl))
  | finishSources => exact (Leads.settling ..).settle (start.completeEach fun i hi => hi)
  | assign sc w previous result => exact start.assign fun i hp hr => ⟨hr, hp⟩
  | giveBack sc w i result => exact start.giveBack fun hr => ⟨hr, rfl⟩
  | _ => cases h

/-- Only what passes from hand to hand is held by more or by fewer workers afterwards. -/
theorem passes_of_holders (hs : ∀ i ∈ n.graph.sources, i < n.graph.size) (h : call.stops = true)
    (hv : ((n.perform B call).graph.stage v).holders ≠ (n.graph.stage v).holders) :
    call.Passes B n v := by
  have hP := (stable_holders B fun j => (n.graph.stage j).holders).toLasting
  cases call with
  | pause i => exact absurd (hP.pause (i := i) (fun _ => rfl) v) hv
  | finish i => exact absurd (hP.finish (i := i) (fun _ => rfl) v) hv
  | finishSources => exact absurd (hP.finishSources (fun _ => rfl) hs v) hv
  | giveBack sc w i result =>
    by_contra hne
    refine hv ((sc.holders_giveBack B n w i v result).trans ?_)
    rw [if_neg fun hiv => hne hiv.symm, Nat.sub_zero]
  | assign sc w previous result =>
    by_contra hne
    obtain ⟨hback, hout⟩ := not_or.1 hne
    have freed : ((sc.freed B n w previous result).graph.stage v).holders =
        (n.graph.stage v).holders := by
      cases previous with
      | none => rfl
      | some i =>
        refine (sc.holders_giveBack B n w i v result).trans ?_
        rw [if_neg fun hiv => hback (congrArg some hiv), Nat.sub_zero]
    refine hv ?_
    change ((sc.assign B n w previous result).2.graph.stage v).holders = _
    rcases sc.assign_cases B n w previous result with ⟨i, -, -, he⟩ | he
    · rw [he]
      exact Scheduler.holders_keep n w i v
    · rw [he] at hout ⊢
      rcases sc.handOut_cases B (sc.freed B n w previous result) w with ⟨i, hi, -, -, ho⟩ |
        ⟨-, ho⟩ | ⟨-, -, ho⟩ <;>
        rw [ho] at hout ⊢
      · rw [Scheduler.holders_take hi, if_neg fun hiv => hout (congrArg some hiv)]
        exact freed
      · exact freed
      · exact (stable_holders B fun j =>
          ((sc.freed B n w previous result).graph.stage j).holders).settling.settle
          (fun _ => rfl) v |>.trans freed
  | _ => cases h

end Network

/-- **Settling is sound and changes nothing else.** Let the edges of a network be added before the
first activation, and let anything be asked of it; then let a stage be paused or finished, the
sources be finished, or a worker hand back what it likes and be given a stage. That is a sequence of
changes, and whatever changes its state in one of them is what the call is aimed at, or is a running
stage that is no source, held by nobody, without work and without a feeder that runs or is held at
that moment; it finishes if all its feeders have finished by then, and pauses otherwise. A stage at
which the call is not aimed changes its state once at the most. No stage ceases to be finished, none
begins to run, the wiring stays as it is, and only stages that are handed back or handed out change
the number of their holders. -/
theorem settling_sound (B : Bodies W) (world : W) (calls : List (Call W)) (he : EdgesFirst calls)
    (call : Call W) (hs : call.stops = true) :
    let n := Network.ofCalls B world calls
    let m := n.perform B call
    (∃ changes, Network.Trail B (call.Aims n) n changes m ∧
      (∀ t ∈ changes, ∀ v, (t.2.graph.stage v).state ≠ (t.1.graph.stage v).state →
        call.Aims n v ∨ Network.StopsAt B v t.1 t.2) ∧
      ∀ v, (m.graph.stage v).state ≠ (n.graph.stage v).state → call.Aims n v ∨
        ∃ t ∈ changes, Network.StopsAt B v t.1 t.2 ∧
          (t.1.graph.stage v).state = (n.graph.stage v).state ∧
          (t.2.graph.stage v).state = (m.graph.stage v).state) ∧
    (∀ v, (n.graph.stage v).state = .finished → (m.graph.stage v).state = .finished) ∧
    (∀ v, (m.graph.stage v).state = .running → (n.graph.stage v).state = .running) ∧
    (∀ v, (m.graph.stage v).holders ≠ (n.graph.stage v).holders → call.Passes B n v) ∧
    m.graph.bare = n.graph.bare := by
  intro n m
  have tidy : n.Tidy [] := Network.tidy_ofCalls B world he
  have hsources : ∀ i ∈ n.graph.sources, i < n.graph.size :=
    fun _ => tidy.wired.lt_size_of_mem_sources
  have hb : call.builds = false := by cases call <;> first | rfl | cases hs
  have ha : call.activates = false := by cases call <;> first | rfl | cases hs
  obtain ⟨changes, ht⟩ := n.leads_perform B hs
  refine ⟨⟨changes, ht, ht.stopsAt tidy.wired tidy.counted, fun v hv => ?_⟩, fun v hf => ?_,
    fun v hr => ?_, fun v hv => ?_, ?_⟩
  · by_cases hav : call.Aims n v
    · exact .inl hav
    · exact .inr ((ht.once tidy.wired tidy.counted hav).resolve_left hv)
  · exact (stable_finished B v).toLasting.perform (fun _ _ h ha => (ha.state v).trans h)
      hsources hb ha hf
  · exact (lasting_among B n.graph).perform (fun _ _ h ha i => by rw [ha.state]; exact h i) hsources
      hb ha (fun _ => id) v hr
  · exact Network.passes_of_holders hsources hs hv
  · exact (course_perform (B := B) tidy.wired hb).bare

/-- The calls that set the diamond running and finish one of its two ways. -/
def diamondHalf : List (Call Unit) := Call.launch diamond ++ [.finish 1]

/-- The join goes on running, since the other way does. -/
theorem ofCalls_diamondHalf :
    Network.ofCalls .inert () diamondHalf = (diamondRunning.complete .inert 1 none).2 := by
  unfold Network.ofCalls diamondHalf
  rw [List.foldl_append, ← Network.ofCalls, ofCalls_diamond]
  change (diamondRunning.finish .inert 1).2 = _
  unfold Network.finish Network.settle
  rw [show diamondRunning.graph.check 1 = .ok () by rfl]
  simp only
  rw [show (diamondRunning.complete .inert 1 none).2.graph.size = 4 by decide,
    List.reverse_singleton, Network.settleEach_cons 1 [] [3] (by decide) (by decide),
    Network.settleOne_of_finished (by decide), List.append_nil,
    Network.settleEach_cons 3 [] [] (by decide) (by decide),
    Network.settleOne_of_unsettled (by decide) (by decide),
    List.append_nil, Network.settleEach_nil]

/-- The source of the half diamond is paused, then the other way, and then the join. -/
def diamondPaused : Network Unit :=
  (((diamondRunning.complete .inert 1 none).2.mapGraph (·.halt 0)).mapGraph (·.halt 2)).mapGraph
    (·.halt 3)

theorem pause_diamondHalf :
    ((diamondRunning.complete .inert 1 none).2.pause .inert 0).2 = diamondPaused := by
  unfold Network.pause Network.settle diamondPaused
  rw [show (diamondRunning.complete .inert 1 none).2.graph.check 0 = .ok () by rfl]
  simp only
  rw [show ((diamondRunning.complete .inert 1 none).2.mapGraph (·.halt 0)).graph.size = 4 by decide,
    List.reverse_singleton, Network.settleEach_cons 0 [] [2, 1] (by decide) (by decide),
    Network.settleOne_of_paused (by decide), List.append_nil,
    Network.settleEach_cons 2 [1] [3] (by decide) (by decide),
    Network.settleOne_of_unfinished (by decide) (by decide), List.singleton_append,
    Network.settleEach_cons 3 [1] [] (by decide) (by decide),
    Network.settleOne_of_unfinished (by decide) (by decide), List.nil_append,
    Network.settleEach_cons 1 [] [3] (by decide) (by decide),
    Network.settleOne_of_finished (by decide), List.append_nil,
    Network.settleEach_cons_of_not_mem (by decide), Network.settleEach_nil]

/-- One way of the diamond has finished. If the source is paused, the other way and the join pause
as well, the join when both its feeders have stopped. -/
theorem settling_sound_diamond :
    let n := Network.ofCalls .inert () diamondHalf
    let m := n.perform .inert (.pause 0)
    EdgesFirst diamondHalf ∧ (m.graph.stage 1).state = .finished ∧
      (m.graph.stage 3).state = .paused ∧
      ∃ n₁ n₂, Network.StopsAt .inert 3 n₁ n₂ ∧ (n₂.graph.stage 3).state = .paused ∧
        ∀ u ∈ (n₁.graph.stage 3).feeders, (n₁.graph.stage u).state ≠ .running := by
  intro n m
  have edges : EdgesFirst diamondHalf := by decide
  have hn : n = (diamondRunning.complete .inert 1 none).2 := ofCalls_diamondHalf
  have hm : m = diamondPaused :=
    (congrArg (fun n => (n.pause .inert 0).2) hn).trans pause_diamondHalf
  have join : (m.graph.stage 3).state = .paused :=
    (congrArg (fun m => (m.graph.stage 3).state) hm).trans (by decide +kernel)
  have left : (n.graph.stage 1).state = .finished := by
    rw [hn]
    decide
  have changed : (m.graph.stage 3).state ≠ (n.graph.stage 3).state := by
    rw [join, hn]
    decide
  obtain ⟨⟨changes, -, -, hchanged⟩, hfinished, -⟩ :=
    settling_sound .inert () diamondHalf edges (.pause 0) rfl
  obtain haim | ⟨⟨n₁, n₂⟩, -, hstops, -, hlast⟩ := hchanged 3 changed
  · exact absurd haim (by decide : (3 : StageId) ≠ 0)
  · exact ⟨edges, hfinished 1 left, join, n₁, n₂, hstops, hlast.trans join,
      fun u hu => (hstops.unfed u hu).1⟩

end Pipework
