import Pipework.Proofs.Network.Picks

/-!
# Properties that every change preserves

Settling pauses and finishes settled stages. A property of networks that survives this survives a
whole walk (`Settling`), and with it what workers ask for apart from letting go of a stage and
taking one. A property is *lasting* if halting and completing any stage preserve it: then pausing
and finishing do. It is *stable* if opening a stage preserves it too, and then so does activation.
If some stages must not be halted, unless they are settled, it is *enduring* at least, and then
pausing any other stage preserves it. A property is *aloof* if it does not look at stages and hooks
preserve it: then it survives all that workers ask for.
-/

namespace Pipework

/-- Settling one stage does not destroy the property. -/
structure Settling {W : Type} (B : Bodies W) (P : Network W → Prop) : Prop where
  pauses : ∀ {n i}, P n → n.settled B i = true →
    ¬ (∀ u ∈ (n.graph.stage i).feeders, (n.graph.stage u).state = .finished) →
    P (n.mapGraph (·.halt i))
  finishes : ∀ {n i} c, P n → n.settled B i = true →
    (∀ u ∈ (n.graph.stage i).feeders, (n.graph.stage u).state = .finished) →
    P (n.complete B i c).2

/-- No end of the life of a stage destroys the property. -/
structure Lasting {W : Type} (B : Bodies W) (P : Network W → Prop) : Prop where
  halts : ∀ {n i}, P n → (n.graph.stage i).state = .running → P (n.mapGraph (·.halt i))
  completes : ∀ {n i} c, P n → i < n.graph.size → (n.graph.stage i).state ≠ .finished →
    P (n.complete B i c).2

/-- No elementary change of the life of a stage destroys the property. -/
structure Stable {W : Type} (B : Bodies W) (P : Network W → Prop) : Prop extends Lasting B P where
  opens : ∀ {n i} c, P n → i < n.graph.size → (n.graph.stage i).dormant = true →
    P (n.openOne B i c).2

theorem Lasting.settling {W : Type} {B : Bodies W} {P : Network W → Prop} (hP : Lasting B P) :
    Settling B P where
  pauses h hs _ := hP.halts h (Network.state_of_settled hs)
  finishes c h hs _ := by
    have hr := Network.state_of_settled hs
    exact hP.completes c h (Graph.lt_size_of_state_ne (by simp [hr])) (by simp [hr])

/-! ### Settling -/

namespace Settling

variable {W : Type} {B : Bodies W} {P : Network W → Prop} {n : Network W} {i : StageId}
  {c : Option Caller}
variable (hP : Settling B P)
include hP

theorem settleOne (h : P n) : P (n.settleOne B i c).2.2 := by
  rcases n.settleOne_cases B i c with ⟨hs, hf, he⟩ | ⟨hs, hf, he⟩ | ⟨-, b, he⟩ <;> rw [he]
  · exact hP.finishes c h hs hf
  · exact hP.pauses h hs hf
  · exact h

theorem settleEach {unseen work : List StageId} (h : P n) : P (n.settleEach B c unseen work).2 := by
  have : ∃ _ : List StageId, P (n.settleEach B c unseen work).2 :=
    Network.settleEach_induction (P := fun _ _ n => P n) (fun _ _ _ _ h _ => hP.settleOne h)
      (fun _ _ _ _ h _ => h) h
  exact this.elim fun _ h => h

theorem settle {start : List StageId} (h : P n) : P (n.settle B start c).2 := hP.settleEach h

/-- Handing a stage back is letting go of it, and then settling. -/
theorem handBack {caller : Caller} {result : Option Outcome}
    (h : P (n.surrender B i caller result).2) :
    P (n.handBack B i caller result).2 := hP.settle h

/-- After a stage has been taken back, another one is handed out or the rest is settled. -/
theorem handOut {sc : Scheduler} {w : WorkerId} (h : P n)
    (takes : ∀ i, i < n.graph.size → Scheduler.eligible B n i = true → P (Scheduler.take n w i)) :
    P (sc.handOut B n w).2 := by
  rcases sc.handOut_cases B n w with ⟨i, hi, he, -, ho⟩ | ⟨-, ho⟩ | ⟨-, -, ho⟩ <;> rw [ho]
  · exact takes i hi he
  · exact h
  · exact hP.settle h

/-- **If every running stage is settled, and stays so while others are dealt with, none runs once
all have been.** -/
theorem idle_settle (h : P n)
    (stays : ∀ {m : Network W} {k i : StageId}, P m → m.settled B k = true → k ≠ i →
      m.settled B i = true →
      (m.settleOne B k c).2.2.settled B i = true)
    (hs : ∀ i, (n.graph.stage i).state = .running → n.settled B i = true) (i : StageId) :
    ((n.settle B (Scheduler.idle B n) c).2.graph.stage i).state ≠ .running := by
  -- what still runs is settled, has not been visited, and is going to be
  have begins : P n ∧ ∀ i, (n.graph.stage i).state = .running →
      n.settled B i = true ∧ i ∈ List.range n.graph.size ∧ i ∈ (Scheduler.idle B n).reverse := by
    refine ⟨h, fun i hr => ?_⟩
    have hi : i ∈ List.range n.graph.size :=
      List.mem_range.2 (Graph.lt_size_of_state_ne (by simp [hr]))
    exact ⟨hs i hr, hi, List.mem_reverse.2 (List.mem_filter.2 ⟨hi, hs i hr⟩)⟩
  have key := Network.settleEach_induction (B := B) (c := c) (n := n)
    (P := fun unseen work m => P m ∧ ∀ i, (m.graph.stage i).state = .running →
      m.settled B i = true ∧ i ∈ unseen ∧ i ∈ work)
    (fun m k unseen work hm hk => ?_) (fun m k unseen work hm hk => ?_) begins
  · obtain ⟨left, -, hnone⟩ := key
    exact fun hr => absurd (hnone i hr).2.2 List.not_mem_nil
  · obtain ⟨hPm, hrun⟩ := hm
    refine ⟨hP.settleOne hPm, fun i hr => ?_⟩
    obtain ⟨hki, hri, hsi⟩ : k ≠ i ∧ (m.graph.stage i).state = .running ∧
        (m.settleOne B k c).2.2.settled B i = true := by
      cases hks : m.settled B k with
      | true =>
        obtain ⟨hki, hri⟩ := (Network.running_settleOne hks).1 hr
        exact ⟨hki, hri, stays hPm hks hki (hrun i hri).1⟩
      | false =>
        -- a stage that is not settled does not run, so that nothing happens to it
        obtain ⟨b, he⟩ := Network.settleOne_of_not_settled hks c
        rw [he] at hr ⊢
        have hsi := (hrun i hr).1
        refine ⟨?_, hr, hsi⟩
        rintro rfl
        exact absurd (hsi.symm.trans hks) (by decide)
    obtain ⟨-, hu, hw⟩ := hrun i hri
    refine ⟨hsi, (List.mem_erase_of_ne (Ne.symm hki)).2 hu, ?_⟩
    exact List.mem_append_right _ ((List.mem_cons.1 hw).resolve_left (Ne.symm hki))
  · refine ⟨hm.1, fun i hr => ?_⟩
    obtain ⟨hs, hu, hw⟩ := hm.2 i hr
    exact ⟨hs, hu, (List.mem_cons.1 hw).resolve_left fun hik => hk (hik ▸ hu)⟩

end Settling

/-! ### Pausing and finishing -/

/-- Settling does not destroy the property, nor does the end of the life of a stage, unless a stage
is halted that must not be. -/
structure Enduring {W : Type} (B : Bodies W) (may : StageId → Prop) (P : Network W → Prop) :
    Prop extends Settling B P where
  halts : ∀ {n i}, P n → may i → (n.graph.stage i).state = .running → P (n.mapGraph (·.halt i))
  completes : ∀ {n i} c, P n → i < n.graph.size → (n.graph.stage i).state ≠ .finished →
    P (n.complete B i c).2

namespace Enduring

variable {W : Type} {B : Bodies W} {may : StageId → Prop} {P : Network W → Prop} {n : Network W}
  {i : StageId} {c : Option Caller}
variable (hP : Enduring B may P)
include hP

theorem halt (h : P n) (hm : may i) : P (n.mapGraph (·.halt i)) := by
  by_cases hr : (n.graph.stage i).state = .running
  · exact hP.halts h hm hr
  · rw [Network.mapGraph, Graph.halt_of_ne hr]
    exact h

theorem complete (h : P n) (hi : i < n.graph.size) : P (n.complete B i c).2 := by
  by_cases hf : (n.graph.stage i).state = .finished
  · rw [Network.complete_of_finished hf]
    exact h
  · exact hP.completes c h hi hf

theorem pause (h : P n) (hm : may i) : P (n.pause B i).2 := by
  unfold Network.pause
  split
  · exact h
  · exact hP.settle (hP.halt h hm)

theorem finish (h : P n) : P (n.finish B i).2 := by
  unfold Network.finish Graph.check
  by_cases hi : i < n.graph.size
  · simp only [hi, if_true]
    exact hP.settle (hP.complete h hi)
  · simp only [hi, if_false]
    exact h

theorem completeEach {is : List StageId} (h : P n) (hi : ∀ i ∈ is, i < n.graph.size) :
    P (Network.completeEach B is n).2 := by
  induction is generalizing n with
  | nil => exact h
  | cons i is ih =>
    refine ih (hP.complete h (hi i (List.mem_cons_self ..))) fun k hk => ?_
    rw [Network.size_complete]
    exact hi k (List.mem_cons_of_mem _ hk)

theorem finishSources (h : P n) (hi : ∀ i ∈ n.graph.sources, i < n.graph.size) :
    P (n.finishSources B).2 :=
  hP.settle (hP.completeEach h hi)

end Enduring

namespace Lasting

variable {W : Type} {B : Bodies W} {P : Network W → Prop} {n : Network W} {i : StageId}
  {c : Option Caller}
variable (hP : Lasting B P)
include hP

theorem enduring : Enduring B (fun _ => True) P where
  toSettling := hP.settling
  halts h _ hr := hP.halts h hr
  completes := hP.completes

theorem halt (h : P n) : P (n.mapGraph (·.halt i)) := hP.enduring.halt h trivial

theorem complete (h : P n) (hi : i < n.graph.size) : P (n.complete B i c).2 :=
  hP.enduring.complete h hi

theorem pause (h : P n) : P (n.pause B i).2 := hP.enduring.pause h trivial

theorem finish (h : P n) : P (n.finish B i).2 := hP.enduring.finish h

theorem completeEach {is : List StageId} (h : P n) (hi : ∀ i ∈ is, i < n.graph.size) :
    P (Network.completeEach B is n).2 := hP.enduring.completeEach h hi

theorem finishSources (h : P n) (hi : ∀ i ∈ n.graph.sources, i < n.graph.size) :
    P (n.finishSources B).2 :=
  hP.enduring.finishSources h hi

end Lasting

/-! ### Activation -/

/-- Opening a stage does not destroy the property. -/
structure Opening {W : Type} (B : Bodies W) (P : Network W → Prop) : Prop where
  opens : ∀ {n i} c, P n → i < n.graph.size → (n.graph.stage i).dormant = true →
    P (n.openOne B i c).2

namespace Opening

variable {W : Type} {B : Bodies W} {P : Network W → Prop} {n : Network W} {i : StageId}
  {c : Option Caller}
variable (hP : Opening B P)
include hP

theorem activateEach {work : List StageId} (h : P n) : P (n.activateEach B c work).2 :=
  Network.activateEach_induction (P := fun _ n => P n) (fun _ _ _ h hi hd => hP.opens c h hi hd)
    (fun _ _ _ h _ => h) h

theorem activate (h : P n) : P (n.activate B i).2 := by
  unfold Network.activate
  split
  · exact h
  · exact hP.activateEach h

theorem activateSources {is : List StageId} (h : P n) : P (Network.activateSources B is n).2 := by
  induction is generalizing n with
  | nil => exact h
  | cons i is ih => exact ih (hP.activateEach h)

theorem activateAll (h : P n) : P (n.activateAll B).2 := hP.activateSources h

end Opening

namespace Stable

variable {W : Type} {B : Bodies W} {P : Network W → Prop} {n : Network W} {i : StageId}
variable (hP : Stable B P)
include hP

theorem opening : Opening B P := ⟨hP.opens⟩

theorem activate (h : P n) : P (n.activate B i).2 := hP.opening.activate h

theorem activateAll (h : P n) : P (n.activateAll B).2 := hP.opening.activateAll h

end Stable

/-! ### Hooks and hand-backs -/

/-- The property looks at the failure and the world only, and no hook destroys it. -/
structure Aloof {W : Type} (B : Bodies W) (P : Network W → Prop) : Prop where
  maps : ∀ {n : Network W} {f : Graph → Graph}, P n → (f n.graph).failure = n.graph.failure →
    P (n.mapGraph f)
  hooks : ∀ {n : Network W} hook i c, P n → P (n.runHook B hook i c).2

namespace Aloof

variable {W : Type} {B : Bodies W} {P : Network W → Prop} {n : Network W} {i : StageId}
  {c : Option Caller} {sc : Scheduler} {w : WorkerId} {result : Option Outcome}
variable (hP : Aloof B P)
include hP

theorem runHookIf (h : P n) (cond : Bool) (hook : Hook) : P (n.runHookIf cond B hook i c).2 := by
  unfold Network.runHookIf
  split
  · exact hP.hooks hook i c h
  · exact h

theorem openOne (h : P n) : P (n.openOne B i c).2 :=
  hP.runHookIf (hP.maps h (Graph.failure_enterRunning _ i)) _ .opening

theorem complete (h : P n) : P (n.complete B i c).2 := by
  unfold Network.complete
  split
  · exact h
  · have hr :
        P ((n.runHookIf (!(n.graph.stage i).opened) B .opening i c).2.mapGraph (·.retire i)) :=
      hP.maps (hP.runHookIf h _ .opening) (Graph.failure_retire _ i)
    simp only
    split
    · exact hr
    · exact hP.hooks .closing i c hr

theorem stable : Stable B P where
  opens _ h _ _ := hP.openOne h
  halts h _ := hP.maps h (Graph.failure_halt _ _)
  completes _ h _ _ := hP.complete h

theorem closeDue (h : P n) : P (n.closeDue B i c).2 := by
  unfold Network.closeDue
  split
  · exact hP.hooks .closing i c
      (hP.maps (f := (·.modify i fun s => { s with closingDue := false })) h rfl)
  · exact h

theorem surrender (h : P n) {caller : Caller} : P (n.surrender B i caller result).2 := by
  have hgo : P (n.mapGraph (·.letGo i ⟨caller.worker, result == some .comeBackLater⟩)) :=
    hP.maps h rfl
  unfold Network.surrender
  refine hP.closeDue ?_
  split
  · exact hP.complete hgo
  · exact hgo

theorem giveBack (h : P n) : P (sc.giveBack B n w i result) :=
  hP.maps (f := (·.clearStreak w)) (hP.stable.settling.handBack (hP.surrender h)) rfl

theorem freed (h : P n) (previous : Option StageId) : P (sc.freed B n w previous result) := by
  cases previous with
  | none => exact hP.maps (f := (·.clearStreak w)) h rfl
  | some i => exact hP.giveBack h

theorem handOut (h : P n) : P (sc.handOut B n w).2 :=
  hP.stable.settling.handOut h fun _ _ _ => hP.maps h rfl

theorem assign (h : P n) (previous : Option StageId) : P (sc.assign B n w previous result).2 := by
  rcases sc.assign_cases B n w previous result with ⟨i, -, -, he⟩ | he <;> rw [he]
  · have hkeep : P (Scheduler.keep n w i) := hP.maps h rfl
    exact hkeep
  · exact hP.handOut (hP.freed h previous)

end Aloof

end Pipework
