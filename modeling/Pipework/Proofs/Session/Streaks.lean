import Pipework.Proofs.Session.Bypass
import Pipework.Proofs.Session.Team

/-!
# Streaks

A graph counts for each worker how many times in a row it was given its stage. Picking a stage for a
worker starts the count, leaving the stage to it adds one, and whoever gives a stage back and gets
none loses his entry; nothing else touches the entries. So there is one for each worker that holds a
stage, and for nobody else, and it says how many `Assignment`s of that stage the worker has had
since it was picked (`exact_streaks`). The sticky policy lets no streak grow beyond its bound, and
the fair one lets none grow at all.
-/

namespace Pipework

/-! ### What touches the entries -/

namespace Graph

theorem streaks_modifyAll (g : Graph) (is : List StageId) (f : Stage → Stage) :
    (g.modifyAll is f).streaks = g.streaks := by
  induction is generalizing g with
  | nil => rfl
  | cons i is ih => exact ih (g.modify i f)

theorem streaks_recordFailure (g : Graph) (f : Failure) :
    (g.recordFailure f).streaks = g.streaks := by
  unfold recordFailure
  split <;> rfl

theorem streaks_enterRunning (g : Graph) (i : StageId) : (g.enterRunning i).streaks = g.streaks :=
  streaks_modifyAll ..

theorem streaks_leaveRunning (g : Graph) (i : StageId) : (g.leaveRunning i).streaks = g.streaks :=
  streaks_modifyAll ..

theorem streaks_halt (g : Graph) (i : StageId) : (g.halt i).streaks = g.streaks := by
  unfold halt
  split
  · exact streaks_leaveRunning ..
  · rfl

theorem streaks_retire (g : Graph) (i : StageId) : (g.retire i).streaks = g.streaks := by
  unfold retire
  simp only
  split
  · exact streaks_leaveRunning ..
  · rfl

end Graph

/-- The life of stages does not touch the entries. -/
theorem stable_streaks {W : Type} (B : Bodies W) (l : List (WorkerId × Nat)) :
    Stable B fun n => n.graph.streaks = l where
  opens {n i} c h _ _ := by
    obtain ⟨f, hf⟩ := n.openOne_graph B i c
    rw [hf]
    exact (n.graph.streaks_enterRunning i).trans h
  halts {n i} h _ := (n.graph.streaks_halt i).trans h
  completes {n i} c h _ hf := by
    obtain ⟨f, hg⟩ := Network.complete_graph (B := B) (c := c) hf
    rw [hg]
    exact (n.graph.streaks_retire i).trans h

namespace Network

variable {W : Type}

theorem streaks_complete (n : Network W) (B : Bodies W) (i : StageId) (c : Option Caller) :
    (n.complete B i c).2.graph.streaks = n.graph.streaks := by
  by_cases hf : (n.graph.stage i).state = .finished
  · rw [complete_of_finished hf]
  · obtain ⟨f, hg⟩ := complete_graph (B := B) (c := c) hf
    rw [hg]
    exact n.graph.streaks_retire i

theorem streaks_surrender (n : Network W) (B : Bodies W) (i : StageId) (caller : Caller)
    (result : Option Outcome) :
    (n.surrender B i caller result).2.graph.streaks = n.graph.streaks := by
  have closed : ∀ m : Network W, (m.closeDue B i (some caller)).2.graph.streaks =
      m.graph.streaks := by
    intro m
    obtain ⟨f, hf⟩ := m.closeDue_graph B i (some caller)
    rw [hf]
    split <;> rfl
  unfold surrender
  refine (closed _).trans ?_
  split
  · exact streaks_complete ..
  · rfl

theorem streaks_call (n : Network W) (B : Bodies W) (i : StageId) (v : Visit) :
    (n.call B i v).2.2.graph.streaks = n.graph.streaks := by
  obtain ⟨m, hm⟩ := n.call_graph B i v
  rw [hm]
  rfl

end Network

/-! ### Entries of workers -/

/-- The entries with that of one worker replaced, or removed. -/
def entriesWith (l : List (WorkerId × Nat)) (w : WorkerId) (entry : Option Nat) :
    List (WorkerId × Nat) :=
  (entry.map (w, ·)).toList ++ l.filter (·.1 != w)

theorem lookup_cons_entry (w v : WorkerId) (k : Nat) (l : List (WorkerId × Nat)) :
    ((w, k) :: l).lookup v = if w = v then some k else l.lookup v := by
  by_cases hwv : w = v
  · simp [hwv]
  · simp [List.lookup_cons, beq_false_of_ne (Ne.symm hwv), hwv]

theorem lookup_entriesWith (l : List (WorkerId × Nat)) (w v : WorkerId) (entry : Option Nat) :
    (entriesWith l w entry).lookup v = if w = v then entry else l.lookup v := by
  have rest : (l.filter (·.1 != w)).lookup v = if w = v then none else l.lookup v := by
    induction l with
    | nil => simp
    | cons x l ih =>
      by_cases hx : x.1 = w
      · rw [List.filter_cons_of_neg (by simpa using hx), ih, lookup_cons_entry, hx]
        by_cases hwv : w = v
        · rw [if_pos hwv, if_pos hwv]
        · rw [if_neg hwv, if_neg hwv, if_neg hwv]
      · rw [List.filter_cons_of_pos (by simpa using hx), lookup_cons_entry, lookup_cons_entry, ih]
        by_cases hxv : x.1 = v
        · rw [if_pos hxv, if_pos hxv, if_neg fun hwv => hx (hxv.trans hwv.symm)]
        · rw [if_neg hxv, if_neg hxv]
  cases entry with
  | none => exact rest
  | some k =>
    change ((w, k) :: l.filter (·.1 != w)).lookup v = _
    rw [lookup_cons_entry, rest]
    by_cases hwv : w = v
    · rw [if_pos hwv, if_pos hwv]
    · rw [if_neg hwv, if_neg hwv, if_neg hwv]

theorem nodup_entriesWith {l : List (WorkerId × Nat)} (h : (l.map (·.1)).Nodup) (w : WorkerId)
    (entry : Option Nat) :
    ((entriesWith l w entry).map (·.1)).Nodup := by
  have rest : ((l.filter (·.1 != w)).map (·.1)).Nodup := h.sublist (List.filter_sublist.map _)
  cases entry with
  | none => exact rest
  | some k =>
    refine List.nodup_cons.2 ⟨fun hm => ?_, rest⟩
    obtain ⟨x, hx, hxw⟩ := List.mem_map.1 hm
    have := (List.mem_filter.1 hx).2
    simp [hxw] at this

theorem Scheduler.streaks_giveBack {W : Type} (sc : Scheduler) (B : Bodies W) (n : Network W)
    (w : WorkerId) (i : StageId) (result : Option Outcome) :
    (sc.giveBack B n w i result).graph.streaks = entriesWith n.graph.streaks w none := by
  have handed : (n.handBack B i (sc.caller w) result).2.graph.streaks = n.graph.streaks :=
    (stable_streaks B n.graph.streaks).settling.handBack
      (n.streaks_surrender B i (sc.caller w) result)
  exact congrArg (List.filter fun x => x.1 != w) handed

/-! ### Assignments -/

/-- That a stage was picked for a worker, or left to the worker that had it. -/
structure Assignment where
  worker : WorkerId
  stage : StageId
  kept : Bool
  deriving DecidableEq

/-- The last that a worker was given is a stage that was picked for it and then left to it a number
of times. -/
def Lately (as : List Assignment) (w : WorkerId) (i : StageId) (n : Nat) : Prop :=
  ∃ before, as.filter (·.worker == w) = before ++ ⟨w, i, false⟩ :: List.replicate n ⟨w, i, true⟩

/-- How many assignments a streak can have. -/
def Fairness.longest : Fairness → Nat
  | .roundRobin => 1
  | .sticky m => max m 1

namespace Session

variable {W : Type} {B : Bodies W} {world : W} {sc : Scheduler} {s : Session W} {e : Event W}
  {w v : WorkerId} {h : Hold} {as : List Assignment} {n : Nat}

/-- The assignment that an event makes. -/
def assignment (B : Bodies W) (s : Session W) : Event W → Option Assignment
  | .next w => (s.next B w).1.map fun i => ⟨w, i, s.keeps B w⟩
  | _ => none

/-- The sessions that can be reached from one without stages by building and by sound events, with
all assignments that have been made. -/
inductive Assigns (B : Bodies W) (world : W) (sc : Scheduler) :
    Session W → List Assignment → Prop where
  | start : Assigns B world sc ⟨⟨.empty, world⟩, sc, []⟩ []
  | build {s : Session W} {as : List Assignment} (p : Graph.Part) : Assigns B world sc s as →
      Assigns B world sc (s.perform B (.order (.build p))) as
  | step {s : Session W} {as : List Assignment} (e : Event W) : Assigns B world sc s as →
      s.Sound e →
      Assigns B world sc (s.perform B e) (as ++ (s.assignment B e).toList)

/-- The worker gives its stage back, and the best of all stages is picked for it. -/
def Rescores (B : Bodies W) (s : Session W) (w : WorkerId) (h : Hold) : Prop :=
  ((s.next B w).1, (s.next B w).2.network) =
    s.scheduler.handOut B (s.scheduler.giveBack B s.network w h.stage h.result) w

/-! ### What a step does to the entries -/

theorem streaks_freed (s : Session W) (B : Bodies W) (w : WorkerId) :
    (s.freed B w).graph.streaks = entriesWith s.network.graph.streaks w none := by
  unfold freed
  cases s.holdOf w with
  | none => rfl
  | some h => exact s.scheduler.streaks_giveBack B s.network w h.stage h.result

/-- Whoever asks has an entry if he is given a stage: one more than before if he keeps it, and one
otherwise. -/
theorem streaks_next (s : Session W) (B : Bodies W) (w : WorkerId) :
    (s.next B w).2.network.graph.streaks =
      entriesWith s.network.graph.streaks w
        ((s.next B w).1.map fun _ => if s.keeps B w then s.network.graph.streak w + 1 else 1) := by
  cases hk : s.keeps B w with
  | true =>
    obtain ⟨i, hi, hn, -⟩ := next_of_keeps hk
    rw [hn, hi]
    rfl
  | false =>
    have freed := s.streaks_freed B w
    have hnext := next_of_assign (not_keeps hk)
    rcases s.scheduler.handOut_cases B (s.freed B w) w with ⟨i, -, -, -, ho⟩ | ⟨-, ho⟩ |
      ⟨-, -, ho⟩ <;> rw [hnext, ho]
    · change entriesWith (s.freed B w).graph.streaks w (some 1) =
        entriesWith s.network.graph.streaks w (some 1)
      rw [freed]
      simp [entriesWith, List.filter_filter]
    · exact freed
    · exact (stable_streaks B _).settling.settle freed

theorem streaks_release (hh : s.holdOf w = some h) :
    (s.release B w).2.network.graph.streaks = entriesWith s.network.graph.streaks w none := by
  rw [release_of_some hh]
  exact s.scheduler.streaks_giveBack B s.network w h.stage h.result

theorem streaks_exec (s : Session W) (B : Bodies W) (w : WorkerId) :
    (s.exec B w).2.network.graph.streaks = s.network.graph.streaks := by
  cases hh : s.holdOf w with
  | none => rw [exec_of_none hh]
  | some h =>
    rw [exec_of_some hh (mem_of_holdOf hh).2]
    exact s.network.streaks_call B h.stage (s.visit h)

theorem streaks_order (hs : ∀ i ∈ s.network.graph.sources, i < s.network.graph.size) {call : Call W}
    (ho : call.isOrder = true) :
    (s.perform B (.order call)).network.graph.streaks = s.network.graph.streaks :=
  (stable_streaks B s.network.graph.streaks).order hs ho
    (fun f => s.network.graph.streaks_recordFailure f) (fun _ _ => rfl) (fun _ _ => rfl) rfl

/-! ### What a step does to the holds -/

theorem holdOf_release (s : Session W) (B : Bodies W) (w v : WorkerId) :
    (s.release B w).2.holdOf v = if w = v then none else s.holdOf v := by
  cases hh : s.holdOf w with
  | none =>
    rw [release_of_none hh]
    split
    · next hwv => rw [← hwv, hh]
    · rfl
  | some h =>
    rw [release_of_some hh]
    exact holdOf_setHold (h := none) (fun x hx => by cases hx) v

/-- A call leaves the stage in the hands of whoever made it. -/
theorem stage_holdOf_exec (s : Session W) (B : Bodies W) (w v : WorkerId) :
    ((s.exec B w).2.holdOf v).map (·.stage) = (s.holdOf v).map (·.stage) := by
  cases hh : s.holdOf w with
  | none => rw [exec_of_none hh]
  | some h =>
    have hw := (mem_of_holdOf hh).2
    have hold := fun (n : Network W) result away =>
      holdOf_setHold (s := { s with network := n }) (w := w)
      (h := some { h with result, away })
      (fun x hx => by obtain rfl := Option.some.inj hx; exact hw) v
    rw [exec_of_some hh hw]
    refine (congrArg (Option.map Hold.stage) (hold _ _ _)).trans ?_
    split
    · next hwv =>
      rw [← hwv, hh]
      rfl
    · rfl

/-- What a worker decides to report does not change what it holds. -/
theorem stage_holdOf_report (s : Session W) (B : Bodies W) (w : WorkerId) (result : Option Outcome)
    (v : WorkerId) :
    ((s.perform B (.report w result)).holdOf v).map (·.stage) = (s.holdOf v).map (·.stage) := by
  have worker : ∀ x : Hold, (x.reporting w result).worker = x.worker := by
    intro x
    unfold Hold.reporting
    split <;> rfl
  have stage : ∀ x : Hold, (x.reporting w result).stage = x.stage := by
    intro x
    unfold Hold.reporting
    split <;> rfl
  simp only [perform, holdOf, List.find?_map, Option.map_map, Function.comp_def, worker, stage]

/-! ### The entries are exact -/

/-- A worker that does not keep its stage gives it back, and the best of all is picked for it. -/
theorem rescores_of_not_keeps (hh : s.holdOf w = some h) (hk : s.keeps B w = false) :
    s.Rescores B w h := by
  unfold Rescores
  rw [next_of_assign (not_keeps hk), freed, hh]
  rfl

theorem keeps_of_roundRobin (hf : s.scheduler.fairness = .roundRobin) (w : WorkerId) :
    s.keeps B w = false := by
  unfold keeps Scheduler.mayKeep
  rw [hf]
  cases s.holdOf w <;> rfl

/-- No stage is kept at the end of a streak. -/
theorem streak_lt_of_keeps {m : Nat} (hf : s.scheduler.fairness = .sticky m)
    (hk : s.keeps B w = true) :
    s.network.graph.streak w < m := by
  unfold keeps Scheduler.mayKeep at hk
  rw [hf] at hk
  cases hh : s.holdOf w with
  | none =>
    rw [hh] at hk
    cases hk
  | some h =>
    rw [hh, Option.any_some] at hk
    split at hk
    · rename_i hs _
      cases hs
      simp only [Bool.and_eq_true, decide_eq_true_eq] at hk
      exact hk.2
    · cases hk

/-- What a worker keeps is what it held. -/
theorem holdOf_of_keeps (hk : s.keeps B w = true) :
    ∃ h, s.holdOf w = some h ∧ (s.next B w).1 = some h.stage := by
  unfold keeps at hk
  cases hh : s.holdOf w with
  | none =>
    rw [hh] at hk
    cases hk
  | some h =>
    rw [hh] at hk
    have keep : s.scheduler.mayKeep B s.network w h.stage h.result = true := hk
    exact ⟨h, rfl, by simp [Session.next, hh, Scheduler.assign, keep]⟩

/-- There is an entry for each worker that holds a stage and for nobody else; it counts the
assignments of the stage since it was picked, and these are no more than a streak can have. -/
structure Streaked (s : Session W) (as : List Assignment) : Prop where
  keys : (s.network.graph.streaks.map (·.1)).Nodup
  free : ∀ w, s.holdOf w = none → s.network.graph.streaks.lookup w = none
  held : ∀ w i, (s.holdOf w).map (·.stage) = some i →
    ∃ n, Lately as w i n ∧ s.network.graph.streaks.lookup w = some (n + 1) ∧
    n + 1 ≤ s.scheduler.fairness.longest

namespace Streaked

variable {s' : Session W}

/-- What hands nothing over does no harm. -/
theorem same (st : s.Streaked as) (hl : s'.network.graph.streaks = s.network.graph.streaks)
    (hh : ∀ v, (s'.holdOf v).map (·.stage) = (s.holdOf v).map (·.stage))
    (hsc : s'.scheduler = s.scheduler) :
    s'.Streaked as where
  keys := hl ▸ st.keys
  free v hv := by
    have := hh v
    rw [hv, Option.map_none, eq_comm, Option.map_eq_none_iff] at this
    rw [hl]
    exact st.free v this
  held v i hv := by
    rw [hl, hsc]
    exact st.held v i ((hh v).symm.trans hv)

/-- One worker comes to hold another stage, or none, and its entry is replaced accordingly. -/
theorem replace (st : s.Streaked as) (s' : Session W) (o : Option (Assignment × Nat))
    (ho : ∀ a ∈ o, a.1.worker = w)
    (hl : s'.network.graph.streaks = entriesWith s.network.graph.streaks w (o.map (·.2)))
    (hh : ∀ v, (s'.holdOf v).map (·.stage) =
      if w = v then o.map (·.1.stage) else (s.holdOf v).map (·.stage))
    (hsc : s'.scheduler = s.scheduler)
    (hn : ∀ a ∈ o, ∃ n, a.2 = n + 1 ∧ Lately (as ++ [a.1]) w a.1.stage n ∧
      n + 1 ≤ s.scheduler.fairness.longest) :
    s'.Streaked (as ++ (o.map (·.1)).toList) where
  keys := by
    rw [hl]
    exact nodup_entriesWith st.keys w _
  free v hv := by
    have hold := hh v
    rw [hl, lookup_entriesWith]
    rw [hv, Option.map_none] at hold
    split at hold
    · next hwv =>
      rw [if_pos hwv]
      cases o with
      | none => rfl
      | some a => cases hold
    · next hwv =>
      rw [if_neg hwv]
      exact st.free v (Option.map_eq_none_iff.1 hold.symm)
  held v i hv := by
    rw [hh] at hv
    rw [hl, lookup_entriesWith, hsc]
    by_cases hwv : w = v
    · subst hwv
      rw [if_pos rfl] at hv
      rw [if_pos rfl]
      cases o with
      | none => cases hv
      | some a =>
        obtain ⟨n, ha, hlately, hle⟩ := hn a rfl
        obtain rfl : a.1.stage = i := Option.some.inj hv
        exact ⟨n, hlately, congrArg some ha, hle⟩
    · rw [if_neg hwv] at hv
      rw [if_neg hwv]
      obtain ⟨n, ⟨before, hb⟩, hrest⟩ := st.held v i hv
      have nothing : (o.map (·.1)).toList.filter (·.worker == v) = [] := by
        cases o with
        | none => rfl
        | some a => simp [ho a rfl, hwv]
      exact ⟨n, ⟨before, by rw [List.filter_append, hb, nothing, List.append_nil]⟩, hrest⟩

theorem fresh (world : W) (sc : Scheduler) : Streaked ⟨⟨.empty, world⟩, sc, []⟩ [] where
  keys := List.nodup_nil
  free _ _ := rfl
  held _ _ h := by cases h

theorem build (st : s.Streaked as) (p : Graph.Part) :
    (s.perform B (.order (.build p))).Streaked as :=
  st.same (Graph.fields_add s.network.graph p).2.2.1 (fun _ => rfl) rfl

/-- A worker asks: if it is given a stage, that is one more assignment. -/
theorem next (st : s.Streaked as) (w : WorkerId) :
    (s.next B w).2.Streaked (as ++ (s.assignment B (.next w)).toList) := by
  let streak := if s.keeps B w then s.network.graph.streak w + 1 else 1
  have once : 1 ≤ s.scheduler.fairness.longest := by
    cases s.scheduler.fairness with
    | roundRobin => exact Nat.le_refl 1
    | sticky m => exact Nat.le_max_right m 1
  have counted : ∀ i, (s.next B w).1 = some i →
      ∃ n, streak = n + 1 ∧ Lately (as ++ [⟨w, i, s.keeps B w⟩]) w i n ∧
        n + 1 ≤ s.scheduler.fairness.longest := by
    intro i hi
    cases hk : s.keeps B w with
    | false => exact ⟨0, by simp [streak, hk], ⟨as.filter (·.worker == w), by simp⟩, once⟩
    | true =>
      obtain ⟨h, hh, hstage⟩ := holdOf_of_keeps hk
      obtain rfl : i = h.stage := Option.some.inj (hi.symm.trans hstage)
      obtain ⟨n, ⟨before, hb⟩, hentry, -⟩ := st.held w h.stage (by rw [hh]; rfl)
      have hstreak : s.network.graph.streak w = n + 1 := by
        rw [Graph.streak, hentry, Option.getD_some]
      refine ⟨n + 1, by simp [streak, hk, hstreak], ⟨before, ?_⟩, ?_⟩
      · rw [List.filter_append, hb, List.replicate_succ']
        simp
      · cases hf : s.scheduler.fairness with
        | roundRobin =>
          rw [keeps_of_roundRobin hf] at hk
          cases hk
        | sticky m =>
          have hlt := streak_lt_of_keeps hf hk
          rw [hstreak] at hlt
          exact Nat.le_trans hlt (Nat.le_max_left m 1)
  have replaced := st.replace (w := w) (s.next B w).2
    ((s.next B w).1.map fun i => (⟨w, i, s.keeps B w⟩, streak)) ?_ ?_ ?_
    (s.scheduler_perform B (.next w)) ?_
  · rwa [Option.map_map] at replaced
  · intro a ha
    obtain ⟨i, -, rfl⟩ := Option.map_eq_some_iff.1 ha
    rfl
  · rw [streaks_next, Option.map_map]
    rfl
  · intro v
    rw [holdOf_next, Option.map_map]
    split
    · rw [Option.map_map]
      rfl
    · rfl
  · intro a ha
    obtain ⟨i, hi, rfl⟩ := Option.map_eq_some_iff.1 ha
    exact counted i hi

theorem release (st : s.Streaked as) (w : WorkerId) : (s.release B w).2.Streaked as := by
  cases hh : s.holdOf w with
  | none =>
    rw [release_of_none hh]
    exact st
  | some h =>
    have replaced := st.replace (s.release B w).2 none
      (fun _ ha => by cases ha) (streaks_release hh) (fun v => ?_)
      (s.scheduler_perform B (.release w)) fun _ ha => by cases ha
    · rwa [Option.map_none, Option.toList_none, List.append_nil] at replaced
    · rw [holdOf_release]
      split <;> rfl

/-- **One step.** Whatever happens, the entries stay exact. -/
theorem perform (st : s.Streaked as) (wd : s.network.graph.Wired) (he : s.Sound e) :
    (s.perform B e).Streaked (as ++ (s.assignment B e).toList) := by
  have unassigned : s.assignment B e = none → (s.perform B e).Streaked as →
      (s.perform B e).Streaked (as ++ (s.assignment B e).toList) := fun hn st' => by
    rwa [hn, Option.toList_none, List.append_nil]
  cases e with
  | order call =>
    exact unassigned rfl (st.same (streaks_order (fun _ => wd.lt_size_of_mem_sources) he)
      (fun _ => rfl) rfl)
  | next w => exact st.next w
  | exec w =>
    exact unassigned rfl
      (st.same (s.streaks_exec B w) (s.stage_holdOf_exec B w) (s.scheduler_perform B (.exec w)))
  | release w => exact unassigned rfl (st.release w)
  | report w result => exact unassigned rfl (st.same rfl (s.stage_holdOf_report B w result) rfl)

end Streaked

namespace Assigns

theorem reached (hr : Assigns B world sc s as) : Reached B (fun _ _ => True) world sc s := by
  induction hr with
  | start => exact .start
  | build p _ ih => exact ih.build p
  | step e _ he ih => exact ih.step e he trivial

/-- **A run.** So the entries are exact throughout. -/
theorem streaked (hr : Assigns B world sc s as) : s.Streaked as := by
  induction hr with
  | start => exact .fresh world sc
  | build p _ ih => exact ih.build p
  | step e hr he ih => exact ih.perform hr.reached.wired he

theorem order (hr : Assigns B world sc s as) (call : Call W) (ho : call.isOrder = true) :
    Assigns B world sc (s.perform B (.order call)) as := by
  have ordered : Assigns B world sc (s.perform B (.order call)) (as ++ []) :=
    hr.step (.order call) ho
  rwa [List.append_nil] at ordered

/-- The graph may have been built before anything is done. -/
theorem parts (B : Bodies W) (world : W) (sc : Scheduler) (parts : List Graph.Part) :
    Assigns B world sc ⟨⟨.ofParts parts, world⟩, sc, []⟩ [] :=
  Graph.ofParts_induction (P := fun g => Assigns B world sc ⟨⟨g, world⟩, sc, []⟩ []) .start
    (fun _ p h => h.build p) parts

/-- A stage without listeners may be set running. -/
theorem opens (hr : Assigns B world sc s as) (i : StageId) (hi : i < s.network.graph.size)
    (hd : (s.network.graph.stage i).dormant = true)
    (hl : (s.network.graph.stage i).listeners = []) :
    Assigns B world sc { s with network := (s.network.openOne B i none).2 } as := by
  have activated := hr.order (.activate i) rfl
  rwa [perform, Network.perform, Network.activate_of_no_listeners hi hd hl] at activated

end Assigns

end Session

/-- **Streaks are exact and bounded.** In every run in which workers hand back exactly what they
hold, while stages and edges are added and any other orders are given, the graph has an entry for
each worker that holds a stage and for nobody else. It is the number of assignments of that stage to
that worker since it was picked. Under the sticky policy with a bound `m` it is never more than `m`,
and when it is `m` a worker that asks gives the stage back and the best of all is picked for it;
under the fair policy the entry is 1 and that happens every time. -/
theorem exact_streaks {W : Type} (B : Bodies W) (world : W) (sc : Scheduler) (s : Session W)
    (as : List Assignment) (hr : s.Assigns B world sc as) :
    (s.network.graph.streaks.map (·.1)).Nodup ∧
      (∀ w, (s.network.graph.streaks.lookup w).isSome = (s.holdOf w).isSome) ∧
      ∀ w h, s.holdOf w = some h →
        ∃ before n,
          as.filter (·.worker == w) =
            before ++ ⟨w, h.stage, false⟩ :: List.replicate n ⟨w, h.stage, true⟩ ∧
          s.network.graph.streaks.lookup w = some (n + 1) ∧
          (∀ m, sc.fairness = .sticky m → 1 ≤ m → n + 1 ≤ m ∧ (n + 1 = m → s.Rescores B w h)) ∧
          (sc.fairness = .roundRobin → n = 0 ∧ s.Rescores B w h) := by
  have st := hr.streaked
  have hsc : s.scheduler = sc := hr.reached.scheduler_eq
  refine ⟨st.keys, fun w => ?_, fun w h hh => ?_⟩
  · cases hh : s.holdOf w with
    | none => rw [st.free w hh, Option.isSome_none, Option.isSome_none]
    | some h =>
      obtain ⟨n, -, hentry, -⟩ := st.held w h.stage (by rw [hh]; rfl)
      rw [hentry, Option.isSome_some, Option.isSome_some]
  · obtain ⟨n, ⟨before, hb⟩, hentry, hle⟩ := st.held w h.stage (by rw [hh]; rfl)
    rw [hsc] at hle
    refine ⟨before, n, hb, hentry, fun m hf hm => ?_, fun hf => ?_⟩
    · rw [hf, Fairness.longest, Nat.max_eq_left hm] at hle
      refine ⟨hle, fun hmax => Session.rescores_of_not_keeps hh ?_⟩
      -- the streak has come to its end
      by_contra hk
      have hlt := Session.streak_lt_of_keeps (by rw [hsc, hf]) (Bool.not_eq_false _ ▸ hk)
      rw [Graph.streak, hentry, Option.getD_some] at hlt
      omega
    · rw [hf, Fairness.longest] at hle
      exact ⟨by omega,
        Session.rescores_of_not_keeps hh (Session.keeps_of_roundRobin (by rw [hsc, hf]) w)⟩

/-- One of two sources is picked for a worker and then left to it once. Its streak may be no longer
than that. -/
theorem exact_streaks_twoSources :
    let s₀ := twoSources 1 (.sticky 2)
    let s :=
      ((s₀.perform .swelling (.next 0)).perform .swelling (.exec 0)).perform .swelling (.next 0)
    s.Assigns .swelling 1 ⟨.sticky 2, 1⟩ [⟨0, 0, false⟩, ⟨0, 0, true⟩] ∧
      s.network.graph.streaks.lookup 0 = some 2 ∧
      ∃ h, s.holdOf 0 = some h ∧ h.stage = 0 ∧ s.Rescores .swelling 0 h := by
  intro s₀ s
  have built := Session.Assigns.parts .swelling 1 ⟨.sticky 2, 1⟩
    [.stage "a" .source true, .stage "b" .source true, .source 0, .source 1]
  have opened : s₀.Assigns .swelling 1 ⟨.sticky 2, 1⟩ [] :=
    (built.opens 0 (Nat.zero_lt_two) rfl rfl).opens 1 (Nat.one_lt_two) rfl rfl
  have hr : s.Assigns .swelling 1 ⟨.sticky 2, 1⟩ [⟨0, 0, false⟩, ⟨0, 0, true⟩] := by
    convert ((opened.step (.next 0) (by decide)).step (.exec 0) trivial).step (.next 0) (by decide)
      using 1
    decide
  obtain ⟨-, -, held⟩ := exact_streaks .swelling 1 ⟨.sticky 2, 1⟩ s _ hr
  have hh : s.holdOf 0 = some { worker := 0, stage := 0 } := by decide
  obtain ⟨before, n, has, hentry, sticky, -⟩ := held 0 _ hh
  have two : s.network.graph.streaks.lookup 0 = some 2 := by decide
  have hn : n + 1 = 2 := Option.some.inj (hentry.symm.trans two)
  exact ⟨hr, two, _, hh, rfl, (sticky 2 rfl (by decide)).2 hn⟩

end Pipework
