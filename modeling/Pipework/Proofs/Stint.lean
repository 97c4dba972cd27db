import Pipework.Proofs.Backoff
import Pipework.Proofs.Network.Calls
import Pipework.Worker

/-!
# One assignment

A `Stint` is a worker at the stage that it was given, from the first call to the last. Meanwhile the
others do what they like, and the worker may be retired at any time; if they do nothing a turn of a
stint is a turn of the worker (`Worker.turn_of_call`). As long as the stage has nothing to do, is
running at the end of the wait, and there was a wait left, the worker calls it again
(`Stint.Going`); every other call is the last (`Stint.Done`), and its outcome is that of the
assignment (`assignment_ends`).
-/

namespace Pipework

variable {W : Type} {B : Bodies W} {i : StageId} {k : Knobs} {n : Nat}

/-! ### The schedule -/

/-- The first waits of the schedule of a stage. -/
def Backoff.waits (i : StageId) (k : Knobs) (n : Nat) : List Duration :=
  (List.range n).map fun j => (start i k).wait (j + 1)

namespace Backoff

theorem length_waits (i : StageId) (k : Knobs) (n : Nat) : (waits i k n).length = n := by
  simp [waits]

theorem waits_succ (i : StageId) (k : Knobs) (n : Nat) :
    waits i k (n + 1) = waits i k n ++ [(start i k).wait (n + 1)] := by
  simp [waits, List.range_succ]

/-- The wait after a call of a stage that has nothing to do. -/
theorem next_waits_of_lt (h : n < k.tries) :
    (past i k (waits i k n)).next =
      (some ((start i k).wait (n + 1)), past i k (waits i k (n + 1))) := by
  have few : (waits i k n).length < k.tries := by rwa [length_waits]
  have granted : (past i k (waits i k n)).next = _ := next_past_of_lt few
  rwa [length_waits, ← waits_succ] at granted

theorem next_waits_of_le (h : k.tries ≤ n) :
    (past i k (waits i k n)).next = (none, past i k (waits i k n)) :=
  next_past_of_le (by rwa [length_waits])

/-- What a worker decides after a call. -/
theorem decide_waits (i : StageId) (k : Knobs) (n : Nat) (o : Outcome) (retiring running : Bool) :
    (past i k (waits i k n)).decide o retiring running =
      if o ≠ .comeBackLater ∨ retiring = true then .yield none
      else if n < k.tries then
        if running then .again ((start i k).wait (n + 1)) (past i k (waits i k (n + 1)))
        else .yield (some ((start i k).wait (n + 1)))
      else .giveUp := by
  unfold decide
  by_cases ho : o ≠ .comeBackLater ∨ retiring = true
  · rw [if_pos ho, if_pos ho]
  · rw [if_neg ho, if_neg ho]
    by_cases hn : n < k.tries
    · rw [if_pos hn, next_waits_of_lt hn]
    · rw [if_neg hn, next_waits_of_le (Nat.le_of_not_lt hn)]

end Backoff

/-- How long a worker waits after a call. -/
def Decision.wait : Decision → Option Duration
  | .again d _ => some d
  | .yield d => d
  | .giveUp => none

namespace StageMetrics

theorem exhaustions_record (m : StageMetrics) (o : Outcome) (items : UInt64) (d : Duration) :
    (m.record o items d).exhaustions = m.exhaustions := by
  cases o <;> rfl

end StageMetrics

/-- How often a stage was given up because no wait was left. -/
def Engine.exhaustions (e : Engine W) (i : StageId) : UInt64 :=
  (e.graph.stage i).metrics.exhaustions

/-- A call does not count as giving up. -/
theorem Network.exhaustions_call (n : Network W) (B : Bodies W) (i j : StageId) (v : Visit) :
    ((n.call B i v).2.2.graph.stage j).metrics.exhaustions =
      (n.graph.stage j).metrics.exhaustions := by
  unfold call
  simp only
  split
  · rfl
  · exact Graph.map_stage_modify (fun s => s.metrics.exhaustions)
      (fun s => s.metrics.exhaustions_record ..) i j

/-! ### Stints -/

/-- What the others do while a worker is at a stage: what they make of the engine before each of its
turns and between a call and the end of the wait after it, and whether they have retired it by the
end of that call. They take no stage away. -/
structure Others (W : Type) where
  before : Nat → Engine W → Engine W
  meanwhile : Nat → Engine W → Engine W
  retiring : Nat → Bool
  size_before : ∀ n e, e.graph.size ≤ (before n e).graph.size
  size_meanwhile : ∀ n e, e.graph.size ≤ (meanwhile n e).graph.size

/-- A call that has ended, and what the worker found. -/
structure Attempt where
  outcome : Outcome
  /-- Whether the worker was retiring. -/
  retiring : Bool
  /-- Whether the stage was running, at the end of the wait if there was one. -/
  running : Bool
  /-- How long the worker waited after the call. -/
  wait : Option Duration
  deriving DecidableEq

/-- A call after which the worker calls again. -/
def Attempt.fruitless (wait : Duration) : Attempt := ⟨.comeBackLater, false, true, some wait⟩

/-- A worker at a stage. -/
structure Stint (W : Type) where
  engine : Engine W
  worker : Worker
  /-- The calls that have ended. -/
  attempts : List Attempt := []
  /-- How often the worker looked for a call that was suspended. -/
  suspended : Nat := 0
  /-- By how much what the worker itself did made the count of exhaustions grow. -/
  grown : UInt64 := 0
  /-- The outcome of the assignment, once it is over. -/
  result : Option Outcome := none

namespace Stint

/-- The stint of a worker that has just been given a stage. -/
def start (e : Engine W) (w : Worker) (i : StageId) (k : Knobs) : Stint W :=
  { engine := e, worker := { w with activity := .call i k (.start i k) } }

/-- What the others have done in the meantime. -/
def meet (t : Stint W) (e : Engine W) (retiring : Bool) : Stint W :=
  { t with engine := e, worker := { t.worker with retiring } }

/-- Calls the stage. -/
def call (B : Bodies W) (t : Stint W) (i : StageId) (k : Knobs) : Option Outcome × Stint W :=
  let r := t.engine.network.call B i (.start t.worker.id t.worker.location k.chunk)
  let e := { t.engine with network := r.2.2 }
  (r.1, { t with engine := e, grown := t.grown + (e.exhaustions i - t.engine.exhaustions i) })

/-- The call is suspended. -/
def suspend (t : Stint W) : Stint W :=
  { t with worker := { t.worker with waiting := true }, suspended := t.suspended + 1 }

/-- What follows a call that has ended. -/
def conclude (t : Stint W) (i : StageId) (k : Knobs) (b : Backoff) (o : Outcome) : Stint W :=
  let running := (t.engine.graph.stage i).state == .running
  let r := t.worker.back.conclude t.engine i k b o
  { t with
    engine := r.2.1
    worker := r.2.2
    attempts :=
      t.attempts ++ [⟨o, t.worker.retiring, running, (b.decide o t.worker.retiring running).wait⟩]
    grown := t.grown + (r.2.1.exhaustions i - t.engine.exhaustions i)
    result := r.1 }

/-- A call, and what the worker decides after it. -/
def turn (B : Bodies W) (others : Others W) (n : Nat) (t : Stint W) : Stint W :=
  match t.result, t.worker.activity with
  | none, .call i k b =>
    let r := (t.meet (others.before n t.engine) t.worker.retiring).call B i k
    match r.1 with
    | none => r.2.suspend
    | some o => (r.2.meet (others.meanwhile n r.2.engine) (others.retiring n)).conclude i k b o
  | _, _ => t

/-- A stint after some turns. -/
def after (B : Bodies W) (others : Others W) (t : Stint W) : Nat → Stint W
  | 0 => t
  | n + 1 => (t.after B others n).turn B others n

end Stint

/-- Others who do nothing. -/
def Others.idle (retiring : Bool) : Others W where
  before _ e := e
  meanwhile _ e := e
  retiring _ := retiring
  size_before _ _ := Nat.le_refl _
  size_meanwhile _ _ := Nat.le_refl _

/-- A turn of a worker that calls a stage is a turn of a stint, and if that was the last one the
worker reports its outcome. -/
theorem Worker.turn_of_call {e : Engine W} {w : Worker} {b : Backoff}
    (ha : w.activity = .call i k b) :
    w.turn B e =
      let t := Stint.turn B (.idle w.retiring) 0 { engine := e, worker := w }
      match t.result with
      | none => (t.engine, t.worker)
      | some o => t.worker.report B t.engine i o := by
  obtain ⟨id, location, activity, current, retiring, waiting, overdue, metrics⟩ := w
  obtain rfl : activity = .call i k b := ha
  simp only [turn, callOnce, Stint.turn, Others.idle, Stint.meet, Stint.call]
  cases (e.network.call B i (.start id location k.chunk)).1 with
  | none => rfl
  | some o =>
    simp only [Stint.conclude]
    split <;> (rename_i hc; simp only [hc])

namespace Stint

/-! ### One turn -/

/-- The worker has called the stage some times and is about to call it again. -/
structure Going (i : StageId) (k : Knobs) (m n : Nat) (t : Stint W) : Prop where
  result : t.result = none
  activity : t.worker.activity = .call i k (.past i k (Backoff.waits i k m))
  attempts : t.attempts = (Backoff.waits i k m).map .fruitless
  few : m ≤ k.tries
  turns : m + t.suspended = n
  grown : t.grown = 0
  size : i < t.engine.graph.size

/-- Why a call was the last one, and what it adds to the count of exhaustions. -/
inductive Ends (i : StageId) (k : Knobs) (m : Nat) : Attempt → UInt64 → Prop where
  | answered {a : Attempt} (h : a.outcome ≠ .comeBackLater ∨ a.retiring = true)
    (wait : a.wait = none) : Ends i k m a 0
  | exhausted {a : Attempt} (outcome : a.outcome = .comeBackLater) (retiring : a.retiring = false)
    (wait : a.wait = none) (last : m = k.tries) : Ends i k m a 1
  | stopped {a : Attempt} (outcome : a.outcome = .comeBackLater) (retiring : a.retiring = false)
    (wait : a.wait = some ((Backoff.start i k).wait (m + 1))) (running : a.running = false)
      (left : m < k.tries) : Ends i k m a 0

/-- The worker has called the stage some times, and then once more. -/
structure Done (i : StageId) (k : Knobs) (m : Nat) (a : Attempt) (t : Stint W) : Prop where
  result : t.result = some a.outcome
  attempts : t.attempts = (Backoff.waits i k m).map .fruitless ++ [a]
  few : m ≤ k.tries
  ends : Ends i k m a t.grown

variable {others : Others W} {t : Stint W} {m : Nat} {a : Attempt}

namespace Going

theorem meet (g : t.Going i k m n) {e : Engine W} (he : t.engine.graph.size ≤ e.graph.size)
    (retiring : Bool) :
    (t.meet e retiring).Going i k m n :=
  { g with size := Nat.lt_of_lt_of_le g.size he }

theorem call (g : t.Going i k m n) : (t.call B i k).2.Going i k m n where
  result := g.result
  activity := g.activity
  attempts := g.attempts
  few := g.few
  turns := g.turns
  grown := by
    have uncounted : (t.call B i k).2.engine.exhaustions i = t.engine.exhaustions i :=
      t.engine.network.exhaustions_call B i i _
    change t.grown + ((t.call B i k).2.engine.exhaustions i - t.engine.exhaustions i) = 0
    rw [uncounted, g.grown, UInt64.sub_self]
    rfl
  size := by
    have bare : (t.call B i k).2.engine.graph.bare = t.engine.graph.bare :=
      (t.engine.network.alike_call B i _).bare
    rw [Graph.size_of_bare bare]
    exact g.size

theorem suspend (g : t.Going i k m n) : t.suspend.Going i k m (n + 1) :=
  { g with turns := congrArg (· + 1) g.turns }

/-- After a call the worker goes on if the stage has nothing to do, is running at the end of the
wait, and there was a wait. -/
theorem conclude (g : t.Going i k m n) (o : Outcome) :
    let t' := t.conclude i k (.past i k (Backoff.waits i k m)) o
    t'.Going i k (m + 1) (n + 1) ∨ ∃ a, t'.Done i k m a := by
  intro t'
  have decided :=
    Backoff.decide_waits i k m o t.worker.retiring ((t.engine.graph.stage i).state == .running)
  have uncounted : t.grown + (t.engine.exhaustions i - t.engine.exhaustions i) = 0 := by
    rw [g.grown, UInt64.sub_self]
    rfl
  by_cases hy : o ≠ .comeBackLater ∨ t.worker.retiring = true
  · right
    rw [if_pos hy] at decided
    refine ⟨⟨o, t.worker.retiring, (t.engine.graph.stage i).state == .running, none⟩, ?_⟩
    simp only [t', Stint.conclude, Worker.conclude, Worker.back, decided, Decision.wait]
    refine ⟨rfl, by rw [g.attempts], g.few, ?_⟩
    rw [uncounted]
    exact .answered hy rfl
  rw [if_neg hy] at decided
  obtain ⟨rfl, hretiring⟩ : o = .comeBackLater ∧ t.worker.retiring = false := by
    rw [not_or, not_not, Bool.not_eq_true] at hy
    exact hy
  by_cases hm : m < k.tries
  · rw [if_pos hm] at decided
    cases hrunning : (t.engine.graph.stage i).state == .running with
    | true =>
      left
      rw [hrunning, if_pos rfl] at decided
      simp only [t', Stint.conclude, Worker.conclude, Worker.back, hrunning, decided, Decision.wait]
      refine ⟨rfl, rfl, ?_, hm, ?_, uncounted, g.size⟩
      · rw [g.attempts, Backoff.waits_succ, List.map_append, hretiring]
        rfl
      · change m + 1 + t.suspended = n + 1
        have := g.turns
        omega
    | false =>
      right
      rw [hrunning, if_neg Bool.false_ne_true] at decided
      refine ⟨⟨.comeBackLater, t.worker.retiring, false, some ((Backoff.start i k).wait (m + 1))⟩,
        ?_⟩
      simp only [t', Stint.conclude, Worker.conclude, Worker.back, hrunning, decided, Decision.wait]
      refine ⟨rfl, by rw [g.attempts], g.few, ?_⟩
      rw [uncounted]
      exact .stopped rfl hretiring rfl rfl hm
  · right
    rw [if_neg hm] at decided
    let given := t.engine.mapNetwork
      (·.mapGraph (·.modify i fun s => { s with metrics := s.metrics.recordExhaustion }))
    have counted : t.grown + (given.exhaustions i - t.engine.exhaustions i) = 1 := by
      have one : given.exhaustions i = t.engine.exhaustions i + 1 :=
        congrArg (fun s : Stage => s.metrics.exhaustions) (Graph.stage_modify_self g.size _)
      rw [g.grown, one, UInt64.add_comm _ 1, UInt64.add_sub_cancel]
      rfl
    refine ⟨⟨.comeBackLater, t.worker.retiring, (t.engine.graph.stage i).state == .running, none⟩,
      ?_⟩
    simp only [t', Stint.conclude, Worker.conclude, Worker.back, decided, Decision.wait]
    refine ⟨rfl, by rw [g.attempts], g.few, ?_⟩
    rw [counted]
    exact .exhausted rfl hretiring rfl (Nat.le_antisymm g.few (Nat.le_of_not_lt hm))

end Going

/-- An assignment that is over stays as it is. -/
theorem Done.turn (d : t.Done i k m a) (n : Nat) : t.turn B others n = t := by
  unfold Stint.turn
  rw [d.result]

/-- **One turn.** Either the worker goes on, or that was the last call. -/
theorem Going.turn (g : t.Going i k m n) (B : Bodies W) (others : Others W) :
    (∃ m', (t.turn B others n).Going i k m' (n + 1)) ∨ ∃ a, (t.turn B others n).Done i k m a := by
  have called := (g.meet (others.size_before n t.engine) t.worker.retiring).call (B := B)
  unfold Stint.turn
  rw [g.result, g.activity]
  simp only
  split
  · exact .inl ⟨m, called.suspend⟩
  · rename_i o _
    exact ((called.meet (others.size_meanwhile n _) (others.retiring n)).conclude o).imp
      (⟨m + 1, ·⟩) id

/-- **A whole stint.** After any number of turns the worker is still going, or the assignment is
over. -/
theorem after_cases (B : Bodies W) (others : Others W) (e : Engine W) (w : Worker)
    (hi : i < e.graph.size) (n : Nat) :
    let t := (start e w i k).after B others n
    (∃ m, t.Going i k m n) ∨ ∃ m a, t.Done i k m a := by
  induction n with
  | zero => exact .inl ⟨0, rfl, rfl, rfl, Nat.zero_le _, rfl, rfl, hi⟩
  | succ n ih =>
    rcases ih with ⟨m, g⟩ | ⟨m, a, d⟩
    · rcases g.turn B others with going | ⟨a, d⟩
      · exact .inl going
      · exact .inr ⟨m, a, d⟩
    · refine .inr ⟨m, a, ?_⟩
      rw [after, d.turn]
      exact d

/-! ### What is on record -/

theorem exists_of_mem_fruitless {l : List Duration} (ha : a ∈ l.map .fruitless) :
    ∃ wait, a = .fruitless wait := by
  obtain ⟨wait, -, rfl⟩ := List.mem_map.1 ha
  exact ⟨wait, rfl⟩

theorem wait_fruitless {j : Nat} (hj : j < ((Backoff.waits i k m).map Attempt.fruitless).length) :
    ((Backoff.waits i k m).map Attempt.fruitless)[j].wait =
      some ((Backoff.start i k).wait (j + 1)) := by
  simp [Attempt.fruitless, Backoff.waits]

theorem Going.length (g : t.Going i k m n) : t.attempts.length = m := by
  rw [g.attempts, List.length_map, Backoff.length_waits]

theorem Done.length (d : t.Done i k m a) : t.attempts.length = m + 1 := by
  rw [d.attempts, List.length_append, List.length_map, Backoff.length_waits, List.length_singleton]

theorem Ends.wait {grown : UInt64} (h : Ends i k m a grown) {wait : Duration}
    (hw : a.wait = some wait) :
    wait = (Backoff.start i k).wait (m + 1) := by
  cases h with
  | answered _ none =>
    rw [none] at hw
    cases hw
  | exhausted _ _ none _ =>
    rw [none] at hw
    cases hw
  | stopped _ _ last _ _ =>
    rw [last] at hw
    exact (Option.some.inj hw).symm

/-- The wait after a call is that of the schedule. -/
theorem Going.wait (g : t.Going i k m n) {j : Nat} (hj : j < t.attempts.length) {wait : Duration}
    (hw : t.attempts[j].wait = some wait) : wait = (Backoff.start i k).wait (j + 1) := by
  have hj' : j < ((Backoff.waits i k m).map Attempt.fruitless).length := g.attempts ▸ hj
  rw [List.getElem_of_eq g.attempts hj, wait_fruitless hj'] at hw
  exact (Option.some.inj hw).symm

theorem Done.wait (d : t.Done i k m a) {j : Nat} (hj : j < t.attempts.length) {wait : Duration}
    (hw : t.attempts[j].wait = some wait) : wait = (Backoff.start i k).wait (j + 1) := by
  have hlength : ((Backoff.waits i k m).map Attempt.fruitless).length = m := by
    rw [List.length_map, Backoff.length_waits]
  rw [List.getElem_of_eq d.attempts hj] at hw
  by_cases hjm : j < m
  · rw [List.getElem_append_left (hlength.symm ▸ hjm), wait_fruitless] at hw
    exact (Option.some.inj hw).symm
  · obtain rfl : j = m := by
      have := d.length
      omega
    rw [List.getElem_append_right (Nat.le_of_eq hlength)] at hw
    simp only [List.getElem_singleton] at hw
    exact d.ends.wait hw

end Stint

/-- **How an assignment ends.** A worker that has been given a stage takes turns, while the others
do what they like; what the body of the stage does, the knobs, and when the worker is retired are
arbitrary. The worker makes no more calls than there are waits and one, and by then the assignment
is over. After all calls but the last the stage had nothing to do, the worker was not retiring, and
the stage was running at the end of the wait; the outcome of the assignment is that of the last
call, after which one of these was not so or no wait was left. The wait after each call is that of
the schedule. What the worker does adds one to the exhaustions of the stage if the stage had nothing
to do after all calls, no wait was left, and the worker was not retiring, and otherwise nothing. -/
theorem assignment_ends (B : Bodies W) (others : Others W) (e : Engine W) (w : Worker) (i : StageId)
    (k : Knobs) (hi : i < e.graph.size) (n : Nat) :
    let t := (Stint.start e w i k).after B others n
    t.attempts.length ≤ k.tries + 1 ∧
      (k.tries + t.suspended < n → t.result.isSome = true) ∧
      (t.result = none →
        t.attempts.length + t.suspended = n ∧ t.grown = 0 ∧
        ∀ a ∈ t.attempts, ∃ wait, a = .fruitless wait) ∧
      (∀ o, t.result = some o → ∃ before a, t.attempts = before ++ [a] ∧
        (∀ b ∈ before, ∃ wait, b = .fruitless wait) ∧
        a.outcome = o ∧
        (o ≠ .comeBackLater ∨ a.retiring = true ∨ t.attempts.length = k.tries + 1 ∨
          (a.wait.isSome = true ∧ a.running = false)) ∧
        t.grown =
          if t.attempts.length = k.tries + 1 ∧ o = .comeBackLater ∧ a.retiring = false then 1
          else 0) ∧
      ∀ j (hj : j < t.attempts.length) wait, t.attempts[j].wait = some wait →
        wait.nanos = k.wait (j + 1) ∧ (k.checkin.nanos ≠ 0 → wait.nanos ≤ k.checkin.nanos) := by
  intro t
  have scheduled : ∀ j wait, wait = (Backoff.start i k).wait (j + 1) →
      wait.nanos = k.wait (j + 1) ∧ (k.checkin.nanos ≠ 0 → wait.nanos ≤ k.checkin.nanos) := by
    rintro j wait rfl
    rw [Backoff.nanos_wait i k (Nat.le_add_left 1 j)]
    exact ⟨rfl, fun hk => k.wait_le_checkin hk (j + 1)⟩
  rcases Stint.after_cases B others e w hi n with ⟨m, g⟩ | ⟨m, a, d⟩
  · have hlength : t.attempts.length = m := g.length
    have hturns : m + t.suspended = n := g.turns
    have hfew := g.few
    have hresult : t.result = none := g.result
    refine ⟨by omega, fun h => by omega, fun _ => ⟨by omega, g.grown, fun a ha => ?_⟩,
      fun o ho => ?_, fun j hj wait hw => scheduled j wait (g.wait hj hw)⟩
    · rw [g.attempts] at ha
      exact Stint.exists_of_mem_fruitless ha
    · rw [hresult] at ho
      cases ho
  · have hlength : t.attempts.length = m + 1 := d.length
    have hfew := d.few
    have hresult : t.result = some a.outcome := d.result
    have hends : Stint.Ends i k m a t.grown := d.ends
    refine ⟨by omega, fun _ => by rw [hresult]; rfl, fun h => ?_, fun o ho => ?_,
      fun j hj wait hw => scheduled j wait (d.wait hj hw)⟩
    · rw [hresult] at h
      cases h
    · obtain rfl : a.outcome = o := Option.some.inj (hresult.symm.trans ho)
      refine ⟨_, a, d.attempts, fun b hb => Stint.exists_of_mem_fruitless hb, rfl, ?_⟩
      rw [hlength]
      generalize t.grown = grown at hends ⊢
      cases hends with
      | answered h wait =>
        have : ¬ (m + 1 = k.tries + 1 ∧ a.outcome = .comeBackLater ∧ a.retiring = false) :=
          fun hc => h.elim (· hc.2.1) fun hr => by rw [hr] at hc; cases hc.2.2
        exact ⟨h.imp_right .inl, (if_neg this).symm⟩
      | exhausted outcome retiring wait last =>
        exact ⟨.inr (.inr (.inl (by rw [last]))), (if_pos ⟨by rw [last], outcome, retiring⟩).symm⟩
      | stopped outcome retiring wait running left =>
        have : ¬ (m + 1 = k.tries + 1 ∧ a.outcome = .comeBackLater ∧ a.retiring = false) :=
          fun hc => by omega
        exact ⟨.inr (.inr (.inr ⟨by rw [wait]; rfl, running⟩)), (if_neg this).symm⟩

/-- A source that never has anything to do is called three times where there are two waits, and then
given up. -/
theorem assignment_ends_exhausted :
    let g := (Graph.ofParts [.stage "a" .source false, .source 0]).enterRunning 0
    let e : Engine Unit := { network := ⟨g, ()⟩, scheduler := ⟨.roundRobin, 1⟩ }
    let k : Knobs := { tries := 2 }
    let t := (Stint.start e (.hire e.scheduler 0) 0 k).after .inert (.idle false) 3
    0 < e.graph.size ∧ k.tries + t.suspended < 3 ∧ t.result = some .comeBackLater ∧
    t.attempts.length = 3 ∧ t.grown = 1 := by
  intro g e k t
  have hi : 0 < e.graph.size := by decide
  have hn : k.tries + t.suspended < 3 := by decide
  obtain ⟨-, settled, -, ends, -⟩ :=
    assignment_ends .inert (.idle false) e (.hire e.scheduler 0) 0 k hi 3
  obtain ⟨o, ho⟩ := Option.isSome_iff_exists.1 (settled hn)
  obtain ⟨before, a, hat, -, rfl, -, hgrown⟩ := ends o ho
  have last : t.attempts.getLast? = some ⟨.comeBackLater, false, true, none⟩ := by decide
  have length : t.attempts.length = 3 := by decide
  obtain rfl : a = ⟨.comeBackLater, false, true, none⟩ := by
    rw [hat, List.getLast?_concat] at last
    exact Option.some.inj last
  exact ⟨hi, hn, ho, length, hgrown.trans (if_pos ⟨length, rfl, rfl⟩)⟩

end Pipework
