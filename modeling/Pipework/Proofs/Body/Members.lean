import Mathlib.Tactic.Common
import Pipework.Proofs.Body.Work

/-!
# Calling the members of a group

A call of a group goes through its members in order. One lemma for each thing that can happen at a
member says what the call of the whole row comes to (`Members.execute_cons_over`, `_panicked`,
`_suspended`, `_failed`, `_returned`, and all of them in `Members.execute_cons_cases`). A call
leaves the members what they were built as, and it puts nothing into a queue that all of them spare
(`Members.frame_execute`).
-/

namespace Pipework

variable {α σ : Type}

namespace Members

/-- Members are a list, whatever their bodies are made of. -/
@[induction_eliminator]
theorem listInduction {motive : Members α σ → Prop} (nil : motive .nil)
    (cons : ∀ m b rest, motive rest → motive (.cons m b rest)) : ∀ ms, motive ms
  | .nil => nil
  | .cons m b rest => cons m b rest (listInduction nil cons rest)

/-- The bodies of the members, in order. -/
def bodies : Members α σ → List (Body α σ)
  | .nil => []
  | .cons _ b rest => b :: rest.bodies

/-- Where a call is when it reaches a member: how far it has come, and what has been handled by
then. It may pass over the member. -/
def here (m : Standing) (p? : Option Passage) (v : Visit) : Option (Passage × UInt64) :=
  match p? with
  | some p => if m.finished then none else some (p, v.items)
  | none => (m.stayOf? v.worker).map fun t => (t.passage, t.items)

/-- Whether a member is finished after a call of it that was not cut short. -/
def finishedAfter (m : Standing) (p : Passage) (o : Outcome) (r : Run (Body α σ) α σ) : Bool :=
  m.finished || o == .finished || (p.above == some true && r.body.pending r.store == 0)

/-- How far a call has come past a member that was called. -/
def pastCalled (m : Standing) (p : Passage) (o : Outcome) (r : Run (Body α σ) α σ) : Passage :=
  p.past (finishedAfter m p o r) (o == .success || (o == .finished && r.visit.items != 0))

/-! ### One member after the other -/

section

variable {m : Standing} {b : Body α σ} {p? : Option Passage} {p : Passage} {v : Visit}
  {items : UInt64} {s : Store α σ}

theorem here_of_no_stays (hm : m.stays = []) (h : here m p? v = some (p, items)) :
    items = v.items := by
  cases p? with
  | none => simp [here, Standing.stayOf?, hm] at h
  | some p' =>
    simp only [here] at h
    split at h <;> cases h
    rfl

theorem execute_cons_over (h : here m p? v = none) (rest : Members α σ) :
    (cons m b rest).execute p? v s =
      let c := rest.execute (p?.map (·.past true false)) v s
      ⟨c.round, c.visit, .cons m b c.members, c.store⟩ := by
  unfold here at h
  rw [Members.execute.eq_def]
  cases p? <;> simp only at h ⊢ <;> simp only [h]

variable {r : Run (Body α σ) α σ} (h : here m p? v = some (p, items))
  (hr : b.execute (.start v.worker v.location v.chunk) s = r)
include h hr

theorem execute_cons_panicked {e : Panic} (he : r.ending = .panicked e) (rest : Members α σ) :
    (cons m b rest).execute p? v s =
      ⟨.cut (.panicked e), { v with items }, .cons (m.freed v.worker) r.body rest, r.store⟩ := by
  unfold here at h
  rw [Members.execute.eq_def]
  cases p? <;> simp only at h ⊢ <;> simp only [h, hr, he]

theorem execute_cons_suspended (he : r.ending = .suspended) (rest : Members α σ) :
    (cons m b rest).execute p? v s =
      ⟨.cut .suspended, { v with items }, .cons ((m.freed v.worker).holding ⟨v.worker, p, items⟩)
        r.body rest, r.store⟩ := by
  unfold here at h
  rw [Members.execute.eq_def]
  cases p? <;> simp only at h ⊢ <;> simp only [h, hr, he]

theorem execute_cons_failed {f : StageError} (he : r.ending = .returned (.failed f))
    (rest : Members α σ) :
    (cons m b rest).execute p? v s =
      ⟨.cut (.returned (.failed f)), { v with items := items + r.visit.items },
        .cons (m.freed v.worker) r.body rest, r.store⟩ := by
  unfold here at h
  rw [Members.execute.eq_def]
  cases p? <;> simp only at h ⊢ <;> simp only [h, hr, he]

theorem execute_cons_returned {o : Outcome} (he : r.ending = .returned o) (ho : ∀ f, o ≠ .failed f)
    (rest : Members α σ) :
    (cons m b rest).execute p? v s =
      let c :=
        rest.execute (some (pastCalled m p o r)) { v with items := items + r.visit.items } r.store
      ⟨c.round, c.visit, .cons { m.freed v.worker with finished := finishedAfter m p o r } r.body
        c.members, c.store⟩ := by
  unfold here at h
  rw [Members.execute.eq_def]
  cases o with
  | failed f => exact absurd rfl (ho f)
  | _ => cases p? <;> simp only at h ⊢ <;> simp only [h, hr, he] <;> rfl

end

/-- What can happen at a member: the call passes over it, is cut short in it, or goes on after
it. -/
theorem execute_cons_cases (m : Standing) (b : Body α σ) (rest : Members α σ) (p? : Option Passage)
    (v : Visit) (s : Store α σ) :
    let r := b.execute (.start v.worker v.location v.chunk) s
    (here m p? v = none ∧ (cons m b rest).execute p? v s =
      let c := rest.execute (p?.map (·.past true false)) v s
      ⟨c.round, c.visit, .cons m b c.members, c.store⟩) ∨
    (∃ v' m', (∀ o, r.ending = .returned o → m' = m.freed v.worker ∧ ∃ f, o = .failed f) ∧
      (cons m b rest).execute p? v s = ⟨.cut r.ending, v', .cons m' r.body rest, r.store⟩) ∨
    ∃ p items o, here m p? v = some (p, items) ∧ r.ending = .returned o ∧ (∀ f, o ≠ .failed f) ∧
      (cons m b rest).execute p? v s =
        let c :=
          rest.execute (some (pastCalled m p o r)) { v with items := items + r.visit.items } r.store
        ⟨c.round, c.visit, .cons { m.freed v.worker with finished := finishedAfter m p o r } r.body
          c.members, c.store⟩ := by
  intro r
  cases hh : here m p? v with
  | none => exact .inl ⟨rfl, execute_cons_over hh rest⟩
  | some x =>
    obtain ⟨p, items⟩ := x
    refine .inr ?_
    cases he : r.ending with
    | panicked e => exact .inl ⟨_, _, nofun, execute_cons_panicked hh rfl he rest⟩
    | suspended => exact .inl ⟨_, _, nofun, execute_cons_suspended hh rfl he rest⟩
    | returned o =>
      by_cases ho : ∃ f, o = .failed f
      · obtain ⟨f, rfl⟩ := ho
        exact .inl ⟨_, _, fun o ho => ⟨rfl, f, (Ending.returned.inj ho).symm⟩,
          execute_cons_failed hh rfl he rest⟩
      · have ho' : ∀ f, o ≠ .failed f := fun f hf => ho ⟨f, hf⟩
        exact .inr ⟨p, items, o, rfl, rfl, ho', execute_cons_returned hh rfl he ho' rest⟩

/-- A member that returns cuts a row short only when it fails. -/
theorem failed_of_cut {ms : Members α σ} {p? : Option Passage} {v : Visit} {s : Store α σ}
    {o : Outcome} (h : (ms.execute p? v s).round = .cut (.returned o)) : ∃ f, o = .failed f := by
  induction ms generalizing p? v s with
  | nil => cases h
  | cons m b rest ih =>
    rcases execute_cons_cases m b rest p? v s with ⟨-, hc⟩ | ⟨v', m', hm', hc⟩ |
      ⟨p, items, o', -, -, -, hc⟩
    · rw [hc] at h
      exact ih h
    · rw [hc] at h
      exact (hm' o (Round.cut.inj h)).2
    · rw [hc] at h
      exact ih h

/-! ### What a call leaves as it was -/

/-- A call leaves members what they were built as, and it leaves a dry queue dry if all of them
spare it. -/
theorem frame_execute (ms : Members α σ) (hp : ∀ b ∈ ms.bodies, b.isPlain = true)
    (p? : Option Passage) (v : Visit) (s : Store α σ) :
    (ms.execute p? v s).members.bodies.map Body.core = ms.bodies.map Body.core ∧
      ∀ q, (∀ b ∈ ms.bodies, b.Spares q) → s.Dry q → (ms.execute p? v s).store.Dry q := by
  induction ms generalizing p? v s with
  | nil => exact ⟨rfl, fun q _ h => h⟩
  | cons m b rest ih =>
    have hrest : ∀ b' ∈ rest.bodies, b'.isPlain = true := fun b' hb' =>
      hp b' (List.mem_cons_of_mem _ hb')
    let r := b.execute (.start v.worker v.location v.chunk) s
    have core : r.body.core = b.core := Body.core_execute (hp b (List.mem_cons_self ..)) _ s
    have dry : ∀ q, (∀ b' ∈ (cons m b rest).bodies, b'.Spares q) → s.Dry q → r.store.Dry q :=
      fun q hq h => Body.dry_execute (hq b (List.mem_cons_self ..)) _ h
    rcases execute_cons_cases m b rest p? v s with ⟨-, hc⟩ | ⟨v', m', -, hc⟩ |
      ⟨p, items, o, -, -, -, hc⟩
    · rw [hc]
      obtain ⟨hcore, hdry⟩ := ih hrest (p?.map (·.past true false)) v s
      exact ⟨congrArg (b.core :: ·) hcore,
        fun q hq => hdry q fun b' hb' => hq b' (List.mem_cons_of_mem _ hb')⟩
    · rw [hc]
      exact ⟨congrArg (· :: rest.bodies.map Body.core) core, dry⟩
    · rw [hc]
      obtain ⟨hcore, hdry⟩ :=
        ih hrest (some (pastCalled m p o r)) { v with items := items + r.visit.items } r.store
      refine ⟨?_, fun q hq h => hdry q (fun b' hb' => hq b' (List.mem_cons_of_mem _ hb'))
        (dry q hq h)⟩
      exact congrArg₂ List.cons core hcore

end Members

/-! ### The row of a group -/

namespace Body

section

variable (ms : Members α σ) (v : Visit) (s : Store α σ)

/-- The row of members as a call of their group goes through it. -/
def row : Called α σ := ms.execute (if ms.holds v.worker then none else some {}) v s

theorem visit_execute_group : ((Body.group ms).execute v s).visit = (row ms v s).visit := by
  unfold execute row
  simp only
  split <;> rfl

theorem body_execute_group : ((Body.group ms).execute v s).body = .group (row ms v s).members := by
  unfold execute row
  simp only
  split <;> rfl

theorem store_execute_group : ((Body.group ms).execute v s).store = (row ms v s).store := by
  unfold execute row
  simp only
  split <;> rfl

variable {ms v s}

theorem ending_of_cut {e : Ending} (h : (row ms v s).round = .cut e) :
    ((Body.group ms).execute v s).ending = e := by
  unfold execute
  simp only
  unfold row at h
  rw [h]

/-- A group says that it is finished only when all its members are. -/
theorem allFinished_of_finished (h : ((Body.group ms).execute v s).ending = .returned .finished) :
    (row ms v s).members.allFinished = true := by
  cases hr : (row ms v s).round with
  | cut e =>
    obtain ⟨f, hf⟩ :=
      Members.failed_of_cut (hr.trans (congrArg Round.cut ((ending_of_cut hr).symm.trans h)))
    cases hf
  | through progressed =>
    unfold row at hr ⊢
    unfold execute at h
    simp only [hr] at h
    by_contra hn
    rw [if_neg hn] at h
    split at h <;> cases h

theorem cut_of_suspended (h : ((Body.group ms).execute v s).ending = .suspended) :
    (row ms v s).round = .cut .suspended := by
  cases hr : (row ms v s).round with
  | cut e => rw [ending_of_cut hr] at h; rw [h]
  | through progressed =>
    unfold row at hr
    unfold execute at h
    simp only [hr] at h
    cases h

end

end Body

end Pipework
