import Pipework.Proofs.Body.Blocks
import Pipework.Proofs.Queue.Batch
import Pipework.Script.Body

/-!
# Calls of a split that never return

The loop of a split ends when the chunk is used up, when results are left over, when there is no
block, and when the splitter stops it. A splitter that leaves something in a block without having
taken a parcel brings about none of these, and is called on the same block again. It may do so as
often as it likes, but not for ever: a call returns after finitely many calls of the splitter just
if it does not come to a block on which the splitter *stalls* (`Split.returns_iff`). Where the
splitter can say how much longer it will be idle all calls return (`Split.returns_of_rank`).

How long a call goes on is not known beforehand, so it is looked at through calls that are cut off
after some number of rounds (`Split.executeIn`). The call itself is one of them; it is cut off just
if it hangs, as long as the splitter tells the truth about the work in its blocks
(`Split.suspended_iff_hangs`), as scripted splitters do (`Script.honest_splitter`).
-/

namespace Pipework

variable {α σ : Type}

/-! ### Queues that are not touched -/

namespace Store

theorem setQueue_queue (s : Store α σ) (q : QueueId) : s.setQueue q (s.queue q) = s := by
  have hset : s.queues.set q (s.queue q) = s.queues := by
    unfold queue
    rw [List.getD_eq_getElem?_getD]
    by_cases hq : q < s.queues.length
    · rw [List.getElem?_eq_getElem hq]
      exact List.set_getElem_self hq
    · exact List.set_eq_of_length_le (Nat.le_of_not_lt hq)
  unfold setQueue
  rw [hset]

/-- Offering nothing does nothing. -/
@[simp] theorem pushMany_nil (s : Store α σ) (q : QueueId) : s.pushMany q [] = ([], s) := by
  unfold pushMany
  simp only [Queue.pushMany_nil, setQueue_queue]

end Store

/-! ### Splitters that do not get on -/

namespace Splitter

variable {sp : Splitter α σ} {a a' : α} {s s' : Store α σ}

/-- Called on the block `n` times in a row, the splitter never takes a parcel, and there is always
more in the block. -/
def Idles (sp : Splitter α σ) : Nat → α → Store α σ → Prop
  | 0, _, _ => True
  | n + 1, a, s =>
    ∃ a' s', sp.split a s = (.ok { parcels := [], block := a', done := false }, s') ∧
      sp.Idles n a' s'

/-- The splitter does not get on with the block, however often it is called. -/
def Stalls (sp : Splitter α σ) (a : α) (s : Store α σ) : Prop := ∀ n, sp.Idles n a s

/-- Neither splitting nor recycling changes what is in a queue. -/
def Spares (sp : Splitter α σ) (q : QueueId) : Prop :=
  ∀ a s, (sp.split a s).2.contents q = s.contents q ∧ (sp.recycle a s).contents q = s.contents q

/-- What the splitter says of the work in a block is true: a call that leaves something in the block
leaves less work, unless the splitter stalls on it. -/
def Honest (sp : Splitter α σ) : Prop :=
  ∀ a s p s', sp.split a s = (.ok p, s') → p.done = false → sp.work p.block < sp.work a ∨
    sp.Stalls a s

/-- So after a call of the splitter, and once what is done has been recycled. -/
theorem Spares.contents {q : QueueId} (h : sp.Spares q) {p : Portion α}
    (hs : sp.split a s = (.ok p, s')) :
    (if p.done then sp.recycle p.block s' else s').contents q = s.contents q := by
  have hsplit := (h a s).1
  rw [hs] at hsplit
  split
  · exact (h p.block s').2.trans hsplit
  · exact hsplit

theorem Stalls.next (h : sp.Stalls a s) :
    ∃ a' s', sp.split a s = (.ok { parcels := [], block := a', done := false }, s') ∧
      sp.Stalls a' s' := by
  obtain ⟨a', s', hs, -⟩ := h 1
  refine ⟨a', s', hs, fun n => ?_⟩
  obtain ⟨a'', s'', hs', hn⟩ := h (n + 1)
  rw [hs] at hs'
  cases hs'
  exact hn

/-- A splitter that can say how much longer it will be idle is idle no longer than that. -/
theorem Idles.le_rank {rank : α → Store α σ → Nat}
    (hrank : ∀ a s a' s', sp.split a s = (.ok { parcels := [], block := a', done := false }, s') →
      rank a' s' < rank a s)
    {n : Nat} (h : sp.Idles n a s) : n ≤ rank a s := by
  induction n generalizing a s with
  | zero => exact Nat.zero_le _
  | succ n ih =>
    obtain ⟨a', s', hs, hn⟩ := h
    exact (ih hn).trans_lt (hrank _ _ _ _ hs)

end Splitter

namespace Split

variable {b b' b₁ : Split α σ} {s s' s₁ : Store α σ} {a' block : α} {chunk pushed : Nat}

/-! ### Cutting the loop off -/

/-- The loop is to go on. -/
def GoesOn (b : Split α σ) (chunk pushed : Nat) : Prop := b.overflow = [] ∧ pushed < chunk

/-- The loop ends in its first round, with a panic only if that is the splitter's, or it goes on
with what this round leaves. -/
theorem first_round (b : Split α σ) (chunk pushed : Nat) (s : Store α σ) :
    (∃ r cs, (∀ n, b.drain chunk pushed s (n + 1) = r ∧ b.cuts chunk pushed s (n + 1) = cs) ∧
        r.stop.isSome = true ∧ cs.length ≤ 1 ∧
        ∀ p, r.stop = some (.panicked p) → ∃ a s, (b.splitter.split a s).1 = .panicked p) ∨
      ∃ cut b' s',
          (∀ n, b.drain chunk pushed s (n + 1) = b'.drain chunk (pushed + cut.pushed.length) s' n ∧
          b.cuts chunk pushed s (n + 1) = cut :: b'.cuts chunk (pushed + cut.pushed.length) s' n) ∧
        b.GoesOn chunk pushed ∧ b.round s = some ⟨cut, .ok (), b', s'⟩ := by
  simp only [drain_succ, cuts]
  split
  · next hgo =>
    rcases hr : b.round s with _ | ⟨cut, stop, b', s'⟩
    · exact .inl ⟨_, _, fun _ => ⟨rfl, rfl⟩, rfl, Nat.zero_le _, fun p h => by cases h⟩
    · cases stop with
      | ok u => exact .inr ⟨cut, b', s', fun _ => ⟨rfl, rfl⟩, by simpa [GoesOn] using hgo, rfl⟩
      | failed e =>
        exact .inl ⟨_, _, fun _ => ⟨rfl, rfl⟩, rfl, Nat.le_refl _, fun p h => by cases h⟩
      | panicked p =>
        refine .inl ⟨_, _, fun _ => ⟨rfl, rfl⟩, rfl, Nat.le_refl _, fun p' hp => ?_⟩
        cases hp
        obtain ⟨block, b₁, s₁, ht, ⟨e, s₂, -, h⟩ | ⟨p', s₂, hs, h⟩ |
            ⟨portion, s₂, s₃, left, s₄, -, -, -, h⟩⟩ := round_cases hr <;>
          cases h
        rw [splitter_of_core (waiting_takeBlock ht).2.2.1] at hs
        exact ⟨block, s₁, congrArg Prod.fst hs⟩
  · exact .inl ⟨_, _, fun _ => ⟨rfl, rfl⟩, rfl, Nat.zero_le _, fun p h => by cases h⟩

/-- If the loop goes on after some rounds the next ones are those that it would begin with there. -/
theorem drain_of_going {n : Nat} (h : (b.drain chunk pushed s n).stop = none) (m : Nat) :
    let r := b.drain chunk pushed s n
    b.drain chunk pushed s (n + m) = r.body.drain chunk r.pushed r.store m := by
  induction n generalizing b pushed s with
  | zero =>
    rw [Nat.zero_add]
    rfl
  | succ n ih =>
    rcases b.first_round chunk pushed s with ⟨r, cs, loop, hstop, -⟩ | ⟨cut, b', s', loop, -⟩
    · rw [(loop n).1] at h
      rw [h] at hstop
      cases hstop
    · rw [(loop n).1] at h ⊢
      rw [Nat.add_right_comm, (loop _).1]
      exact ih h

/-- If it has ended there are no more rounds. -/
theorem drain_of_ended {n : Nat} (h : (b.drain chunk pushed s n).stop.isSome = true) (m : Nat) :
    b.drain chunk pushed s (n + m) = b.drain chunk pushed s n ∧
    b.cuts chunk pushed s (n + m) = b.cuts chunk pushed s n := by
  induction n generalizing b pushed s with
  | zero => cases h
  | succ n ih =>
    rw [Nat.add_right_comm]
    rcases b.first_round chunk pushed s with ⟨r, cs, loop, -⟩ | ⟨cut, b', s', loop, -⟩
    · simp only [loop, and_self]
    · simp only [loop] at h ⊢
      obtain ⟨hdrain, hcuts⟩ := ih h
      exact ⟨hdrain, congrArg (cut :: ·) hcuts⟩

/-- The splitter is called once in every round, and has been called in all of them as long as the
loop goes on. -/
theorem length_cuts (b : Split α σ) (chunk pushed : Nat) (s : Store α σ) (n : Nat) :
    (b.cuts chunk pushed s n).length ≤ n ∧
      ((b.drain chunk pushed s n).stop = none → (b.cuts chunk pushed s n).length = n) := by
  induction n generalizing b pushed s with
  | zero => exact ⟨Nat.le_refl _, fun _ => rfl⟩
  | succ n ih =>
    rcases b.first_round chunk pushed s with ⟨r, cs, loop, hstop, hcs, -⟩ | ⟨cut, b', s', loop, -⟩
    · rw [(loop n).1, (loop n).2]
      refine ⟨hcs.trans (Nat.le_add_left _ _), fun h => ?_⟩
      rw [h] at hstop
      cases hstop
    · rw [(loop n).1, (loop n).2]
      obtain ⟨hle, heq⟩ := ih b' (pushed + cut.pushed.length) s'
      exact ⟨Nat.succ_le_succ hle, fun h => congrArg (· + 1) (heq h)⟩

/-- The loop does not panic if the splitter does not. -/
theorem stop_ne_panicked (hsober : ∀ a s p, (b.splitter.split a s).1 ≠ .panicked p)
    (chunk pushed : Nat) (s : Store α σ) (n : Nat) (p : Panic) :
    (b.drain chunk pushed s n).stop ≠ some (.panicked p) := by
  induction n generalizing b pushed s with
  | zero => exact nofun
  | succ n ih =>
    rcases b.first_round chunk pushed s with ⟨r, cs, loop, -, -, hpanics⟩ |
      ⟨cut, b', s', loop, -, hr⟩
    · intro h
      rw [(loop n).1] at h
      obtain ⟨a, s', hs⟩ := hpanics p h
      exact hsober a s' p hs
    · rw [(loop n).1]
      rw [← splitter_of_core (core_round hr)] at hsober
      exact ih hsober _ s'

/-! ### Rounds that get the loop on -/

/-- Where the splitter is idle the round does nothing but to leave the rest of the block in
progress. -/
theorem drain_of_idle (hgo : b.GoesOn chunk pushed) (ht : b.takeBlock s = (some block, b₁, s₁))
    (hs : b.splitter.split block s₁ = (.ok { parcels := [], block := a', done := false }, s'))
    (n : Nat) :
    b.drain chunk pushed s (n + 1) =
      { b₁ with current := some a', overflow := [] }.drain chunk pushed s' n := by
  have hround :
      b.round s = some ⟨⟨block, some { parcels := [], block := a', done := false }, []⟩, .ok (),
      { b₁ with current := some a', overflow := [] }, s'⟩ := by
    rw [← splitter_of_core (waiting_takeBlock ht).2.2.1] at hs
    unfold round
    simp [ht, hs]
  have hgoes : (b.overflow.isEmpty && decide (pushed < chunk)) = true := by simpa [GoesOn] using hgo
  rw [drain_succ, if_pos hgoes, hround]
  rfl

/-- The loop has not ended, but is nearer to its end: more of the chunk is used up, or as much of it
and fewer blocks wait. -/
structure Nearer (b : Split α σ) (chunk pushed : Nat) (s : Store α σ) (r : Drained α σ) : Prop where
  stop : r.stop = none
  core : r.body.core = b.core
  less : chunk - r.pushed < chunk - pushed ∨
    r.pushed = pushed ∧ (r.body.waiting r.store).length < (b.waiting s).length

/-- The loop ends, or one round takes it nearer to its end, or the splitter is idle. -/
theorem round_gets_on (hspares : b.splitter.Spares b.input) (chunk pushed : Nat) (s : Store α σ) :
    (∃ n, (b.drain chunk pushed s n).stop.isSome = true) ∨
      b.Nearer chunk pushed s (b.drain chunk pushed s 1) ∨
      b.GoesOn chunk pushed ∧ ∃ block b₁ s₁ a' s', b.takeBlock s = (some block, b₁, s₁) ∧
        b.splitter.split block s₁ = (.ok { parcels := [], block := a', done := false }, s') := by
  rcases b.first_round chunk pushed s with ⟨r, cs, loop, hstop, -⟩ | ⟨cut, b', s', loop, hgo, hr⟩
  · exact .inl ⟨1, by rwa [(loop 0).1]⟩
  obtain ⟨block, b₁, s₁, ht, ⟨e, s₂, -, h⟩ | ⟨p, s₂, -, h⟩ |
      ⟨portion, s₂, s₃, left, s₄, hs, hs₃, hpush, h⟩⟩ := round_cases hr <;>
    cases h
  obtain ⟨hwaiting, hcurrent, hcore, -⟩ := waiting_takeBlock ht
  rw [splitter_of_core hcore] at hs hs₃
  have hfit := Store.fitting_append_left hpush
  by_cases hleft : left = []
  swap
  -- what is left over ends the loop
  · refine .inl ⟨2, ?_⟩
    rcases first_round _ chunk _ s' with ⟨r, cs, loop', hstop, -⟩ | ⟨_, _, _, -, hgo', -⟩
    · rwa [(loop 1).1, (loop' 0).1]
    · exact absurd hgo'.1 hleft
  rw [hleft, List.append_nil] at hfit
  by_cases hnone : portion.parcels = []
  swap
  · have hpos := List.length_pos_iff.2 hnone
    have hlt := hgo.2
    refine .inr (.inl ?_)
    rw [(loop 0).1]
    refine ⟨rfl, hcore, .inl ?_⟩
    simp only [drain, hfit]
    omega
  cases hd : portion.done with
  | false =>
    refine .inr (.inr ⟨hgo, block, b₁, s₁, portion.block, s₂, ht, ?_⟩)
    rw [hs, ← hnone, ← hd]
  | true =>
    rw [hnone, Store.pushMany_nil] at hpush
    cases hpush
    have hsame : s'.contents b.input = s₁.contents b.input := hs₃ ▸ hspares.contents hs
    refine .inr (.inl ?_)
    rw [(loop 0).1]
    refine ⟨rfl, hcore, .inr ⟨?_, ?_⟩⟩
    · simp [hnone, drain]
    · rw [hwaiting]
      simp [drain, waiting, hd, hcurrent, input_of_core hcore, hsame]

/-- If the splitter does not stall on the block the loop ends, or some rounds take it nearer to its
end. -/
theorem gets_on (hspares : b.splitter.Spares b.input) (ht : b.takeBlock s = (some block, b₁, s₁))
    {k : Nat} (hk : ¬ b.splitter.Idles k block s₁) :
    (∃ n, (b.drain chunk pushed s n).stop.isSome = true) ∨
    ∃ n, b.Nearer chunk pushed s (b.drain chunk pushed s n) := by
  induction k generalizing b s block b₁ s₁ with
  | zero => exact absurd trivial hk
  | succ k ih =>
    rcases round_gets_on hspares chunk pushed s with hend | hnear |
      ⟨hgo, block', b₂, s₂, a', s', ht', hs⟩
    · exact .inl hend
    · exact .inr ⟨1, hnear⟩
    -- the splitter has been idle, and will be so less often from here on
    · rw [ht] at ht'
      cases ht'
      obtain ⟨hwaiting, hcurrent, hcore, -⟩ := waiting_takeBlock ht
      have hsplitter : b₁.splitter = b.splitter := splitter_of_core hcore
      have hinput : b₁.input = b.input := input_of_core hcore
      have hsame : s'.contents b.input = s₁.contents b.input := hspares.contents hs
      have hfewer : ¬ b₁.splitter.Idles k a' s' := fun h => hk ⟨a', s', hs, hsplitter ▸ h⟩
      have loop := drain_of_idle hgo ht hs
      rcases ih (b := { b₁ with current := some a', overflow := [] }) (s := s')
        (by rwa [hsplitter, hinput]) rfl hfewer with ⟨n, hend⟩ | ⟨n, hnear⟩
      · exact .inl ⟨n + 1, by rwa [loop]⟩
      · refine .inr ⟨n + 1, ?_⟩
        rw [loop]
        refine ⟨hnear.stop, hnear.core.trans hcore,
          hnear.less.imp_right (And.imp_right fun h => h.trans_eq ?_)⟩
        rw [hwaiting]
        simp [waiting, hcurrent, hinput, hsame]

/-! ### The splitter stalls, or the loop ends -/

/-- The loop is to go on with a block on which the splitter stalls. -/
structure Mired (b : Split α σ) (chunk pushed : Nat) (s : Store α σ) : Prop where
  goesOn : b.GoesOn chunk pushed
  stalls : ∃ block b₁ s₁, b.takeBlock s = (some block, b₁, s₁) ∧ b.splitter.Stalls block s₁

/-- It is so after the next round as well. -/
theorem Mired.next (h : b.Mired chunk pushed s) : ∃ (b' : Split α σ) (s' : Store α σ),
    (∀ n, b.drain chunk pushed s (n + 1) = b'.drain chunk pushed s' n) ∧
    b'.Mired chunk pushed s' := by
  obtain ⟨block, b₁, s₁, ht, hstalls⟩ := h.stalls
  obtain ⟨a', s', hs, hstalls'⟩ := hstalls.next
  refine ⟨{ b₁ with current := some a', overflow := [] }, s', drain_of_idle h.goesOn ht hs,
    ⟨rfl, h.goesOn.2⟩, a', _, s', rfl, ?_⟩
  rwa [← splitter_of_core (waiting_takeBlock ht).2.2.1] at hstalls'

/-- So the loop never ends. -/
theorem Mired.stop_drain (h : b.Mired chunk pushed s) (n : Nat) :
    (b.drain chunk pushed s n).stop = none := by
  induction n generalizing b s with
  | zero => rfl
  | succ n ih =>
    obtain ⟨b', s', loop, hnext⟩ := h.next
    rw [loop]
    exact ih hnext

/-- The loop comes to a block on which the splitter stalls. -/
def GetsMired (b : Split α σ) (chunk pushed : Nat) (s : Store α σ) : Prop :=
  ∃ n, let r := b.drain chunk pushed s n
    r.stop = none ∧ r.body.Mired chunk r.pushed r.store

theorem GetsMired.of_going {n : Nat} (hgoing : (b.drain chunk pushed s n).stop = none)
    (h : let r := b.drain chunk pushed s n
      r.body.GetsMired chunk r.pushed r.store) : b.GetsMired chunk pushed s := by
  obtain ⟨m, hmired⟩ := h
  exact ⟨n + m, by rwa [drain_of_going hgoing]⟩

/-- Then it never ends either: if it had ended before it would not have come there. -/
theorem GetsMired.stop_drain (h : b.GetsMired chunk pushed s) (m : Nat) :
    (b.drain chunk pushed s m).stop = none := by
  obtain ⟨n, hgoing, hmired⟩ := h
  have hlater : (b.drain chunk pushed s (m + n)).stop = none := by
    rw [Nat.add_comm, drain_of_going hgoing]
    exact hmired.stop_drain m
  by_contra hne
  rw [(drain_of_ended (Option.isSome_iff_ne_none.2 hne) n).1] at hlater
  exact hne hlater

theorem gets_on_or_mired (hspares : b.splitter.Spares b.input) (chunk pushed : Nat)
    (s : Store α σ) :
    (∃ n, (b.drain chunk pushed s n).stop.isSome = true) ∨ b.Mired chunk pushed s ∨
      ∃ n, b.Nearer chunk pushed s (b.drain chunk pushed s n) := by
  rcases round_gets_on hspares chunk pushed s with hend | hnear |
    ⟨hgo, block, b₁, s₁, a', s', ht, -⟩
  · exact .inl hend
  · exact .inr (.inr ⟨1, hnear⟩)
  by_cases hstalls : b.splitter.Stalls block s₁
  · exact .inr (.inl ⟨hgo, block, b₁, s₁, ht, hstalls⟩)
  · obtain ⟨k, hk⟩ := not_forall.1 hstalls
    exact (gets_on hspares ht hk).imp_right .inr

/-- **The loop ends, or comes to a block on which the splitter stalls.** -/
theorem ends_or_mired {b : Split α σ} (hspares : b.splitter.Spares b.input) (chunk pushed : Nat)
    (s : Store α σ) :
    (∃ n, (b.drain chunk pushed s n).stop.isSome = true) ∨ b.GetsMired chunk pushed s := by
  obtain hend | hmired | ⟨n, hnear⟩ := gets_on_or_mired hspares chunk pushed s
  · exact .inl hend
  · exact .inr ⟨0, rfl, hmired⟩
  rw [← splitter_of_core hnear.core, ← input_of_core hnear.core] at hspares
  obtain ⟨m, hend⟩ | hmired :=
    ends_or_mired hspares chunk (b.drain chunk pushed s n).pushed (b.drain chunk pushed s n).store
  · exact .inl ⟨n + m, by rwa [drain_of_going hnear.stop]⟩
  · exact .inr (.of_going hnear.stop hmired)
termination_by (chunk - pushed, (b.waiting s).length)
decreasing_by
  rcases hnear.less with hless | ⟨heq, hless⟩
  · exact Prod.Lex.left _ _ hless
  · rw [heq]
    exact Prod.Lex.right _ hless

/-! ### The work in the blocks -/

/-- Calls of the splitter that are enough for some blocks, if it gets on with each of them. -/
def enough (sp : Splitter α σ) (blocks : List α) : Nat :=
  blocks.foldr (fun block n => sp.work block + 1 + n) 1

theorem fuel_eq_enough (b : Split α σ) (s : Store α σ) :
    b.fuel s = enough b.splitter (b.waiting s) := rfl

theorem enough_cons (sp : Splitter α σ) (a : α) (blocks : List α) :
    enough sp (a :: blocks) = sp.work a + 1 + enough sp blocks := rfl

theorem enough_pos (sp : Splitter α σ) (blocks : List α) : 0 < enough sp blocks := by
  cases blocks with
  | nil => exact Nat.one_pos
  | cons a blocks =>
    rw [enough_cons]
    omega

/-- A round leaves less work, unless the splitter stalls on its block. -/
theorem fuel_round (hhonest : b.splitter.Honest) (hspares : b.splitter.Spares b.input)
    (hio : b.input ≠ b.output) {cut : Cut α} (hr : b.round s = some ⟨cut, .ok (), b', s'⟩) :
    b'.fuel s' < b.fuel s ∨ ∃ block b₁ s₁, b.takeBlock s = (some block, b₁, s₁) ∧
      b.splitter.Stalls block s₁ := by
  obtain ⟨block, b₁, s₁, ht, ⟨e, s₂, -, h⟩ | ⟨p, s₂, -, h⟩ |
      ⟨portion, s₂, s₃, left, s₄, hs, hs₃, hpush, h⟩⟩ := round_cases hr <;>
    cases h
  obtain ⟨hwaiting, hcurrent, hcore, -⟩ := waiting_takeBlock ht
  have hsplitter : b₁.splitter = b.splitter := splitter_of_core hcore
  have hinput : b₁.input = b.input := input_of_core hcore
  have houtput : b₁.output = b.output := output_of_core hcore
  rw [hsplitter] at hs hs₃
  have hsame : s'.contents b.input = s₁.contents b.input := by
    have hapart : s₃.Apart s' [b₁.output] := .pushMany (List.mem_singleton_self _) hpush
    exact (hapart.contents _ (by simpa [houtput] using hio)).trans (hs₃ ▸ hspares.contents hs)
  have before : b.fuel s = b.splitter.work block + 1 + enough b.splitter (s₁.contents b.input) := by
    rw [fuel_eq_enough, hwaiting, enough_cons]
    simp [waiting, hcurrent, hinput]
  rw [before, fuel_eq_enough]
  simp only [waiting, hsplitter, hinput, hsame]
  cases hd : portion.done with
  | true =>
    simp only [if_true, Option.toList_none, List.nil_append]
    omega
  | false =>
    simp only [Bool.false_eq_true, if_false, Option.toList_some, List.singleton_append, enough_cons]
    refine (hhonest block s₁ portion s₂ hs hd).imp (fun hless => ?_) fun hstalls =>
      ⟨block, b₁, s₁, ht, hstalls⟩
    omega

/-- A loop that has not ended after all the work there is comes to a block on which the splitter
stalls. -/
theorem mired_of_fuel_le (hhonest : b.splitter.Honest) (hspares : b.splitter.Spares b.input)
    (hio : b.input ≠ b.output) {n : Nat} (hn : b.fuel s ≤ n)
    (hgoing : (b.drain chunk pushed s n).stop = none) : b.GetsMired chunk pushed s := by
  induction n generalizing b pushed s with
  | zero => exact absurd hn (Nat.not_le_of_lt (enough_pos _ _))
  | succ n ih =>
    rcases b.first_round chunk pushed s with ⟨r, cs, loop, hstop, -⟩ | ⟨cut, b', s', loop, hgo, hr⟩
    · rw [(loop n).1] at hgoing
      rw [hgoing] at hstop
      cases hstop
    rcases fuel_round hhonest hspares hio hr with hless | hstalls
    · have hcore : b'.core = b.core := core_round hr
      have hgoes : (b.drain chunk pushed s 1).stop = none := by
        rw [(loop 0).1]
        rfl
      refine .of_going hgoes ?_
      rw [(loop 0).1]
      rw [(loop n).1] at hgoing
      rw [← splitter_of_core hcore] at hhonest hspares
      rw [← input_of_core hcore] at hspares hio
      rw [← output_of_core hcore] at hio
      exact ih hhonest hspares hio (Nat.le_of_lt_succ (hless.trans_le hn)) hgoing
    · exact ⟨0, rfl, hgo, hstalls⟩

/-! ### Calls -/

/-- How the loop of a call stands after `n` rounds, unless it has ended before. -/
def drainedIn (b : Split α σ) (v : Visit) (s : Store α σ) (n : Nat) : Drained α σ :=
  let r := s.pushMany b.output b.overflow
  { b with overflow := r.1 }.drain v.chunk (b.overflow.length - r.1.length) r.2 n

/-- The calls of the splitter in these rounds. -/
def callsIn (b : Split α σ) (v : Visit) (s : Store α σ) (n : Nat) : List (Cut α) :=
  let r := s.pushMany b.output b.overflow
  { b with overflow := r.1 }.cuts v.chunk (b.overflow.length - r.1.length) r.2 n

/-- What a call comes to with its loop. -/
def settle (v : Visit) (r : Drained α σ) : Run (Split α σ) α σ :=
  let settled := { r.body with held := r.body.overflow.length + r.body.current.toList.length }
  match r.stop with
  | none => ⟨.suspended, v, r.body, r.store⟩
  | some (.panicked p) => ⟨.panicked p, v, r.body, r.store⟩
  | some (.failed e) => ⟨.returned (.failed e), v.record r.pushed, settled, r.store⟩
  | some (.ok _) =>
    ⟨.returned (if r.pushed > 0 then .success else .comeBackLater), v.record r.pushed,
      settled, r.store⟩

/-- A call that is cut off after `n` rounds. -/
def executeIn (b : Split α σ) (v : Visit) (s : Store α σ) (n : Nat) : Run (Split α σ) α σ :=
  settle v (b.drainedIn v s n)

theorem execute_eq_executeIn (b : Split α σ) (v : Visit) (s : Store α σ) :
    b.execute v s = b.executeIn v s (b.fuel (s.pushMany b.output b.overflow).2) := rfl

/-- A call ends with `r`: it calls the splitter only so often, and however late it is cut off it
comes to `r`. -/
def Ends (b : Split α σ) (v : Visit) (s : Store α σ) (r : Run (Split α σ) α σ) : Prop :=
  ∃ n, ∀ m, (b.callsIn v s m).length ≤ n ∧ (n ≤ m → b.executeIn v s m = r)

/-- A call ends without a panic. -/
def Returns (b : Split α σ) (v : Visit) (s : Store α σ) : Prop :=
  ∃ r o, b.Ends v s r ∧ r.ending = .returned o

/-- A call comes to a block on which the splitter stalls. -/
def Hangs (b : Split α σ) (v : Visit) (s : Store α σ) : Prop :=
  let r := s.pushMany b.output b.overflow
  { b with overflow := r.1 }.GetsMired v.chunk (b.overflow.length - r.1.length) r.2

variable {v : Visit}

theorem ending_settle (v : Visit) (r : Drained α σ) :
    (settle v r).ending = .suspended ↔ r.stop = none := by
  unfold settle
  rcases r.stop with _ | u | e | p <;> simp

theorem ends_of_stop {n : Nat} (h : (b.drainedIn v s n).stop.isSome = true) :
    b.Ends v s (b.executeIn v s n) := by
  have later : ∀ m, n ≤ m → b.drainedIn v s m = b.drainedIn v s n ∧
      b.callsIn v s m = b.callsIn v s n := by
    intro m hm
    obtain ⟨k, rfl⟩ := Nat.exists_eq_add_of_le hm
    exact drain_of_ended h k
  refine ⟨n, fun m => ⟨?_, fun hm => congrArg (settle v) (later m hm).1⟩⟩
  have few : ∀ m, (b.callsIn v s m).length ≤ m := fun m => (length_cuts _ _ _ _ m).1
  rcases Nat.le_total n m with hm | hm
  · rw [(later m hm).2]
    exact few n
  · exact (few m).trans hm

/-- A call that comes to a block on which the splitter stalls does not end, however late it is cut
off. -/
theorem Hangs.stop (h : b.Hangs v s) (m : Nat) : (b.drainedIn v s m).stop = none :=
  GetsMired.stop_drain h m

/-- As far as one looks, it calls the splitter in every round. -/
theorem Hangs.length_calls (h : b.Hangs v s) (n : Nat) : (b.callsIn v s n).length = n :=
  (length_cuts _ _ _ _ n).2 (h.stop n)

theorem Hangs.suspended (h : b.Hangs v s) : (b.execute v s).ending = .suspended :=
  (ending_settle v _).2 (h.stop _)

theorem Hangs.not_returns (h : b.Hangs v s) : ¬ b.Returns v s := by
  rintro ⟨r, o, ⟨n, hends⟩, ho⟩
  have hsuspended : (b.executeIn v s n).ending = .suspended := (ending_settle v _).2 (h.stop n)
  rw [(hends n).2 (Nat.le_refl n), ho] at hsuspended
  cases hsuspended

/-- Where the splitter tells the truth about the work in its blocks, a call is cut off just if it
hangs. -/
theorem suspended_iff_hangs (hhonest : b.splitter.Honest) (hspares : b.splitter.Spares b.input)
    (hio : b.input ≠ b.output) (v : Visit) (s : Store α σ) :
    (b.execute v s).ending = .suspended ↔ b.Hangs v s := by
  refine ⟨fun h => ?_, Hangs.suspended⟩
  exact mired_of_fuel_le (b := { b with overflow := (s.pushMany b.output b.overflow).1 }) hhonest
    hspares hio (Nat.le_refl _) ((ending_settle v _).1 h)

section Returns

variable (hsober : ∀ a s p, (b.splitter.split a s).1 ≠ .panicked p)
  (hspares : b.splitter.Spares b.input) (v : Visit) (s : Store α σ)
include hsober hspares

theorem returns_or_hangs : b.Returns v s ∨ b.Hangs v s := by
  obtain ⟨n, hend⟩ | hmired := ends_or_mired
    (b := { b with overflow := (s.pushMany b.output b.overflow).1 }) hspares v.chunk
    (b.overflow.length - (s.pushMany b.output b.overflow).1.length)
    (s.pushMany b.output b.overflow).2
  · refine .inl ?_
    have hne : ∀ p, (b.drainedIn v s n).stop ≠ some (.panicked p) :=
      stop_ne_panicked (b := { b with overflow := (s.pushMany b.output b.overflow).1 })
        hsober _ _ _ n
    have hends : b.Ends v s (b.executeIn v s n) := ends_of_stop hend
    have hreturned : ∃ o, (b.executeIn v s n).ending = .returned o := by
      unfold executeIn settle
      rcases hstop : (b.drainedIn v s n).stop with _ | u | e | p
      · exact absurd hstop (Option.isSome_iff_ne_none.1 hend)
      · exact ⟨_, rfl⟩
      · exact ⟨_, rfl⟩
      · exact absurd hstop (hne p)
    obtain ⟨o, ho⟩ := hreturned
    exact ⟨_, o, hends, ho⟩
  · exact .inr hmired

/-- If the splitter can say how much longer it will be idle every call returns. -/
theorem returns_of_rank {rank : α → Store α σ → Nat}
    (hrank : ∀ a s a' s', b.splitter.split a s =
      (.ok { parcels := [], block := a', done := false }, s') → rank a' s' < rank a s) :
    b.Returns v s := by
  refine (returns_or_hangs hsober hspares v s).resolve_right ?_
  rintro ⟨n, -, -, block, b₁, s₁, -, hstalls⟩
  rw [splitter_of_core (core_drain _ _ _ _ n)] at hstalls
  exact absurd ((hstalls (rank block s₁ + 1)).le_rank hrank) (Nat.not_succ_le_self _)

/-- **A call of a split returns just if it does not come to a block on which the splitter stalls**,
whatever its queues and its chunk are. The splitter may fail and may be idle, but does not panic,
and leaves the input of the split alone. A call that comes to such a block never returns: it calls
the splitter over and over. A call that has returned would have done so however many rounds it had
been allowed. -/
theorem returns_iff :
    (b.Returns v s ↔ ¬ b.Hangs v s) ∧
      (b.Hangs v s → (b.execute v s).ending = .suspended ∧ ∀ n, (b.callsIn v s n).length = n) ∧
      ((b.execute v s).ending ≠ .suspended → b.Ends v s (b.execute v s)) := by
  refine ⟨⟨fun hreturns hhangs => hhangs.not_returns hreturns,
    (returns_or_hangs hsober hspares v s).resolve_right⟩,
    fun hhangs => ⟨hhangs.suspended, hhangs.length_calls⟩, fun hend => ?_⟩
  rw [execute_eq_executeIn] at hend ⊢
  exact ends_of_stop (Option.isSome_iff_ne_none.2 fun h => hend ((ending_settle v _).2 h))

end Returns

end Split

/-! ### Scripted splitters -/

namespace Script

variable {label : String} {perCall : Nat} {failOn : Option UInt64} {a : Parcel}
  {s s' : Store Parcel Memory} {p : Portion Parcel}

/-- A scripted splitter fails, or takes as many numbers as it is told to. -/
theorem splitter_cases (label : String) (perCall : Nat) (failOn : Option UInt64) (a : Parcel)
    (s : Store Parcel Memory) :
    (∃ e, (splitter label perCall failOn).split a s = (.failed e, s)) ∨
      (splitter label perCall failOn).split a s = (.ok (splitter.portion perCall a.values), s) := by
  unfold splitter
  simp only
  split
  · split
    · exact .inl ⟨_, rfl⟩
    · exact .inr rfl
  · exact .inr rfl

theorem splitter_ok (h : (splitter label perCall failOn).split a s = (.ok p, s')) :
    p = splitter.portion perCall a.values ∧ s' = s := by
  rcases splitter_cases label perCall failOn a s with ⟨e, he⟩ | he <;> rw [he] at h <;> cases h
  exact ⟨rfl, rfl⟩

theorem sober_splitter (a : Parcel) (s : Store Parcel Memory) (panic : Panic) :
    ((splitter label perCall failOn).split a s).1 ≠ .panicked panic := by
  rcases splitter_cases label perCall failOn a s with ⟨e, he⟩ | he <;> rw [he] <;> exact nofun

theorem spares_splitter (q : QueueId) : (splitter label perCall failOn).Spares q := by
  intro a s
  refine ⟨?_, rfl⟩
  rcases splitter_cases label perCall failOn a s with ⟨e, he⟩ | he <;> rw [he]

/-- If it is told to take nothing it stalls on every block with which it is not done at once. -/
theorem stalls_splitter (h : (splitter label 0 failOn).split a s = (.ok p, s'))
    (hd : p.done = false) :
    (splitter label 0 failOn).Stalls a s := by
  intro n
  induction n generalizing a p s' with
  | zero => trivial
  | succ n ih =>
    obtain ⟨rfl, rfl⟩ := splitter_ok h
    have hidle : splitter.portion 0 a.values =
        { parcels := [], block := .block a.values, done := false } := by
      rw [← hd]
      rfl
    rw [hidle] at h
    -- the rest of the block holds the same numbers
    exact ⟨.block a.values, s', h, ih (a := .block a.values) h rfl⟩

theorem honest_splitter : (splitter label perCall failOn).Honest := by
  intro a s p s' h hd
  rcases Nat.eq_zero_or_pos perCall with rfl | hpos
  · exact .inr (stalls_splitter h hd)
  · obtain ⟨rfl, -⟩ := splitter_ok h
    have hmore : a.values.drop perCall ≠ [] := List.isEmpty_eq_false_iff.1 hd
    have hlong : perCall < a.values.length := Nat.lt_of_not_le fun hle =>
      hmore (List.drop_eq_nil_of_le hle)
    refine .inl ?_
    change (a.values.drop perCall).length < a.values.length
    rw [List.length_drop]
    omega

end Script

namespace Split

/-- A split that is told to take nothing. -/
def barren : Split Parcel Script.Memory :=
  { splitter := Script.splitter "barren" 0 none, input := 0, output := 1 }

/-- Some blocks wait, and there is room for any number of parcels. -/
def given (blocks : List (List UInt64)) : Store Parcel Script.Memory where
  queues :=
    [{ name := "blocks", items := blocks.map .block, threshold := unlimited }, .unbounded "numbers"]
  env := {}

theorem hangs_barren : barren.Hangs (.start 0 0 1) (given [[1, 2, 3]]) :=
  ⟨0, rfl, ⟨rfl, by decide⟩, .block [1, 2, 3], _, _, rfl, Script.stalls_splitter rfl rfl⟩

/-- A call that comes to a block with something in it never returns, though every call of the
splitter does. -/
theorem barren_never_returns :
    (∀ a s p, (barren.splitter.split a s).1 ≠ .panicked p) ∧ barren.splitter.Spares barren.input ∧
      ¬ barren.Returns (.start 0 0 1) (given [[1, 2, 3]]) ∧
      (barren.execute (.start 0 0 1) (given [[1, 2, 3]])).ending = .suspended ∧
      ∀ n, (barren.callsIn (.start 0 0 1) (given [[1, 2, 3]]) n).length = n :=
  ⟨Script.sober_splitter, Script.spares_splitter _, hangs_barren.not_returns,
    hangs_barren.suspended, hangs_barren.length_calls⟩

/-- With empty blocks only it returns. -/
theorem returns_iff_barren :
    (∀ a s p, (barren.splitter.split a s).1 ≠ .panicked p) ∧ barren.splitter.Spares barren.input ∧
      barren.Returns (.start 0 0 1) (given [[], []]) ∧
      ¬ barren.Returns (.start 0 0 1) (given [[1, 2, 3]]) := by
  have sober : ∀ a s p, (barren.splitter.split a s).1 ≠ .panicked p := Script.sober_splitter
  have spares : barren.splitter.Spares barren.input := Script.spares_splitter _
  obtain ⟨hreturns, hhangs, -⟩ := returns_iff sober spares (.start 0 0 1) (given [[], []])
  obtain ⟨hreturns', -, -⟩ := returns_iff sober spares (.start 0 0 1) (given [[1, 2, 3]])
  refine ⟨sober, spares, hreturns.2 fun h => ?_, fun h => hreturns'.1 h hangs_barren⟩
  exact absurd (hhangs h).1 (by decide +kernel)

end Split

end Pipework
