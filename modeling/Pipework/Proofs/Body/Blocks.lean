import Mathlib.Algebra.GroupWithZero.Nat
import Mathlib.Data.Option.Basic
import Pipework.Proofs.Body.Transfer

/-!
# The blocks of a split

The splitter of a split is called on one block after the other. It takes parcels off the front of
the block, until the block is used up and recycled or the splitter fails on it. Each parcel that was
taken is pushed or left over (`Split.Booked`, which every round of the loop keeps), so that all
blocks come out exactly and in order (`Split.emits_blocks`). Since every call of the splitter gets
on with its block the loop ends (`Split.drain_ends`).
-/

namespace Pipework

variable {α σ : Type}

/-! ### Splitters -/

/-- A splitter takes parcels off the front of a block: one at least if there is one, and it is done
when none is left. It may fail, but it does not panic. It may do to the queues what it likes, except
to one of them. Since one parcel may be taken at a time, the bound on the calls that leave something
in a block is as many as there are parcels behind the first. -/
structure Splitter.Peels (sp : Splitter α σ) (items : α → List α) (q : QueueId) : Prop where
  sober : ∀ a s p, (sp.split a s).1 ≠ .panicked p
  front : ∀ {a s portion s'}, sp.split a s = (.ok portion, s') →
    items a = portion.parcels ++ items portion.block
  getsOn : ∀ {a s portion s'}, sp.split a s = (.ok portion, s') → items a ≠ [] →
    portion.parcels ≠ []
  done_iff : ∀ {a s portion s'}, sp.split a s = (.ok portion, s') →
    (portion.done = true ↔ items portion.block = [])
  splits : ∀ (a : α) (s : Store α σ), s.Keeps q (sp.split a s).2
  recycles : ∀ (a : α) (s : Store α σ), s.Keeps q (sp.recycle a s)
  work : ∀ a, (items a).length ≤ sp.work a + 1

/-- The queue is left alone as well when a block that is done is recycled. -/
theorem Splitter.Peels.tidies {sp : Splitter α σ} {items : α → List α} {q : QueueId}
    (h : sp.Peels items q) (p : Portion α) (s : Store α σ) :
    s.Keeps q (if p.done then sp.recycle p.block s else s) := by
  split
  · exact h.recycles p.block s
  · exact .refl q s

namespace Split

variable {b b' b₁ : Split α σ} {s s' s₁ : Store α σ} {items : α → List α} {block : α}

theorem splitter_of_core (h : b'.core = b.core) : b'.splitter = b.splitter :=
  have hsplitter := congrArg Split.splitter h
  hsplitter

theorem input_of_core (h : b'.core = b.core) : b'.input = b.input :=
  have hinput := congrArg Split.input h
  hinput

theorem output_of_core (h : b'.core = b.core) : b'.output = b.output :=
  have houtput := congrArg Split.output h
  houtput

/-! ### Rounds -/

/-- A call of the splitter: the block on which it was called, what it did to that unless it failed,
and the parcels that were pushed right away. -/
structure Cut (α : Type) where
  block : α
  portion : Option (Portion α)
  pushed : List α

/-- What is recycled after a call of the splitter: the rest of a block that is done. -/
def Cut.recycled (c : Cut α) : Option α :=
  c.portion.bind fun p => if p.done then some p.block else none

/-- One round of the loop: the call of the splitter, what it means for the loop, and what it leaves
behind. -/
structure Round (α σ : Type) where
  cut : Cut α
  stop : Reply Unit
  body : Split α σ
  store : Store α σ

/-- One round of the loop, if there is a block. -/
def round (b : Split α σ) (s : Store α σ) : Option (Round α σ) :=
  match b.takeBlock s with
  | (none, _, _) => none
  | (some block, b, s) =>
    match b.splitter.split block s with
    | (.failed e, s) => some ⟨⟨block, none, []⟩, .failed e, b, s⟩
    | (.panicked p, s) => some ⟨⟨block, none, []⟩, .panicked p, b, s⟩
    | (.ok portion, s) =>
      let s := if portion.done then b.splitter.recycle portion.block s else s
      let r := s.pushMany b.output portion.parcels
      some ⟨⟨block, some portion, s.fitting b.output portion.parcels⟩, .ok (),
        { b with current := if portion.done then none else some portion.block, overflow := r.1 },
        r.2⟩

/-- The calls of the splitter in the loop, in order. -/
def cuts (b : Split α σ) (chunk pushed : Nat) (s : Store α σ) : Nat → List (Cut α)
  | 0 => []
  | fuel + 1 =>
    if b.overflow.isEmpty && decide (pushed < chunk) then
      match b.round s with
      | none => []
      | some ⟨cut, .ok _, b, s⟩ => cut :: b.cuts chunk (pushed + cut.pushed.length) s fuel
      | some r => [r.cut]
    else []

/-- The loop goes round as long as nothing is left over, the chunk is not used up, and the splitter
does not stop it. -/
theorem drain_succ (b : Split α σ) (chunk pushed : Nat) (s : Store α σ) (fuel : Nat) :
    b.drain chunk pushed s (fuel + 1) =
      if b.overflow.isEmpty && decide (pushed < chunk) then
        match b.round s with
        | none => ⟨pushed, some (.ok ()), (b.takeBlock s).2.1, (b.takeBlock s).2.2⟩
        | some ⟨cut, .ok _, b, s⟩ => b.drain chunk (pushed + cut.pushed.length) s fuel
        | some r => ⟨pushed, some r.stop, r.body, r.store⟩
      else ⟨pushed, some (.ok ()), b, s⟩ := by
  rw [drain]
  refine if_congr Iff.rfl ?_ rfl
  unfold round
  rcases b.takeBlock s with ⟨_ | block, b', s'⟩
  · rfl
  · rcases hs : b'.splitter.split block s' with ⟨portion | e | p, s₁⟩
    · simp only [hs, Store.length_fitting]
    · simp only [hs]
    · simp only [hs]

/-- The next block is the one in progress, or else comes from the input. -/
theorem takeBlock_cases (b : Split α σ) (s : Store α σ) :
    (∃ a, b.current = some a ∧ b.takeBlock s = (some a, { b with current := none }, s)) ∨
      b.current = none ∧ b.takeBlock s = ((s.pop b.input).1, b, (s.pop b.input).2) := by
  unfold takeBlock
  cases b.current with
  | some a => exact .inl ⟨a, rfl, rfl⟩
  | none => exact .inr ⟨rfl, rfl⟩

/-- The block comes from nowhere but the input. -/
theorem apart_takeBlock (b : Split α σ) (s : Store α σ) :
    (b.takeBlock s).2.1.core = b.core ∧ s.Apart (b.takeBlock s).2.2 [b.input] ∧
    (b.takeBlock s).2.2.env = s.env := by
  rcases b.takeBlock_cases s with ⟨a, -, he⟩ | ⟨-, he⟩ <;> rw [he]
  · exact ⟨rfl, .refl _ _, rfl⟩
  · exact ⟨rfl, .pop (List.mem_singleton_self _) rfl, rfl⟩

/-- There is no round if there is no block. -/
theorem takeBlock_of_round_eq_none (h : b.round s = none) :
    b.current = none ∧ (s.pop b.input).1 = none ∧ b.takeBlock s = (none, b, (s.pop b.input).2) := by
  unfold round at h
  rcases b.takeBlock_cases s with ⟨a, -, he⟩ | ⟨hc, he⟩ <;> rw [he] at h ⊢
  · simp only at h
    split at h <;> cases h
  · cases hp : (s.pop b.input).1 with
    | none => exact ⟨hc, rfl, rfl⟩
    | some a =>
      rw [hp] at h
      simp only at h
      split at h <;> cases h

/-- What a round is made of. -/
theorem round_cases {r : Round α σ} (h : b.round s = some r) :
    ∃ block b₁ s₁, b.takeBlock s = (some block, b₁, s₁) ∧
      ((∃ e s₂, b₁.splitter.split block s₁ = (.failed e, s₂) ∧
        r = ⟨⟨block, none, []⟩, .failed e, b₁, s₂⟩) ∨
        (∃ p s₂, b₁.splitter.split block s₁ = (.panicked p, s₂) ∧
          r = ⟨⟨block, none, []⟩, .panicked p, b₁, s₂⟩) ∨
        ∃ portion s₂ s₃ left s₄, b₁.splitter.split block s₁ = (.ok portion, s₂) ∧
          s₃ = (if portion.done then b₁.splitter.recycle portion.block s₂ else s₂) ∧
          s₃.pushMany b₁.output portion.parcels = (left, s₄) ∧
          r = ⟨⟨block, some portion, s₃.fitting b₁.output portion.parcels⟩, .ok (),
            { b₁ with
              current := if portion.done then none else some portion.block,
              overflow := left }, s₄⟩) := by
  unfold round at h
  rcases htake : b.takeBlock s with ⟨_ | block, b₁, s₁⟩ <;> rw [htake] at h
  · cases h
  · refine ⟨block, b₁, s₁, rfl, ?_⟩
    rcases hs : b₁.splitter.split block s₁ with ⟨portion | e | p, s₂⟩ <;>
      simp only [hs] at h <;> cases h
    · exact .inr (.inr ⟨portion, s₂, _, _, _, rfl, rfl, rfl, rfl⟩)
    · exact .inl ⟨e, s₂, rfl, rfl⟩
    · exact .inr (.inl ⟨p, s₂, rfl, rfl⟩)

theorem core_round {r : Round α σ} (h : b.round s = some r) : r.body.core = b.core := by
  obtain ⟨block, b₁, s₁, ht, hcases⟩ := round_cases h
  have hcore := (b.apart_takeBlock s).1
  rw [ht] at hcore
  rcases hcases with ⟨e, s₂, -, rfl⟩ | ⟨p, s₂, -, rfl⟩ | ⟨portion, s₂, s₃, left, s₄, -, -, -, rfl⟩
  · exact hcore
  · exact hcore
  · exact hcore

/-- What is pushed in a round goes behind what is in the output, if the splitter leaves that
alone. -/
theorem contents_round (hb : b.splitter.Peels items b.input) (hio : b.input ≠ b.output)
    (ho : b.output < s.queues.length)
    (hsplit : ∀ a s, (b.splitter.split a s).2.contents b.output = s.contents b.output)
    (hrecycle : ∀ a s, (b.splitter.recycle a s).contents b.output = s.contents b.output)
    {r : Round α σ} (hr : b.round s = some r) :
    b.output < r.store.queues.length ∧
    r.store.contents b.output = s.contents b.output ++ r.cut.pushed := by
  obtain ⟨block, b₁, s₁, ht, hcases⟩ := round_cases hr
  obtain ⟨hcore, htake, -⟩ := b.apart_takeBlock s
  rw [ht] at hcore htake
  rw [splitter_of_core hcore, output_of_core hcore] at hcases
  have ho₁ : b.output < s₁.queues.length := htake.length ▸ ho
  have hcontents₁ : s₁.contents b.output = s.contents b.output :=
    htake.contents _ (by simpa using hio.symm)
  have hlong := (hb.splits block s₁).length
  have hcontents₂ := (hsplit block s₁).trans hcontents₁
  rcases hcases with ⟨e, s₂, hs, rfl⟩ | ⟨p, s₂, hs, rfl⟩ |
    ⟨portion, s₂, s₃, left, s₄, hs, hs₃, hpush, rfl⟩ <;>
    rw [hs] at hlong hcontents₂
  · exact ⟨ho₁.trans_le hlong, hcontents₂.trans (List.append_nil _).symm⟩
  · exact absurd (congrArg Prod.fst hs) (hb.sober block s₁ p)
  · have hlong₃ : s₂.queues.length ≤ s₃.queues.length := hs₃ ▸ (hb.tidies portion s₂).length
    have hcontents₃ : s₃.contents b.output = s₂.contents b.output := by
      rw [hs₃]
      split
      · exact hrecycle _ _
      · rfl
    have ho₃ : b.output < s₃.queues.length := (ho₁.trans_le hlong).trans_le hlong₃
    have hapart : s₃.Apart s₄ [b.output] := .pushMany (List.mem_singleton_self _) hpush
    refine ⟨hapart.length ▸ ho₃, (Store.contents_pushMany_fitting ho₃ hpush).trans ?_⟩
    rw [hcontents₃, hcontents₂]

/-- What recycles blocks takes note of the one that is recycled in a round. -/
theorem noted_round (hsober : ∀ a s p, (b.splitter.split a s).1 ≠ .panicked p) {noted : σ → List α}
    (hsplit : ∀ a s, noted (b.splitter.split a s).2.env = noted s.env)
    (hrecycle : ∀ a s, noted (b.splitter.recycle a s).env = noted s.env ++ [a]) {r : Round α σ}
    (hr : b.round s = some r) :
    noted r.store.env = noted s.env ++ r.cut.recycled.toList := by
  obtain ⟨block, b₁, s₁, ht, hcases⟩ := round_cases hr
  obtain ⟨hcore, -, henv⟩ := b.apart_takeBlock s
  rw [ht] at hcore henv
  rw [splitter_of_core hcore] at hcases
  have hnoted := (hsplit block s₁).trans (congrArg noted henv)
  rcases hcases with ⟨e, s₂, hs, rfl⟩ | ⟨p, s₂, hs, rfl⟩ |
    ⟨portion, s₂, s₃, left, s₄, hs, hs₃, hpush, rfl⟩ <;>
    rw [hs] at hnoted
  · exact hnoted.trans (List.append_nil _).symm
  · exact absurd (congrArg Prod.fst hs) (hsober block s₁ p)
  · have hpushed : s₄.env = s₃.env := by
      cases hpush
      rfl
    change noted s₄.env = _
    rw [hpushed, hs₃, ← hnoted]
    unfold Cut.recycled
    cases hd : portion.done with
    | true => simpa [hd] using hrecycle portion.block s₂
    | false => simp [hd]

/-- What is true before the loop and remains so in every round is true after it. -/
theorem drain_induction {L : Type} {P : L → Split α σ → Store α σ → Prop} (enter : L → Cut α → L)
    (round : ∀ {log b s r}, P log b s → b.overflow = [] → b.round s = some r →
      P (enter log r.cut) r.body r.store)
    (idle : ∀ {log b s}, P log b s → b.current = none → (s.pop b.input).1 = none →
      P log b (s.pop b.input).2)
    {log : L} {b : Split α σ} {s : Store α σ} (h : P log b s) (chunk pushed fuel : Nat) :
    P ((b.cuts chunk pushed s fuel).foldl enter log) (b.drain chunk pushed s fuel).body
      (b.drain chunk pushed s fuel).store := by
  induction fuel generalizing log b s pushed with
  | zero => exact h
  | succ fuel ih =>
    rw [drain_succ, cuts]
    split
    · next hgo =>
      have hover : b.overflow = [] := by simp_all
      rcases hr : b.round s with _ | ⟨cut, stop, b', s'⟩
      · obtain ⟨hc, hp, he⟩ := takeBlock_of_round_eq_none hr
        simp only [he]
        exact idle h hc hp
      · have hnext := round h hover hr
        cases stop with
        | ok _ => exact ih hnext _
        | failed e => exact hnext
        | panicked p => exact hnext
    · exact h

/-! ### What becomes of the blocks -/

/-- A block on which the splitter has been called, and the parcels that it took. -/
structure Begun (α : Type) where
  block : α
  taken : List α := []

/-- A block that is no longer in progress, and the rest of it that was recycled, unless the splitter
failed on it. -/
structure Closed (α : Type) extends Begun α where
  rest : Option α

/-- What a closed block has to contribute: all its parcels, or those that were taken before the
splitter failed on it. -/
def Closed.share (items : α → List α) (c : Closed α) : List α :=
  if c.rest.isSome then items c.block else c.taken

/-- What has passed through a split so far: the blocks that were put into its input, those of them
that are closed, the one that is not, the parcels that the split has pushed and the blocks that were
recycled. -/
structure Log (α : Type) where
  received : List α
  closed : List (Closed α) := []
  begun : Option (Begun α) := none
  pushed : List α := []
  recycled : List α := []

/-- The block on which the splitter is called: the one that was begun, if there is one. -/
def Log.inHand (log : Log α) (block : α) : Begun α := log.begun.getD { block }

/-- The log after one more call of the splitter. -/
def Log.enter (log : Log α) (c : Cut α) : Log α :=
  let g := log.inHand c.block
  let log :=
    { log with pushed := log.pushed ++ c.pushed, recycled := log.recycled ++ c.recycled.toList }
  match c.portion with
  | none => { log with closed := log.closed ++ [{ g with rest := none }], begun := none }
  | some p =>
    let g := { g with taken := g.taken ++ p.parcels }
    if p.done then
      { log with closed := log.closed ++ [{ g with rest := some p.block }], begun := none }
    else { log with begun := some g }

/-- Blocks are closed in order: of each the parcels at the front were taken, and all of them if it
was recycled. -/
structure Closes (items : α → List α) (closed : List (Closed α)) (recycled : List α) : Prop where
  front : ∀ c ∈ closed, c.taken <+: items c.block
  whole : ∀ c ∈ closed, c.rest.isSome = true → c.taken = items c.block
  recycled : recycled = closed.filterMap (·.rest)

/-- The split as it is between the rounds of its loop, and its log. -/
structure Booked (b₀ : Split α σ) (items : α → List α) (log : Log α) (b : Split α σ)
    (s : Store α σ) : Prop where
  core : b.core = b₀.core
  exists_input : b₀.input < s.queues.length
  exists_output : b₀.output < s.queues.length
  closes : Closes items log.closed log.recycled
  received : log.received =
    log.closed.map (·.block) ++ log.begun.toList.map (·.block) ++ s.contents b₀.input
  pushed : log.pushed ++ b.overflow =
    log.closed.flatMap (·.taken) ++ log.begun.toList.flatMap (·.taken)
  progress : Option.Rel (fun g a => items g.block = g.taken ++ items a) log.begun b.current

/-- The split as it is within a round, once the block has been taken, and its log. -/
structure InHand (b₀ : Split α σ) (items : α → List α) (log : Log α) (block : α) (b : Split α σ)
    (s : Store α σ) : Prop where
  core : b.core = b₀.core
  exists_input : b₀.input < s.queues.length
  exists_output : b₀.output < s.queues.length
  closes : Closes items log.closed log.recycled
  received : log.received =
    log.closed.map (·.block) ++ (log.inHand block).block :: s.contents b₀.input
  pushed : log.pushed = log.closed.flatMap (·.taken) ++ (log.inHand block).taken
  rest : items (log.inHand block).block = (log.inHand block).taken ++ items block
  current : b.current = none
  overflow : b.overflow = []

variable {b₀ : Split α σ} {log : Log α}

theorem Closes.concat {closed : List (Closed α)} {recycled : List α}
    (h : Closes items closed recycled) {c : Closed α} (hfront : c.taken <+: items c.block)
    (hwhole : c.rest.isSome = true → c.taken = items c.block) :
    Closes items (closed ++ [c]) (recycled ++ c.rest.toList) := by
  refine ⟨?_, ?_, ?_⟩
  · simpa [or_imp, forall_and] using ⟨h.front, hfront⟩
  · simpa [or_imp, forall_and] using ⟨h.whole, hwhole⟩
  · rw [List.filterMap_append, ← h.recycled]
    cases hc : c.rest <;> simp [hc]

namespace InHand

/-- The splitter and what recycles blocks leave the input alone. -/
theorem keeps (h : InHand b₀ items log block b s) (hs : s.Keeps b₀.input s') :
    InHand b₀ items log block b s' := by
  refine { h with
    exists_input := h.exists_input.trans_le hs.length
    exists_output := h.exists_output.trans_le hs.length
    received := ?_ }
  rw [hs.contents]
  exact h.received

/-- If the splitter fails the block is gone. -/
theorem failed (h : InHand b₀ items log block b s) :
    Booked b₀ items (log.enter ⟨block, none, []⟩) b s := by
  have hcloses := h.closes.concat (c := { log.inHand block with rest := none })
    (h.rest ▸ List.prefix_append _ _) nofun
  refine ⟨h.core, h.exists_input, h.exists_output, hcloses, ?_, ?_, ?_⟩
  · simp [Log.enter, h.received]
  · simp [Log.enter, h.pushed, h.overflow]
  · rw [h.current]
    exact .none

/-- If the splitter takes parcels these are pushed or left over, and what is left of the block is
recycled or stays in progress. -/
theorem cut (h : InHand b₀ items log block b s) (hio : b₀.input ≠ b.output) {p : Portion α}
    (hfront : items block = p.parcels ++ items p.block) (hdone : p.done = true ↔ items p.block = [])
    {left : List α} (hpush : s.pushMany b.output p.parcels = (left, s')) :
    Booked b₀ items (log.enter ⟨block, some p, s.fitting b.output p.parcels⟩)
      { b with current := if p.done then none else some p.block, overflow := left } s' := by
  have hapart : s.Apart s' [b.output] := .pushMany (List.mem_singleton_self _) hpush
  have hinput : s'.contents b₀.input = s.contents b₀.input := hapart.contents _ (by simpa using hio)
  have hi : b₀.input < s'.queues.length := hapart.length ▸ h.exists_input
  have ho : b₀.output < s'.queues.length := hapart.length ▸ h.exists_output
  have hfit := Store.fitting_append_left hpush
  have hrest := h.rest
  rw [hfront, ← List.append_assoc] at hrest
  cases hd : p.done with
  | true =>
    rw [hdone.1 hd, List.append_nil] at hrest
    have hcloses := h.closes.concat
      (c :=
        { block := (log.inHand block).block, taken := (log.inHand block).taken ++ p.parcels,
          rest := some p.block })
      (hrest ▸ List.prefix_refl _) fun _ => hrest.symm
    have hlog : log.enter ⟨block, some p, s.fitting b.output p.parcels⟩ =
        { log with
          closed := log.closed ++
            [⟨⟨(log.inHand block).block, (log.inHand block).taken ++ p.parcels⟩, some p.block⟩]
          begun := none
          pushed := log.pushed ++ s.fitting b.output p.parcels
          recycled := log.recycled ++ [p.block] } := by
      simp [Log.enter, Cut.recycled, hd]
    rw [hlog]
    refine ⟨h.core, hi, ho, hcloses, ?_, ?_, .none⟩
    · simp [h.received, hinput]
    · simp [h.pushed, hfit]
  | false =>
    have hlog : log.enter ⟨block, some p, s.fitting b.output p.parcels⟩ =
        { log with
          begun := some ⟨(log.inHand block).block, (log.inHand block).taken ++ p.parcels⟩
          pushed := log.pushed ++ s.fitting b.output p.parcels } := by
      simp [Log.enter, Cut.recycled, hd]
    rw [hlog]
    refine ⟨h.core, hi, ho, h.closes, ?_, ?_, .some hrest⟩
    · simp [h.received, hinput]
    · simp [h.pushed, hfit]

end InHand

/-- The block that a round takes has been begun before, or is the next one received. -/
theorem Booked.take (h : Booked b₀ items log b s) (hover : b.overflow = [])
    (ht : b.takeBlock s = (some block, b₁, s₁)) : InHand b₀ items log block b₁ s₁ := by
  have hprogress := h.progress
  have hreceived := h.received
  have hpushed := h.pushed
  rw [hover, List.append_nil] at hpushed
  rcases b.takeBlock_cases s with ⟨a, hc, he⟩ | ⟨hc, he⟩ <;> rw [ht] at he
  -- the block in progress, which has been begun
  · cases he
    rw [hc] at hprogress
    cases hg : log.begun with
    | none =>
      rw [hg] at hprogress
      cases hprogress
    | some g =>
      have hhand : log.inHand block = g := by
        unfold Log.inHand
        rw [hg]
        rfl
      rw [hg] at hprogress hreceived hpushed
      cases hprogress with
      | some hrest =>
        refine ⟨h.core, h.exists_input, h.exists_output, h.closes, ?_, ?_, ?_, rfl, hover⟩
        · simpa [hhand] using hreceived
        · simpa [hhand] using hpushed
        · rw [hhand]
          exact hrest
  -- the next one in the input, of which nothing has been taken
  · obtain ⟨hblock, rfl, rfl⟩ : some block = (s.pop b.input).1 ∧ b₁ = b ∧
        s₁ = (s.pop b.input).2 := by simpa using he
    rw [hc] at hprogress
    cases hg : log.begun with
    | some g =>
      rw [hg] at hprogress
      cases hprogress
    | none =>
      have hhand : log.inHand block = { block } := by
        unfold Log.inHand
        rw [hg]
        rfl
      have hinput : b₁.input = b₀.input := input_of_core h.core
      have hpop : s.contents b₀.input = block :: (s.pop b₁.input).2.contents b₀.input := by
        rw [← hinput]
        exact Store.contents_pop (hinput ▸ h.exists_input) (Prod.ext hblock.symm rfl)
      have hlength : (s.pop b₁.input).2.queues.length = s.queues.length :=
        Store.length_queues_setQueue ..
      rw [hg] at hreceived hpushed
      refine ⟨h.core, hlength ▸ h.exists_input, hlength ▸ h.exists_output, h.closes, ?_, ?_,
        ?_, hc, hover⟩
      · rw [hhand, hreceived, hpop]
        simp
      · simpa [hhand] using hpushed
      · rw [hhand]
        rfl

/-- **Every round of the loop is booked.** -/
theorem Booked.round (hb : b₀.splitter.Peels items b₀.input) (hio : b₀.input ≠ b₀.output)
    (h : Booked b₀ items log b s) (hover : b.overflow = []) {r : Round α σ}
    (hr : b.round s = some r) :
    Booked b₀ items (log.enter r.cut) r.body r.store := by
  obtain ⟨block, b₁, s₁, ht, hcases⟩ := round_cases hr
  have hand := h.take hover ht
  have hsplitter : b₁.splitter = b₀.splitter := splitter_of_core hand.core
  have houtput : b₁.output = b₀.output := output_of_core hand.core
  rw [← hsplitter] at hb
  rw [← houtput] at hio
  have split := hand.keeps (hb.splits block s₁)
  rcases hcases with ⟨e, s₂, hs, rfl⟩ | ⟨p, s₂, hs, rfl⟩ |
    ⟨portion, s₂, s₃, left, s₄, hs, hs₃, hpush, rfl⟩
  · rw [hs] at split
    exact split.failed
  · exact absurd (congrArg Prod.fst hs) (hb.sober block s₁ p)
  · rw [hs] at split
    have recycled : InHand b₀ items log block b₁ s₃ := hs₃ ▸ split.keeps (hb.tidies portion s₂)
    exact recycled.cut hio (hb.front hs) (hb.done_iff hs) hpush

/-- So is the whole loop. -/
theorem Booked.drain (hb : b₀.splitter.Peels items b₀.input) (hio : b₀.input ≠ b₀.output)
    (h : Booked b₀ items log b s) (chunk pushed fuel : Nat) :
    Booked b₀ items ((b.cuts chunk pushed s fuel).foldl Log.enter log)
      (b.drain chunk pushed s fuel).body (b.drain chunk pushed s fuel).store := by
  refine drain_induction (P := Booked b₀ items) Log.enter
    (fun h hover hr => h.round hb hio hover hr) (fun {log b s} h _ hnone => ?_) h chunk pushed fuel
  have hinput : b.input = b₀.input := input_of_core h.core
  have hlength : (s.pop b.input).2.queues.length = s.queues.length :=
    Store.length_queues_setQueue ..
  have hpop : s.contents b₀.input = (s.pop b.input).2.contents b₀.input := by
    rw [← hinput]
    exact Store.contents_pop (hinput ▸ h.exists_input) (Prod.ext hnone rfl)
  refine { h with
    exists_input := hlength ▸ h.exists_input, exists_output := hlength ▸ h.exists_output,
    received := ?_ }
  rw [← hpop]
  exact h.received

/-! ### The end of the loop -/

/-- The blocks that wait: the one in progress, and those in the input. -/
def waiting (b : Split α σ) (s : Store α σ) : List α := b.current.toList ++ s.contents b.input

/-- How often the splitter is called on some blocks at most: once for each parcel, and once for a
block that is empty. -/
def callsFor (items : α → List α) (blocks : List α) : Nat :=
  (blocks.map fun a => max 1 (items a).length).sum

theorem callsFor_cons (items : α → List α) (a : α) (blocks : List α) :
    callsFor items (a :: blocks) = max 1 (items a).length + callsFor items blocks := List.sum_cons

theorem waiting_takeBlock (ht : b.takeBlock s = (some block, b₁, s₁)) :
    b.waiting s = block :: b₁.waiting s₁ ∧ b₁.current = none ∧ b₁.core = b.core ∧
      s₁.queues.length = s.queues.length := by
  unfold waiting
  rcases b.takeBlock_cases s with ⟨a, hc, he⟩ | ⟨hc, he⟩ <;> rw [ht] at he
  · cases he
    exact ⟨by simp [hc], rfl, rfl, rfl⟩
  · obtain ⟨hblock, rfl, rfl⟩ : some block = (s.pop b.input).1 ∧ b₁ = b ∧
        s₁ = (s.pop b.input).2 := by simpa using he
    have hpop : s.pop b₁.input = (some block, (s.pop b₁.input).2) := Prod.ext hblock.symm rfl
    refine ⟨?_, hc, rfl, Store.length_queues_setQueue ..⟩
    rw [hc]
    exact Store.contents_pop (Store.lt_of_pop hpop) hpop

/-- A round of which the splitter does not fail leaves fewer calls to make. -/
theorem callsFor_round (hb : b.splitter.Peels items b.input) (hi : b.input < s.queues.length)
    (hio : b.input ≠ b.output) {r : Round α σ} (hr : b.round s = some r) :
    0 < callsFor items (b.waiting s) ∧ ((∃ e, r.stop = .failed e) ∨
      r.stop = .ok () ∧ r.body.core = b.core ∧ b.input < r.store.queues.length ∧
        callsFor items (r.body.waiting r.store) < callsFor items (b.waiting s)) := by
  obtain ⟨block, b₁, s₁, ht, hcases⟩ := round_cases hr
  obtain ⟨hwaiting, hcurrent, hcore, hlength⟩ := waiting_takeBlock ht
  have hsplitter : b₁.splitter = b.splitter := splitter_of_core hcore
  have hinput : b₁.input = b.input := input_of_core hcore
  have houtput : b₁.output = b.output := output_of_core hcore
  rw [hwaiting, callsFor_cons]
  refine ⟨by omega, ?_⟩
  rcases hcases with ⟨e, s₂, hs, rfl⟩ | ⟨p, s₂, hs, rfl⟩ |
    ⟨portion, s₂, s₃, left, s₄, hs, hs₃, hpush, rfl⟩
  · exact .inl ⟨e, rfl⟩
  · rw [hsplitter] at hs
    exact absurd (congrArg Prod.fst hs) (hb.sober block s₁ p)
  · refine .inr ⟨rfl, hcore, ?_⟩
    rw [hsplitter] at hs hs₃
    have hsplit := hb.splits block s₁
    rw [hs] at hsplit
    have hkeeps : s₁.Keeps b.input s₃ := hs₃ ▸ hsplit.trans (hb.tidies portion s₂)
    have hapart : s₃.Apart s₄ [b₁.output] := .pushMany (List.mem_singleton_self _) hpush
    have hcontents : s₄.contents b.input = s₁.contents b.input :=
      (hapart.contents _ (by simpa [houtput] using hio)).trans hkeeps.contents
    refine ⟨(hi.trans_le (hlength ▸ hkeeps.length)).trans_le (Nat.le_of_eq hapart.length.symm), ?_⟩
    have hfront := congrArg List.length (hb.front hs)
    rw [List.length_append] at hfront
    unfold waiting
    simp only [hcurrent, hinput, hcontents, Option.toList_none, List.nil_append]
    cases hd : portion.done with
    | true =>
      simp only [if_true, Option.toList_none, List.nil_append]
      omega
    | false =>
      -- parcels are left, so that some have been taken as well
      have hrest : items portion.block ≠ [] :=
        fun he => absurd ((hb.done_iff hs).2 he) (by simp [hd])
      have hsome : portion.parcels ≠ [] := hb.getsOn hs fun he => hrest (by
        rw [hb.front hs] at he
        exact (List.append_eq_nil_iff.1 he).2)
      have := List.length_pos_iff.2 hrest
      have := List.length_pos_iff.2 hsome
      simp only [Bool.false_eq_true, if_false, Option.toList_some, List.singleton_append,
        callsFor_cons]
      omega

/-- **The loop ends** as soon as there may be as many rounds as are left. -/
theorem drain_ends (hb : b.splitter.Peels items b.input) (hi : b.input < s.queues.length)
    (hio : b.input ≠ b.output) (chunk pushed : Nat) {fuel : Nat}
    (hf : callsFor items (b.waiting s) < fuel) :
    ((b.drain chunk pushed s fuel).stop = some (.ok ()) ∨
      ∃ e, (b.drain chunk pushed s fuel).stop = some (.failed e)) ∧
      (b.cuts chunk pushed s fuel).length ≤ callsFor items (b.waiting s) := by
  induction fuel generalizing b s pushed with
  | zero => exact absurd hf (Nat.not_lt_zero _)
  | succ fuel ih =>
    rw [drain_succ, cuts]
    split
    · rcases hr : b.round s with _ | ⟨cut, stop, b', s'⟩
      · exact ⟨.inl rfl, Nat.zero_le _⟩
      · obtain ⟨hpos, ⟨e, rfl⟩ | ⟨rfl, hcore, hi', hless⟩⟩ := callsFor_round hb hi hio hr
        · exact ⟨.inr ⟨e, rfl⟩, hpos⟩
        · have hsplitter : b'.splitter = b.splitter := splitter_of_core hcore
          have hinput : b'.input = b.input := input_of_core hcore
          have houtput : b'.output = b.output := output_of_core hcore
          obtain ⟨hstop, hlength⟩ := ih (b := b') (s := s') (by rwa [hsplitter, hinput])
            (by rwa [hinput]) (by rwa [hinput, houtput]) (pushed + cut.pushed.length)
            (Nat.lt_of_lt_of_le hless (Nat.le_of_lt_succ hf))
          exact ⟨hstop, hlength.trans_lt hless⟩
    · exact ⟨.inl rfl, Nat.zero_le _⟩

/-! ### Calls -/

/-- What is pushed in a call of what was left over before. -/
def flushed (b : Split α σ) (s : Store α σ) : List α := s.fitting b.output b.overflow

/-- The calls of the splitter in one call of the split. -/
def calls (b : Split α σ) (v : Visit) (s : Store α σ) : List (Cut α) :=
  let r := s.pushMany b.output b.overflow
  { b with overflow := r.1 }.cuts v.chunk (b.overflow.length - r.1.length) r.2 (b.fuel r.2)

/-- How the loop of a call ends. -/
def drained (b : Split α σ) (v : Visit) (s : Store α σ) : Drained α σ :=
  let r := s.pushMany b.output b.overflow
  { b with overflow := r.1 }.drain v.chunk (b.overflow.length - r.1.length) r.2 (b.fuel r.2)

theorem store_execute (b : Split α σ) (v : Visit) (s : Store α σ) :
    (b.execute v s).store = (b.drained v s).store := by
  unfold execute drained
  rcases s.pushMany b.output b.overflow with ⟨left, s₁⟩
  simp only
  split <;> rfl

theorem body_execute (b : Split α σ) (v : Visit) (s : Store α σ) :
    ∃ n, (b.execute v s).body = { (b.drained v s).body with held := n } := by
  unfold execute drained
  rcases s.pushMany b.output b.overflow with ⟨left, s₁⟩
  simp only
  split
  · exact ⟨_, rfl⟩
  · exact ⟨_, rfl⟩
  · exact ⟨_, rfl⟩
  · exact ⟨_, rfl⟩

/-- The rounds that a call allows for are enough. -/
theorem callsFor_lt_fuel (hb : b.splitter.Peels items b.input) :
    callsFor items (b.waiting s) < b.fuel s := by
  have enough : ∀ blocks : List α,
      callsFor items blocks < blocks.foldr (fun block n => b.splitter.work block + 1 + n) 1 := by
    intro blocks
    induction blocks with
    | nil => exact Nat.one_pos
    | cons a blocks ih =>
      have := hb.work a
      rw [callsFor_cons, List.foldr_cons]
      omega
  exact enough (b.waiting s)

/-- What a call comes to: it returns, after not too many calls of the splitter; what it pushes goes
behind what is in the output, if the splitter leaves that alone; and the blocks that it recycles are
those of which recycling takes note, in whatever way. -/
structure Serves (b : Split α σ) (items : α → List α) (v : Visit) (s : Store α σ) : Prop where
  returns : ∃ o, (b.execute v s).ending = .returned o
  ends : (b.calls v s).length ≤ callsFor items (b.waiting s)
  pushes : (∀ a s, (b.splitter.split a s).2.contents b.output = s.contents b.output) →
    (∀ a s, (b.splitter.recycle a s).contents b.output = s.contents b.output) →
    (b.execute v s).store.contents b.output =
      s.contents b.output ++ b.flushed s ++ (b.calls v s).flatMap (·.pushed)
  recycles : ∀ noted : σ → List α, (∀ a s, noted (b.splitter.split a s).2.env = noted s.env) →
    (∀ a s, noted (b.splitter.recycle a s).env = noted s.env ++ [a]) →
    noted (b.execute v s).store.env = noted s.env ++ (b.calls v s).filterMap Cut.recycled

section Serves

variable (hb : b.splitter.Peels items b.input) (hio : b.input ≠ b.output)
  (hi : b.input < s.queues.length) (v : Visit)
include hb hio hi

theorem returns_execute :
    (∃ o, (b.execute v s).ending = .returned o) ∧
    (b.calls v s).length ≤ callsFor items (b.waiting s) := by
  unfold execute calls
  rcases hpush : s.pushMany b.output b.overflow with ⟨left, s₁⟩
  have hapart : s.Apart s₁ [b.output] := .pushMany (List.mem_singleton_self _) hpush
  have hwaiting : ({ b with overflow := left } : Split α σ).waiting s₁ = b.waiting s :=
    congrArg (b.current.toList ++ ·) (hapart.contents _ (by simpa using hio))
  have hfuel := callsFor_lt_fuel (s := s₁) hb
  rw [show b.waiting s₁ = b.waiting s from hwaiting, ← hwaiting] at hfuel
  obtain ⟨hstop, hlength⟩ := drain_ends (b := { b with overflow := left }) hb
    (hapart.length ▸ hi) hio v.chunk (b.overflow.length - left.length) hfuel
  rw [hwaiting] at hlength
  simp only
  refine ⟨?_, hlength⟩
  rcases hstop with hstop | ⟨e, hstop⟩
  · rw [hstop]
    exact ⟨_, rfl⟩
  · rw [hstop]
    exact ⟨_, rfl⟩

omit hi in
/-- What is pushed goes behind what is in the output, if the splitter leaves that alone. -/
theorem pushes_execute (ho : b.output < s.queues.length)
    (hsplit : ∀ a s, (b.splitter.split a s).2.contents b.output = s.contents b.output)
    (hrecycle : ∀ a s, (b.splitter.recycle a s).contents b.output = s.contents b.output) :
    (b.execute v s).store.contents b.output =
      s.contents b.output ++ b.flushed s ++ (b.calls v s).flatMap (·.pushed) := by
  rw [store_execute]
  unfold drained calls
  rcases hpush : s.pushMany b.output b.overflow with ⟨left, s₁⟩
  have hapart : s.Apart s₁ [b.output] := .pushMany (List.mem_singleton_self _) hpush
  rw [List.flatMap_eq_foldl]
  refine (drain_induction (b := { b with overflow := left })
    (P := fun pushed (b' : Split α σ) (s' : Store α σ) => b'.core = b.core ∧
      b.output < s'.queues.length ∧
      s'.contents b.output = s.contents b.output ++ b.flushed s ++ pushed)
    (fun pushed c => pushed ++ c.pushed) ?_ ?_ ⟨rfl, hapart.length ▸ ho, ?_⟩ _ _ _).2.2
  · rintro pushed b' s' r ⟨hcore, hlt, hcontents⟩ - hr
    have hsplitter : b'.splitter = b.splitter := splitter_of_core hcore
    have hinput : b'.input = b.input := input_of_core hcore
    have houtput : b'.output = b.output := output_of_core hcore
    rw [← hsplitter, ← hinput] at hb
    rw [← hsplitter, ← houtput] at hsplit hrecycle
    rw [← hinput, ← houtput] at hio
    have hround := contents_round hb hio (houtput ▸ hlt) hsplit hrecycle hr
    rw [houtput, hcontents, List.append_assoc] at hround
    exact ⟨(core_round hr).trans hcore, hround⟩
  · rintro pushed b' s' ⟨hcore, hlt, hcontents⟩ - -
    have hpop : s'.Apart (s'.pop b'.input).2 [b'.input] := .pop (List.mem_singleton_self _) rfl
    refine ⟨hcore, hpop.length ▸ hlt, (hpop.contents _ ?_).trans hcontents⟩
    rw [input_of_core hcore]
    simpa using hio.symm
  · rw [List.append_nil]
    exact Store.contents_pushMany_fitting ho hpush

omit hio hi in
/-- What recycles blocks takes note of those that are recycled. -/
theorem recycles_execute {noted : σ → List α}
    (hsplit : ∀ a s, noted (b.splitter.split a s).2.env = noted s.env)
    (hrecycle : ∀ a s, noted (b.splitter.recycle a s).env = noted s.env ++ [a]) :
    noted (b.execute v s).store.env = noted s.env ++ (b.calls v s).filterMap Cut.recycled := by
  rw [store_execute]
  unfold drained calls
  rcases hpush : s.pushMany b.output b.overflow with ⟨left, s₁⟩
  have henv : s₁.env = s.env := by
    cases hpush
    rfl
  rw [List.filterMap_eq_flatMap_toList, List.flatMap_eq_foldl]
  refine (drain_induction (b := { b with overflow := left })
    (P := fun recycled (b' : Split α σ) (s' : Store α σ) => b'.core = b.core ∧
      noted s'.env = noted s.env ++ recycled)
    (fun recycled c => recycled ++ c.recycled.toList) ?_ (fun h _ _ => h) ⟨rfl, ?_⟩ _ _ _).2
  · rintro recycled b' s' r ⟨hcore, hnoted⟩ - hr
    rw [← splitter_of_core hcore] at hb hsplit hrecycle
    have hround := noted_round hb.sober hsplit hrecycle hr
    rw [hnoted, List.append_assoc] at hround
    exact ⟨(core_round hr).trans hcore, hround⟩
  · rw [henv, List.append_nil]

theorem serves_execute (ho : b.output < s.queues.length) : b.Serves items v s := by
  obtain ⟨hreturns, hends⟩ := returns_execute hb hio hi v
  exact ⟨hreturns, hends, pushes_execute hb hio v ho, fun _ => recycles_execute hb v⟩

end Serves

/-! ### Any number of calls -/

/-- A split is called again and again. Between the calls others put blocks behind those in the
input, and do to all other queues, and to any threshold, what they like. -/
inductive Operated (b₀ : Split α σ) (s₀ : Store α σ) : Log α → Split α σ → Store α σ → Prop where
  | start : Operated b₀ s₀ { received := s₀.contents b₀.input } b₀ s₀
  | call {log : Log α} {b : Split α σ} {s : Store α σ} (v : Visit) : Operated b₀ s₀ log b s →
      Operated b₀ s₀
        ((b.calls v s).foldl Log.enter { log with pushed := log.pushed ++ b.flushed s })
        (b.execute v s).body (b.execute v s).store
  | others {log : Log α} {b : Split α σ} {s s' : Store α σ} (blocks : List α) :
      Operated b₀ s₀ log b s →
      s'.contents b₀.input = s.contents b₀.input ++ blocks → s.queues.length ≤ s'.queues.length →
      Operated b₀ s₀ { log with received := log.received ++ blocks } b s'

/-- In particular others may take parcels from the output. -/
theorem Operated.popMany {s₀ : Store α σ} {q : QueueId} (h : Operated b₀ s₀ log b s)
    (hq : b₀.input ≠ q) (n : Nat) :
    Operated b₀ s₀ log b (s.popMany q n).2 := by
  have hsame : (s.popMany q n).2.contents b₀.input = s.contents b₀.input ++ [] :=
    (Store.contents_setQueue_ne hq _).trans (List.append_nil _).symm
  have popped := h.others [] hsame (Nat.le_of_eq (Store.length_queues_setQueue ..).symm)
  rwa [List.append_nil] at popped

/-- The split as it is between two calls, and its log: it has taken note of what it leaves over. -/
structure Kept (b₀ : Split α σ) (items : α → List α) (log : Log α) (b : Split α σ)
    (s : Store α σ) : Prop
    extends Booked b₀ items log b s where
  held : b.held = (b.overflow ++ b.current.toList).length

namespace Kept

theorem start (fresh : b₀.core = b₀) (hi : b₀.input < s.queues.length)
    (ho : b₀.output < s.queues.length) :
    Kept b₀ items { received := s.contents b₀.input } b₀ s := by
  have hcurrent : b₀.current = none := (congrArg Split.current fresh).symm
  have hover : b₀.overflow = [] := (congrArg Split.overflow fresh).symm
  have hheld : b₀.held = 0 := (congrArg Split.held fresh).symm
  refine ⟨⟨rfl, hi, ho, ⟨nofun, nofun, rfl⟩, rfl, ?_, ?_⟩, ?_⟩
  · rw [hover]
    rfl
  · rw [hcurrent]
    exact .none
  · rw [hheld, hover, hcurrent]
    rfl

theorem serves (h : Kept b₀ items log b s) (hb : b₀.splitter.Peels items b₀.input)
    (hio : b₀.input ≠ b₀.output) (v : Visit) :
    b.Serves items v s := by
  have hinput := input_of_core h.core
  have houtput := output_of_core h.core
  refine serves_execute ?_ (by rwa [hinput, houtput]) (hinput ▸ h.exists_input) v
    (houtput ▸ h.exists_output)
  rwa [splitter_of_core h.core, hinput]

/-- A call books what was left over, and then every round of its loop. -/
theorem call (h : Kept b₀ items log b s) (hb : b₀.splitter.Peels items b₀.input)
    (hio : b₀.input ≠ b₀.output) (v : Visit) :
    Kept b₀ items ((b.calls v s).foldl Log.enter { log with pushed := log.pushed ++ b.flushed s })
      (b.execute v s).body (b.execute v s).store := by
  obtain ⟨o, hreturns⟩ := (h.serves hb hio v).returns
  refine ⟨?_, held_execute hreturns⟩
  obtain ⟨n, hbody⟩ := b.body_execute v s
  rw [hbody, store_execute]
  unfold calls drained
  rcases hpush : s.pushMany b.output b.overflow with ⟨left, s₁⟩
  have hapart : s.Apart s₁ [b.output] := .pushMany (List.mem_singleton_self _) hpush
  have hinput : s₁.contents b₀.input = s.contents b₀.input := hapart.contents _ (by
    rw [output_of_core h.core]
    simpa using hio)
  have flush : Booked b₀ items { log with pushed := log.pushed ++ b.flushed s }
      { b with overflow := left } s₁ := by
    refine ⟨h.core, hapart.length ▸ h.exists_input, hapart.length ▸ h.exists_output, h.closes, ?_,
      ?_, h.progress⟩
    · rw [hinput]
      exact h.received
    · rw [List.append_assoc]
      exact (congrArg (log.pushed ++ ·) (Store.fitting_append_left hpush)).trans h.pushed
  have drain := flush.drain hb hio v.chunk (b.overflow.length - left.length) (b.fuel s₁)
  exact ⟨drain.core, drain.exists_input, drain.exists_output, drain.closes, drain.received,
    drain.pushed, drain.progress⟩

/-- What others put into the input comes behind what is there. -/
theorem others (h : Kept b₀ items log b s) {blocks : List α}
    (hblocks : s'.contents b₀.input = s.contents b₀.input ++ blocks)
    (hlong : s.queues.length ≤ s'.queues.length) :
    Kept b₀ items { log with received := log.received ++ blocks } b s' := by
  refine { h with
    exists_input := h.exists_input.trans_le hlong
    exists_output := h.exists_output.trans_le hlong
    received := ?_ }
  rw [hblocks, ← List.append_assoc, ← h.received]

theorem pending_eq_zero_iff (h : Kept b₀ items log b s) :
    b.pending s = 0 ↔ s.contents b.input = [] ∧ b.current = none ∧ b.overflow = [] := by
  have hpending :
      b.pending s = (s.contents b.input ++ (b.overflow ++ b.current.toList)).length := by
    rw [List.length_append, ← h.held]
    rfl
  rw [hpending, List.length_eq_zero_iff, List.append_eq_nil_iff, List.append_eq_nil_iff,
    Option.toList_eq_nil_iff, and_comm (a := b.overflow = [])]

end Kept

theorem Operated.kept {s₀ : Store α σ} (h : Operated b₀ s₀ log b s) (fresh : b₀.core = b₀)
    (hb : b₀.splitter.Peels items b₀.input) (hio : b₀.input ≠ b₀.output)
    (hi : b₀.input < s₀.queues.length) (ho : b₀.output < s₀.queues.length) :
    Kept b₀ items log b s := by
  induction h with
  | start => exact .start fresh hi ho
  | call v _ ih => exact ih.call hb hio v
  | others blocks _ hblocks hlong ih => exact ih.others hblocks hlong

/-- **A split emits every block exactly, in order.** Its splitter takes parcels off the front of a
block, one at least if there is one, and it may fail; others may put blocks into the input and do to
the output what they like. What has been pushed, followed by what is left over and by the parcels of
the block in progress and of those in the input, is the parcels of all blocks that were received, in
order, except that a block on which the splitter failed has contributed no more than was taken of it
before, which is some of its parcels from the front. A block is in progress just if one was begun
and has not been closed. The blocks that were used up have been recycled, each once and in order,
and no others. There is no pending work just if no block is waiting and nothing is left over. Every
further call returns, and pushes and recycles what is booked. -/
theorem emits_blocks {s₀ : Store α σ} (fresh : b₀.core = b₀) (hb : b₀.splitter.Peels items b₀.input)
    (hio : b₀.input ≠ b₀.output) (hi : b₀.input < s₀.queues.length)
    (ho : b₀.output < s₀.queues.length) (h : Operated b₀ s₀ log b s) :
    log.received =
      log.closed.map (·.block) ++ (log.begun.toList.map (·.block) ++ s.contents b.input) ∧
      log.pushed ++ b.overflow ++ b.current.toList.flatMap items ++
        (s.contents b.input).flatMap items =
        log.closed.flatMap (·.share items) ++
          (log.begun.toList.map (·.block) ++ s.contents b.input).flatMap items ∧
      (∀ c ∈ log.closed, c.rest = none → c.taken <+: items c.block) ∧
      b.current.isSome = log.begun.isSome ∧
      log.recycled = log.closed.filterMap (·.rest) ∧
      (b.pending s = 0 ↔ s.contents b.input = [] ∧ b.current = none ∧ b.overflow = []) ∧
      ∀ v, b.Serves items v s := by
  have kept := h.kept fresh hb hio hi ho
  have hshare : log.closed.flatMap (·.share items) = log.closed.flatMap (·.taken) :=
    List.flatMap_congr fun c hc => by
      unfold Closed.share
      split
      · next hrest => exact (kept.closes.whole c hc hrest).symm
      · rfl
  refine ⟨?_, ?_, fun c hc _ => kept.closes.front c hc, ?_, kept.closes.recycled,
    kept.pending_eq_zero_iff, kept.serves hb hio⟩
  · rw [input_of_core kept.core, ← List.append_assoc]
    exact kept.received
  · rw [hshare, kept.pushed, List.flatMap_append, ← List.append_assoc,
      List.append_assoc _ _ (b.current.toList.flatMap items)]
    congr 2
    have hprogress := kept.progress
    cases hg : log.begun <;> cases hc : b.current <;> rw [hg, hc] at hprogress <;> cases hprogress
    · rfl
    · next hrest => simpa using hrest.symm
  · have hprogress := kept.progress
    cases hg : log.begun <;> cases hc : b.current <;> rw [hg, hc] at hprogress <;>
    cases hprogress <;> rfl

/-- A splitter of lists takes two numbers at a time and fails on a list that begins with 9. It notes
what is recycled. -/
def pairwise : Splitter (List Nat) (List (List Nat)) where
  split a s := (if a.head? = some 9 then .failed ⟨"nine"⟩
    else .ok { parcels := (a.take 2).map ([·]), block := a.drop 2, done := (a.drop 2).isEmpty }, s)
  recycle a s := { s with env := s.env ++ [a] }
  work a := a.length

theorem peels_pairwise (q : QueueId) : pairwise.Peels (fun a => a.map ([·])) q := by
  have answers : ∀ {a s portion s'}, pairwise.split a s = (.ok portion, s') →
      portion =
        { parcels := (a.take 2).map ([·]), block := a.drop 2, done := (a.drop 2).isEmpty } := by
    intro a s portion s' h
    unfold pairwise at h
    simp only at h
    split at h <;> cases h
    rfl
  refine ⟨fun a s p => ?_, fun h => ?_, fun h hne => ?_, fun h => ?_, fun a s => .refl q s,
    fun a s => ⟨Nat.le_refl _, rfl⟩, fun a => ?_⟩
  · unfold pairwise
    simp only
    split <;> simp
  · rw [answers h, ← List.map_append, List.take_append_drop]
  · rw [answers h]
    simpa using hne
  · rw [answers h]
    simp
  · simp [pairwise]

/-- Four blocks wait, one of them empty and one that the splitter does not get through. The output
has room for two parcels. -/
def piled : Store (List Nat) (List (List Nat)) where
  queues :=
    [{ name := "blocks", items := [[1, 2, 3], [], [4, 5, 9, 6], [7]], threshold := unlimited },
      .bounded "items" 2]
  env := []

def pairing : Split (List Nat) (List (List Nat)) :=
  { splitter := pairwise, input := 0, output := 1 }

/-- A call of the split, after which others take two parcels from the output. -/
def turn (r : Split (List Nat) (List (List Nat)) × Store (List Nat) (List (List Nat))) :
    Split (List Nat) (List (List Nat)) × Store (List Nat) (List (List Nat)) :=
  let r' := r.1.execute (.start 0 0 4) r.2
  (r'.body, (r'.store.popMany 1 2).2)

theorem operated_turn {log : Log (List Nat)}
    {r : Split (List Nat) (List (List Nat)) × Store (List Nat) (List (List Nat))}
    (h : Operated pairing piled log r.1 r.2) :
    Operated pairing piled
      ((r.1.calls (.start 0 0 4) r.2).foldl Log.enter { log with
        pushed := log.pushed ++ r.1.flushed r.2 })
      (turn r).1 (turn r).2 :=
  (h.call (.start 0 0 4)).popMany (by decide) 2

/-- The first turn leaves over a parcel of the first block, the second stops in the middle of the
third block, and in the third the splitter fails on the rest of that. -/
theorem emits_blocks_piled :
    let r := turn (turn (turn (pairing, piled)))
    r.2.env = [[], []] ∧ r.1.pending r.2 ≠ 0 ∧ ∃ log, Operated pairing piled log r.1 r.2 ∧
      log.closed.map (·.block) ++ (log.begun.toList.map (·.block) ++ [[7]]) =
        [[1, 2, 3], [], [4, 5, 9, 6], [7]] ∧
        log.pushed = [[1], [2], [3], [4], [5]] ∧ log.recycled = [[], []] := by
  intro r
  have history := operated_turn (operated_turn (operated_turn (r := (pairing, piled)) .start))
  obtain ⟨hreceived, -, -, -, -, hpending, -⟩ :=
    emits_blocks rfl (peels_pairwise 0) (by decide) (by decide) (by decide) history
  have waits : ¬ (r.2.contents r.1.input = [] ∧ r.1.current = none ∧ r.1.overflow = []) := by
    decide +kernel
  have left : r.2.contents r.1.input = [[7]] := by decide +kernel
  refine ⟨by decide +kernel, fun h => waits (hpending.1 h), _, history,
    ?_, by decide +kernel, by decide +kernel⟩
  rw [← left, ← hreceived]
  decide +kernel

end Split

end Pipework
