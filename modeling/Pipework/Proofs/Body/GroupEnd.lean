import Pipework.Proofs.Body.Members

/-!
# When a group is finished

A source says that it is finished when its producer is exhausted and nothing that it has polled
waits (`Source.exhausted_of_finished`). The other members of a group never say so. They count as
finished when all members before them do and nothing is pending for them; then there is nothing left
for them to do (`Body.done_of_pending`). It stays so: the members before them are not called again,
and those after them do not write upstream (`UpstreamFirst`). So a group that lists its members
upstream first is finished only when it is empty (`group_finished`).

A source in another place than the first also counts as finished when a call comes past it while its
output queue is full and all members before it are finished, for then it has no pending work either
(`Body.isStuck`, `Members.stuckAt`). Nothing is said of a source to which that has happened.
-/

namespace Pipework

variable {α σ : Type}

/-! ### Sources -/

namespace Source

/-- Nothing that was polled waits once the producer is exhausted. -/
def Tidy (b : Source α σ) : Prop := b.exhausted = true → b.overflow = none

variable {b : Source α σ}

theorem tidy_pull (hw : b.overflow = none) (hx : b.exhausted = false) (pushed : Nat) (s : Store α σ)
    (budget : Nat) :
    (b.pull pushed s budget).body.Tidy := by
  fun_induction pull b pushed s budget with
  | case2 _ _ _ _ _ _ _ _ ih => exact ih
  | case3 =>
    intro h
    exact absurd h (by simp [hx])
  | _ => exact fun _ => hw

theorem tidy_feed (hw : b.overflow = none) (v : Visit) (pushed : Nat) (s : Store α σ) :
    (b.feed v pushed s).body.Tidy :=
  feed_induction (P := fun body _ => body.Tidy) b v pushed s (fun _ _ => hw)
    (fun hx => tidy_pull hw hx pushed s _) fun _ _ _ h => h

theorem tidy_execute (hb : b.Tidy) (v : Visit) (s : Store α σ) : (b.execute v s).body.Tidy := by
  fun_cases execute b v s with
  | case1 src hw => exact tidy_feed hw v 0 s
  | case2 src a hw a' s' hpush =>
    intro hx
    have := hb hx
    rw [show b.overflow = some a from hw] at this
    cases this
  | case3 src a hw s' hpush => exact tidy_feed (b := { src with overflow := none }) rfl v 1 s'

theorem chunkHint_pull (b : Source α σ) (pushed : Nat) (s : Store α σ) (budget : Nat) :
    (b.pull pushed s budget).body.chunkHint = b.chunkHint := by
  fun_induction pull b pushed s budget with
  | case2 _ _ _ _ _ _ _ _ ih => exact ih
  | _ => rfl

theorem chunkHint_feed (b : Source α σ) (v : Visit) (pushed : Nat) (s : Store α σ) :
    (b.feed v pushed s).body.chunkHint = b.chunkHint :=
  feed_induction (P := fun body _ => body.chunkHint = b.chunkHint) b v pushed s (fun _ => rfl)
    (fun _ => chunkHint_pull b pushed s _) fun _ _ _ h => h

theorem chunkHint_execute (b : Source α σ) (v : Visit) (s : Store α σ) :
    (b.execute v s).body.chunkHint = max v.chunk 1 := by
  fun_cases execute b v s with
  | case1 src => exact chunkHint_feed src v 0 s
  | case2 => rfl
  | case3 src => exact chunkHint_feed { src with overflow := none } v 1 _

theorem exhausted_of_feed {v : Visit} {pushed : Nat} {s : Store α σ}
    (h : (b.feed v pushed s).ending = .returned .finished) :
    (b.feed v pushed s).body.exhausted = true ∧ (b.feed v pushed s).body.overflow = none := by
  revert h
  fun_cases feed b v pushed s with
  | case1 => exact fun h => by cases h
  | case2 r hr body outcome =>
    intro h
    change Ending.returned (if body.exhausted && body.overflow.isNone then .finished
      else if r.pushed > 0 then .success else .comeBackLater) = _ at h
    split at h
    · simpa using ‹(body.exhausted && body.overflow.isNone) = true›
    · split at h <;> cases h

/-- A source says that it is finished only when it is. -/
theorem exhausted_of_finished {v : Visit} {s : Store α σ}
    (h : (b.execute v s).ending = .returned .finished) :
    (b.execute v s).body.exhausted = true ∧ (b.execute v s).body.overflow = none := by
  revert h
  fun_cases execute b v s with
  | case1 => exact exhausted_of_feed
  | case2 => exact fun h => by cases h
  | case3 => exact exhausted_of_feed

/-- A source that was called has no pending work when its producer is exhausted or its output queue
is full. -/
theorem pending_execute_eq_zero_iff (b : Source α σ) (v : Visit) (s s' : Store α σ) :
    (b.execute v s).body.pending s' = 0 ↔
      (b.execute v s).body.exhausted = true ∨ (s'.queue (b.execute v s).body.output).free = 0 := by
  unfold pending
  rw [chunkHint_execute]
  cases (b.execute v s).body.exhausted with
  | true => simp
  | false =>
    simp only [Bool.false_eq_true, if_false, false_or]
    omega

end Source

/-! ### Bodies with nothing left to do -/

namespace Body

/-- Nothing is left for a body to do: the producer of a source is exhausted and nothing that it has
polled waits, and nothing is waiting for any other body. -/
def Done : Body α σ → Store α σ → Prop
  | .source b, _ => b.exhausted = true ∧ b.overflow = none
  | b, s => b.Idle s

/-- Whether a body is a source that could go on polling, were its output queue not full. -/
def isStuck : Body α σ → Store α σ → Bool
  | .source b, s => !b.exhausted && (s.queue b.output).isFull
  | _, _ => false

/-- What a body knows of itself is true. -/
def Orderly : Body α σ → Prop
  | .source b => b.Tidy
  | b => b.Honest

variable {b : Body α σ} {v : Visit} {s s' : Store α σ}

theorem isStuck_of_not_isSource (h : b.isSource = false) (s : Store α σ) : b.isStuck s = false := by
  cases b with
  | source b => cases h
  | _ => rfl

theorem orderly_of_core (h : b.core = b) : b.Orderly := by
  cases b with
  | source b =>
    injection h with h
    intro _
    rw [← h]
    rfl
  | split b =>
    injection h with h
    change b.held = (b.overflow ++ b.current.toList).length
    rw [← h]
    rfl
  | _ => trivial

theorem Done.dry (h : b.Done s) {q : QueueId} (hr : b.reads = some q) : s.Dry q := by
  cases b with
  | source b => cases hr
  | _ => exact Idle.dry h q hr

/-- Nothing is left as long as nobody fills the queue from which the body takes parcels. -/
theorem Done.carry (h : b.Done s) (hq : ∀ q, b.reads = some q → s.Dry q → s'.Dry q) :
    b.Done s' := by
  cases b with
  | source b => exact h
  | _ => exact ⟨fun q hr => hq q hr (h.dry hr), Idle.leftover h⟩

section

variable (hb : b.isPlain = true)
include hb

theorem orderly_execute (h : b.Orderly) {o : Outcome} (he : (b.execute v s).ending = .returned o) :
    (b.execute v s).body.Orderly := by
  cases b with
  | source b => exact b.tidy_execute h v s
  | split b => exact honest_execute (b := .split b) hb he
  | callback b => cases hb
  | group ms => cases hb
  | _ => trivial

theorem isSource_execute (v : Visit) (s : Store α σ) :
    (b.execute v s).body.isSource = b.isSource := by
  rw [← isSource_core, core_execute hb, isSource_core]

/-- A body that says that it is finished has nothing left to do. -/
theorem done_of_finished (he : (b.execute v s).ending = .returned .finished) :
    (b.execute v s).body.Done (b.execute v s).store := by
  have hs := isSource_of_finished hb he
  cases b with
  | source b => exact Source.exhausted_of_finished (b := b) he
  | _ => cases hs

/-- A body that was called, and for which nothing is pending, has nothing left to do, unless it is a
source that is stuck. -/
theorem done_of_pending (h : b.Orderly) {o : Outcome} (he : (b.execute v s).ending = .returned o)
    (hz : (b.execute v s).body.pending (b.execute v s).store = 0)
    (hf : (b.execute v s).body.isStuck (b.execute v s).store = false) :
    (b.execute v s).body.Done (b.execute v s).store := by
  have orderly := orderly_execute hb h he
  cases b with
  | source b =>
    have hx : (b.execute v s).body.exhausted = true := by
      rcases (b.pending_execute_eq_zero_iff v s _).1 hz with hx | hfull
      · exact hx
      · by_contra hx
        simp only [execute, Run.inBody, isStuck, Queue.isFull, Bool.and_eq_false_imp,
          Bool.not_eq_true', beq_eq_false_iff_ne] at hf
        exact hf (by simpa using hx) hfull
    exact ⟨hx, orderly hx⟩
  | map b => exact (pending_eq_zero_iff (b := .map (b.execute v s).body) rfl rfl orderly).1 hz
  | split b => exact (pending_eq_zero_iff (b := .split (b.execute v s).body) rfl rfl orderly).1 hz
  | sink b => exact (pending_eq_zero_iff (b := .sink (b.execute v s).body) rfl rfl orderly).1 hz
  | callback b => cases hb
  | group ms => cases hb

end

end Body

/-! ### Members that are listed upstream first -/

/-- No body puts anything into a queue from which an earlier one takes parcels. -/
def UpstreamFirst (bs : List (Body α σ)) : Prop :=
  bs.Pairwise fun a b => ∀ q, a.reads = some q → b.Spares q

theorem upstreamFirst_map_core (bs : List (Body α σ)) :
    UpstreamFirst (bs.map Body.core) ↔ UpstreamFirst bs := by
  unfold UpstreamFirst
  rw [List.pairwise_map]
  simp only [Body.reads_core, Body.spares_core]

/-- What is known of a member, given whether all members before it are finished. A finished member
has nothing left to do, except perhaps a source that is not reliable. -/
structure Standing.Sound (m : Standing) (b : Body α σ) (s : Store α σ) (above : Bool)
    (reliable : Prop) : Prop where
  stays : m.stays = []
  plain : b.isPlain = true
  orderly : b.Orderly
  above : m.finished = true → b.isSource = false → above = true
  done : m.finished = true → (b.isSource = true → reliable) → b.Done s

namespace Standing.Sound

variable {m : Standing} {b : Body α σ} {s s' : Store α σ} {above : Bool} {reliable : Prop}

theorem carry (h : m.Sound b s above reliable) (hq : ∀ q, b.reads = some q → s.Dry q → s'.Dry q) :
    m.Sound b s' above reliable :=
  { h with done := fun hm hr => (h.done hm hr).carry hq }

/-- As long as not all members before it are finished, nothing depends on the store. -/
theorem of_unfinished (h : m.Sound b s false reliable) : m.Sound b s' above reliable where
  stays := h.stays
  plain := h.plain
  orderly := h.orderly
  above hm hs := absurd (h.above hm hs) (by simp)
  done hm hr := by
    refine (h.done hm hr).carry fun q hq _ => ?_
    cases hs : b.isSource with
    | false => exact absurd (h.above hm hs) (by simp)
    | true =>
      cases b with
      | source b => cases hq
      | _ => cases hs

/-- A call that returns leaves a member sound if it leaves it unfinished. -/
theorem failed (h : m.Sound b s above reliable) (hm : m.finished = false) {v : Visit} {o : Outcome}
    (he : (b.execute v s).ending = .returned o) (w : WorkerId) :
    (m.freed w).Sound (b.execute v s).body (b.execute v s).store above reliable where
  stays := by simp [Standing.freed, h.stays]
  plain := by rw [← Body.isPlain_core, Body.core_execute h.plain, Body.isPlain_core, h.plain]
  orderly := Body.orderly_execute h.plain h.orderly he
  above hf := absurd hf (by simp [Standing.freed, hm])
  done hf := absurd hf (by simp [Standing.freed, hm])

/-- So does one that marks it as finished, if the member is no stuck source. -/
theorem returned (h : m.Sound b s above reliable) (hm : m.finished = false) {v : Visit}
    {o : Outcome} (he : (b.execute v s).ending = .returned o) (w : WorkerId) {p : Passage}
    (hp : p.above.getD true = above)
    (hstuck : reliable → p.above = some true →
      (b.execute v s).body.isStuck (b.execute v s).store = false) :
    Standing.Sound { m.freed w with finished := Members.finishedAfter m p o (b.execute v s) }
      (b.execute v s).body (b.execute v s).store above reliable := by
  have marked : Members.finishedAfter m p o (b.execute v s) = true →
      o = .finished ∨
      p.above = some true ∧ (b.execute v s).body.pending (b.execute v s).store = 0 := by
    intro hf
    simpa [Members.finishedAfter, hm] using hf
  refine { h.failed hm he w with above := fun hf hs => ?_, done := fun hf hr => ?_ }
  · rcases marked hf with rfl | ⟨ha, -⟩
    · have := Body.isSource_of_finished h.plain he
      rw [Body.isSource_execute h.plain, this] at hs
      cases hs
    · rw [← hp, ha]
      rfl
  · rcases marked hf with rfl | ⟨ha, hz⟩
    · exact Body.done_of_finished h.plain he
    · refine Body.done_of_pending h.plain h.orderly he hz ?_
      cases hs : (b.execute v s).body.isSource with
      | true => exact hstuck (hr hs) ha
      | false => exact Body.isStuck_of_not_isSource hs _

end Standing.Sound

namespace Members

/-- What is known of members, given whether all members before them are finished, and the places of
the reliable sources. -/
def Sound (F : Nat → Prop) (above : Bool) : Members α σ → Store α σ → Prop
  | .nil, _ => True
  | .cons m b rest, s =>
    m.Sound b s above (F 0) ∧ rest.Sound (fun j => F (j + 1)) (above && m.finished) s

/-- The first members. -/
def take : Nat → Members α σ → Members α σ
  | 0, _ => .nil
  | _ + 1, .nil => .nil
  | n + 1, .cons m b rest => .cons m b (rest.take n)

/-- Whether a call that has come past the member at one place leaves it a stuck source while all
members before it are finished. -/
def stuckAt (ms : Members α σ) (j : Nat) (p? : Option Passage) (v : Visit) (s : Store α σ) : Bool :=
  let c := (ms.take (j + 1)).execute p? v s
  (c.members.take j).allFinished && (c.members.bodies[j]?).any (·.isStuck c.store)

section

variable {m : Standing} {b : Body α σ} {p? : Option Passage} {p : Passage} {v : Visit}
  {items : UInt64} {s : Store α σ}

theorem stuckAt_cons_over (h : here m p? v = none) (rest : Members α σ) (j : Nat) :
    (cons m b rest).stuckAt (j + 1) p? v s =
      (m.finished && rest.stuckAt j (p?.map (·.past true false)) v s) := by
  unfold stuckAt
  rw [take, execute_cons_over h]
  exact Bool.and_assoc ..

variable {r : Run (Body α σ) α σ} (h : here m p? v = some (p, items))
  (hr : b.execute (.start v.worker v.location v.chunk) s = r) {o : Outcome}
  (he : r.ending = .returned o) (ho : ∀ f, o ≠ .failed f)
include h hr he ho

theorem stuckAt_cons_zero (rest : Members α σ) :
    (cons m b rest).stuckAt 0 p? v s = r.body.isStuck r.store := by
  unfold stuckAt
  rw [take, execute_cons_returned h hr he ho]
  rfl

theorem stuckAt_cons_succ (rest : Members α σ) (j : Nat) :
    (cons m b rest).stuckAt (j + 1) p? v s =
      (finishedAfter m p o r &&
        rest.stuckAt j (some (pastCalled m p o r)) { v with items := items + r.visit.items }
          r.store) := by
  unfold stuckAt
  rw [take, execute_cons_returned h hr he ho]
  exact Bool.and_assoc ..

end

variable {F : Nat → Prop} {above : Bool} {ms : Members α σ} {s s' : Store α σ}

namespace Sound

theorem isPlain (h : ms.Sound F above s) : ∀ b ∈ ms.bodies, b.isPlain = true := by
  induction ms generalizing F above with
  | nil => exact nofun
  | cons m b rest ih =>
    intro b' hb'
    rcases List.mem_cons.1 hb' with rfl | hb'
    · exact h.1.plain
    · exact ih h.2 b' hb'

theorem holds (h : ms.Sound F above s) (w : WorkerId) : ms.holds w = false := by
  induction ms generalizing F above with
  | nil => rfl
  | cons m b rest ih => simp [Members.holds, Standing.stayOf?, h.1.stays, ih h.2]

theorem carry (h : ms.Sound F above s)
    (hq : ∀ b ∈ ms.bodies, ∀ q, b.reads = some q → s.Dry q → s'.Dry q) :
    ms.Sound F above s' := by
  induction ms generalizing F above with
  | nil => trivial
  | cons m b rest ih =>
    exact ⟨h.1.carry (hq b (List.mem_cons_self ..)),
      ih h.2 fun b' hb' => hq b' (List.mem_cons_of_mem _ hb')⟩

theorem of_unfinished (h : ms.Sound F false s) : ms.Sound F above s' := by
  induction ms generalizing F above with
  | nil => trivial
  | cons m b rest ih => exact ⟨h.1.of_unfinished, ih h.2⟩

/-- When all members are finished, nothing is left for them to do. -/
theorem done (h : ms.Sound F above s) (hf : ms.allFinished = true) {j : Nat} {b : Body α σ}
    (hb : ms.bodies[j]? = some b) (hr : b.isSource = true → F j) : b.Done s := by
  induction ms generalizing F above j with
  | nil => cases hb
  | cons m b' rest ih =>
    obtain ⟨hm, hrest⟩ := (Bool.and_eq_true ..).mp hf
    cases j with
    | zero =>
      obtain rfl : b' = b := by simpa [bodies] using hb
      exact h.1.done hm hr
    | succ j => exact ih h.2 hrest hb hr

/-- **Members stay sound when they are called in order.** One that takes parcels is marked as
finished only when those before it are, which are not called again then; and those after it do not
touch what it takes parcels from. -/
theorem execute {p : Passage} {v : Visit} (h : ms.Sound F (p.above.getD true) s)
    (hup : UpstreamFirst ms.bodies)
    (hstuck : p.above.getD true = true → ∀ j, F j → (j = 0 → p.above ≠ none) →
      ms.stuckAt j (some p) v s = false)
    (hr : ∀ e, (ms.execute (some p) v s).round = .cut e → ∃ o, e = .returned o) :
    (ms.execute (some p) v s).members.Sound F (p.above.getD true)
      (ms.execute (some p) v s).store := by
  induction ms generalizing F p v s with
  | nil => trivial
  | cons m b rest ih =>
    obtain ⟨hm, hrest⟩ := h
    obtain ⟨hspares, hup'⟩ := List.pairwise_cons.1 hup
    -- a call of the members after this one leaves its input dry
    have kept : ∀ (p? : Option Passage) (v : Visit) {s : Store α σ} (q : QueueId),
        b.reads = some q → s.Dry q →
        (rest.execute p? v s).store.Dry q := fun p? v s q hq =>
      (rest.frame_execute hrest.isPlain p? v s).2 q fun b' hb' => hspares b' hb' q hq
    cases hf : m.finished with
    | true =>
      have hh : here m (some p) v = none := by simp [here, hf]
      rw [execute_cons_over hh] at hr ⊢
      have habove : (p.past true false).above.getD true = (p.above.getD true && m.finished) := by
        simp [Passage.past, hf]
      refine ⟨hm.carry (kept _ v), ?_⟩
      rw [← habove] at hrest ⊢
      refine ih hrest hup' (fun hall j hj _ => ?_) hr
      have hstuck := hstuck (by simpa [hf] using habove.symm.trans hall) (j + 1) hj (by omega)
      rwa [stuckAt_cons_over hh, hf, Bool.true_and] at hstuck
    | false =>
      let r := b.execute (.start v.worker v.location v.chunk) s
      have hh : here m (some p) v = some (p, v.items) := by simp [here, hf]
      rw [hf, Bool.and_false] at hrest
      rcases execute_cons_cases m b rest (some p) v s with ⟨hn, -⟩ | ⟨v', m', hm', hc⟩ |
        ⟨p', items, o, hh', he, ho, hc⟩
      · rw [hh] at hn
        cases hn
      · rw [hc] at hr ⊢
        obtain ⟨o, he⟩ := hr r.ending rfl
        obtain ⟨rfl, -⟩ := hm' o he
        exact ⟨hm.failed hf he v.worker, hrest.of_unfinished⟩
      · obtain ⟨rfl, rfl⟩ : p = p' ∧ v.items = items := by simpa [hh] using hh'
        rw [hc] at hr ⊢
        have hreads : r.body.reads = b.reads := by
          rw [← Body.reads_core, Body.core_execute hm.plain, Body.reads_core]
        have hstuck₀ : F 0 → p.above = some true → r.body.isStuck r.store = false := by
          intro h₀ ha
          exact (stuckAt_cons_zero hh rfl he ho rest).symm.trans
            (hstuck (by simp [ha]) 0 h₀ (by simp [ha]))
        refine ⟨(hm.returned hf he v.worker rfl hstuck₀).carry fun q hq => kept _ _ q (hreads ▸ hq),
          ?_⟩
        refine ih (p := pastCalled m p o r) hrest.of_unfinished hup' (fun hall j hj _ => ?_) hr
        -- where all members after this call are finished, so were those before it, and this one is
        obtain ⟨habove, hdone⟩ : p.above.getD true = true ∧ finishedAfter m p o r = true := by
          simpa [pastCalled, Passage.past] using hall
        have hstuck := hstuck habove (j + 1) hj (by omega)
        rwa [stuckAt_cons_succ hh rfl he ho, hdone, Bool.true_and] at hstuck

end Sound

end Members

/-! ### Groups -/

namespace Body

/-- The members of a group. -/
def parts : Body α σ → List (Body α σ)
  | .group ms => ms.bodies
  | _ => []

/-- Whether a call of a group that has come past the member at one place leaves it a stuck source
while all members before it are finished. -/
def stuckAt (b : Body α σ) (j : Nat) (v : Visit) (s : Store α σ) : Bool :=
  match b with
  | .group ms => ms.stuckAt j (if ms.holds v.worker then none else some {}) v s
  | _ => false

/-- What can happen to a group: it is called, by anybody and with any chunk, and the call returns;
in between others may do what they like to the store, but they fill no queue from which a member
takes parcels. At the places given no member is ever left a stuck source once all members before it
are finished. -/
inductive Operated (F : Nat → Prop) (b₀ : Body α σ) (s₀ : Store α σ) :
    Body α σ → Store α σ → Prop where
  | start : Operated F b₀ s₀ b₀ s₀
  | call {b : Body α σ} {s : Store α σ} (v : Visit) {o : Outcome} : Operated F b₀ s₀ b s →
      (b.execute v s).ending = .returned o → (∀ j, F j → b.stuckAt j v s = false) →
      Operated F b₀ s₀ (b.execute v s).body (b.execute v s).store
  | others {b : Body α σ} {s s' : Store α σ} : Operated F b₀ s₀ b s →
      (∀ c ∈ b.parts, ∀ q, c.reads = some q → s.Dry q → s'.Dry q) → Operated F b₀ s₀ b s'

variable {F : Nat → Prop} {b₀ b : Body α σ} {s₀ s : Store α σ}

/-- In particular others may take parcels from any queue. -/
theorem Operated.popMany (h : Operated F b₀ s₀ b s) (i : QueueId) (n : Nat) :
    Operated F b₀ s₀ b (s.popMany i n).2 :=
  h.others fun _ _ _ _ hq => hq.popMany i n

end Body

/-- The members of a sound group that is made of some bodies. -/
structure Members.MadeOf (bs : List (Body α σ)) (F : Nat → Prop) (ms : Members α σ)
    (s : Store α σ) : Prop where
  sound : ms.Sound (fun j => j = 0 ∨ F j) true s
  core : ms.bodies.map Body.core = bs

namespace Members.MadeOf

variable {bs : List (Body α σ)} {F : Nat → Prop} {ms : Members α σ} {s s' : Store α σ}

theorem sound_ofList (hb : ∀ b ∈ bs, b.isPlain = true ∧ b.core = b) (F : Nat → Prop) (above : Bool)
    (s : Store α σ) :
    (ofList bs).Sound F above s := by
  induction bs generalizing F above with
  | nil => trivial
  | cons b bs ih =>
    obtain ⟨hp, hc⟩ := hb b (List.mem_cons_self ..)
    exact ⟨⟨rfl, hp, Body.orderly_of_core hc, nofun, nofun⟩,
      ih (fun b' hb' => hb b' (List.mem_cons_of_mem _ hb')) _ _⟩

theorem bodies_ofList (bs : List (Body α σ)) : (ofList bs).bodies = bs := by
  induction bs with
  | nil => rfl
  | cons b bs ih => exact congrArg (b :: ·) ih

theorem ofList (hb : ∀ b ∈ bs, b.isPlain = true ∧ b.core = b) : (ofList bs).MadeOf bs F s where
  sound := sound_ofList hb _ _ s
  core := by
    rw [bodies_ofList]
    exact (List.map_congr_left fun b h => (hb b h).2).trans (List.map_id bs)

/-- A call that returns leaves a sound group sound. -/
theorem call (h : ms.MadeOf bs F s) (hup : UpstreamFirst bs) {v : Visit} {o : Outcome}
    (hr : ((Body.group ms).execute v s).ending = .returned o)
    (hF : ∀ j, F j → (Body.group ms).stuckAt j v s = false) :
    (Body.row ms v s).members.MadeOf bs F (Body.row ms v s).store := by
  have hup' : UpstreamFirst ms.bodies := by
    rw [← upstreamFirst_map_core, h.core]
    exact hup
  have hfree : (if ms.holds v.worker then none else some {}) = some ({} : Passage) := by
    simp [h.sound.holds]
  refine ⟨?_, ((ms.frame_execute h.sound.isPlain _ v s).1).trans h.core⟩
  have cut : ∀ e, (Body.row ms v s).round = .cut e → ∃ o, e = .returned o := fun e he =>
    ⟨o, (Body.ending_of_cut he).symm.trans hr⟩
  unfold Body.row at cut ⊢
  simp only [Body.stuckAt] at hF
  rw [hfree] at cut hF ⊢
  exact Sound.execute (p := {}) h.sound hup'
    (fun _ j hj hp => hF j (hj.resolve_left fun h₀ => hp h₀ rfl)) cut

end Members.MadeOf

/-- A group that is operated stays a sound group of the bodies of which it was made. -/
theorem Body.Operated.madeOf {bs : List (Body α σ)} {F : Nat → Prop} {s₀ s : Store α σ}
    {b : Body α σ} (hb : ∀ b ∈ bs, b.isPlain = true ∧ b.core = b) (hup : UpstreamFirst bs)
    (h : Operated F (.group (.ofList bs)) s₀ b s) : ∃ ms, b = .group ms ∧ ms.MadeOf bs F s := by
  induction h with
  | start => exact ⟨_, rfl, .ofList hb⟩
  | @call b s v o _ hr hF ih =>
    obtain ⟨ms, rfl, hms⟩ := ih
    rw [body_execute_group, store_execute_group]
    exact ⟨_, rfl, hms.call hup hr hF⟩
  | others _ hq ih =>
    obtain ⟨ms, rfl, hms⟩ := ih
    exact ⟨ms, rfl, hms.sound.carry hq, hms.core⟩

/-- **A group that lists its members upstream first is finished only when it is empty.** -/
theorem group_finished {bs : List (Body α σ)} (hb : ∀ b ∈ bs, b.isPlain = true ∧ b.core = b)
    (hup : UpstreamFirst bs) {F : Nat → Prop} {s₀ s : Store α σ} {b : Body α σ}
    (h : Body.Operated F (.group (.ofList bs)) s₀ b s) {v : Visit}
    (hF : ∀ j, F j → b.stuckAt j v s = false) (hf : (b.execute v s).ending = .returned .finished) :
    (b.execute v s).body.parts.map Body.core = bs ∧
      ∀ j c, (b.execute v s).body.parts[j]? = some c → (c.isSource = true → j = 0 ∨ F j) →
        c.Done (b.execute v s).store := by
  obtain ⟨ms, rfl, hms⟩ := h.madeOf hb hup
  have after := hms.call hup hf hF
  rw [Body.body_execute_group, Body.store_execute_group]
  exact ⟨after.core, fun j c hc => after.sound.done (Body.allFinished_of_finished hf) hc⟩

/-! ### A convoy -/

/-- The first numbers, counted in the environment, for a queue. -/
def counted (count : UInt64) (out : QueueId) : Body Nat UInt64 :=
  .source { producer := .counting UInt64.toNat ⟨id, fun n _ => n⟩ count, output := out }

/-- A map that hands on what it gets. -/
def handOn (input out : QueueId) : Body Nat UInt64 :=
  .map { apply := fun a s => (.ok a, s), input, output := out }

theorem spares_counted {count : UInt64} {out q : QueueId} (h : out ≠ q) :
    (counted count out).Spares q where
  output := h
  poll s hs := by
    unfold Producer.counting
    simp only
    split <;> exact hs

/-- Four numbers go through a map to a queue that takes two; a source in a later place counts on for
another queue, which takes three. -/
def convoy : List (Body Nat UInt64) := [counted 4 0, handOn 0 1, counted 8 2]

def convoyStore : Store Nat UInt64 :=
  { queues := [.unbounded "raw", .bounded "out" 2, .bounded "rest" 3], env := 0 }

namespace Convoy

def visit : Visit := .start 0 0 8

/-- The first call, which the full outputs hold up. -/
def first : Run (Body Nat UInt64) Nat UInt64 :=
  (Body.group (.ofList convoy)).execute visit convoyStore

/-- The second call, once somebody has emptied both outputs. -/
def second : Run (Body Nat UInt64) Nat UInt64 :=
  first.body.execute visit ((first.store.popMany 1 10).2.popMany 2 10).2

theorem upstreamFirst : UpstreamFirst convoy := by
  refine .cons ?_ (.cons ?_ (.cons ?_ .nil))
  · exact fun _ _ _ hq => nomatch hq
  · intro b hb q hq
    obtain rfl : 0 = q := by simpa [handOn, Body.reads] using hq
    obtain rfl : b = counted 8 2 := by simpa using hb
    exact spares_counted (by decide)
  · exact nofun

theorem built : ∀ b ∈ convoy, b.isPlain = true ∧ b.core = b := by
  intro b hb
  simp only [convoy, List.mem_cons, List.not_mem_nil, or_false] at hb
  rcases hb with rfl | rfl | rfl <;> exact ⟨rfl, rfl⟩

theorem operated : Body.Operated (· < 3) (.group (.ofList convoy)) convoyStore first.body
    ((first.store.popMany 1 10).2.popMany 2 10).2 :=
  have called :=
    Body.Operated.start.call visit (show first.ending = .returned .success by decide) (by decide)
  (called.popMany 1 10).popMany 2 10

end Convoy

/-- The first call leaves the later source stuck, but the map before it is not finished by then. The
convoy is finished once its outputs have been emptied, and then nothing is left for any of its
members. -/
theorem group_finished_convoy :
    Convoy.first.ending = .returned .success ∧
      (Convoy.first.body.parts[2]?).any (·.isStuck Convoy.first.store) = true ∧
      Convoy.second.ending = .returned .finished ∧
      Convoy.second.body.parts.length = 3 ∧
      ∀ j c, Convoy.second.body.parts[j]? = some c → j < 3 → c.Done Convoy.second.store := by
  have hf : Convoy.second.ending = .returned .finished := by decide
  obtain ⟨core, done⟩ :=
    group_finished Convoy.built Convoy.upstreamFirst Convoy.operated (v := Convoy.visit)
      (by decide) hf
  have hlen : Convoy.second.body.parts.length = 3 := by
    have := congrArg List.length core
    rwa [List.length_map] at this
  exact ⟨by decide, by decide, hf, hlen, fun j c hc hj => done j c hc fun _ => .inr hj⟩

/-- A group whose sink stands before the map that feeds it. -/
def misordered : List (Body Nat UInt64) :=
  [counted 3 0, .sink { processors := [], input := 1 }, handOn 0 1]

/-- Its sink counts as finished before anything has come to it, and so the group is finished while
three numbers still lie in the queue of the sink. -/
theorem group_finished_misordered :
    let s : Store Nat UInt64 := { queues := [.unbounded "raw", .unbounded "out"], env := 0 }
    let r := (Body.group (.ofList misordered)).execute (.start 0 0 10) s
    (∀ b ∈ misordered, b.isPlain = true ∧ b.core = b) ∧ (misordered.head?).any (·.isSource) = true ∧
      r.ending = .returned .finished ∧ (r.store.queue 1).items = [0, 1, 2] ∧
      ∃ c, r.body.parts[1]? = some c ∧ c.reads = some 1 ∧ ¬ c.Done r.store := by
  intro s r
  have hq : (r.store.queue 1).items = [0, 1, 2] := by decide
  have hsink : (r.body.parts[1]?).any (·.reads == some 1) = true := by decide
  obtain ⟨c, hc, hreads⟩ := (Option.any_eq_true ..).1 hsink
  have hreads : c.reads = some 1 := by simpa using hreads
  refine ⟨?_, rfl, by decide, hq, c, hc, hreads, fun h => ?_⟩
  · intro b hb
    simp only [misordered, List.mem_cons, List.not_mem_nil, or_false] at hb
    rcases hb with rfl | rfl | rfl <;> exact ⟨rfl, rfl⟩
  · exact absurd (hq.symm.trans (h.dry hreads)) (by decide)

end Pipework
