import Mathlib.Data.List.Basic
import Mathlib.Tactic.Common
import Pipework.Body

/-!
# What a body waits with

The work of a map, a split or a sink waits in its input queue, and in what it has left over or in
progress (`Body.Idle` says that there is none). A call of a body pushes to its output queue and runs
the code that was handed in; a queue that neither of the two fills stays dry (`Body.dry_execute`).
What a body is made of never changes (`Body.core_execute`).
-/

namespace Pipework

/-! ### Dry queues -/

namespace Store

variable {α σ : Type} {s : Store α σ} {i q : QueueId}

/-- There is nothing in a queue. -/
def Dry (s : Store α σ) (q : QueueId) : Prop := (s.queue q).items = []

theorem queue_setQueue_ne (h : i ≠ q) (x : Queue α) : (s.setQueue i x).queue q = s.queue q := by
  rw [queue_setQueue, if_neg fun hc => h hc.1]

theorem queue_push_ne (h : i ≠ q) (a : α) : (s.push i a).2.queue q = s.queue q :=
  queue_setQueue_ne h _

theorem queue_pushMany_ne (h : i ≠ q) (xs : List α) : (s.pushMany i xs).2.queue q = s.queue q :=
  queue_setQueue_ne h _

theorem queue_pop_ne (h : i ≠ q) : (s.pop i).2.queue q = s.queue q := queue_setQueue_ne h _

theorem queue_popMany_ne (h : i ≠ q) (n : Nat) : (s.popMany i n).2.queue q = s.queue q :=
  queue_setQueue_ne h _

theorem queue_requeue_ne (h : i ≠ q) (xs : List α) : (s.requeue i xs).queue q = s.queue q :=
  queue_setQueue_ne h _

namespace Dry

/-- A queue that is not touched stays dry. -/
theorem of_queue {s' : Store α σ} (h : s.Dry q) (he : s'.queue q = s.queue q) : s'.Dry q := by
  unfold Dry
  rw [he]
  exact h

theorem popMany_eq_nil (h : s.Dry q) (n : Nat) : (s.popMany q n).1 = [] := by
  unfold Store.popMany Queue.popMany
  simp [show (s.queue q).items = [] from h]

theorem pop (h : s.Dry q) (i : QueueId) : (s.pop i).2.Dry q := by
  by_cases hi : i = q
  · subst hi
    unfold Store.pop Queue.pop Dry
    rw [show (s.queue i).items = [] from h]
    simp only [queue_setQueue]
    split <;> exact h
  · exact h.of_queue (queue_pop_ne hi)

theorem popMany (h : s.Dry q) (i : QueueId) (n : Nat) : (s.popMany i n).2.Dry q := by
  by_cases hi : i = q
  · subst hi
    unfold Store.popMany Queue.popMany Dry
    simp only [queue_setQueue]
    split
    · simp [show (s.queue i).items = [] from h]
    · exact h
  · exact h.of_queue (queue_popMany_ne hi n)

end Dry

theorem Dry.push (h : s.Dry q) (hi : i ≠ q) (a : α) : (s.push i a).2.Dry q :=
  h.of_queue (queue_push_ne hi a)

theorem Dry.pushMany (h : s.Dry q) (hi : i ≠ q) (xs : List α) : (s.pushMany i xs).2.Dry q :=
  h.of_queue (queue_pushMany_ne hi xs)

theorem Dry.snd {β : Type} {r : β × Store α σ} {b : β} (h : r.2.Dry q) (hr : r = (b, s)) :
    s.Dry q := by
  rw [hr] at h
  exact h

end Store

/-! ### Sources -/

variable {α σ : Type} {q : QueueId}

namespace Source

/-- A source as it was built. -/
def core (b : Source α σ) : Source α σ :=
  { b with overflow := none, exhausted := false, produced := 0, chunkHint := 1 }

/-- Neither the source nor its producer fills the queue. -/
structure Spares (b : Source α σ) (q : QueueId) : Prop where
  output : b.output ≠ q
  poll : ∀ s, s.Dry q → (b.producer.poll s).2.Dry q

theorem Spares.of_core {b b' : Source α σ} (hb : b.Spares q) (h : b'.core = b.core) :
    b'.Spares q := by
  have hp := congrArg Source.producer h
  have ho := congrArg Source.output h
  simp only [core] at hp ho
  exact ⟨ho ▸ hb.output, hp ▸ hb.poll⟩

theorem core_pull (b : Source α σ) (pushed : Nat) (s : Store α σ) (budget : Nat) :
    (b.pull pushed s budget).body.core = b.core := by
  fun_induction pull b pushed s budget with
  | case2 _ _ _ _ _ _ _ _ ih => exact ih
  | _ => rfl

/-- While it polls a source stays as it is, if its producer is exhausted, or it pulls; then it
counts what it has pushed. -/
theorem feed_induction {P : Source α σ → Store α σ → Prop} (b : Source α σ) (v : Visit)
    (pushed : Nat) (s : Store α σ) (stays : b.exhausted = true → P b s)
    (pulls : b.exhausted = false →
      P (b.pull pushed s (v.chunk - pushed)).body (b.pull pushed s (v.chunk - pushed)).store)
    (counts : ∀ body store n, P body store → P { body with produced := n } store) :
    P (b.feed v pushed s).body (b.feed v pushed s).store := by
  have key :
      let r := if b.exhausted then ⟨pushed, none, b, s⟩ else b.pull pushed s (v.chunk - pushed)
      P r.body r.store := by
    cases hx : b.exhausted with
    | false => exact pulls hx
    | true => exact stays hx
  fun_cases feed b v pushed s with
  | case1 => exact key
  | case2 => exact counts _ _ _ key

theorem core_feed (b : Source α σ) (v : Visit) (pushed : Nat) (s : Store α σ) :
    (b.feed v pushed s).body.core = b.core :=
  feed_induction (P := fun body _ => body.core = b.core) b v pushed s (fun _ => rfl)
    (fun _ => core_pull b pushed s _) fun _ _ _ h => h

theorem core_execute (b : Source α σ) (v : Visit) (s : Store α σ) :
    (b.execute v s).body.core = b.core := by
  fun_cases execute b v s with
  | case1 => exact core_feed _ v 0 s
  | case2 => rfl
  | case3 => exact core_feed _ v 1 _

section

variable {b : Source α σ} (hb : b.Spares q)
include hb

theorem dry_pull (pushed : Nat) {s : Store α σ} (budget : Nat) (h : s.Dry q) :
    (b.pull pushed s budget).store.Dry q := by
  fun_induction pull b pushed s budget with
  | case1 => exact h
  | case2 _ s _ a _ hp _ hpush ih =>
    exact ih (.snd (.push (.snd (hb.poll s h) hp) hb.output a) hpush)
  | case3 _ s _ a _ hp _ _ hpush => exact .snd (.push (.snd (hb.poll s h) hp) hb.output a) hpush
  | case4 _ s _ _ hp => exact .snd (hb.poll s h) hp
  | case5 _ s _ _ hp => exact .snd (hb.poll s h) hp
  | case6 _ s _ _ _ hp => exact .snd (hb.poll s h) hp

theorem dry_feed (v : Visit) (pushed : Nat) {s : Store α σ} (h : s.Dry q) :
    (b.feed v pushed s).store.Dry q :=
  feed_induction (P := fun _ store => store.Dry q) b v pushed s (fun _ => h)
    (fun _ => dry_pull hb pushed _ h) fun _ _ _ h => h

theorem dry_execute (v : Visit) {s : Store α σ} (h : s.Dry q) : (b.execute v s).store.Dry q := by
  fun_cases execute b v s with
  | case1 src => exact dry_feed (b := src) (hb.of_core rfl) v 0 h
  | case2 _ a _ _ _ hpush => exact .snd (h.push hb.output a) hpush
  | case3 src a _ _ hpush =>
    exact dry_feed (b := { src with overflow := none }) (hb.of_core rfl) v 1
      (.snd (h.push hb.output a) hpush)

end

end Source

/-! ### Maps -/

namespace Map

/-- A map as it was built. -/
def core (m : Map α σ) : Map α σ := { m with overflow := [] }

/-- Neither the map nor its function fills the queue. -/
structure Spares (m : Map α σ) (q : QueueId) : Prop where
  output : m.output ≠ q
  apply : ∀ a s, s.Dry q → (m.apply a s).2.Dry q

theorem Spares.of_core {m m' : Map α σ} (hm : m.Spares q) (h : m'.core = m.core) : m'.Spares q := by
  have ha := congrArg Map.apply h
  have ho := congrArg Map.output h
  simp only [core] at ha ho
  exact ⟨ho ▸ hm.output, ha ▸ hm.apply⟩

theorem core_handle (m : Map α σ) (v : Visit) (batch : List α) (s : Store α σ) :
    (m.handle v batch s).body.core = m.core := by
  fun_cases handle m v batch s <;> rfl

theorem core_execute (m : Map α σ) (v : Visit) (s : Store α σ) :
    (m.execute v s).body.core = m.core := by
  fun_cases execute m v s with
  | case3 => exact core_handle _ v _ _
  | _ => rfl

/-- What the function preserves at each parcel is preserved at all parcels of a batch. -/
theorem applyAll_stable {m : Map α σ} {P : Store α σ → Prop} (hP : ∀ a s, P s → P (m.apply a s).2)
    (batch : List α) {s : Store α σ} (h : P s) : P (m.applyAll batch s).store := by
  have next : ∀ {a : α} {s s' : Store α σ} {r : Reply α}, m.apply a s = (r, s') → P s → P s' := by
    intro a s s' r ha h
    have := hP a s h
    rwa [ha] at this
  fun_induction applyAll m batch s with
  | case1 => exact h
  | case2 a batch s b s' ha r ih => exact ih (next ha h)
  | case3 a batch s e s' ha => exact next ha h
  | case4 a batch s p s' ha => exact next ha h

section

variable {m : Map α σ} (hm : m.Spares q)
include hm

theorem dry_applyAll (batch : List α) {s : Store α σ} (h : s.Dry q) :
    (m.applyAll batch s).store.Dry q :=
  applyAll_stable (P := fun s => s.Dry q) hm.apply batch h

theorem dry_handle (v : Visit) (batch : List α) {s : Store α σ} (h : s.Dry q) (hi : m.input ≠ q) :
    (m.handle v batch s).store.Dry q := by
  have happly := dry_applyAll hm batch h
  fun_cases handle m v batch s with
  | case1 => exact happly
  | case2 _ _ _ _ _ hpush => exact .snd (happly.pushMany hm.output _) hpush
  | case3 _ _ _ _ _ hpush =>
    exact (Store.Dry.snd (happly.pushMany hm.output _) hpush).of_queue (Store.queue_requeue_ne hi _)

theorem dry_execute (v : Visit) {s : Store α σ} (h : s.Dry q) : (m.execute v s).store.Dry q := by
  fun_cases execute m v s with
  | case1 _ _ hpush => exact .snd (h.pushMany hm.output _) hpush
  | case2 _ _ hpush _ _ _ _ _ _ hpop =>
    exact .snd (Store.Dry.popMany (.snd (h.pushMany hm.output _) hpush) _ _) hpop
  | case3 _ s₁ hpush m' _ _ _ batch _ hne hpop =>
    have hdry : s₁.Dry q := .snd (h.pushMany hm.output _) hpush
    refine dry_handle (m := m') (hm.of_core rfl) v batch (.snd (hdry.popMany _ _) hpop)
      fun hi => hne ?_
    -- nothing comes out of a dry input
    have := (hi ▸ hdry : s₁.Dry m.input).popMany_eq_nil
    exact (congrArg Prod.fst hpop).symm.trans (this _)
  | case4 _ _ hpush => exact .snd (h.pushMany hm.output _) hpush

end

theorem handle_ne_finished (m : Map α σ) (v : Visit) (batch : List α) (s : Store α σ) :
    (m.handle v batch s).ending ≠ .returned .finished := by
  fun_cases handle m v batch s <;> simp

theorem execute_ne_finished (m : Map α σ) (v : Visit) (s : Store α σ) :
    (m.execute v s).ending ≠ .returned .finished := by
  have hmoved : ∀ n, Ending.returned (movedOutcome n) ≠ .returned .finished := fun n => by
    unfold movedOutcome
    split <;> simp
  fun_cases execute m v s with
  | case1 => simp
  | case2 => exact hmoved _
  | case3 => exact handle_ne_finished _ _ _ _
  | case4 => exact hmoved _

end Map

/-! ### Splits -/

namespace Split

/-- A split as it was built. -/
def core (b : Split α σ) : Split α σ := { b with current := none, overflow := [], held := 0 }

/-- Neither the split nor its splitter fills the queue. -/
structure Spares (b : Split α σ) (q : QueueId) : Prop where
  output : b.output ≠ q
  split : ∀ a s, s.Dry q → (b.splitter.split a s).2.Dry q
  recycle : ∀ a s, s.Dry q → (b.splitter.recycle a s).Dry q

theorem Spares.of_core {b b' : Split α σ} (hb : b.Spares q) (h : b'.core = b.core) :
    b'.Spares q := by
  have hs := congrArg Split.splitter h
  have ho := congrArg Split.output h
  simp only [core] at hs ho
  exact ⟨ho ▸ hb.output, hs ▸ hb.split, hs ▸ hb.recycle⟩

/-- The next block is the one in progress or comes from the input; the rest of the split stays as it
is. -/
theorem takeBlock_spec (b : Split α σ) (s : Store α σ) :
    (b.takeBlock s).2.1.core = b.core ∧ (s.Dry q → (b.takeBlock s).2.2.Dry q) := by
  unfold takeBlock
  split
  · exact ⟨rfl, id⟩
  · exact ⟨rfl, fun h => h.pop b.input⟩

theorem core_of_takeBlock {b b' : Split α σ} {s s' : Store α σ} {block : Option α}
    (h : b.takeBlock s = (block, b', s')) : b'.core = b.core := by
  have := (b.takeBlock_spec (q := 0) s).1
  rwa [h] at this

theorem dry_of_takeBlock {b b' : Split α σ} {s s' : Store α σ} {block : Option α}
    (h : b.takeBlock s = (block, b', s')) (hs : s.Dry q) : s'.Dry q := by
  have := (b.takeBlock_spec s).2 hs
  rwa [h] at this

theorem core_drain (b : Split α σ) (chunk pushed : Nat) (s : Store α σ) (fuel : Nat) :
    (b.drain chunk pushed s fuel).body.core = b.core := by
  fun_induction drain b chunk pushed s fuel with
  | case1 => rfl
  | case2 _ _ _ _ _ _ _ htake => exact core_of_takeBlock htake
  | case3 _ _ _ _ _ _ _ _ htake => exact core_of_takeBlock htake
  | case4 _ _ _ _ _ _ _ _ htake => exact core_of_takeBlock htake
  | case5 _ _ _ _ _ _ b' _ htake _ _ _ _ _ _ _ b'' ih =>
    have : b''.core = b'.core := rfl
    rw [ih, this, core_of_takeBlock htake]
  | case6 => rfl

theorem core_execute (b : Split α σ) (v : Visit) (s : Store α σ) :
    (b.execute v s).body.core = b.core := by
  fun_cases execute b v s <;> exact core_drain _ _ _ _ _

theorem dry_drain {b : Split α σ} (hb : b.Spares q) (chunk pushed : Nat) {s : Store α σ}
    (fuel : Nat) (h : s.Dry q) :
    (b.drain chunk pushed s fuel).store.Dry q := by
  fun_induction drain b chunk pushed s fuel with
  | case1 => exact h
  | case2 _ _ _ _ _ _ _ htake => exact dry_of_takeBlock htake h
  | case3 _ _ _ _ _ block b' s' htake _ _ hsplit =>
    exact .snd ((hb.of_core (core_of_takeBlock htake)).split block s' (dry_of_takeBlock htake h))
      hsplit
  | case4 _ _ _ _ _ block b' s' htake _ _ hsplit =>
    exact .snd ((hb.of_core (core_of_takeBlock htake)).split block s' (dry_of_takeBlock htake h))
      hsplit
  | case5 _ _ s _ _ block b' s' htake portion s₁ hsplit s₂ left s₃ hpush b'' ih =>
    have hb' := hb.of_core (core_of_takeBlock htake)
    have h₁ : s₁.Dry q := .snd (hb'.split block s' (dry_of_takeBlock htake h)) hsplit
    have h₂ : s₂.Dry q := by
      change Store.Dry (if portion.done then _ else _) q
      split
      · exact hb'.recycle portion.block s₁ h₁
      · exact h₁
    exact ih (hb'.of_core rfl) (.snd (h₂.pushMany hb'.output _) hpush)
  | case6 => exact h

theorem dry_execute {b : Split α σ} (hb : b.Spares q) (v : Visit) {s : Store α σ} (h : s.Dry q) :
    (b.execute v s).store.Dry q := by
  have key : ∀ left s₁, s.pushMany b.output b.overflow = (left, s₁) →
      ({ b with overflow := left }.drain v.chunk (b.overflow.length - left.length) s₁
        (b.fuel s₁)).store.Dry q :=
    fun left s₁ hpush => dry_drain (b := { b with overflow := left }) (hb.of_core rfl) _ _ _
      (.snd (h.pushMany hb.output _) hpush)
  fun_cases execute b v s with
  | case1 _ _ hpush => exact key _ _ hpush
  | case2 _ _ hpush => exact key _ _ hpush
  | case3 _ _ hpush => exact key _ _ hpush
  | case4 _ _ hpush => exact key _ _ hpush

theorem execute_ne_finished (b : Split α σ) (v : Visit) (s : Store α σ) :
    (b.execute v s).ending ≠ .returned .finished := by
  fun_cases execute b v s with
  | case4 _ _ _ _ r _ _ _ outcome =>
    change Ending.returned (if r.pushed > 0 then .success else .comeBackLater) ≠ _
    split <;> simp
  | _ => simp

/-- A call that returns takes note of what it leaves over. -/
theorem held_execute {b : Split α σ} {v : Visit} {s : Store α σ} {o : Outcome}
    (h : (b.execute v s).ending = .returned o) :
    (b.execute v s).body.held =
      ((b.execute v s).body.overflow ++ (b.execute v s).body.current.toList).length := by
  revert h
  fun_cases execute b v s with
  | case1 => exact fun h => by cases h
  | case2 => exact fun h => by cases h
  | case3 => exact fun _ => (List.length_append ..).symm
  | case4 => exact fun _ => (List.length_append ..).symm

end Split

/-! ### Sinks -/

namespace Sink

/-- A sink as it was built. -/
def core (b : Sink α σ) : Sink α σ := { b with consumed := 0 }

/-- No processor of the sink fills the queue. -/
def Spares (b : Sink α σ) (q : QueueId) : Prop :=
  ∀ p ∈ b.processors, ∀ a s, s.Dry q → (p.process a s).2.Dry q

theorem dry_show {a : α} {ps : List (Processor α σ)}
    (hps : ∀ p ∈ ps, ∀ a s, s.Dry q → (p.process a s).2.Dry q) {s : Store α σ} (h : s.Dry q) :
    (show? a ps s).2.Dry q := by
  fun_induction show? a ps s with
  | case1 => exact h
  | case2 p ps s _ _ hp ih =>
    exact ih (fun p hm => hps p (List.mem_cons_of_mem _ hm))
      (.snd (hps p (List.mem_cons_self ..) a s h) hp)
  | case3 p ps s => exact hps p (List.mem_cons_self ..) a s h

@[simp] theorem queue_retire (b : Sink α σ) (a : α) (s : Store α σ) (q : QueueId) :
    (b.retire a s).queue q = s.queue q := by
  unfold retire Store.release
  split
  · split <;> rfl
  · rfl

theorem core_handle (b : Sink α σ) (v : Visit) (batch : List α) (s : Store α σ) :
    (b.handle v batch s).body.core = b.core := by
  fun_induction handle b v batch s with
  | case2 _ _ _ _ _ _ _ _ ih => exact ih
  | _ => rfl

theorem core_execute (b : Sink α σ) (v : Visit) (s : Store α σ) :
    (b.execute v s).body.core = b.core := by
  fun_cases execute b v s with
  | case3 => exact core_handle b v _ _
  | _ => rfl

theorem dry_handle {b : Sink α σ} (hb : b.Spares q) (v : Visit) (batch : List α) {s : Store α σ}
    (h : s.Dry q) (hi : b.input ≠ q) : (b.handle v batch s).store.Dry q := by
  fun_induction handle b v batch s with
  | case1 => exact h
  | case2 b v a batch s _ s₁ hs ih =>
    exact ih hb ((Store.Dry.snd (dry_show hb h) hs).of_queue (queue_retire b a s₁ q)) hi
  | case3 b v a batch s _ s₁ hs =>
    have := (Store.Dry.snd (dry_show hb h) hs).of_queue (queue_retire b a s₁ q)
    exact this.of_queue (Store.queue_requeue_ne hi _)
  | case4 b v a batch s _ s₁ hs => exact .snd (dry_show hb h) hs

theorem dry_execute {b : Sink α σ} (hb : b.Spares q) (v : Visit) {s : Store α σ} (h : s.Dry q) :
    (b.execute v s).store.Dry q := by
  fun_cases execute b v s with
  | case1 => exact h
  | case2 _ _ hpop => exact .snd (h.popMany _ _) hpop
  | case3 _ batch s₁ hne hpop =>
    refine dry_handle hb v batch (.snd (h.popMany _ _) hpop) fun hi => hne ?_
    have := (hi ▸ h : s.Dry b.input).popMany_eq_nil
    exact (congrArg Prod.fst hpop).symm.trans (this _)

theorem handle_ne_finished (b : Sink α σ) (v : Visit) (batch : List α) (s : Store α σ) :
    (b.handle v batch s).ending ≠ .returned .finished := by
  fun_induction handle b v batch s with
  | case2 _ _ _ _ _ _ _ _ ih => exact ih
  | _ => simp

theorem execute_ne_finished (b : Sink α σ) (v : Visit) (s : Store α σ) :
    (b.execute v s).ending ≠ .returned .finished := by
  fun_cases execute b v s with
  | case3 => exact handle_ne_finished b v _ _
  | _ => simp

end Sink

/-! ### Bodies -/

namespace Body

/-- Whether a body is a source, a map, a split or a sink. -/
def isPlain : Body α σ → Bool
  | .callback _ => false
  | .group _ => false
  | _ => true

/-- Whether a body is a source. -/
def isSource : Body α σ → Bool
  | .source _ => true
  | _ => false

/-- A body as it was built. -/
def core : Body α σ → Body α σ
  | .source b => .source b.core
  | .map b => .map b.core
  | .split b => .split b.core
  | .sink b => .sink b.core
  | b => b

/-- The queue from which a body takes parcels. -/
def reads : Body α σ → Option QueueId
  | .map b => some b.input
  | .split b => some b.input
  | .sink b => some b.input
  | _ => none

/-- The parcels that a body has left over or in progress. -/
def leftover : Body α σ → List α
  | .map b => b.overflow
  | .split b => b.overflow ++ b.current.toList
  | _ => []

/-- A call of the body puts nothing into the queue, neither itself nor by code that was handed
in. -/
def Spares (q : QueueId) : Body α σ → Prop
  | .source b => b.Spares q
  | .map b => b.Spares q
  | .split b => b.Spares q
  | .sink b => b.Spares q
  | _ => False

/-- Nothing is waiting for the body. -/
structure Idle (b : Body α σ) (s : Store α σ) : Prop where
  dry : ∀ q, b.reads = some q → s.Dry q
  leftover : b.leftover = []

/-- What the body says of its leftovers is true. -/
def Honest : Body α σ → Prop
  | .split b => b.held = (b.overflow ++ b.current.toList).length
  | _ => True

variable {b b' : Body α σ} {v : Visit} {s : Store α σ}

@[simp] theorem isPlain_core (b : Body α σ) : b.core.isPlain = b.isPlain := by cases b <;> rfl

@[simp] theorem isSource_core (b : Body α σ) : b.core.isSource = b.isSource := by cases b <;> rfl

@[simp] theorem reads_core (b : Body α σ) : b.core.reads = b.reads := by cases b <;> rfl

theorem spares_core (b : Body α σ) (q : QueueId) : b.core.Spares q ↔ b.Spares q := by
  cases b with
  | source b => exact ⟨fun h => h.of_core rfl, fun h => h.of_core rfl⟩
  | map b => exact ⟨fun h => h.of_core rfl, fun h => h.of_core rfl⟩
  | split b => exact ⟨fun h => h.of_core rfl, fun h => h.of_core rfl⟩
  | sink b => exact Iff.rfl
  | callback b => exact Iff.rfl
  | group ms => exact Iff.rfl

/-- A call leaves a body what it was built as. -/
theorem core_execute (hb : b.isPlain = true) (v : Visit) (s : Store α σ) :
    (b.execute v s).body.core = b.core := by
  cases b with
  | source b => exact congrArg Body.source (b.core_execute v s)
  | map b => exact congrArg Body.map (b.core_execute v s)
  | split b => exact congrArg Body.split (b.core_execute v s)
  | sink b => exact congrArg Body.sink (b.core_execute v s)
  | callback b => cases hb
  | group ms => cases hb

/-- A queue that a body spares stays dry when it is called. -/
theorem dry_execute {q : QueueId} (hb : b.Spares q) (v : Visit) (h : s.Dry q) :
    (b.execute v s).store.Dry q := by
  cases b with
  | source b => exact b.dry_execute hb v h
  | map b => exact b.dry_execute hb v h
  | split b => exact b.dry_execute hb v h
  | sink b => exact b.dry_execute hb v h
  | callback b => exact hb.elim
  | group ms => exact hb.elim

/-- Only sources ever say that they are finished. -/
theorem isSource_of_finished (hb : b.isPlain = true)
    (h : (b.execute v s).ending = .returned .finished) :
    b.isSource = true := by
  cases b with
  | source b => rfl
  | map b => exact absurd h (b.execute_ne_finished v s)
  | split b => exact absurd h (b.execute_ne_finished v s)
  | sink b => exact absurd h (b.execute_ne_finished v s)
  | callback b => cases hb
  | group ms => cases hb

/-- A call that returns leaves a body honest. -/
theorem honest_execute (hb : b.isPlain = true) {o : Outcome}
    (h : (b.execute v s).ending = .returned o) :
    (b.execute v s).body.Honest := by
  cases b with
  | source b => trivial
  | map b => trivial
  | split b => exact Split.held_execute h
  | sink b => trivial
  | callback b => cases hb
  | group ms => cases hb

theorem pending_eq_zero_iff (hp : b.isPlain = true) (hs : b.isSource = false) (hb : b.Honest) :
    b.pending s = 0 ↔ b.Idle s := by
  have dry_iff : ∀ q, (s.queue q).depth = 0 ↔ s.Dry q := fun q => List.length_eq_zero_iff
  cases b with
  | source b => cases hs
  | map b =>
    simp only [pending, Map.pending, Nat.add_eq_zero_iff, dry_iff, List.length_eq_zero_iff]
    exact ⟨fun h => ⟨fun q hq => Option.some.inj hq ▸ h.1, h.2⟩, fun h => ⟨h.dry _ rfl, h.leftover⟩⟩
  | split b =>
    have hheld : b.held = (b.overflow ++ b.current.toList).length := hb
    simp only [pending, Split.pending, Nat.add_eq_zero_iff, dry_iff, hheld, List.length_eq_zero_iff]
    exact ⟨fun h => ⟨fun q hq => Option.some.inj hq ▸ h.1, h.2⟩, fun h => ⟨h.dry _ rfl, h.leftover⟩⟩
  | sink b =>
    simp only [pending, Sink.pending, dry_iff]
    exact ⟨fun h => ⟨fun q hq => Option.some.inj hq ▸ h, rfl⟩, fun h => h.dry _ rfl⟩
  | callback b => cases hp
  | group ms => cases hp

end Body

end Pipework
