import Pipework.Proofs.Body.Chain

/-!
# Loans

A limited pool that was filled to its capacity has each of its parcels at hand or has lent it
(`Pool.Balanced`). This module says how the bodies of a pipeline change what a pool has lent
(`Store.Lends`): a source that emits what it borrows adds what it polls (`Source.lends_execute`), a
sink that gives back what it has been shown takes that away (`Sink.lends_execute`), and a map
changes nothing, though a parcel on which its function fails is gone (`Map.pools_execute`,
`Map.spoilt`).
-/

namespace Pipework

variable {α σ : Type}

/-! ### Pools -/

namespace Pool

variable {q q' : Pool α} {C n : Nat} {a : α}

/-- A limited pool whose parcels, `C` in all, are at hand but for `n` that have been lent. -/
structure Balanced (q : Pool α) (C n : Nat) : Prop where
  limited : q.limited = true
  capacity : q.capacity = C
  inUse : q.inUse = n
  available : q.available + n = C

theorem balanced_filled (name : String) (C : Nat) (make : Nat → α) (reset : α → α) :
    (filled name C true make reset).Balanced C 0 := ⟨rfl, rfl, rfl, by simp [filled, available]⟩

theorem Balanced.acquire (h : q.Balanced C n) (ha : q.acquire = (some a, q')) :
    q'.Balanced C (n + 1) := by
  obtain ⟨limited, capacity, inUse, sum⟩ := h
  unfold Pool.acquire at ha
  cases hf : q.free with
  | nil =>
    rw [hf] at ha
    simp [limited] at ha
  | cons b rest =>
    rw [hf] at ha
    cases ha
    refine ⟨limited, capacity, congrArg (· + 1) inUse, ?_⟩
    simp only [Pool.available, hf, List.length_cons] at sum ⊢
    omega

/-- A pool that lends nothing stays as it is. -/
theorem acquire_of_none (ha : q.acquire = (none, q')) : q' = q := by
  unfold Pool.acquire at ha
  split at ha
  · cases ha
  · split at ha <;> cases ha
    rfl

/-- A parcel that comes back is kept: there is room, since it had been lent. -/
theorem Balanced.release (h : q.Balanced C (n + 1)) (a : α) : (q.release a).2.Balanced C n := by
  obtain ⟨limited, capacity, inUse, sum⟩ := h
  unfold Pool.release
  rw [if_neg (by omega)]
  refine ⟨limited, capacity, by simp [inUse], ?_⟩
  simp only [Pool.available, List.length_cons] at sum ⊢
  omega

end Pool

/-! ### Pools of a store -/

namespace Store

variable {s s' : Store α σ} {k : PoolId} {C n : Nat} {a : α}

/-- A pool of the store has lent `n` of its `C` parcels. -/
def Lends (s : Store α σ) (k : PoolId) (C n : Nat) : Prop :=
  ∃ q, s.pools[k]? = some q ∧ q.Balanced C n

theorem queues_acquire (s : Store α σ) (k : PoolId) : (s.acquire k).2.queues = s.queues := by
  unfold acquire
  split <;> rfl

theorem pools_acquire_of_none (ha : s.acquire k = (none, s')) : s'.pools[k]? = s.pools[k]? := by
  unfold acquire at ha
  cases hq : s.pools[k]? with
  | none =>
    rw [hq] at ha
    cases ha
    exact hq
  | some q =>
    rcases hr : q.acquire with ⟨r, q'⟩
    simp only [hq, hr] at ha
    cases ha
    rw [Pool.acquire_of_none hr]
    exact List.getElem?_set_self (List.getElem?_eq_some_iff.1 hq).1

namespace Lends

theorem congr (h : s.Lends k C n) (hp : s'.pools[k]? = s.pools[k]?) : s'.Lends k C n := by
  unfold Lends
  rwa [hp]

theorem acquire (h : s.Lends k C n) (ha : s.acquire k = (some a, s')) : s'.Lends k C (n + 1) := by
  obtain ⟨q, hq, balanced⟩ := h
  have hk : k < s.pools.length := (List.getElem?_eq_some_iff.1 hq).1
  rcases hr : q.acquire with ⟨r, q'⟩
  simp only [Store.acquire, hq, hr] at ha
  cases ha
  exact ⟨q', List.getElem?_set_self hk, balanced.acquire hr⟩

theorem release (h : s.Lends k C (n + 1)) (a : α) : (s.release k a).Lends k C n := by
  obtain ⟨q, hq, balanced⟩ := h
  have hk : k < s.pools.length := (List.getElem?_eq_some_iff.1 hq).1
  unfold Store.release
  rw [hq]
  exact ⟨(q.release a).2, List.getElem?_set_self hk, balanced.release a⟩

end Lends

theorem pools_push {i : QueueId} {back : Option α} (h : s.push i a = (back, s')) :
    s'.pools = s.pools := by
  cases h
  rfl

theorem pools_pushMany {i : QueueId} {xs left : List α} (h : s.pushMany i xs = (left, s')) :
    s'.pools = s.pools := by
  cases h
  rfl

theorem pools_popMany {i : QueueId} {m : Nat} {batch : List α} (h : s.popMany i m = (batch, s')) :
    s'.pools = s.pools := by
  cases h
  rfl

end Store

/-! ### Sources -/

/-- Whenever the producer answers with a parcel it has borrowed one from the pool, and else none. -/
def Producer.Borrows (p : Producer α σ) (k : PoolId) : Prop :=
  ∀ s, match (p.poll s).1 with
    | .item _ => (s.acquire k).1.isSome = true ∧ (p.poll s).2.pools[k]? = (s.acquire k).2.pools[k]?
    | _ => (p.poll s).2.pools[k]? = s.pools[k]?

namespace Source

variable {b : Source α σ} {k : PoolId} {C n : Nat}

theorem lends_pull (hb : b.producer.Borrows k) (pushed : Nat) {s : Store α σ} (budget : Nat)
    (h : s.Lends k C n) :
    (b.pull pushed s budget).store.Lends k C
      (n + (b.producer.yields b.output s budget).length) := by
  have item : ∀ {s s' : Store α σ} {a : α} {n : Nat}, b.producer.poll s = (.item a, s') →
      s.Lends k C n →
      s'.Lends k C (n + 1) := by
    intro s s' a n hp h
    have hpool := hb s
    rw [hp] at hpool
    obtain ⟨x, hx⟩ := Option.isSome_iff_exists.1 hpool.1
    have ha : s.acquire k = (some x, (s.acquire k).2) := Prod.ext hx rfl
    exact (h.acquire ha).congr hpool.2
  have other : ∀ {s s' : Store α σ} {r : Poll α} {n : Nat}, b.producer.poll s = (r, s') →
      (∀ a, r ≠ .item a) →
      s.Lends k C n → s'.Lends k C n := by
    intro s s' r n hp hr h
    have hpool := hb s
    rw [hp] at hpool
    cases r with
    | item a => exact absurd rfl (hr a)
    | _ => exact h.congr hpool
  fun_induction pull b pushed s budget generalizing n with
  | case1 => exact h
  | case2 pushed s budget a s₁ hp s₂ hpush ih =>
    have := ih ((item hp h).congr (by rw [Store.pools_push hpush]))
    simpa only [Producer.yields, hp, hpush, List.length_cons, Nat.add_comm 1, Nat.add_assoc]
      using this
  | case3 pushed s budget a s₁ hp a' s₂ hpush =>
    simp only [Producer.yields, hp, hpush]
    exact (item hp h).congr (by rw [Store.pools_push hpush])
  | case4 pushed s budget s₁ hp =>
    simpa only [Producer.yields, hp, List.length_nil, Nat.add_zero] using other hp (by simp) h
  | case5 pushed s budget s₁ hp =>
    simpa only [Producer.yields, hp, List.length_nil, Nat.add_zero] using other hp (by simp) h
  | case6 pushed s budget p s₁ hp =>
    simpa only [Producer.yields, hp, List.length_nil, Nat.add_zero] using other hp (by simp) h

theorem lends_feed (hb : b.producer.Borrows k) (v : Visit) (pushed : Nat) {s : Store α σ}
    (h : s.Lends k C n) :
    (b.feed v pushed s).store.Lends k C (n + (b.polls s (v.chunk - pushed)).length) := by
  refine feed_induction
    (P := fun _ store => store.Lends k C (n + (b.polls s (v.chunk - pushed)).length)) b v pushed s
    (fun hx => ?_) (fun hx => ?_) fun _ _ _ h => h
  · simpa [polls, hx] using h
  · simpa [polls, hx] using lends_pull hb pushed (v.chunk - pushed) h

/-- **A source borrows what it polls.** -/
theorem lends_execute (hb : b.producer.Borrows k) (v : Visit) {s : Store α σ} (h : s.Lends k C n) :
    (b.execute v s).store.Lends k C (n + (b.polled v s).length) := by
  unfold polled
  fun_cases execute b v s with
  | case1 src hw =>
    have hw : b.overflow = none := hw
    simp only [hw]
    exact lends_feed (b := src) hb v 0 h
  | case2 src a hw a' s₁ hpush =>
    have hw : b.overflow = some a := hw
    have hpush : s.push b.output a = (some a', s₁) := hpush
    simp only [hw, hpush]
    exact h.congr (by rw [Store.pools_push hpush])
  | case3 src a hw s₁ hpush =>
    have hw : b.overflow = some a := hw
    have hpush : s.push b.output a = (none, s₁) := hpush
    simp only [hw, hpush]
    exact lends_feed (b := { src with overflow := none }) hb v 1
      (h.congr (by rw [Store.pools_push hpush]))

end Source

/-! ### Maps -/

namespace Map

variable {m : Map α σ} {k : PoolId}

/-- The parcels on which the function fails in a call. -/
def spoilt (m : Map α σ) (v : Visit) (s : Store α σ) : List α :=
  ((m.tries v s).filter (·.2.isNone)).map (·.1)

/-- The function leaves a pool alone. -/
def LeavesPool (m : Map α σ) (k : PoolId) : Prop := ∀ a s, (m.apply a s).2.pools[k]? = s.pools[k]?

theorem pools_applyAll (hm : m.LeavesPool k) (batch : List α) (s : Store α σ) :
    (m.applyAll batch s).store.pools[k]? = s.pools[k]? := by
  fun_induction applyAll m batch s with
  | case1 => rfl
  | case2 a batch s b s' ha r ih =>
    rw [← hm a s, ha]
    exact ih
  | case3 a batch s e s' ha => rw [← hm a s, ha]
  | case4 a batch s p s' ha => rw [← hm a s, ha]

theorem pools_handle (hm : m.LeavesPool k) (v : Visit) (batch : List α) (s : Store α σ) :
    (m.handle v batch s).store.pools[k]? = s.pools[k]? := by
  rw [← pools_applyAll hm batch s]
  fun_cases handle m v batch s with
  | case1 => rfl
  | case2 r a hok left s' hpush => rw [Store.pools_pushMany hpush]
  | case3 r e he left s' hpush => rw [← Store.pools_pushMany hpush]; rfl

/-- A map leaves a pool alone if its function does. -/
theorem pools_execute (hm : m.LeavesPool k) (v : Visit) (s : Store α σ) :
    (m.execute v s).store.pools[k]? = s.pools[k]? := by
  fun_cases execute m v s with
  | case1 left s₁ hpush => rw [Store.pools_pushMany hpush]
  | case2 left s₁ hpush _ _ _ _ _ s₂ hpop =>
    rw [Store.pools_popMany hpop, Store.pools_pushMany hpush]
  | case3 left s₁ hpush m' hempty budget hlimit batch s₂ hne hpop =>
    rw [pools_handle (m := m') hm, Store.pools_popMany hpop, Store.pools_pushMany hpush]
  | case4 left s₁ hpush => rw [Store.pools_pushMany hpush]

/-- A parcel that is tried has a result or is spoilt. -/
theorem length_tries (m : Map α σ) (v : Visit) (s : Store α σ) :
    (m.tries v s).length = ((m.tries v s).filterMap (·.2)).length + (m.spoilt v s).length := by
  unfold spoilt
  rw [List.length_map]
  generalize m.tries v s = l
  induction l with
  | nil => rfl
  | cons x l ih =>
    obtain ⟨a, r⟩ := x
    cases r with
    | none =>
      simp only [List.length_cons, List.filterMap_cons, Option.isNone_none, List.filter_cons_of_pos]
      omega
    | some b =>
      simp only [List.length_cons, List.filterMap_cons, Option.isNone_some, Bool.false_eq_true,
        not_false_eq_true, List.filter_cons_of_neg]
      omega

end Map

/-! ### Sinks -/

namespace Sink

variable {b : Sink α σ} {k : PoolId} {C n : Nat}

/-- The processors leave a pool alone. -/
def LeavesPool (b : Sink α σ) (k : PoolId) : Prop :=
  ∀ p ∈ b.processors, ∀ a s, (p.process a s).2.pools[k]? = s.pools[k]?

theorem pools_show {ps : List (Processor α σ)}
    (hps : ∀ p ∈ ps, ∀ a s, (p.process a s).2.pools[k]? = s.pools[k]?) (a : α) (s : Store α σ) :
    (show? a ps s).2.pools[k]? = s.pools[k]? := by
  induction ps generalizing s with
  | nil => rfl
  | cons p ps ih =>
    have hp := hps p (List.mem_cons_self ..) a s
    unfold show?
    rcases hproc : p.process a s with ⟨r, s'⟩
    rw [hproc] at hp
    cases r with
    | ok _ => exact (ih (fun x hx => hps x (List.mem_cons_of_mem _ hx)) s').trans hp
    | failed e => exact hp
    | panicked e => exact hp

/-- Each parcel that has been shown goes back to the pool, also one on which a processor fails. -/
theorem lends_handle (hb : b.Quiet) (hs : b.LeavesPool k) (hk : b.pool = some k) (v : Visit)
    (batch : List α) {s : Store α σ} (h : s.Lends k C (n + (b.shownOf batch s).length)) :
    (b.handle v batch s).store.Lends k C n := by
  have retired : ∀ {b : Sink α σ} {a : α} {s s' : Store α σ} {r : Reply Unit} {n : Nat},
      b.LeavesPool k → b.pool = some k →
      show? a b.processors s = (r, s') → s.Lends k C (n + 1) → (b.retire a s').Lends k C n := by
    intro b a s s' r n hs hk hshow h
    unfold retire
    rw [hk]
    refine (h.congr ?_).release a
    rw [← pools_show hs a s, hshow]
  fun_induction handle b v batch s with
  | case1 => exact h
  | case2 b v a batch s _ s' hshow ih =>
    simp only [shownOf, hshow, List.length_cons] at h
    have := retired hs hk hshow h
    exact ih hb hs hk (by rwa [shownOf_consume])
  | case3 b v a batch s e s' hshow =>
    simp only [shownOf, hshow, List.length_singleton] at h
    exact retired hs hk hshow h
  | case4 b v a batch s p s' hshow =>
    exact absurd (congrArg Prod.fst hshow) ((show_of_quiet hb a s).1 p)

/-- **A sink gives back what it has been shown.** -/
theorem lends_execute (hb : b.Quiet) (hs : b.LeavesPool k) (hk : b.pool = some k) (v : Visit)
    {s : Store α σ} (h : s.Lends k C (n + (b.shown v s).length)) :
    (b.execute v s).store.Lends k C n := by
  unfold shown at h
  fun_cases execute b v s with
  | case1 hl =>
    rw [if_pos hl] at h
    exact h
  | case2 hl s₁ hpop =>
    simp only [if_neg hl, hpop, shownOf] at h
    exact h.congr (by rw [Store.pools_popMany hpop])
  | case3 hl batch s₁ hne hpop =>
    simp only [if_neg hl, hpop] at h
    exact lends_handle hb hs hk v batch (h.congr (by rw [Store.pools_popMany hpop]))

end Sink

/-- The parcels on which the function of a map fails in a call. -/
def Body.spoils (b : Body α σ) (v : Visit) (s : Store α σ) : List α :=
  match b with
  | .map m => m.spoilt v s
  | _ => []

end Pipework
