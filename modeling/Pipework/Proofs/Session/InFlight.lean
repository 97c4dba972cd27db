import Mathlib.Algebra.BigOperators.Group.Finset.Basic
import Pipework.Proofs.Body.Loan
import Pipework.Proofs.Session.Graceful
import Pipework.Proofs.Session.Series

/-!
# A pool bounds what is under way

In a circuit the parcels that the source emits are borrowed from a limited pool, and the sink gives
them back. Nothing else touches the pool. What it has lent is at any time somewhere between the
source and the sink, or a map has failed on it (`Circuit.Accounts`): the source adds to both sides
what it polls, the sink takes from both what it shows, and a map moves parcels on or spoils them
(`Accounts.call`). So no more parcels than the pool has can be under way (`in_flight_cap`).
-/

namespace Pipework

open Finset in
/-- Two sums over a set whose terms only differ on a part of it differ by the sums over that
part. -/
theorem sum_add_sum_part {s t : Finset Nat} (hst : s ⊆ t) (f f' : Nat → Nat)
    (h : ∀ j ∈ t, j ∉ s → f' j = f j) :
    ∑ j ∈ t, f' j + ∑ j ∈ s, f j = ∑ j ∈ t, f j + ∑ j ∈ s, f' j := by
  have outside : ∑ j ∈ t \ s, f' j = ∑ j ∈ t \ s, f j :=
    sum_congr rfl fun j hj => h j (mem_sdiff.1 hj).1 (mem_sdiff.1 hj).2
  rw [← sum_sdiff hst, ← sum_sdiff hst (f := f), outside]
  omega

/-- The parcels on which functions of maps have failed in some calls. -/
def Plant.spoilt {α σ : Type} (calls : List (CallRecord (Plant α σ))) : List α :=
  calls.flatMap fun r => (r.world.body r.stage).spoils r.visit r.world.store

/-! ### How many are under way -/

namespace Series

variable {α σ : Type} {c : Series} {w w' : Plant α σ} {j : Nat}

/-- How many parcels are between the source and the sink: in the queues, in the overflow of the
source, and left over in maps. -/
def residents (c : Series) (w : Plant α σ) : Nat :=
  ∑ j ∈ Finset.range (c.length + 1), (c.column w j).length

theorem residents_same (h : w.Same w') : c.residents w' = c.residents w :=
  Finset.sum_congr rfl fun j _ => congrArg List.length (c.column_same h j)

/-- Only one column has changed. -/
theorem residents_one (hj : j ≤ c.length)
    (h : ∀ k ≤ c.length, k ≠ j → c.column w' k = c.column w k) :
    c.residents w' + (c.column w j).length = c.residents w + (c.column w' j).length := by
  have hpart : {j} ⊆ Finset.range (c.length + 1) := by
    simpa using Nat.lt_succ_of_le hj
  have := sum_add_sum_part hpart (fun k => (c.column w k).length) (fun k => (c.column w' k).length)
    fun k hk hkj =>
      congrArg List.length (h k (by simpa [Nat.lt_succ_iff] using hk) (by simpa using hkj))
  rwa [Finset.sum_singleton, Finset.sum_singleton] at this

/-- Only two columns have changed. -/
theorem residents_two (hj : j < c.length)
    (h : ∀ k ≤ c.length, k ≠ j → k ≠ j + 1 → c.column w' k = c.column w k) :
    c.residents w' + ((c.column w j).length + (c.column w (j + 1)).length) =
      c.residents w + ((c.column w' j).length + (c.column w' (j + 1)).length) := by
  have hpart : {j, j + 1} ⊆ Finset.range (c.length + 1) := by
    intro k hk
    simp only [Finset.mem_insert, Finset.mem_singleton] at hk
    rw [Finset.mem_range]
    omega
  have := sum_add_sum_part hpart (fun k => (c.column w k).length) (fun k => (c.column w' k).length)
    fun k hk hkj => by
      simp only [Finset.mem_insert, Finset.mem_singleton, not_or] at hkj
      exact congrArg List.length (h k (by simpa [Nat.lt_succ_iff] using hk) hkj.1 hkj.2)
  have hne : j ≠ j + 1 := by omega
  rwa [Finset.sum_pair hne, Finset.sum_pair hne] at this

end Series

/-! ### Circuits -/

/-- A series whose parcels are borrowed from a pool, with the number of parcels in the pool. -/
structure Circuit extends Series where
  pool : PoolId
  capacity : Nat

namespace Circuit

variable {α σ : Type} {c : Circuit} {g : Graph} {p w w' : Plant α σ}
  {calls : List (CallRecord (Plant α σ))}

/-- The bodies form the circuit: the source emits what it borrows from the pool, which is limited
and full at the start, the sink gives back to it, and no other code that was handed in touches
it. -/
structure Lies (c : Circuit) (g : Graph) (p : Plant α σ) : Prop extends c.Joins g p where
  borrows : ∀ b, p.body (c.stage 0) = .source b → b.producer.Borrows c.pool
  leaves : ∀ j < c.length, ∀ m, p.body (c.stage (j + 1)) = .map m → m.LeavesPool c.pool
  returns : ∀ b, p.body (c.stage (c.length + 1)) = .sink b →
    b.LeavesPool c.pool ∧ b.pool = some c.pool
  openingLeaves : ∀ i s, ((p.body i).opening s).2.pools[c.pool]? = s.pools[c.pool]?
  closingLeaves : ∀ i s, ((p.body i).closing s).2.pools[c.pool]? = s.pools[c.pool]?
  filled : ∃ name make reset, p.store.pools[c.pool]? =
    some (.filled name c.capacity true make reset)

/-- What the pool has lent is under way or spoilt. -/
structure Accounts (c : Circuit) (p : Plant α σ) (calls : List (CallRecord (Plant α σ)))
    (w : Plant α σ) : Prop where
  core : ∀ i, (w.body i).core = p.body i
  length : w.store.queues.length = p.store.queues.length
  lends : w.store.Lends c.pool c.capacity (c.residents w + (Plant.spoilt calls).length)

/-- At the start the pool has lent nothing. -/
theorem Lies.accounts_nil (h : c.Lies g p) : c.Accounts p [] p where
  core := h.fresh
  length := rfl
  lends := by
    have hnone : c.residents p = 0 := Finset.sum_eq_zero fun j hj => by
      rw [h.column_eq_nil (Nat.lt_succ_iff.1 (Finset.mem_range.1 hj))]
      rfl
    obtain ⟨name, make, reset, hpool⟩ := h.filled
    rw [hnone]
    exact ⟨_, hpool, Pool.balanced_filled name c.capacity make reset⟩

namespace Accounts

variable (o : c.Accounts p calls w)
include o

/-- Nothing but bodies, contents and the pool matters. -/
theorem same (hs : w.Same w') (hp : w'.store.pools[c.pool]? = w.store.pools[c.pool]?) :
    c.Accounts p calls w' where
  core := hs.core o.core
  length := hs.length.trans o.length
  lends := by
    rw [Series.residents_same hs]
    exact o.lends.congr hp

theorem hook (h : c.Lies g p) (hook : Hook) (i : StageId) :
    c.Accounts p calls (Plant.interface.hook hook i w).2 := by
  refine o.same (h.same_hook o.core hook i) ?_
  cases hook with
  | opening =>
    have := h.openingLeaves i w.store
    rwa [← o.core i, Body.opening_core] at this
  | closing =>
    have := h.closingLeaves i w.store
    rwa [← o.core i, Body.closing_core] at this

theorem tuned (ht : Plant.Tuned w w') : c.Accounts p calls w' := by
  refine o.same (.of_tuned ht) ?_
  obtain ⟨q, n, rfl⟩ := ht
  rfl

/-- What the source polls it has borrowed. -/
theorem lends_source (h : c.Lies g p) {b : Source α σ} (hb : w.body (c.stage 0) = .source b)
    (hb₀ : p.body (c.stage 0) = .source b.core) (hout : b.output = c.belt 0) (hd : b.Discreet)
    (hlt : c.belt 0 < w.store.queues.length) (v : Visit) :
    (c.after w 0 v).store.queues.length = w.store.queues.length ∧
      (c.after w 0 v).store.Lends c.pool c.capacity (c.residents (c.after w 0 v) +
        (Plant.spoilt calls).length) := by
  obtain ⟨length, first, others⟩ := h.columns_source hb hout hd hlt v
  have hsum := Series.residents_one (Nat.zero_le _) fun k hk hk₀ =>
    others k (Nat.pos_of_ne_zero hk₀) hk
  rw [first, List.length_append] at hsum
  have hlends := Source.lends_execute (b := b) (h.borrows b.core hb₀) v o.lends
  refine ⟨length, ?_⟩
  rw [Series.store_after, hb, show c.residents (c.after w 0 v) + (Plant.spoilt calls).length =
    c.residents w + (Plant.spoilt calls).length + (b.polled v w.store).length by omega]
  exact hlends

/-- What a map tries goes on or is spoilt. -/
theorem lends_map (h : c.Lies g p) {j : Nat} (hj : j < c.length) {m : Map α σ}
    (hm : w.body (c.stage (j + 1)) = .map m) (hm₀ : p.body (c.stage (j + 1)) = .map m.core)
    (hin : m.input = c.belt j) (hout : m.output = c.belt (j + 1)) (hq : m.Quiet)
    (hlt : ∀ i ≤ c.length, c.belt i < w.store.queues.length) (v : Visit) :
    (c.after w (j + 1) v).store.queues.length = w.store.queues.length ∧
      (c.after w (j + 1) v).store.Lends c.pool c.capacity
        (c.residents (c.after w (j + 1) v) +
          ((Plant.spoilt calls).length + (m.spoilt v w.store).length)) := by
  obtain ⟨length, before, behind, others⟩ := h.columns_map hj hm hin hout hq hlt v
  have hsum := Series.residents_two hj others
  have htries := m.length_tries v w.store
  rw [before, behind] at hsum
  simp only [List.length_append, List.length_map] at hsum
  have hpools : (c.after w (j + 1) v).store.pools[c.pool]? = w.store.pools[c.pool]? := by
    rw [Series.store_after, hm]
    exact Map.pools_execute (m := m) (h.leaves j hj m.core hm₀) v w.store
  refine ⟨length, ?_⟩
  rw [show c.residents (c.after w (j + 1) v) +
    ((Plant.spoilt calls).length + (m.spoilt v w.store).length) =
    c.residents w + (Plant.spoilt calls).length by omega]
  exact o.lends.congr hpools

/-- What the sink shows it gives back. -/
theorem lends_sink (h : c.Lies g p) {b : Sink α σ} (hb : w.body (c.stage (c.length + 1)) = .sink b)
    (hb₀ : p.body (c.stage (c.length + 1)) = .sink b.core) (hin : b.input = c.belt c.length)
    (hq : b.Quiet) (hlt : c.belt c.length < w.store.queues.length) (v : Visit) :
    (c.after w (c.length + 1) v).store.queues.length = w.store.queues.length ∧
      (c.after w (c.length + 1) v).store.Lends c.pool c.capacity
        (c.residents (c.after w (c.length + 1) v) + (Plant.spoilt calls).length) := by
  obtain ⟨length, last, others⟩ := h.columns_sink hb hin hq hlt v
  have hsum := Series.residents_one (Nat.le_refl _) fun k hk hkl => others k (by omega)
  rw [last, List.length_append] at hsum
  obtain ⟨leaves, pool⟩ := h.returns b.core hb₀
  refine ⟨length, ?_⟩
  rw [Series.store_after, hb]
  refine Sink.lends_execute (b := b) hq leaves pool v ?_
  rw [show c.residents (c.after w (c.length + 1) v) + (Plant.spoilt calls).length +
    (b.shown v w.store).length = c.residents w + (Plant.spoilt calls).length by omega]
  exact o.lends

/-- **Every call keeps the account.** -/
theorem call (h : c.Lies g p) {i : StageId} (hi : i < g.size) (v : Visit) :
    c.Accounts p (calls ++ [⟨i, v, w⟩]) (Plant.interface.call i v w).2.2 := by
  have hlt : ∀ j ≤ c.length, c.belt j < w.store.queues.length :=
    fun j hj => o.length ▸ h.lt_length j hj
  have core := h.core_call o.core hi v
  have spoilt : (Plant.spoilt (calls ++ [⟨i, v, w⟩])).length =
      (Plant.spoilt calls).length + ((w.body i).spoils v w.store).length := by
    simp only [Plant.spoilt, List.flatMap_append, List.flatMap_singleton, List.length_append]
  rcases h.body_cases o.core hi with ⟨rfl, b, hb, hb₀, hout, hd⟩ |
    ⟨j, hj, rfl, m, hm, hm₀, hin, hout, hq⟩ | ⟨rfl, b, hb, hb₀, hin, hq⟩
  · obtain ⟨length, lends⟩ := o.lends_source h hb hb₀ hout hd (hlt 0 (Nat.zero_le _)) v
    refine ⟨core, length.trans o.length, ?_⟩
    rw [spoilt, hb]
    exact lends
  · obtain ⟨length, lends⟩ := o.lends_map h hj hm hm₀ hin hout hq hlt v
    refine ⟨core, length.trans o.length, ?_⟩
    rw [spoilt, hm]
    exact lends
  · obtain ⟨length, lends⟩ := o.lends_sink h hb hb₀ hin hq (hlt c.length (Nat.le_refl _)) v
    refine ⟨core, length.trans o.length, ?_⟩
    rw [spoilt, hb]
    exact lends

end Accounts

end Circuit

/-- **A limited pool bounds what is under way.** Take a source that emits what it borrows from a
limited pool, maps, and a sink that gives back to the pool, joined to a series in a graph that is
built out of any parts, and any run in which any workers ask for stages, call them and give them
back, and stages are activated, paused and finished, chunks and thresholds are changed and failures
are recorded, in any order. Functions and processors may fail but do not panic. Then the pool has
lent exactly the parcels that are between the source and the sink and those on which a function has
failed, and has the others at hand. So there are never more parcels between the source and the sink
than the pool had at the start. -/
theorem in_flight_cap {α σ : Type} (c : Circuit) (parts : List Graph.Part) (p : Plant α σ)
    (sc : Scheduler) (h : c.Lies (.ofParts parts) p) {l : Ledger (Plant α σ)}
    (hr : Ledger.Run Plant.interface Plant.Tuned { session := p.atRest (.ofParts parts) sc } l) :
    let w := l.session.network.world
    (∃ q, w.store.pools[c.pool]? = some q ∧
      q.inUse = c.residents w + (Plant.spoilt l.calls).length ∧
      q.available + q.inUse = c.capacity) ∧ c.residents w ≤ c.capacity := by
  intro w
  have accounts : c.Accounts p l.calls w :=
    hr.through (Graph.wired_ofParts parts) (Plant.tallied_atRest (Graph.fresh_ofParts parts) sc)
      (fun _ hook i _ o => o.hook h hook i) (fun o ht => o.tuned ht)
      (fun _ v o hi _ => o.call h hi v) h.accounts_nil
  obtain ⟨q, hq, balanced⟩ := accounts.lends
  have sum := balanced.available
  refine ⟨⟨q, hq, balanced.inUse, ?_⟩, ?_⟩
  · rw [balanced.inUse]
    exact sum
  · omega

/-! ### A run with a pool of two -/

/-- A producer of all numbers, for each of which it borrows from a pool. -/
def lending : Producer Nat Nat where
  poll s :=
    match s.acquire 0 with
    | (some _, s) => (.item s.env, { s with env := s.env + 1 })
    | (none, s) => (.empty, s)

theorem borrows_lending : lending.Borrows 0 := by
  intro s
  rcases h : s.acquire 0 with ⟨_ | a, s'⟩
  · simp only [lending, h]
    exact Store.pools_acquire_of_none h
  · simp [lending, h]

theorem queues_lending (s : Store Nat Nat) : (lending.poll s).2.queues = s.queues := by
  have hq := s.queues_acquire 0
  rcases h : s.acquire 0 with ⟨_ | a, s'⟩ <;> rw [h] at hq <;> simpa [lending, h] using hq

/-- A source that borrows from a pool of two, a map that adds ten and fails on one, and a sink that
fails on ten and gives back to the pool. -/
def lender : Plant Nat Nat where
  bodies :=
    [.source { producer := lending, output := 0 },
      .map
        { apply := fun a s => (if a = 1 then .failed ⟨"one"⟩ else .ok (a + 10), s), input := 0,
          output := 1 },
      .sink
        { processors := [{ process := fun a s => (if a = 10 then .failed ⟨"ten"⟩ else .ok (), s) }],
          input := 1, pool := some 0 }]
  store :=
    { queues := [.bounded "raw" 4, .bounded "sums" 4], pools := [.filled "two" 2 true id id],
      env := 0 }

def lenderCircuit : Circuit := { length := 1, stage := id, belt := id, pool := 0, capacity := 2 }

theorem lies_lender : lenderCircuit.Lies (.ofParts adderParts) lender where
  covers i hi := ⟨i, Nat.le_of_lt_succ hi, rfl⟩
  stages _ _ _ _ h := h
  belts _ _ _ _ h := h
  lt_length := by decide
  source := by
    exact ⟨_, rfl, rfl, queues_lending⟩
  map j hj := by
    obtain rfl : j = 0 := Nat.lt_one_iff.1 hj
    refine ⟨_, rfl, rfl, rfl, fun a s => ⟨fun p => ?_, rfl⟩⟩
    change (if a = 1 then Reply.failed _ else Reply.ok (a + 10)) ≠ .panicked p
    split <;> nofun
  sink := by
    refine ⟨_, rfl, rfl, fun p hp a s => ?_⟩
    obtain rfl := List.mem_singleton.1 hp
    refine ⟨fun e => ?_, rfl⟩
    change (if a = 10 then Reply.failed _ else Reply.ok ()) ≠ .panicked e
    split <;> nofun
  opening := by
    rintro (_ | _ | _ | _) s <;> rfl
  closing := by
    rintro (_ | _ | _ | _) s <;> rfl
  fresh := by
    rintro (_ | _ | _ | _) <;> rfl
  dry := by decide
  borrows b hb s := by
    obtain rfl := Body.source.inj hb
    exact borrows_lending s
  leaves j hj m hm := by
    obtain rfl : j = 0 := Nat.lt_one_iff.1 hj
    obtain rfl := Body.map.inj hm
    exact fun _ _ => rfl
  returns b hb := by
    obtain rfl := Body.sink.inj hb
    refine ⟨fun p hp a s => ?_, rfl⟩
    obtain rfl := List.mem_singleton.1 hp
    rfl
  openingLeaves := by
    rintro (_ | _ | _ | _) s <;> rfl
  closingLeaves := by
    rintro (_ | _ | _ | _) s <;> rfl
  filled := ⟨_, _, _, rfl⟩

namespace Lender

def scheduler : Scheduler := ⟨.sticky 8, 1⟩

/-- The ledger once all stages have been opened. -/
def opened : Ledger (Plant Nat Nat) :=
  let n : Network (Plant Nat Nat) := ⟨.ofParts adderParts, lender⟩
  { session :=
      ⟨[0, 1, 2].foldl (fun n i => (n.openOne Plant.interface i none).2) n, scheduler, []⟩ }

/-- The pool is empty when the source is asked for the third time. Then the map fails on one number,
the sink fails on the other one and gives it back, and the source goes on. -/
def turns : List (Event (Plant Nat Nat)) :=
  [.next 0, .exec 0, .next 1, .exec 1, .exec 0, .exec 0, .exec 1, .next 2, .exec 2, .exec 0]

def after : Ledger (Plant Nat Nat) := turns.foldl (Ledger.perform Plant.interface) opened

theorem run_after :
    Ledger.Run Plant.interface Plant.Tuned
      { session := lender.atRest (.ofParts adderParts) scheduler } after := by
  have h₀ : Ledger.Run Plant.interface Plant.Tuned
      { session := lender.atRest (.ofParts adderParts) scheduler } opened :=
    .opened rfl links_adderParts (by decide) (by decide)
  have h₁ := ((h₀.next 0 (by decide)).exec 0).next 1 (by decide)
  have h₂ := (((h₁.exec 1).exec 0).exec 0).exec 1
  exact ((h₂.next 2 (by decide)).exec 2).exec 0

end Lender

/-- One of the two numbers that the pool has lent is under way, and the other one is spoilt. -/
theorem in_flight_cap_lender :
    let w := Lender.after.session.network.world
    lenderCircuit.Lies (.ofParts adderParts) lender ∧
      Ledger.Run Plant.interface Plant.Tuned
        { session := lender.atRest (.ofParts adderParts) Lender.scheduler } Lender.after ∧
      lenderCircuit.residents w = 1 ∧ Plant.spoilt Lender.after.calls = [1] ∧
      ∃ q, w.store.pools[0]? = some q ∧ q.inUse = 2 ∧ q.available = 0 := by
  intro w
  have hresidents : lenderCircuit.residents w = 1 := by decide
  have hspoilt : Plant.spoilt Lender.after.calls = [1] := by decide
  obtain ⟨⟨q, hq, hused, hsum⟩, -⟩ :=
    in_flight_cap lenderCircuit adderParts lender Lender.scheduler lies_lender Lender.run_after
  have htwo : q.inUse = 2 := by
    rw [hused, hspoilt]
    exact congrArg (· + 1) hresidents
  refine ⟨lies_lender, Lender.run_after, hresidents, hspoilt, q, hq, htwo, ?_⟩
  rw [htwo] at hsum
  exact Nat.add_right_cancel hsum

end Pipework
