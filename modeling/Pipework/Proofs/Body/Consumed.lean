import Mathlib.Data.UInt
import Pipework.Proofs.Body.Members
import Pipework.Proofs.Body.Transfer

/-!
# What a body reports and what its sink consumes

A sink reports each parcel that it consumes (`Sink.items_execute`). A group reports what all its
members handle. So a group that ends in a sink reports what the sink consumes and what it would
report without the sink (`Members.consumes_execute`, `Body.consumes_execute`).
-/

namespace Pipework

variable {α σ : Type}

/-! ### Sinks -/

namespace Sink

theorem items_handle (b : Sink α σ) (v : Visit) (batch : List α) (s : Store α σ) :
    (b.handle v batch s).visit.items = v.items + UInt64.ofNat (b.acceptedOf batch s).length := by
  fun_induction handle b v batch s with
  | case1 => simp [acceptedOf]
  | case2 b v a batch s _ s' hs ih =>
    rw [ih, acceptedOf_consume]
    simp only [acceptedOf, hs, List.length_cons, UInt64.ofNat_add, Visit.record]
    rw [UInt64.add_assoc, UInt64.add_comm (Nat.toUInt64 1)]
  | case3 b v a batch s _ s' hs => simp [acceptedOf, hs]
  | case4 b v a batch s _ s' hs => simp [acceptedOf, hs]

/-- A sink reports what it accepts. -/
theorem items_execute (b : Sink α σ) (v : Visit) (s : Store α σ) :
    (b.execute v s).visit.items = v.items + UInt64.ofNat (b.accepted v s).length := by
  fun_cases execute b v s with
  | case1 h => simp [accepted, h]
  | case2 h s' hpop => simp [accepted, h, hpop, acceptedOf]
  | case3 h batch s' hne hpop =>
    rw [items_handle]
    simp only [accepted, h, if_false, hpop]

end Sink

/-! ### Groups that end in a sink -/

mutual

/-- How many parcels the sinks in a body have consumed. -/
def Body.consumed : Body α σ → UInt64
  | .sink b => b.consumed
  | .group ms => ms.consumed
  | _ => 0

/-- How many parcels the sinks among some members have consumed. -/
def Members.consumed : Members α σ → UInt64
  | .nil => 0
  | .cons _ b rest => b.consumed + rest.consumed

end

/-- Whether a body is neither a sink nor a group. -/
def Body.isLink : Body α σ → Bool
  | .sink _ => false
  | .group _ => false
  | _ => true

namespace Members

/-- All members but the last one. -/
def init : Members α σ → Members α σ
  | .nil => .nil
  | .cons _ _ .nil => .nil
  | .cons m b rest => .cons m b rest.init

/-- The last member is a sink, inside which no call is suspended, and the others are neither sinks
nor groups. -/
inductive EndsInSink : Members α σ → Prop where
  | last (m : Standing) (b : Sink α σ) : m.stays = [] → EndsInSink (.cons m (.sink b) .nil)
  | cons (m : Standing) {b : Body α σ} {rest : Members α σ} : b.isLink = true → EndsInSink rest →
    EndsInSink (.cons m b rest)

/-! ### Members that end in a sink -/

theorem init_cons {rest : Members α σ} (h : rest.EndsInSink) (m : Standing) (b : Body α σ) :
    (cons m b rest).init = cons m b rest.init := by
  cases h <;> rfl

theorem holds_init {ms : Members α σ} (h : ms.EndsInSink) (w : WorkerId) :
    ms.init.holds w = ms.holds w := by
  induction h with
  | last m b hm => simp [init, holds, Standing.stayOf?, hm]
  | cons m hb h ih => rw [init_cons h, holds, holds, ih]

theorem consumed_of_isLink {b : Body α σ} (hb : b.isLink = true) : b.consumed = 0 := by
  cases b with
  | sink b => cases hb
  | group ms => cases hb
  | _ => rfl

theorem isLink_execute (b : Body α σ) (v : Visit) (s : Store α σ) :
    (b.execute v s).body.isLink = b.isLink := by
  cases b with
  | group ms =>
    unfold Body.execute
    simp only
    split <;> rfl
  | _ => rfl

/-- What a call of members that end in a sink comes to, if they report this much without the sink:
what it reports besides is what the sink consumes, unless the call is suspended, and then the sink
has not been reached. -/
def Consumes (ms : Members α σ) (besides : UInt64) (c : Called α σ) : Prop :=
  c.members.EndsInSink ∧
    (c.round = .cut .suspended ∧ c.members.consumed = ms.consumed ∨
      c.round ≠ .cut .suspended ∧ c.visit.items + ms.consumed = besides + c.members.consumed)

/-- The sink itself reports what it consumes, and nothing besides. -/
theorem consumes_last {m : Standing} (hm : m.stays = []) (b : Sink α σ) (p? : Option Passage)
    (v : Visit) (s : Store α σ)
    (hp : ∀ e, ((cons m (.sink b) nil).execute p? v s).round ≠ .cut (.panicked e)) :
    (cons m (.sink b) nil).Consumes v.items ((cons m (.sink b) nil).execute p? v s) := by
  cases hh : here m p? v with
  | none =>
    rw [execute_cons_over hh]
    simp only [Members.execute]
    exact ⟨.last m b hm, .inr ⟨by simp, rfl⟩⟩
  | some x =>
    obtain ⟨p, items⟩ := x
    obtain rfl := here_of_no_stays hm hh
    let k := b.execute (.start v.worker v.location v.chunk) s
    have hr : (Body.sink b).execute (.start v.worker v.location v.chunk) s = k.inBody .sink := rfl
    have hfreed : (m.freed v.worker).stays = [] := by
      simp [Standing.freed, hm]
    have balance : v.items + k.visit.items + (cons m (.sink b) nil).consumed =
        v.items + (b.consumed +
          UInt64.ofNat (b.accepted (.start v.worker v.location v.chunk) s).length) := by
      simp only [consumed, Body.consumed, k, b.items_execute, Visit.start, zero_add, add_zero]
      rw [UInt64.add_assoc, UInt64.add_comm b.consumed]
    rw [← b.consumed_execute, ← add_zero k.body.consumed] at balance
    cases he : k.ending with
    | panicked e => exact absurd (congrArg Called.round (execute_cons_panicked hh hr he nil)) (hp e)
    | suspended => exact absurd he (b.execute_ne_suspended _ s)
    | returned o =>
      by_cases ho : ∃ f, o = .failed f
      · obtain ⟨f, rfl⟩ := ho
        rw [execute_cons_failed hh hr he]
        exact ⟨.last _ _ hfreed, .inr ⟨by simp, balance⟩⟩
      · have hc := execute_cons_returned hh hr he fun f hf => ho ⟨f, hf⟩
        rw [hc]
        simp only [Members.execute]
        exact ⟨.last _ _ hfreed, .inr ⟨by simp, balance⟩⟩

/-- **Members that end in a sink report what it consumes, and what they would report without
it.** -/
theorem consumes_execute {ms : Members α σ} (h : ms.EndsInSink) (p? : Option Passage) (v : Visit)
    (s : Store α σ) (hp : ∀ e, (ms.execute p? v s).round ≠ .cut (.panicked e)) :
    ms.Consumes (ms.init.execute p? v s).visit.items (ms.execute p? v s) := by
  induction h generalizing p? v s with
  | last m b hm =>
    simp only [init, Members.execute]
    exact consumes_last hm b p? v s hp
  | @cons m b rest hb h ih =>
    rw [init_cons h]
    -- Links consume nothing, so what the others come to the whole comes to.
    have carried : ∀ {m' : Standing} {b' : Body α σ} {besides : UInt64} {c : Called α σ},
        b'.isLink = true →
        rest.Consumes besides c →
        (cons m b rest).Consumes besides ⟨c.round, c.visit, .cons m' b' c.members, c.store⟩ := by
      intro m' b' besides c hb' hc
      simpa only [Consumes, consumed, consumed_of_isLink hb, consumed_of_isLink hb', zero_add] using
        ⟨EndsInSink.cons m' hb' hc.1, hc.2⟩
    cases hh : here m p? v with
    | none =>
      rw [execute_cons_over hh] at hp ⊢
      rw [execute_cons_over hh]
      exact carried hb (ih _ v s hp)
    | some x =>
      obtain ⟨p, items⟩ := x
      generalize hr : b.execute (.start v.worker v.location v.chunk) s = r
      have hlink : r.body.isLink = true := by
        rw [← hr, isLink_execute, hb]
      cases he : r.ending with
      | panicked e =>
        exact absurd (congrArg Called.round (execute_cons_panicked hh hr he rest)) (hp e)
      | suspended =>
        rw [execute_cons_suspended hh hr he rest]
        exact carried (c := ⟨.cut .suspended, { v with items }, rest, r.store⟩) hlink
          ⟨h, .inl ⟨rfl, rfl⟩⟩
      | returned o =>
        by_cases ho : ∃ f, o = .failed f
        · obtain ⟨f, rfl⟩ := ho
          rw [execute_cons_failed hh hr he, execute_cons_failed hh hr he]
          exact carried (c := ⟨_, { v with items := items + r.visit.items }, rest, r.store⟩) hlink
            ⟨h, .inr ⟨by simp, rfl⟩⟩
        · have hc := execute_cons_returned hh hr he fun f hf => ho ⟨f, hf⟩
          rw [hc] at hp ⊢
          rw [hc]
          exact carried hlink (ih _ _ r.store hp)

end Members

/-! ### Bodies that end in a sink -/

namespace Body

/-- The body is a sink, or a group that ends in one. -/
def EndsInSink : Body α σ → Prop
  | .sink _ => True
  | .group ms => ms.EndsInSink
  | _ => False

/-- Whether a body is a sink. -/
def isSink : Body α σ → Bool
  | .sink _ => true
  | _ => false

/-- What a call of a body would report if there were no sink at its end. -/
def besides (b : Body α σ) (v : Visit) (s : Store α σ) : UInt64 :=
  match b with
  | .group ms => ((Body.group ms.init).execute v s).visit.items
  | _ => v.items

theorem isSink_execute (b : Body α σ) (v : Visit) (s : Store α σ) :
    (b.execute v s).body.isSink = b.isSink := by
  cases b with
  | group ms =>
    unfold execute
    simp only
    split <;> rfl
  | _ => rfl

/-- **A body that ends in a sink reports what the sink consumes, and what it would report without
it.** This is so unless the call is suspended; then the sink has not been reached. -/
theorem consumes_execute {b : Body α σ} (h : b.EndsInSink) {v : Visit} {s : Store α σ}
    (hp : ∀ e, (b.execute v s).ending ≠ .panicked e) :
    let r := b.execute v s
    r.body.EndsInSink ∧
      (r.ending = .suspended ∧ r.body.consumed = b.consumed ∨
        r.ending ≠ .suspended ∧ r.visit.items + b.consumed = b.besides v s + r.body.consumed) := by
  cases b with
  | sink b =>
    refine ⟨trivial, .inr ⟨b.execute_ne_suspended v s, ?_⟩⟩
    simp only [execute, Run.inBody, consumed, besides, b.items_execute, b.consumed_execute]
    rw [UInt64.add_assoc, UInt64.add_comm b.consumed]
  | group ms =>
    have hms : ms.EndsInSink := h
    obtain ⟨ends, balance⟩ :=
      Members.consumes_execute hms (if ms.holds v.worker then none else some {}) v s fun e he =>
      hp e (ending_of_cut he)
    intro r
    have hbesides : besides (.group ms) v s =
        (ms.init.execute (if ms.holds v.worker then none else some {}) v s).visit.items := by
      rw [besides, visit_execute_group, row, Members.holds_init hms]
    have hbody : r.body = .group (row ms v s).members := body_execute_group ms v s
    have hvisit : r.visit = (row ms v s).visit := visit_execute_group ms v s
    rw [hbesides, hbody, hvisit]
    refine ⟨ends, ?_⟩
    rcases balance with ⟨hr, hc⟩ | ⟨hr, hc⟩
    · exact .inl ⟨ending_of_cut hr, hc⟩
    · exact .inr ⟨fun he => hr (cut_of_suspended he), hc⟩
  | _ => exact absurd h id

end Body

end Pipework
