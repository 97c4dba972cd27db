import Pipework.Proofs.Body.Polls
import Pipework.Proofs.Session.Metrics
import Pipework.Proofs.Session.Stranded

/-!
# Producers that panic

A source counts what a call has pushed when the call returns, all at once. A producer that panics
ends the call before that: what the call has pushed stays in the output, but nobody counts it
(`Source.counts_execute`). So the source and its stage agree, and what they have counted is what was
pushed by the calls in which the producer did not panic (`Source.counts_returned`).
-/

namespace Pipework

variable {α σ : Type}

namespace Source

/-! ### Logs of calls -/

/-- How many parcels some calls have pushed, all together. -/
def pushedIn (calls : List (List (Deed α))) : Nat :=
  (calls.map fun log => (pushedOf log).length).sum

/-- How many of them were pushed by calls in which the producer did not panic. -/
def countedIn (calls : List (List (Deed α))) : Nat :=
  pushedIn (calls.filter fun log => (panicOf log).isNone)

/-- How many of them were pushed by calls in which it did. -/
def lostIn (calls : List (List (Deed α))) : Nat :=
  pushedIn (calls.filter fun log => (panicOf log).isSome)

theorem pushedIn_append (calls calls' : List (List (Deed α))) :
    pushedIn (calls ++ calls') = pushedIn calls + pushedIn calls' := by
  unfold pushedIn
  rw [List.map_append, List.sum_append]

theorem pushedIn_eq (calls : List (List (Deed α))) :
    pushedIn calls = countedIn calls + lostIn calls := by
  induction calls with
  | nil => rfl
  | cons log calls ih =>
    unfold countedIn lostIn at ih ⊢
    simp only [pushedIn] at ih ⊢
    cases hp : panicOf log <;> simp [hp] <;> omega

variable {log : List (Deed α)}

theorem countedIn_append (calls calls' : List (List (Deed α))) :
    countedIn (calls ++ calls') = countedIn calls + countedIn calls' := by
  unfold countedIn
  rw [List.filter_append, pushedIn_append]

theorem countedIn_of_panicked {p : Panic} (hp : panicOf log = some p) : countedIn [log] = 0 := by
  simp [countedIn, pushedIn, hp]

theorem countedIn_of_returned (hp : panicOf log = none) :
    countedIn [log] = (pushedOf log).length := by
  simp [countedIn, pushedIn, hp]

/-- A call ends, and the visit and the source count the same. -/
theorem counted_execute (b : Source α σ) (v : Visit) (s : Store α σ) :
    (∃ o, (b.execute v s).ending.outcome? = some o) ∧
      (b.execute v s).visit.items = v.items + UInt64.ofNat (countedIn [b.deeds v s]) ∧
      (b.execute v s).body.produced = b.produced + UInt64.ofNat (countedIn [b.deeds v s]) := by
  have counts := b.counts_execute v s
  cases hp : panicOf (b.deeds v s) with
  | some p =>
    obtain ⟨hending, hvisit, hproduced⟩ := counts.panicked p hp
    rw [hending, hvisit, hproduced, countedIn_of_panicked hp]
    exact ⟨⟨_, rfl⟩, (UInt64.add_zero _).symm, (UInt64.add_zero _).symm⟩
  | none =>
    obtain ⟨⟨o, hending, -⟩, hvisit, hproduced⟩ := counts.returned hp
    rw [hending, hvisit, hproduced, countedIn_of_returned hp]
    exact ⟨⟨o, rfl⟩, rfl, rfl⟩

/-! ### Any number of calls -/

/-- What others do leaves a stage alone: its body, and what it has counted. -/
structure Leaves (i : StageId) (n n' : Pipeline α σ) : Prop where
  size : n'.graph.size = n.graph.size
  body : n'.world.body i = n.world.body i
  metrics : (n'.graph.stage i).metrics = (n.graph.stage i).metrics

/-- A stage with a source is called again and again, with chunks of any size. Between the calls
others do to the pipeline what they like, such as taking parcels from the output, as long as they
leave the stage alone. What each call does is logged. -/
inductive Called (i : StageId) (n₀ : Pipeline α σ) :
    List (List (Deed α)) → Pipeline α σ → Prop where
  | start : Called i n₀ [] n₀
  | others {calls : List (List (Deed α))} {n n' : Pipeline α σ} : Called i n₀ calls n →
    Leaves i n n' → Called i n₀ calls n'
  | call {calls : List (List (Deed α))} {n : Pipeline α σ} {b : Source α σ} (w : WorkerId)
      (location chunk : Nat) : Called i n₀ calls n → n.world.body i = .source b →
      Called i n₀ (calls ++ [b.deeds (.start w location chunk) n.store])
        (n.call Plant.interface i (.start w location chunk)).2.2

/-- The stage between two calls: it has counted what the calls have pushed in which the producer did
not panic. -/
structure Recorded (i : StageId) (calls : List (List (Deed α))) (n : Pipeline α σ)
    (b : Source α σ) : Prop where
  lt_size : i < n.graph.size
  body : n.world.body i = .source b
  produced : b.produced = UInt64.ofNat (countedIn calls)
  items : (n.graph.stage i).metrics.items = b.produced

section Call

variable {i : StageId} {n n' : Pipeline α σ} {calls : List (List (Deed α))} {b b₀ : Source α σ}

theorem Leaves.mapStore (f : Store α σ → Store α σ) : Leaves i n (n.mapStore f) := ⟨rfl, rfl, rfl⟩

theorem Recorded.others (h : Recorded i calls n b) (hn : Leaves i n n') : Recorded i calls n' b :=
  ⟨hn.size ▸ h.lt_size, hn.body.trans h.body, h.produced,
    (congrArg StageMetrics.items hn.metrics).trans h.items⟩

/-- A network calls a source as it is. -/
theorem interface_call (hb : n.world.body i = .source b) (v : Visit) :
    Plant.interface.call i v n.world =
      ((b.execute v n.store).ending, (b.execute v n.store).visit,
        { bodies := n.world.bodies.set i (.source (b.execute v n.store).body),
          store := (b.execute v n.store).store }) := by
  simp only [Plant.interface, hb]
  rfl

theorem body_call (hb : n.world.body i = .source b) (v : Visit) :
    (n.call Plant.interface i v).2.2.world.body i = .source (b.execute v n.store).body := by
  have hplain : (n.world.body i).isPlain = true := by
    rw [hb]
    rfl
  rw [Network.world_call, Plant.body_call_self hplain, hb]
  rfl

/-- What a call has handled is what it has counted. -/
theorem handled_call (hb : n.world.body i = .source b) (v : Visit) :
    CallRecord.handled Plant.interface ⟨i, v, n.world⟩ =
      v.items + UInt64.ofNat (countedIn [b.deeds v n.store]) := by
  obtain ⟨⟨o, hending⟩, hitems, -⟩ := b.counted_execute v n.store
  simp only [CallRecord.handled, interface_call hb, hending]
  exact hitems

/-- **One call.** What it adds to the counter of the source it adds to the items of the stage. -/
theorem Recorded.call (h : Recorded i calls n b) (w : WorkerId) (location chunk : Nat) :
    Recorded i (calls ++ [b.deeds (.start w location chunk) n.store])
      (n.call Plant.interface i (.start w location chunk)).2.2
      (b.execute (.start w location chunk) n.store).body := by
  obtain ⟨m, hgraph⟩ := n.call_graph Plant.interface i (.start w location chunk)
  obtain ⟨-, -, hproduced⟩ := b.counted_execute (.start w location chunk) n.store
  refine ⟨?_, body_call h.body _, ?_, ?_⟩
  · rw [hgraph, Graph.size_modify]
    exact h.lt_size
  · rw [hproduced, h.produced, countedIn_append, UInt64.ofNat_add]
  · rw [Network.items_call h.lt_size, if_pos rfl, handled_call h.body, h.items, hproduced]
    exact congrArg (b.produced + ·) (UInt64.zero_add _)

/-- What a call of the stage comes to: it does to the store what is logged, and it fails if the
producer panics, and only then. -/
structure Answers (i : StageId) (n : Pipeline α σ) (b : Source α σ) (v : Visit) : Prop where
  does : Does b.producer b.output n.store (b.deeds v n.store)
    (n.call Plant.interface i v).2.2.world.store
  panicked : ∀ p, panicOf (b.deeds v n.store) = some p →
    (n.call Plant.interface i v).1 = some (.failed p.toError)
  returned : panicOf (b.deeds v n.store) = none → ∃ o, (n.call Plant.interface i v).1 = some o ∧
    ∀ e, o ≠ .failed e

theorem answers_call (hb : n.world.body i = .source b) (v : Visit) : Answers i n b v := by
  have counts := b.counts_execute v n.store
  have houtcome : (n.call Plant.interface i v).1 = (b.execute v n.store).ending.outcome? := by
    rw [Network.outcome_call, interface_call hb]
  refine ⟨?_, fun p hp => ?_, fun hp => ?_⟩
  · rw [Network.world_call, interface_call hb]
    exact b.does_execute v n.store
  · rw [houtcome, (counts.panicked p hp).1]
    rfl
  · obtain ⟨⟨o, hending, ho⟩, -, -⟩ := counts.returned hp
    rw [houtcome, hending]
    exact ⟨o, rfl, ho⟩

theorem Called.recorded {n₀ : Pipeline α σ} (hi : i < n₀.graph.size)
    (hb : n₀.world.body i = .source b₀) (hproduced : b₀.produced = 0)
    (hitems : (n₀.graph.stage i).metrics.items = 0) (h : Called i n₀ calls n) :
    ∃ b, Recorded i calls n b := by
  induction h with
  | start => exact ⟨b₀, hi, hb, hproduced, hitems.trans hproduced.symm⟩
  | others _ hn ih =>
    obtain ⟨b, hrecorded⟩ := ih
    exact ⟨b, hrecorded.others hn⟩
  | @call calls n b w location chunk _ hbody ih =>
    obtain ⟨b', hrecorded⟩ := ih
    obtain rfl : b' = b := Body.source.inj (hrecorded.body.symm.trans hbody)
    exact ⟨_, hrecorded.call w location chunk⟩

end Call

/-- The counter holds what was counted exactly when what was lost goes into it a whole number of
times. -/
theorem ofNat_countedIn_iff (calls : List (List (Deed α))) :
    UInt64.ofNat (countedIn calls) = UInt64.ofNat (pushedIn calls) ↔ 2 ^ 64 ∣ lostIn calls := by
  rw [pushedIn_eq, ← UInt64.toNat_inj, UInt64.toNat_ofNat', UInt64.toNat_ofNat']
  omega

/-- **A source counts what was pushed by the calls in which its producer did not panic**, up to the
size of the counter, and so does its stage. Its calls have chunks of any size, and between them
others do to the rest of the pipeline what they like. So the counters agree with each other, but
with what was pushed only as long as nothing was pushed by a call in which the producer panicked, or
a multiple of the size of the counter. A call fails exactly if the producer panics, and what it has
pushed until then has gone to the output all the same. -/
theorem counts_returned {i : StageId} {n₀ n : Pipeline α σ} {b₀ : Source α σ}
    {calls : List (List (Deed α))} (hi : i < n₀.graph.size) (hb : n₀.world.body i = .source b₀)
    (hproduced : b₀.produced = 0) (hitems : (n₀.graph.stage i).metrics.items = 0)
    (h : Called i n₀ calls n) :
    ∃ b, n.world.body i = .source b ∧
      (n.graph.stage i).metrics.items = b.produced ∧
      b.produced = UInt64.ofNat (countedIn calls) ∧
      (b.produced = UInt64.ofNat (pushedIn calls) ↔ 2 ^ 64 ∣ lostIn calls) ∧
      ∀ w location chunk, Answers i n b (.start w location chunk) := by
  obtain ⟨b, recorded⟩ := h.recorded hi hb hproduced hitems
  refine ⟨b, recorded.body, recorded.items, recorded.produced, ?_,
    fun _ _ _ => answers_call recorded.body _⟩
  rw [recorded.produced]
  exact ofNat_countedIn_iff calls

/-- A source whose producer gives 5, panics, gives 6, and is exhausted. The environment counts its
answers. -/
def erratic : Pipeline Nat Nat where
  graph := .ofParts [.stage "in" .source false]
  world :=
    { bodies := [.source
        { producer.poll s :=
            (([.item 5, .panicked (.text "boom"), .item 6] : List (Poll Nat)).getD s.env .exhausted,
              { s with env := s.env + 1 })
          output := 0 }]
      store := { queues := [.unbounded "out"], env := 0 } }

/-- One call of the only stage, with a chunk of two. -/
def turned (n : Pipeline Nat Nat) : Pipeline Nat Nat :=
  (n.call Plant.interface 0 (.start 0 0 2)).2.2

/-- A parcel is taken from the output. -/
def popped (n : Pipeline Nat Nat) : Pipeline Nat Nat := n.mapStore fun s => (s.pop 0).2

/-- The first call pushes 5 and panics. Others take that, and the second call pushes 6: one parcel
of two is counted. -/
theorem counts_returned_erratic :
    ∃ calls b, Called 0 erratic calls (turned (popped (turned erratic))) ∧ pushedIn calls = 2 ∧
      lostIn calls = 1 ∧
      (turned (popped (turned erratic))).world.body 0 = .source b ∧ b.produced = 1 ∧
      ((turned (popped (turned erratic))).graph.stage 0).metrics.items = 1 ∧
      b.produced ≠ UInt64.ofNat (pushedIn calls) := by
  have history : Called 0 erratic _ (turned (popped (turned erratic))) :=
    .call 0 0 2 (.others (.call 0 0 2 .start rfl) (.mapStore _)) rfl
  obtain ⟨b, hbody, hitems, hproduced, hexact, -⟩ :=
    counts_returned (by decide +kernel) rfl rfl (by decide +kernel) history
  have one : b.produced = 1 := by
    rw [hproduced]
    decide +kernel
  refine ⟨_, b, history, by decide +kernel, by decide +kernel, hbody, one, hitems.trans one, ?_⟩
  rw [Ne, hexact]
  decide +kernel

/-- After a call that has pushed 5 and panicked, 5 is in the output, and neither the source nor its
stage has counted anything. -/
theorem panic_hides_parcels :
    (erratic.call Plant.interface 0 (.start 0 0 2)).1 = some (.failed ⟨"panicked: boom"⟩) ∧
      (turned erratic).store.contents 0 = [5] ∧
      ∃ calls b, Called 0 erratic calls (turned erratic) ∧ pushedIn calls = 1 ∧
        (turned erratic).world.body 0 = .source b ∧ b.produced = 0 ∧
        ((turned erratic).graph.stage 0).metrics.items = 0 := by
  refine ⟨by decide +kernel, by decide +kernel, _, _, .call 0 0 2 .start rfl, by decide +kernel,
    rfl, ?_, ?_⟩
  · decide +kernel
  · decide +kernel

end Source

end Pipework
