import Pipework.Proofs.Body.Consumed
import Pipework.Proofs.Session.Metrics
import Pipework.Proofs.Session.Series

/-!
# Counting the parcels that the sinks consume

What the sinks of a graph have handled is what the calls of their stages have reported
(`Ledger.Run.items`). A call of a body that ends in a sink reports what the sink consumes and what
the members before it handle (`Balanced.call`). So the number of parcels that the sinks have handled
is the number of those that they have consumed only as long as no group has handled anything besides
(`sunk_eq`).
-/

namespace Pipework

namespace CallRecord

/-- The call did not panic. -/
def Unharmed {W : Type} (B : Bodies W) (r : CallRecord W) : Prop :=
  ∀ e, (B.call r.stage r.visit r.world).1 ≠ .panicked e

/-- What a call has reported besides what the sink at the end of its body has consumed. -/
def besides {α σ : Type} (r : CallRecord (Plant α σ)) : UInt64 :=
  match (Plant.interface.call r.stage r.visit r.world).1.outcome? with
  | some _ => (r.world.body r.stage).besides r.visit r.world.store
  | none => 0

end CallRecord

/-- How many parcels the marked sinks of a graph have consumed. -/
def Plant.consumed {α σ : Type} (w : Plant α σ) (g : Graph) : UInt64 :=
  (g.sinks.map fun i => (w.body i).consumed).sum

namespace Ledger

variable {α σ : Type} {p w w' : Plant α σ} {i : StageId} {calls : List (CallRecord (Plant α σ))}

/-- A stage that ends in a sink, as long as none of its calls has panicked. -/
structure Balanced (p : Plant α σ) (i : StageId) (calls : List (CallRecord (Plant α σ)))
    (w : Plant α σ) : Prop where
  ends : (w.body i).EndsInSink
  kind : (w.body i).isSink = (p.body i).isSink
  bare : (p.body i).isSink = true → sumOf (·.besides) i calls = 0
  sum : sumOf (·.handled Plant.interface) i calls = (w.body i).consumed + sumOf (·.besides) i calls

namespace Balanced

theorem same (o : Balanced p i calls w) (h : w'.bodies = w.bodies) : Balanced p i calls w' := by
  have hbody : w'.body i = w.body i := by
    unfold Plant.body
    rw [h]
  exact ⟨hbody ▸ o.ends, hbody ▸ o.kind, o.bare, hbody ▸ o.sum⟩

theorem lt_length (h : (w.body i).EndsInSink) : i < w.bodies.length := by
  by_contra hi
  rw [Plant.body_of_length_le (Nat.le_of_not_lt hi)] at h
  cases h

/-- A sink reports nothing besides. -/
theorem besides_of_isSink (h : (w.body i).isSink = true) {v : Visit} (hv : v.items = 0) :
    CallRecord.besides ⟨i, v, w⟩ = 0 := by
  have hb : (w.body i).besides v w.store = 0 := by
    cases hw : w.body i with
    | sink b => exact hv
    | _ =>
      rw [hw] at h
      cases h
  unfold CallRecord.besides
  rw [hb]
  split <;> rfl

/-- What a call of a body that ends in a sink adds to the items of its stage. -/
theorem handled_call (h : (w.body i).EndsInSink) {v : Visit}
    (hc : CallRecord.Unharmed Plant.interface ⟨i, v, w⟩) :
    ((w.body i).execute v w.store).body.EndsInSink ∧
      CallRecord.handled Plant.interface ⟨i, v, w⟩ + (w.body i).consumed =
        ((w.body i).execute v w.store).body.consumed + CallRecord.besides ⟨i, v, w⟩ := by
  obtain ⟨ends, balance⟩ := Body.consumes_execute h hc
  refine ⟨ends, ?_⟩
  simp only [CallRecord.handled, CallRecord.besides, Plant.interface]
  rcases balance with ⟨he, hsame⟩ | ⟨he, hsum⟩
  · rw [he, hsame]
    exact UInt64.add_comm 0 _
  · cases hend : ((w.body i).execute v w.store).ending with
    | suspended => exact absurd hend he
    | returned o => exact hsum.trans (UInt64.add_comm _ _)
    | panicked e => exact absurd hend (hc e)

/-- The call of any stage. -/
theorem call (o : Balanced p i calls w) (j : StageId) {v : Visit} (hv : v.items = 0)
    (hc : j = i → CallRecord.Unharmed Plant.interface ⟨j, v, w⟩) :
    Balanced p i (calls ++ [⟨j, v, w⟩]) (Plant.interface.call j v w).2.2 := by
  by_cases hj : j = i
  · subst hj
    have hbody : (Plant.interface.call j v w).2.2.body j = ((w.body j).execute v w.store).body := by
      rw [Plant.body_call, if_pos ⟨rfl, lt_length o.ends⟩]
    obtain ⟨ends, handled⟩ := handled_call o.ends (hc rfl)
    refine ⟨hbody ▸ ends, by rw [hbody, Body.isSink_execute, o.kind], fun hp => ?_, ?_⟩
    · rw [sumOf_append, if_pos rfl, o.bare hp, besides_of_isSink (o.kind.trans hp) hv]
      rfl
    · rw [sumOf_append, sumOf_append, if_pos rfl, if_pos rfl, o.sum, hbody]
      calc (w.body j).consumed + sumOf (·.besides) j calls +
        CallRecord.handled Plant.interface ⟨j, v, w⟩
        _ = CallRecord.handled Plant.interface ⟨j, v, w⟩ + (w.body j).consumed +
            sumOf (·.besides) j calls := by ac_rfl
        _ = ((w.body j).execute v w.store).body.consumed + CallRecord.besides ⟨j, v, w⟩ +
            sumOf (·.besides) j calls := by
          rw [handled]
        _ = ((w.body j).execute v w.store).body.consumed +
            (sumOf (·.besides) j calls + CallRecord.besides ⟨j, v, w⟩) := by
          ac_rfl
  · have hbody : (Plant.interface.call j v w).2.2.body i = w.body i := Plant.body_call_ne hj v
    have hsum : ∀ f : CallRecord (Plant α σ) → UInt64,
        sumOf f i (calls ++ [⟨j, v, w⟩]) = sumOf f i calls := by
      intro f
      rw [sumOf_append, if_neg hj, add_zero]
    exact ⟨hbody ▸ o.ends, hbody ▸ o.kind, fun hp => (hsum _).trans (o.bare hp), by
      rw [hsum, hsum, hbody, o.sum]⟩

/-- So it stays in every run in which bodies are not exchanged from outside. -/
theorem of_run {l₀ l : Ledger (Plant α σ)}
    (hr : Run Plant.interface (fun w w' => w'.bodies = w.bodies) l₀ l)
    (wd : l₀.session.network.graph.Wired) (t : l₀.session.Tallied)
    (hc : ∀ r ∈ l.calls, r.stage = i → r.Unharmed Plant.interface)
    (h₀ : Balanced p i l₀.calls l₀.session.network.world) :
    Balanced p i l.calls l.session.network.world := by
  refine hr.through (Q := fun calls w => (∀ r ∈ calls, r.stage = i → r.Unharmed Plant.interface) →
    Balanced p i calls w)
    wd t (fun _ hook j w o hcalls => (o hcalls).same (Plant.hook_bodies hook j w))
      (fun o hw hcalls => (o hcalls).same hw)
    (fun {calls w} j v o _ hv hcalls => ?_) (fun _ => h₀) hc
  exact (o fun r hr => hcalls r (List.mem_append_left _ hr)).call j hv
    (hcalls ⟨j, v, w⟩ (List.mem_append_right _ (List.mem_singleton_self _)))

end Balanced

end Ledger

/-- **The sinks count what they consume, and besides what else the groups handle that end in them.**
Each marked sink is a sink, or a group in which sources, maps, splits and callbacks stand before
one. Workers take any steps, and orders and changes from outside come in between, which leave the
bodies alone; no call of a marked sink panics. Then the sinks have handled as many parcels as they
have consumed and the members before them have handled, all together. So they have handled exactly
what they have consumed if none of them is a group. -/
theorem sunk_eq {α σ : Type} (parts : List Graph.Part) (p : Plant α σ) (sc : Scheduler)
    (hp : ∀ i ∈ (Graph.ofParts parts).sinks, (p.body i).EndsInSink ∧ (p.body i).consumed = 0)
    {l : Ledger (Plant α σ)}
    (hr : Ledger.Run Plant.interface (fun w w' => w'.bodies = w.bodies)
      { session := p.atRest (.ofParts parts) sc } l)
    (hc : ∀ r ∈ l.calls, r.stage ∈ (Graph.ofParts parts).sinks → r.Unharmed Plant.interface) :
    let g := l.session.network.graph
    let consumed := l.session.network.world.consumed g
    g.sunk = consumed + (g.sinks.map fun i => Ledger.sumOf (·.besides) i l.calls).sum ∧
      ((∀ i ∈ g.sinks, (p.body i).isSink = true) → g.sunk = consumed) := by
  intro g consumed
  have wd := Graph.wired_ofParts parts
  have fresh := Graph.fresh_ofParts parts
  have t : Session.Tallied (p.atRest (.ofParts parts) sc) := Plant.tallied_atRest fresh sc
  have hsinks : g.sinks = (Graph.ofParts parts).sinks := Graph.sinks_of_bare (hr.tallied wd t).1
  have balanced : ∀ i ∈ g.sinks, Ledger.Balanced p i l.calls l.session.network.world := by
    intro i hi
    rw [hsinks] at hi
    obtain ⟨ends, hzero⟩ := hp i hi
    refine .of_run hr wd t (fun r hm hri => hc r hm (hri ▸ hi)) ⟨ends, rfl, fun _ => rfl, ?_⟩
    change (0 : UInt64) = (p.body i).consumed + 0
    rw [hzero]
    rfl
  have items : ∀ i, (g.stage i).metrics.items =
      Ledger.sumOf (·.handled Plant.interface) i l.calls := fun i =>
    hr.items wd t i (congrArg StageMetrics.items (fresh.metrics i))
  have total :
      g.sunk = consumed + (g.sinks.map fun i => Ledger.sumOf (·.besides) i l.calls).sum := by
    calc g.sunk
      _ = (g.sinks.map fun i => (g.stage i).metrics.items).sum := by
        rw [Graph.sunk, List.sum, List.foldr_map]
      _ = (g.sinks.map fun i => (l.session.network.world.body i).consumed +
          Ledger.sumOf (·.besides) i l.calls).sum := by
        exact congrArg List.sum
          (List.map_congr_left fun i hi => (items i).trans (balanced i hi).sum)
      _ = consumed + (g.sinks.map fun i => Ledger.sumOf (·.besides) i l.calls).sum :=
        List.sum_map_add ..
  refine ⟨total, fun hplain => ?_⟩
  have none : (g.sinks.map fun i => Ledger.sumOf (·.besides) i l.calls).sum = 0 :=
    List.sum_eq_zero fun x hx => by
      obtain ⟨i, hi, rfl⟩ := List.mem_map.1 hx
      exact (balanced i hi).bare (hplain i hi)
  rw [total, none, add_zero]

/-! ### A source and a sink in one group -/

/-- A stage for one worker at a time that is a source and a sink. -/
def fusedParts : List Graph.Part := [.stage "all" .group false, .source 0, .sink 0]

theorem links_fusedParts : (Graph.ofParts fusedParts).Links [0] := rfl

/-- A group of a source of sevens and a sink that accepts everything. -/
def fused : Plant Nat Unit where
  bodies :=
    [.group (.ofList
      [.source { producer := { poll := fun s => (.item 7, s) }, output := 0 },
        .sink { processors := [{ process := fun _ s => (.ok (), s) }], input := 0 }])]
  store := { queues := [.bounded "sevens" 4], env := () }

namespace Fused

def scheduler : Scheduler := ⟨.roundRobin, 1⟩

/-- The ledger once the stage has been opened. -/
def opened : Ledger (Plant Nat Unit) :=
  { session :=
      ⟨(Network.openOne ⟨.ofParts fusedParts, fused⟩ Plant.interface 0 none).2, scheduler, []⟩ }

/-- The ledger after one call. -/
def after : Ledger (Plant Nat Unit) :=
  (opened.perform Plant.interface (.next 0)).perform Plant.interface (.exec 0)

theorem run_after :
    Ledger.Run Plant.interface (fun w w' => w'.bodies = w.bodies)
      { session := fused.atRest (.ofParts fusedParts) scheduler } after := by
  have h₀ : Ledger.Run Plant.interface (fun w w' => w'.bodies = w.bodies)
      { session := fused.atRest (.ofParts fusedParts) scheduler } opened :=
    .opened rfl links_fusedParts (by decide) (by decide)
  exact (h₀.next 0 (by decide)).exec 0

theorem endsInSink :
    ∀ i ∈ (Graph.ofParts fusedParts).sinks, (fused.body i).EndsInSink ∧
      (fused.body i).consumed = 0 := by
  intro i hi
  obtain rfl : i = 0 := List.mem_singleton.1 hi
  exact ⟨.cons _ rfl (.last _ _ rfl), rfl⟩

theorem unharmed : ∀ r ∈ after.calls, r.Unharmed Plant.interface := by
  have h : ∀ r ∈ after.calls, (Plant.interface.call r.stage r.visit r.world).1 =
      .returned .success := by decide
  intro r hr e he
  rw [h r hr] at he
  cases he

end Fused

/-- The source of the group hands one parcel to the sink, and that is one that the group has handled
besides. -/
theorem sunk_eq_fused :
    let g := Fused.after.session.network.graph
    (g.sinks.map fun i => Ledger.sumOf (·.besides) i Fused.after.calls).sum = 1 ∧
      g.sunk = Fused.after.session.network.world.consumed g + 1 := by
  intro g
  have hbesides : (g.sinks.map fun i => Ledger.sumOf (·.besides) i Fused.after.calls).sum = 1 := by
    decide
  obtain ⟨total, -⟩ :=
    sunk_eq fusedParts fused Fused.scheduler Fused.endsInSink Fused.run_after fun r hr _ =>
      Fused.unharmed r hr
  exact ⟨hbesides,
    total.trans (congrArg (Fused.after.session.network.world.consumed g + ·) hbesides)⟩

/-- So two parcels count as handled where the sink has consumed one. -/
theorem sunk_ne_consumed_fused :
    let g := Fused.after.session.network.graph
    (∀ i ∈ (Graph.ofParts fusedParts).sinks, (fused.body i).EndsInSink ∧
      (fused.body i).consumed = 0) ∧
      Ledger.Run Plant.interface (fun w w' => w'.bodies = w.bodies)
        { session := fused.atRest (.ofParts fusedParts) Fused.scheduler } Fused.after ∧
      (∀ r ∈ Fused.after.calls, r.Unharmed Plant.interface) ∧
      g.sunk = 2 ∧ Fused.after.session.network.world.consumed g = 1 :=
  ⟨Fused.endsInSink, Fused.run_after, Fused.unharmed, by decide, by decide⟩

end Pipework
