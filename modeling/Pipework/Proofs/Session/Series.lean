import Pipework.Proofs.Body.Route
import Pipework.Proofs.Session.Ledger
import Pipework.Proofs.Session.Stranded

/-!
# Stages in series

A `Series` is a source, any number of maps and a sink in a plant, joined by queues of their own
(`Series.Joins`). No matter how often they fail, each call of one of them changes the columns
between them in one way: the source adds what it polls to the first one (`Joins.columns_source`), a
map takes parcels from the front of one and adds results to the end of the next
(`Joins.columns_map`), and the sink takes what it shows from the front of the last one
(`Joins.columns_sink`).
-/

namespace Pipework

namespace Plant

variable {α σ : Type} {w w' : Plant α σ}

/-- The bodies and what is in the queues are the same. -/
structure Same (w w' : Plant α σ) : Prop where
  bodies : w'.bodies = w.bodies
  contents : ∀ q, w'.store.contents q = w.store.contents q
  length : w'.store.queues.length = w.store.queues.length

namespace Same

theorem body (h : Same w w') (i : StageId) : w'.body i = w.body i := by
  unfold Plant.body
  rw [h.bodies]

theorem core {p : Plant α σ} (h : Same w w') (hw : ∀ i, (w.body i).core = p.body i) (i : StageId) :
    (w'.body i).core = p.body i := by
  rw [h.body, hw]

theorem of_tuned (h : Tuned w w') : Same w w' := by
  obtain ⟨q, n, rfl⟩ := h
  exact ⟨rfl, fun q' => items_setThreshold w.store q q' n, Store.length_queues_setQueue ..⟩

theorem of_queues (hb : w'.bodies = w.bodies) (hq : w'.store.queues = w.store.queues) : Same w w' :=
  ⟨hb, Store.contents_of_queues hq, congrArg List.length hq⟩

end Same

/-- Where no stage is held the holders are counted. -/
theorem tallied_atRest {p : Plant α σ} {g : Graph} (hg : g.Fresh) (sc : Scheduler) :
    (p.atRest g sc).Tallied :=
  ⟨List.nodup_nil, hg.holders⟩

end Plant

/-- A source, `length` maps and a sink. The queue `belt j` leads from the stage `stage j` to the
stage `stage (j + 1)`. -/
structure Series where
  length : Nat
  stage : Nat → StageId
  belt : Nat → QueueId

namespace Series

variable {α σ : Type} {c : Series} {g : Graph} {p w w' : Plant α σ} {i j : Nat} {v : Visit}

/-- The bodies form the series: a source, maps and a sink, joined by queues of their own which are
empty. No code that was handed in panics or touches a queue. How the graph is wired does not
matter. -/
structure Joins (c : Series) (g : Graph) (p : Plant α σ) : Prop where
  covers : ∀ i < g.size, ∃ j ≤ c.length + 1, i = c.stage j
  stages : ∀ i ≤ c.length + 1, ∀ j ≤ c.length + 1, c.stage i = c.stage j → i = j
  belts : ∀ i ≤ c.length, ∀ j ≤ c.length, c.belt i = c.belt j → i = j
  lt_length : ∀ j ≤ c.length, c.belt j < p.store.queues.length
  source : ∃ b, p.body (c.stage 0) = .source b ∧ b.output = c.belt 0 ∧ b.Discreet
  map : ∀ j < c.length, ∃ m, p.body (c.stage (j + 1)) = .map m ∧ m.input = c.belt j ∧
    m.output = c.belt (j + 1) ∧ m.Quiet
  sink : ∃ b, p.body (c.stage (c.length + 1)) = .sink b ∧ b.input = c.belt c.length ∧ b.Quiet
  opening : ∀ i s, ((p.body i).opening s).2.queues = s.queues
  closing : ∀ i s, ((p.body i).closing s).2.queues = s.queues
  fresh : ∀ i, (p.body i).core = p.body i
  dry : ∀ j ≤ c.length, p.store.contents (c.belt j) = []

/-- The parcels between two stages: those in the queue, and those that wait behind it. -/
def column (c : Series) (w : Plant α σ) (j : Nat) : List α :=
  w.store.contents (c.belt j) ++ (w.body (c.stage j)).waiting

theorem column_same (h : Plant.Same w w') (j : Nat) : c.column w' j = c.column w j := by
  unfold column
  rw [h.contents, h.body]

/-- The world after a stage of the series was called. -/
def after (c : Series) (w : Plant α σ) (j : Nat) (v : Visit) : Plant α σ :=
  (Plant.interface.call (c.stage j) v w).2.2

theorem store_after (c : Series) (w : Plant α σ) (j : Nat) (v : Visit) :
    (c.after w j v).store = ((w.body (c.stage j)).execute v w.store).store := rfl

theorem body_after (hp : (w.body (c.stage j)).isPlain = true) (v : Visit) :
    (c.after w j v).body (c.stage j) = ((w.body (c.stage j)).execute v w.store).body :=
  Plant.body_call_self hp v

namespace Joins

variable (h : c.Joins g p)
include h

/-- At the start nothing is between the stages. -/
theorem column_eq_nil (hj : j ≤ c.length) : c.column p j = [] := by
  unfold column
  rw [h.dry j hj, Body.waiting_eq_nil (h.fresh _)]
  rfl

/-- The body of a stage is that of the source, of a map or of the sink, whatever has been done with
it. -/
theorem body_cases (hw : ∀ i, (w.body i).core = p.body i) {i : StageId} (hi : i < g.size) :
    (i = c.stage 0 ∧ ∃ b, w.body i = .source b ∧ p.body i = .source b.core ∧ b.output = c.belt 0 ∧
      b.Discreet) ∨
      (∃ j < c.length, i = c.stage (j + 1) ∧ ∃ m, w.body i = .map m ∧ p.body i = .map m.core ∧
        m.input = c.belt j ∧
        m.output = c.belt (j + 1) ∧ m.Quiet) ∨
      (i = c.stage (c.length + 1) ∧ ∃ b, w.body i = .sink b ∧ p.body i = .sink b.core ∧
        b.input = c.belt c.length ∧
        b.Quiet) := by
  obtain ⟨j, hj, rfl⟩ := h.covers i hi
  cases j with
  | zero =>
    obtain ⟨b₀, hb₀, hout, hd⟩ := h.source
    obtain ⟨b, hb, rfl⟩ := Body.source_of_core ((hw _).trans hb₀)
    exact .inl ⟨rfl, b, hb, hb₀, hout, hd⟩
  | succ j =>
    rcases Nat.lt_or_ge j c.length with hl | hl
    · obtain ⟨m₀, hm₀, hin, hout, hq⟩ := h.map j hl
      obtain ⟨m, hm, rfl⟩ := Body.map_of_core ((hw _).trans hm₀)
      exact .inr (.inl ⟨j, hl, rfl, m, hm, hm₀, hin, hout, hq⟩)
    · obtain rfl : j = c.length := by omega
      obtain ⟨b₀, hb₀, hin, hq⟩ := h.sink
      obtain ⟨b, hb, rfl⟩ := Body.sink_of_core ((hw _).trans hb₀)
      exact .inr (.inr ⟨rfl, b, hb, hb₀, hin, hq⟩)

theorem isPlain (hw : ∀ i, (w.body i).core = p.body i) {i : StageId} (hi : i < g.size) :
    (w.body i).isPlain = true := by
  rcases h.body_cases hw hi with ⟨-, b, hb, -⟩ | ⟨j, -, -, m, hb, -⟩ | ⟨-, b, hb, -⟩ <;>
    rw [hb] <;> rfl

/-- A call leaves the bodies what they were built as. -/
theorem core_call (hw : ∀ i, (w.body i).core = p.body i) {i : StageId} (hi : i < g.size) (v : Visit)
    (j : StageId) :
    ((Plant.interface.call i v w).2.2.body j).core = p.body j := by
  rw [Plant.body_call]
  split
  · next hij => rw [Body.core_execute (h.isPlain hw hi), hw, hij.1]
  · exact hw j

/-- Hooks change neither bodies nor what is in the queues. -/
theorem same_hook (hw : ∀ i, (w.body i).core = p.body i) (hook : Hook) (i : StageId) :
    w.Same (Plant.interface.hook hook i w).2 := by
  refine .of_queues (Plant.hook_bodies hook i w) ?_
  cases hook with
  | opening =>
    have := h.opening i w.store
    rwa [← hw i, Body.opening_core] at this
  | closing =>
    have := h.closing i w.store
    rwa [← hw i, Body.closing_core] at this

/-! ### A call of a stage -/

theorem body_after_ne (hi : i ≤ c.length + 1) (hj : j ≤ c.length + 1) (hij : i ≠ j) :
    (c.after w i v).body (c.stage j) = w.body (c.stage j) :=
  Plant.body_call_ne (fun he => hij (h.stages i hi j hj he)) v

/-- A column that the call of another stage does not touch. -/
theorem column_of_apart {qs : List QueueId} (apart : w.store.Apart (c.after w i v).store qs)
    (hi : i ≤ c.length + 1) (hj : j ≤ c.length) (hij : i ≠ j) (hq : c.belt j ∉ qs) :
    c.column (c.after w i v) j = c.column w j := by
  unfold column
  rw [apart.contents _ hq, h.body_after_ne hi (Nat.le_succ_of_le hj) hij]

/-- A column from whose front the call of another stage takes parcels. -/
theorem column_of_taken {taken : List α}
    (ht : w.store.contents (c.belt j) = taken ++ (c.after w i v).store.contents (c.belt j))
    (hi : i ≤ c.length + 1) (hj : j ≤ c.length) (hij : i ≠ j) :
    c.column w j = taken ++ c.column (c.after w i v) j := by
  unfold column
  rw [ht, h.body_after_ne hi (Nat.le_succ_of_le hj) hij, List.append_assoc]

/-- What the source polls joins the first column. -/
theorem columns_source {b : Source α σ} (hb : w.body (c.stage 0) = .source b)
    (hout : b.output = c.belt 0) (hd : b.Discreet) (hlt : c.belt 0 < w.store.queues.length)
    (v : Visit) :
    (c.after w 0 v).store.queues.length = w.store.queues.length ∧
      c.column (c.after w 0 v) 0 = c.column w 0 ++ b.polled v w.store ∧
      ∀ j, 0 < j → j ≤ c.length → c.column (c.after w 0 v) j = c.column w j := by
  have hstore : (c.after w 0 v).store = (b.execute v w.store).store := by
    rw [store_after, hb]
    rfl
  have hbody : (c.after w 0 v).body (c.stage 0) = .source (b.execute v w.store).body := by
    rw [body_after (by rw [hb]; rfl), hb]
    rfl
  have apart := (Source.feeds_execute hd v w.store).apart
  have items := Source.contents_execute hd v (by rwa [hout])
  rw [← hstore, hout] at apart items
  refine ⟨apart.length, ?_, fun j hj hjl => ?_⟩
  · unfold column
    rw [hbody, hb]
    exact items
  · refine h.column_of_apart apart (Nat.zero_le _) hjl (by omega) fun hm => ?_
    have := h.belts j hjl 0 (Nat.zero_le _) (List.mem_singleton.1 hm)
    omega

/-- What a map tries leaves one column, and the results join the next one. -/
theorem columns_map (hj : j < c.length) {m : Map α σ} (hm : w.body (c.stage (j + 1)) = .map m)
    (hin : m.input = c.belt j) (hout : m.output = c.belt (j + 1)) (hq : m.Quiet)
    (hlt : ∀ i ≤ c.length, c.belt i < w.store.queues.length) (v : Visit) :
    (c.after w (j + 1) v).store.queues.length = w.store.queues.length ∧
      c.column w j = (m.tries v w.store).map (·.1) ++ c.column (c.after w (j + 1) v) j ∧
      c.column (c.after w (j + 1) v) (j + 1) =
        c.column w (j + 1) ++ (m.tries v w.store).filterMap (·.2) ∧
      ∀ k ≤ c.length, k ≠ j → k ≠ j + 1 → c.column (c.after w (j + 1) v) k = c.column w k := by
  have hstore : (c.after w (j + 1) v).store = (m.execute v w.store).store := by
    rw [store_after, hm]
    rfl
  have hbody : (c.after w (j + 1) v).body (c.stage (j + 1)) = .map (m.execute v w.store).body := by
    rw [body_after (by rw [hm]; rfl), hm]
    rfl
  have hio : m.input ≠ m.output := fun he => by
    have := h.belts j (Nat.le_of_lt hj) (j + 1) hj (hin.symm.trans (he.trans hout))
    omega
  obtain ⟨apart, input, output⟩ :=
    Map.shifts_execute hq hio v (hin ▸ hlt j (Nat.le_of_lt hj)) (hout ▸ hlt (j + 1) hj)
  rw [← hstore, hin, hout] at apart
  rw [← hstore, hin] at input
  rw [← hstore, hout] at output
  refine ⟨apart.length, h.column_of_taken input (by omega) (Nat.le_of_lt hj) (by omega), ?_,
    fun k hk hkj hkj' => ?_⟩
  · unfold column
    rw [hbody, hm]
    exact output
  · refine h.column_of_apart apart (by omega) hk (Ne.symm hkj') fun hmem => ?_
    rcases List.mem_pair.1 hmem with he | he
    · exact hkj (h.belts k hk j (by omega) he)
    · exact hkj' (h.belts k hk (j + 1) hj he)

/-- What the sink shows leaves the last column. -/
theorem columns_sink {b : Sink α σ} (hb : w.body (c.stage (c.length + 1)) = .sink b)
    (hin : b.input = c.belt c.length) (hq : b.Quiet) (hlt : c.belt c.length < w.store.queues.length)
    (v : Visit) :
    (c.after w (c.length + 1) v).store.queues.length = w.store.queues.length ∧
      c.column w c.length = b.shown v w.store ++ c.column (c.after w (c.length + 1) v) c.length ∧
      ∀ j < c.length, c.column (c.after w (c.length + 1) v) j = c.column w j := by
  have hstore : (c.after w (c.length + 1) v).store = (b.execute v w.store).store := by
    rw [store_after, hb]
    rfl
  obtain ⟨apart, shown⟩ := Sink.shows_execute hq v (by rwa [hin])
  rw [← hstore, hin] at apart shown
  refine ⟨apart.length, h.column_of_taken shown (Nat.le_refl _) (Nat.le_refl _) (by omega),
    fun j hj => ?_⟩
  refine h.column_of_apart apart (Nat.le_refl _) (by omega) (by omega) fun hm => ?_
  have := h.belts j (by omega) c.length (Nat.le_refl _) (List.mem_singleton.1 hm)
  omega

end Joins

end Series

end Pipework
