import Pipework.Proofs.Session.Events

/-!
# Hooks frame the life of a stage

Bodies are made to note every hook and every call (`Bodies.noting`). Whatever happens in a session,
what is noted of a stage is nothing, or the opening hook and then calls, or these and then the
closing hook (`hooks_frame_calls`). The invariant says which of the three it is: it follows from the
state of the stage, from whether it has been opened, and from whether its closing is left to the
last worker that holds it (`Stage.Life.frame`).
-/

namespace Pipework

/-! ### Notes -/

/-- What is noted of a stage. -/
inductive Note where
  | hook (hook : Hook)
  | call
  deriving DecidableEq, Repr

/-- A world with what has been noted, the latest last. -/
abbrev Noted (W : Type) := W × List (StageId × Note)

/-- Bodies that note every hook and every call. -/
def Bodies.noting {W : Type} (B : Bodies W) : Bodies (Noted W) where
  opening i p :=
    let r := B.opening i p.1
    (r.1, r.2, p.2 ++ [(i, .hook .opening)])
  call i v p :=
    let r := B.call i v p.1
    (r.1, r.2.1, r.2.2, p.2 ++ [(i, .call)])
  closing i p :=
    let r := B.closing i p.1
    (r.1, r.2, p.2 ++ [(i, .hook .closing)])
  pending i p := B.pending i p.1
  threshold i p := B.threshold i p.1
  setThreshold i n p := (B.setThreshold i n p.1, p.2)

/-- What has been noted of one stage. -/
def history (notes : List (StageId × Note)) (i : StageId) : List Note :=
  (notes.filter (·.1 == i)).map (·.2)

theorem history_append (notes : List (StageId × Note)) (i j : StageId) (x : Note) :
    history (notes ++ [(i, x)]) j = history notes j ++ if i = j then [x] else [] := by
  unfold history
  by_cases h : i = j <;> simp [h]

/-! ### Lives -/

namespace Stage.Life

variable {l : Stage.Life} {h : List Note}

/-- What is noted in a life with `k` calls. -/
def frame (l : Stage.Life) (k : Nat) : List Note :=
  if l.opened then
    .hook .opening :: (List.replicate k .call ++
      if l.state = .finished ∧ l.closingDue = false then [.hook .closing] else [])
  else []

/-- A life that agrees with what has been noted. -/
structure Framed (l : Stage.Life) (h : List Note) : Prop where
  opened : l.opened = true ↔ l.state ≠ .unopened
  unheld : l.state = .unopened → l.holders = 0
  due : l.closingDue = true → l.state = .finished
  history : ∃ k, h = l.frame k

/-- The closing is left to somebody exactly if there is somebody. -/
def Prompt (l : Stage.Life) : Prop := l.state = .finished → (l.closingDue = true ↔ 0 < l.holders)

theorem Framed.run (hl : l.Framed h) (hs : l.state = .unopened ∨ l.state = .paused) :
    Framed { l with state := .running, opened := true }
      (h ++ if l.opened then [] else [.hook .opening]) := by
  obtain ⟨k, hk⟩ := hl.history
  have hdue : l.closingDue = false := by
    by_contra hd
    have := hl.due (by simpa using hd)
    rcases hs with hs | hs <;> rw [hs] at this <;> cases this
  refine ⟨by simp, fun hc => (by cases hc), fun hd => ?_, ?_⟩
  · rw [hdue] at hd
    cases hd
  · cases ho : l.opened with
    | true =>
      refine ⟨k, ?_⟩
      have hne : l.state ≠ .finished := by rcases hs with hs | hs <;> simp [hs]
      rw [hk]
      simp [frame, ho, hne]
    | false =>
      refine ⟨0, ?_⟩
      rw [hk]
      simp [frame, ho]

theorem Framed.pause (hl : l.Framed h) (hs : l.state = .running) :
    Framed { l with state := .paused } h := by
  obtain ⟨k, hk⟩ := hl.history
  refine ⟨by simp [hl.opened, hs], fun hc => (by cases hc), fun hd => ?_, k, ?_⟩
  · have := hl.due hd
    rw [hs] at this
    cases this
  · rw [hk]
    simp [frame, hs]

/-- Finishing a stage opens it before, and closes it after, unless it is held. -/
theorem Framed.retire (hl : l.Framed h) (hs : l.state ≠ .finished) :
    l.retired.Framed (h ++ (if l.opened then [] else [.hook .opening]) ++
      if 0 < l.holders then [] else [.hook .closing]) ∧ l.retired.Prompt := by
  obtain ⟨k, hk⟩ := hl.history
  have hdue : l.closingDue = false := by
    by_contra hd
    exact hs (hl.due (by simpa using hd))
  refine ⟨⟨by simp [retired], fun hc => (by cases hc), fun _ => rfl, ?_⟩, fun _ => by
    simp [retired, hdue]⟩
  cases ho : l.opened with
  | true =>
    refine ⟨k, ?_⟩
    rw [hk]
    by_cases hh : 0 < l.holders <;> simp [frame, retired, ho, hs, hdue, hh]
  | false =>
    refine ⟨0, ?_⟩
    have hu : l.state = .unopened := by
      by_contra hu
      have := hl.opened.2 hu
      rw [ho] at this
      cases this
    rw [hk]
    simp [frame, retired, ho, hdue, hl.unheld hu]

theorem Framed.call (hl : l.Framed h) (hp : l.Prompt) (hh : 0 < l.holders) :
    l.Framed (h ++ [.call]) := by
  obtain ⟨k, hk⟩ := hl.history
  have hopened : l.opened = true := hl.opened.2 fun hu => by
    have := hl.unheld hu
    omega
  have hclosed : ¬ (l.state = .finished ∧ l.closingDue = false) := fun ⟨hf, hd⟩ => by
    have := (hp hf).2 hh
    rw [hd] at this
    cases this
  refine ⟨hl.opened, hl.unheld, hl.due, k + 1, ?_⟩
  rw [hk]
  simp [frame, hopened, hclosed, List.replicate_succ']

theorem Framed.close (hl : l.Framed h) (hd : l.closingDue = true) :
    Framed { l with closingDue := false } (h ++ [.hook .closing]) := by
  obtain ⟨k, hk⟩ := hl.history
  have hf := hl.due hd
  have hopened : l.opened = true := hl.opened.2 (by simp [hf])
  refine ⟨by simp [hopened, hf], fun hu => ?_, fun hc => (by cases hc), k, ?_⟩
  · rw [hf] at hu
    cases hu
  · rw [hk]
    simp [frame, hopened, hf, hd]

/-- Nothing that is noted depends on how many workers hold a stage that has been opened. -/
theorem Framed.held (hl : l.Framed h) {m : Nat} (hm : l.state = .unopened → m = 0) :
    Framed { l with holders := m } h :=
  ⟨hl.opened, hm, hl.due, hl.history⟩

/-- The three histories. -/
theorem Framed.cases (hl : l.Framed h) :
    h = [] ∨ ∃ k, h = .hook .opening :: List.replicate k .call ∨
      h = .hook .opening :: (List.replicate k .call ++ [.hook .closing]) := by
  obtain ⟨k, hk⟩ := hl.history
  unfold frame at hk
  split at hk
  · right
    refine ⟨k, ?_⟩
    split at hk
    · exact .inr hk
    · exact .inl (by simpa using hk)
  · exact .inl hk

theorem Framed.opened_iff (hl : l.Framed h) : l.opened = true ↔ .hook .opening ∈ h := by
  obtain ⟨k, hk⟩ := hl.history
  rw [hk]
  cases ho : l.opened <;> simp [frame, ho]

theorem Framed.closed_iff (hl : l.Framed h) (hp : l.Prompt) (hf : l.state = .finished) :
    .hook .closing ∈ h ↔ l.holders = 0 := by
  obtain ⟨k, hk⟩ := hl.history
  have hopened : l.opened = true := hl.opened.2 (by simp [hf])
  have hdue := hp hf
  rw [hk]
  cases hd : l.closingDue with
  | true =>
    have := hdue.1 hd
    simp [frame, hopened, hf, hd]
    omega
  | false =>
    have : ¬ 0 < l.holders := fun hh => by
      rw [hdue.2 hh] at hd
      cases hd
    simp [frame, hopened, hf, hd]
    omega

/-- A life that is over. -/
theorem Framed.whole (hl : l.Framed h) (hp : l.Prompt) (hf : l.state = .finished)
    (hh : l.holders = 0) :
    ∃ k, h = .hook .opening :: (List.replicate k .call ++ [.hook .closing]) := by
  obtain ⟨k, hk⟩ := hl.history
  have hopened : l.opened = true := hl.opened.2 (by simp [hf])
  have hdue : l.closingDue = false := by
    by_contra hd
    have := (hp hf).1 (by simpa using hd)
    omega
  exact ⟨k, by rw [hk]; simp [frame, hopened, hf, hdue]⟩

theorem Framed.count_closing (hl : l.Framed h) (hp : l.Prompt) (hf : l.state = .finished)
    (hh : l.holders = 0) :
    h.count (.hook .closing) = 1 := by
  obtain ⟨k, hk⟩ := hl.whole hp hf hh
  simp [hk, List.count_replicate]

theorem Framed.closing_not_mem (hl : l.Framed h) (hf : l.state ≠ .finished) :
    .hook .closing ∉ h := by
  obtain ⟨k, hk⟩ := hl.history
  rw [hk]
  unfold frame
  split <;> simp [hf]

end Stage.Life

/-! ### What the life of stages preserves -/

section

variable {W : Type} {B : Bodies W} {n : Network (Noted W)} {i j : StageId} {c : Option Caller}
  {f : StageId → Nat} {notes : List (StageId × Note)}

/-- What is noted of a stage of a network. -/
def Network.historyOf (n : Network (Noted W)) (i : StageId) : List Note := history n.world.2 i

/-- Lives agree with what has been noted, `f` counts the holders, and what has been noted after
`notes` are hooks of stages without holders. -/
structure Orderly (f : StageId → Nat) (notes : List (StageId × Note)) (n : Network (Noted W)) :
    Prop where
  holders : ∀ i, (n.graph.stage i).holders = f i
  framed : ∀ i, (n.graph.stage i).life.Framed (n.historyOf i)
  prompt : ∀ i, (n.graph.stage i).life.Prompt
  unheld : ∃ more, n.world.2 = notes ++ more ∧ ∀ x ∈ more, f x.1 = 0 ∧ x.2 ≠ .call

/-- A change of one stage, with notes of that stage, leaves the others as they were. -/
theorem Orderly.change {f' : StageId → Nat} {n' : Network (Noted W)} (h : Orderly f notes n)
    {l : Stage.Life} {x : List Note}
    (hlife : ∀ j, (n'.graph.stage j).life = if i = j then l else (n.graph.stage j).life)
    (hnotes : n'.world.2 = n.world.2 ++ x.map (i, ·)) (hl : l.Framed (n.historyOf i ++ x))
    (hp : l.Prompt) (hh : l.holders = f' i) (hf : ∀ j, i ≠ j → f' j = f j)
    (hle : f i = 0 → f' i = 0) (hu : x ≠ [] → f' i = 0) (hc : .call ∉ x) :
    Orderly f' notes n' where
  holders j := by
    have := congrArg Stage.Life.holders (hlife j)
    by_cases hij : i = j
    · subst hij
      rw [if_pos rfl, hh] at this
      exact this
    · rw [if_neg hij] at this
      rw [hf j hij, ← h.holders j]
      exact this
  framed j := by
    have hj : n'.historyOf j = n.historyOf j ++ if i = j then x else [] := by
      unfold Network.historyOf history
      rw [hnotes]
      by_cases hij : i = j <;> simp [hij, List.filter_map, Function.comp_def]
    rw [hlife, hj]
    by_cases hij : i = j
    · subst hij
      simpa using hl
    · simpa [hij] using h.framed j
  prompt j := by
    rw [hlife]
    by_cases hij : i = j
    · simpa [hij] using hp
    · simpa [hij] using h.prompt j
  unheld := by
    obtain ⟨more, hm, hz⟩ := h.unheld
    refine ⟨more ++ x.map (i, ·), by rw [hnotes, hm, List.append_assoc], fun y hy => ?_⟩
    rcases List.mem_append.1 hy with hy | hy
    · by_cases hij : i = y.1
      · rw [← hij]
        exact ⟨hle (hij ▸ (hz y hy).1), (hz y hy).2⟩
      · rw [hf _ hij]
        exact hz y hy
    · obtain ⟨z, hz, rfl⟩ := List.mem_map.1 hy
      exact ⟨hu (List.ne_nil_of_mem hz), fun hzc => hc (hzc ▸ hz)⟩

/-- All of it is read off lives and notes. -/
theorem Orderly.same {n' : Network (Noted W)} (h : Orderly f notes n)
    (hl : ∀ j, (n'.graph.stage j).life = (n.graph.stage j).life) (hw : n'.world.2 = n.world.2) :
    Orderly f notes n' where
  holders j := (congrArg Stage.Life.holders (hl j)).trans (h.holders j)
  framed j := by
    rw [hl, Network.historyOf, hw]
    exact h.framed j
  prompt j := by
    rw [hl]
    exact h.prompt j
  unheld := by
    rw [hw]
    exact h.unheld

theorem stable_orderly (B : Bodies W) (f : StageId → Nat) (notes : List (StageId × Note)) :
    Stable B.noting (Orderly f notes) where
  opens {n i} c h hi hd := by
    obtain ⟨e, he⟩ := n.openOne_graph B.noting i c
    have hs : (n.graph.stage i).life.state = .unopened ∨
        (n.graph.stage i).life.state = .paused := by
      simpa [Stage.dormant, Stage.life] using hd
    refine h.change (fun j => ?_) ?_ ((h.framed i).run hs) (fun hf => ?_) (h.holders i)
      (fun _ _ => rfl) id (fun hx => ?_) (by split <;> simp)
    · rw [he, Graph.stage_withFailure, Graph.life_enterRunning hi]
    · rw [n.world_openOne]
      cases ho : (n.graph.stage i).opened <;> simp [Bodies.noting, Stage.life, ho]
    · cases hf
    · have ho : (n.graph.stage i).opened ≠ true := fun ho => hx (by simp [Stage.life, ho])
      have hu : (n.graph.stage i).life.state = .unopened := by
        by_contra hu
        exact ho ((h.framed i).opened.2 hu)
      rw [← h.holders i]
      exact (h.framed i).unheld hu
  halts {n i} h hr := by
    refine h.change (x := []) (fun j => ?_) ?_ (by simpa using (h.framed i).pause hr) (fun hf => ?_)
      (h.holders i) (fun _ _ => rfl) id (fun hx => absurd rfl hx) List.not_mem_nil
    · rw [Network.graph_mapGraph, Graph.life_halt hr]
    · simp
    · cases hf
  completes {n i} c h hi hf := by
    obtain ⟨e, he⟩ := Network.complete_graph (B := B.noting) (c := c) hf
    obtain ⟨hframed, hprompt⟩ := (h.framed i).retire hf
    refine h.change (fun j => ?_) ?_ (by rw [List.append_assoc] at hframed; exact hframed) hprompt
      (h.holders i) (fun _ _ => rfl) id (fun hx => ?_) (by split <;> split <;> simp)
    · rw [he, Graph.stage_withFailure, Graph.life_retire hi]
    · rw [Network.world_complete hf]
      cases ho : (n.graph.stage i).opened <;> by_cases hh : 0 < (n.graph.stage i).holders <;>
        simp [Bodies.noting, Stage.life, ho, hh]
    · by_contra hz
      have hh : 0 < (n.graph.stage i).holders := by
        rw [h.holders i]
        omega
      have ho : (n.graph.stage i).opened = true := (h.framed i).opened.2 fun hu => by
        have := (h.framed i).unheld hu
        simp only [Stage.life] at this
        omega
      exact hx (by simp [Stage.life, ho, hh])

/-! ### Letting go -/

theorem life_letGo (g : Graph) (hi : i < g.size) (y : Yield) (j : StageId) :
    ((g.letGo i y).stage j).life =
      if i = j then { (g.stage i).life with holders := (g.stage i).life.holders - 1 }
        else (g.stage j).life := by
  unfold Graph.letGo
  by_cases hij : i = j
  · subst hij
    rw [if_pos rfl, Graph.stage_modify_self hi]
    rfl
  · rw [if_neg hij, Graph.stage_modify_ne hij]

theorem closes_iff (g : Graph) (i : StageId) :
    g.closes i = true ↔ (g.stage i).life.holders = 0 ∧ (g.stage i).life.closingDue = true := by
  simp [Graph.closes, Stage.life]

/-- Where all is in order nothing is left to be closed. -/
theorem Orderly.closeDue (h : Orderly f notes n) (i : StageId) :
    n.closeDue B.noting i c = (.ok (), n) := by
  have hc : n.graph.closes i = false := by
    by_contra hc
    obtain ⟨hz, hd⟩ := (closes_iff n.graph i).1 (by simpa using hc)
    have := (h.prompt i ((h.framed i).due hd)).1 hd
    omega
  unfold Network.closeDue
  simp [hc]

/-- The last worker that lets go of a finished stage closes it. -/
theorem Orderly.closeDue_letGo (h : Orderly f notes n) (hi : i < n.graph.size)
    (hf : (n.graph.stage i).state = .finished) (y : Yield) :
    Orderly (fun j => f j - if i = j then 1 else 0) notes
      ((n.mapGraph (·.letGo i y)).closeDue B.noting i c).2 := by
  obtain ⟨e, he⟩ := (n.mapGraph (·.letGo i y)).closeDue_graph B.noting i c
  have hworld := (n.mapGraph (·.letGo i y)).world_closeDue B.noting i c
  have hlife := life_letGo n.graph hi y
  have hprompt := h.prompt i hf
  have hframed : Stage.Life.Framed { (n.graph.stage i).life with
    holders := (n.graph.stage i).life.holders - 1 }
      (n.historyOf i) := (h.framed i).held fun hu => by rw [(h.framed i).unheld hu]
  have hcount : (n.graph.stage i).life.holders = f i := h.holders i
  have hcloses : (n.graph.letGo i y).closes i = true ↔
      (n.graph.stage i).life.holders - 1 = 0 ∧ (n.graph.stage i).life.closingDue = true := by
    rw [closes_iff, hlife, if_pos rfl]
  by_cases hc : (n.graph.letGo i y).closes i = true
  · rw [Network.graph_mapGraph, if_pos hc] at he hworld
    obtain ⟨hz, hd⟩ := hcloses.1 hc
    refine h.change (fun j => ?_) ?_ (hframed.close hd) (fun _ => ?_) (by simp [hcount])
      (fun j hij => by simp [hij]) (fun h0 => by simp [h0]) (fun _ => by simp [← hcount, hz])
      (by simp)
    · rw [he, Graph.stage_withFailure]
      by_cases hij : i = j
      · subst hij
        rw [Graph.stage_modify_self (by simpa [Graph.letGo] using hi), if_pos rfl]
        have hl := hlife i
        rw [if_pos rfl] at hl
        rw [← hl]
        rfl
      · rw [Graph.stage_modify_ne hij, hlife, if_neg hij, if_neg hij]
    · rw [hworld]
      rfl
    · simp [hz]
  · rw [Network.graph_mapGraph, if_neg hc] at he hworld
    refine h.change (x := []) (fun j => ?_) ?_ (by simpa using hframed) (fun _ => ?_)
      (by simp [hcount])
      (fun j hij => by simp [hij]) (fun h0 => by simp [h0]) (fun hx => absurd rfl hx)
      List.not_mem_nil
    · rw [he, Graph.stage_withFailure, hlife]
    · rw [hworld]
      simp
    · simp only
      constructor
      · intro hd
        by_contra hz
        exact hc (hcloses.2 ⟨by omega, hd⟩)
      · intro hz
        exact hprompt.2 (by omega)

/-- A worker that lets go of a stage leaves the closing to the others, or sees to it. -/
theorem Orderly.surrender (h : Orderly f notes n) (hi : i < n.graph.size) (caller : Caller)
    (result : Option Outcome) :
    Orderly (fun j => f j - if i = j then 1 else 0) notes
      (n.surrender B.noting i caller result).2 := by
  have hlife := fun y => life_letGo n.graph hi y
  unfold Network.surrender
  by_cases hf : (n.graph.stage i).state = .finished
  · -- there is nothing left to be finished
    have hm : ((n.mapGraph
        (·.letGo i ⟨caller.worker, result == some .comeBackLater⟩)).graph.stage i).state =
        .finished := by
      have := congrArg Stage.Life.state (hlife ⟨caller.worker, result == some .comeBackLater⟩ i)
      rw [if_pos rfl] at this
      exact this.trans hf
    simp only [Network.complete_of_finished hm, ite_self]
    exact h.closeDue_letGo hi hf _
  · have hm : Orderly (fun j => f j - if i = j then 1 else 0) notes
        (n.mapGraph (·.letGo i ⟨caller.worker, result == some .comeBackLater⟩)) := by
      refine h.change (x := []) (hlife _) (by simp) ?_ (fun hc => absurd hc hf) ?_
        (fun j hij => by simp [hij]) (fun h0 => by simp [h0]) (fun hx => absurd rfl hx)
        List.not_mem_nil
      · simpa using (h.framed i).held fun hu => by rw [(h.framed i).unheld hu]
      · simp [← h.holders i, Stage.life]
    by_cases hr : result = some .finished
    · have := (stable_orderly B _ notes).complete (c := some caller) hm (i := i)
        (by simpa [Graph.letGo] using hi)
      simp only [if_pos hr, this.closeDue]
      exact this
    · simp only [if_neg hr, hm.closeDue]
      exact hm

theorem Orderly.giveBack (h : Orderly f notes n) (hi : i < n.graph.size) (sc : Scheduler)
    (w : WorkerId) (result : Option Outcome) :
    Orderly (fun j => f j - if i = j then 1 else 0) notes (sc.giveBack B.noting n w i result) :=
  ((stable_orderly B _ notes).settling.handBack (h.surrender hi (sc.caller w) result)).same
    (fun _ => rfl) rfl

end

/-! ### Sessions -/

namespace Session

variable {W : Type} {B : Bodies W} {s : Session (Noted W)} {w : WorkerId} {h : Hold}
  {e : Event (Noted W)}

/-- Holders are counted, and lives agree with what has been noted. -/
structure InOrder (s : Session (Noted W)) : Prop where
  wired : s.network.graph.Wired
  tallied : s.Tallied
  framed : ∀ i, (s.network.graph.stage i).life.Framed (s.network.historyOf i)
  prompt : ∀ i, (s.network.graph.stage i).life.Prompt

/-- Nothing from outside touches what has been noted. -/
def KeepsNotes (s : Session (Noted W)) (e : Event (Noted W)) : Prop :=
  ∀ world, e = .order (.outside world) → world.2 = s.network.world.2

/-- A hook is called for a stage that nobody holds but the worker that gives it back, and a call is
made by a worker that holds the stage. -/
def Rightful (s : Session (Noted W)) (e : Event (Noted W)) : StageId × Note → Prop
  | (i, .hook _) => ∀ h ∈ s.holds, h.stage = i → e = .next h.worker ∨ e = .release h.worker
  | (i, .call) => ∃ h ∈ s.holds, h.stage = i ∧ e = .exec h.worker

/-- A step keeps lives in agreement with what is noted, and notes what it may. -/
structure Proceeds (s : Session (Noted W)) (e : Event (Noted W)) (n : Network (Noted W)) :
    Prop where
  framed : ∀ i, (n.graph.stage i).life.Framed (n.historyOf i)
  prompt : ∀ i, (n.graph.stage i).life.Prompt
  notes : ∃ more, n.world.2 = s.network.world.2 ++ more ∧ ∀ x ∈ more, s.Rightful e x

theorem InOrder.orderly (o : s.InOrder) : Orderly (tally s.holds) s.network.world.2 s.network :=
  ⟨o.tallied.holders, o.framed, o.prompt, [], by simp, by simp⟩

theorem InOrder.freed (o : s.InOrder) (w : WorkerId) :
    Orderly (tally (s.others w)) s.network.world.2 (s.freed B.noting w) := by
  unfold Session.freed
  cases hh : s.holdOf w with
  | none =>
    rw [others_of_none hh]
    exact o.orderly.same (fun _ => rfl) rfl
  | some h =>
    have := o.orderly.giveBack (B := B) (o.tallied.lt_size (mem_of_holdOf hh).1)
      s.scheduler w h.result
    have he : (fun j => tally s.holds j - if h.stage = j then 1 else 0) = tally (s.others w) := by
      funext j
      rw [o.tallied.tally_others hh]
      omega
    rw [he] at this
    exact this

/-- A stage without holders is held by nobody, and one without other holders by nobody else. -/
theorem proceeds_of_orderly {n : Network (Noted W)} {f : StageId → Nat}
    (h : Orderly f s.network.world.2 n)
    (hf : ∀ hold ∈ s.holds, f hold.stage = 0 → e = .next hold.worker ∨ e = .release hold.worker) :
    s.Proceeds e n := by
  refine ⟨h.framed, h.prompt, ?_⟩
  obtain ⟨more, hm, hu⟩ := h.unheld
  refine ⟨more, hm, fun ⟨i, x⟩ hx => ?_⟩
  obtain ⟨hz, hc⟩ := hu _ hx
  cases x with
  | hook _ => exact fun hold hh hi => hf hold hh (hi ▸ hz)
  | call => exact absurd rfl hc

theorem worker_of_tally_others {hold : Hold} (hm : hold ∈ s.holds)
    (hz : tally (s.others w) hold.stage = 0) :
    hold.worker = w := by
  by_contra hw
  have := tally_pos (mem_others.2 ⟨hm, hw⟩)
  omega

theorem InOrder.proceeds_order (o : s.InOrder) {call : Call (Noted W)} (hc : call.isOrder = true)
    (hk : s.KeepsNotes (.order call)) :
    s.Proceeds (.order call) (s.network.perform B.noting call) := by
  have h : Orderly (tally s.holds) s.network.world.2 (s.network.perform B.noting call) := by
    refine (stable_orderly B _ _).order (fun _ => o.wired.lt_size_of_mem_sources) hc (fun f => ?_)
      (fun i f => ?_) (fun world hw => ?_) o.orderly
    · exact o.orderly.same
        (fun j => congrArg Stage.life (Graph.stage_recordFailure s.network.graph f j)) rfl
    · exact o.orderly.same
        (Graph.map_stage_modify Stage.life (f := fun s => { s with knobs := f s.knobs })
          (fun _ => rfl) i) rfl
    · exact o.orderly.same (fun _ => rfl) (hk world (by rw [hw]))
  refine proceeds_of_orderly h fun hold hm hz => ?_
  have := tally_pos hm
  omega

theorem InOrder.proceeds_next (o : s.InOrder) (w : WorkerId) :
    s.Proceeds (.next w) (s.next B.noting w).2.network := by
  have hf : ∀ hold ∈ s.holds, tally (s.others w) hold.stage = 0 →
      (.next w : Event (Noted W)) = .next hold.worker ∨
      (.next w : Event (Noted W)) = .release hold.worker :=
    fun hold hm hz => .inl (by rw [worker_of_tally_others hm hz])
  have freed := o.freed (B := B) w
  rcases s.next_cases B.noting w with ⟨h, -, -, he⟩ | ⟨i, hi, hel, -, he⟩ | ⟨-, he⟩ |
    ⟨-, -, he⟩ <;> rw [he]
  · refine proceeds_of_orderly (o.orderly.same (fun j => ?_) rfl) fun hold hm hz => ?_
    · exact Graph.map_stage_modify (g := s.network.graph) Stage.life
        (f := fun t => { t with lastPicked := s.network.graph.tick + 1 }) (fun _ => rfl) h.stage j
    · have := tally_pos hm
      omega
  · -- the stage that is taken is running, so its closing has not come up
    have hr : ((s.freed B.noting w).graph.stage i).life.state = .running :=
      (Scheduler.eligible_iff.1 hel).1
    have hp := proceeds_of_orderly freed hf
    refine ⟨fun j => ?_, fun j => ?_, hp.notes⟩
    · simp only [Scheduler.stage_take hi]
      split
      · next hij =>
        subst hij
        exact (freed.framed i).held fun hu => by
          rw [hr] at hu
          cases hu
      · exact freed.framed j
    · simp only [Scheduler.stage_take hi]
      split
      · intro hc
        exact absurd (hr.symm.trans hc) (by decide)
      · exact freed.prompt j
  · exact proceeds_of_orderly freed hf
  · exact proceeds_of_orderly ((stable_orderly B _ _).settling.settle freed) hf

theorem InOrder.proceeds_release (o : s.InOrder) (w : WorkerId) :
    s.Proceeds (.release w) (s.release B.noting w).2.network := by
  cases hh : s.holdOf w with
  | none =>
    rw [release_of_none hh]
    refine proceeds_of_orderly o.orderly fun hold hm hz => ?_
    have := tally_pos hm
    omega
  | some h =>
    have freed := o.freed (B := B) w
    rw [Session.freed, hh] at freed
    rw [release_of_some hh]
    exact proceeds_of_orderly freed fun hold hm hz => .inr (by rw [worker_of_tally_others hm hz])

/-- A call is noted in the history of the stage that is called, while that is open. -/
theorem InOrder.proceeds_exec (o : s.InOrder) (w : WorkerId) :
    s.Proceeds (.exec w) (s.exec B.noting w).2.network := by
  cases hh : s.holdOf w with
  | none =>
    rw [exec_of_none hh]
    exact ⟨o.framed, o.prompt, [], by simp, by simp⟩
  | some h =>
    obtain ⟨hm, hw⟩ := mem_of_holdOf hh
    rw [exec_of_some hh hw]
    obtain ⟨m, hg⟩ := s.network.call_graph B.noting h.stage (s.visit h)
    have hlife : ∀ j, ((s.network.call B.noting h.stage (s.visit h)).2.2.graph.stage j).life =
        (s.network.graph.stage j).life := fun j => by
      rw [hg]
      exact Graph.map_stage_modify Stage.life (f := fun t => { t with metrics := m t.metrics })
        (fun _ => rfl) _ j
    have hworld : (s.network.call B.noting h.stage (s.visit h)).2.2.world.2 =
        s.network.world.2 ++ [(h.stage, .call)] := by
      rw [Network.world_call]
      rfl
    refine ⟨fun j => ?_, fun j => ?_, _, hworld, fun x hx => ?_⟩
    · simp only [hlife, Network.historyOf, hworld, history_append]
      by_cases hj : h.stage = j
      · subst hj
        rw [if_pos rfl]
        exact (o.framed h.stage).call (o.prompt h.stage) (o.tallied.holders_pos hm)
      · rw [if_neg hj, List.append_nil]
        exact o.framed j
    · simp only [hlife]
      exact o.prompt j
    · rw [List.mem_singleton] at hx
      subst hx
      exact ⟨h, hm, rfl, by rw [hw]⟩

theorem Tallied.notes_exec (t : s.Tallied) (hm : h ∈ s.holds) :
    (s.perform B.noting (.exec h.worker)).network.world.2 =
      s.network.world.2 ++ [(h.stage, .call)] := by
  rw [Session.perform, exec_of_some (t.holdOf_of_mem hm) rfl]
  exact congrArg Prod.snd (s.network.world_call B.noting h.stage (s.visit h))

theorem InOrder.proceeds (o : s.InOrder) (he : s.Sound e) (hk : s.KeepsNotes e) :
    s.Proceeds e (s.perform B.noting e).network := by
  cases e with
  | order call => exact o.proceeds_order he hk
  | next w => exact o.proceeds_next w
  | exec w => exact o.proceeds_exec w
  | release w => exact o.proceeds_release w
  | report w result => exact ⟨o.framed, o.prompt, [], (List.append_nil _).symm, by simp⟩

theorem InOrder.perform (o : s.InOrder) (he : s.Sound e) (hk : s.KeepsNotes e) :
    (s.perform B.noting e).InOrder where
  wired := wired_perform o.wired he
  tallied := o.tallied.perform (fun _ => o.wired.lt_size_of_mem_sources) he
  framed := (o.proceeds he hk).framed
  prompt := (o.proceeds he hk).prompt

/-- A session about a graph to which nothing has happened, with nothing noted. -/
def fresh (g : Graph) (world : W) (sc : Scheduler) : Session (Noted W) := ⟨⟨g, world, []⟩, sc, []⟩

theorem inOrder_fresh {g : Graph} (hw : g.Wired) (hg : g.Fresh) (world : W) (sc : Scheduler) :
    (fresh g world sc).InOrder := by
  refine ⟨hw, ⟨List.nodup_nil, fun i => hg.holders i⟩, fun i => ?_, fun i hf => ?_⟩
  · refine ⟨?_, fun _ => hg.holders i, fun hd => ?_, 0, ?_⟩
    · simp [Stage.life, fresh, hg.opened i, hg.state i]
    · exact absurd (hg.closingDue i) (by simpa [Stage.life, fresh] using hd)
    · simp [Stage.Life.frame, Stage.life, fresh, hg.opened i, Network.historyOf, history]
  · exact absurd (hg.state i) (by simp [show (g.stage i).state = .finished from hf])

end Session

/-- **Hooks frame the life of every stage.** In a session about any graph that can be built, whose
workers hand back exactly what they hold, what is noted of a stage is at any moment nothing, or the
opening and calls, or the opening, calls and the closing; a stage that is finished has been closed
exactly if nobody holds it; and in every further step, hooks are called for no stage that a worker
goes on holding, and calls are those of workers that hold the stage. -/
theorem hooks_frame_calls {W : Type} (B : Bodies W) (parts : List Graph.Part) (world : W)
    (sc : Scheduler) {s : Session (Noted W)}
    (hr : Session.Run B.noting Session.KeepsNotes (.fresh (.ofParts parts) world sc) s) :
    (∀ i, s.network.historyOf i = [] ∨ ∃ k,
      s.network.historyOf i = .hook .opening :: List.replicate k .call ∨
      s.network.historyOf i = .hook .opening :: (List.replicate k .call ++ [.hook .closing])) ∧
    (∀ i, (s.network.graph.stage i).state = .finished →
      (.hook .closing ∈ s.network.historyOf i ↔ (s.network.graph.stage i).holders = 0)) ∧
    (∀ i, (s.network.graph.stage i).holders = s.holds.countP (·.stage == i)) ∧
    ∀ e, s.Sound e → s.KeepsNotes e →
      ∃ more, (s.perform B.noting e).network.world.2 = s.network.world.2 ++ more ∧
        (∀ x ∈ more, s.Rightful e x) ∧
        ∀ h ∈ s.holds, e = .exec h.worker → more = [(h.stage, .call)] := by
  have o : s.InOrder := hr.invariant
    (Session.inOrder_fresh (Graph.wired_ofParts parts) (Graph.fresh_ofParts parts) world sc)
    fun _ _ o he hk => o.perform he hk
  refine ⟨fun i => (o.framed i).cases, fun i hf => (o.framed i).closed_iff (o.prompt i) hf,
    o.tallied.holders, fun e he hk => ?_⟩
  obtain ⟨more, hm, hrightful⟩ := (o.proceeds (B := B) he hk).notes
  refine ⟨more, hm, hrightful, ?_⟩
  rintro h hh rfl
  have hexec := o.tallied.notes_exec (B := B) hh
  exact List.append_cancel_left (hm.symm.trans hexec)

/-- A source that is finished while a worker holds it and calls it. -/
theorem hooks_frame_calls_held :
    let s₀ : Session (Noted Unit) :=
      .fresh (.ofParts [.stage "a" .source false, .source 0]) () ⟨.roundRobin, 1⟩
    let s := [Event.order .activateAll, .next 0, .order (.finish 0), .exec 0].foldl
      (Session.perform Bodies.inert.noting) s₀
    Session.Run Bodies.inert.noting Session.KeepsNotes s₀ s ∧
      ∀ i, (s.network.graph.stage i).state = .finished →
        (.hook .closing ∈ s.network.historyOf i ↔ (s.network.graph.stage i).holders = 0) := by
  intro s₀ s
  have hr : Session.Run Bodies.inert.noting Session.KeepsNotes s₀ s :=
    .step (.exec 0)
      (.step (.order (.finish 0)) (.step (.next 0) (.step (.order .activateAll) .start rfl nofun)
      nofun nofun) rfl nofun) trivial nofun
  exact ⟨hr, (hooks_frame_calls .inert _ () ⟨.roundRobin, 1⟩ hr).2.1⟩

end Pipework
