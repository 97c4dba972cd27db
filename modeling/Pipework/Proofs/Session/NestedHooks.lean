import Mathlib.Data.List.Forall2
import Pipework.Proofs.Body.Sites
import Pipework.Proofs.Session.Ledger
import Pipework.Proofs.Session.Reached
import Pipework.Proofs.Session.Stranded

/-!
# Hooks inside the bodies of stages

Stages are opened and closed once each; what is inside their bodies, the members of groups and the
processors of sinks, is opened and closed on the way. A plant is made to record which of these hooks
are called (`Plant.recording`), and nothing else changes by that (`Plant.hook_recording`). In a
session, what is recorded of a stage agrees with what is noted of it, hook by hook (`Follows`). So
when a stage has finished and is in nobody's hands, each hook inside has been called once if all
hooks before it, in the order of the sites, have succeeded, and otherwise never
(`nested_hooks_once_iff`). In particular the hooks after one that fails are never called
(`nested_hooks_skipped`).
-/

namespace Pipework

variable {α σ : Type}

/-! ### Plants that record -/

/-- A plant with the hooks that have been called inside its bodies, the latest last. -/
abbrev Plant.Recorded (α σ : Type) := Plant α σ × List (StageId × Hook × Site.Call)

namespace Plant

/-- Calls the hooks at all sites of a body in order, until one does not succeed, and records the
calls. -/
def record (hook : Hook) (i : StageId) (w : Recorded α σ) : Reply Unit × Recorded α σ :=
  let r := Site.callEach ((w.1.body i).sites hook) w.1.store
  (r.2.1, { w.1 with store := r.2.2 }, w.2 ++ r.1.map (i, hook, ·))

/-- How a network drives a plant, with a record of the hooks inside its bodies. -/
def recording : Bodies (Recorded α σ) where
  opening := record .opening
  call i v w :=
    let r := interface.call i v w.1
    (r.1, r.2.1, r.2.2, w.2)
  closing := record .closing
  pending i w := interface.pending i w.1
  threshold i w := interface.threshold i w.1
  setThreshold i n w := (interface.setThreshold i n w.1, w.2)

/-- **The record changes nothing.** Apart from it, hooks are those of the plant. -/
theorem hook_recording (hook : Hook) (i : StageId) (w : Recorded α σ) :
    ((recording.hook hook i w).1, (recording.hook hook i w).2.1) = interface.hook hook i w.1 := by
  have hplant : interface.hook hook i w.1 =
      (((w.1.body i).hook hook w.1.store).1,
        { w.1 with store := ((w.1.body i).hook hook w.1.store).2 }) := by
    cases hook <;> rfl
  rw [hplant, ← Body.callEach_sites]
  cases hook <;> rfl

end Plant

/-- What is recorded of one stage. -/
def inside (log : List (StageId × Hook × Site.Call)) (i : StageId) : List (Hook × Site.Call) :=
  (log.filter (·.1 == i)).map (·.2)

theorem inside_append (log : List (StageId × Hook × Site.Call)) (i j : StageId)
    (block : List (Hook × Site.Call)) :
    inside (log ++ block.map (i, ·)) j = inside log j ++ if i = j then block else [] := by
  unfold inside
  by_cases h : i = j <;> simp [h, List.filter_map, Function.comp_def]

/-! ### Notes and records -/

/-- What is recorded when something is noted: at a hook, calls in turn; at a call, nothing. -/
def Plays (sites : Hook → List (Site α σ)) : Note → List (Hook × Site.Call) → Prop
  | .hook hook, block => ∃ s, block = (Site.callEach (sites hook) s).1.map (hook, ·)
  | .call, block => block = []

/-- What is recorded of a stage agrees with what is noted of it. -/
def Follows (sites : Hook → List (Site α σ)) (notes : List Note) (log : List (Hook × Site.Call)) :
    Prop :=
  ∃ blocks, List.Forall₂ (Plays sites) notes blocks ∧ log = blocks.flatten

namespace Follows

variable {sites : Hook → List (Site α σ)} {notes : List Note} {log block : List (Hook × Site.Call)}
  {x : Note}

theorem nil : Follows sites [] [] := ⟨[], .nil, rfl⟩

theorem concat (h : Follows sites notes log) (hx : Plays sites x block) :
    Follows sites (notes ++ [x]) (log ++ block) := by
  obtain ⟨blocks, hblocks, rfl⟩ := h
  exact ⟨blocks ++ [block], List.rel_append hblocks (.cons hx .nil), by simp⟩

theorem cons_inv (h : Follows sites (x :: notes) log) :
    ∃ block rest, Plays sites x block ∧ Follows sites notes rest ∧ log = block ++ rest := by
  obtain ⟨blocks, hblocks, rfl⟩ := h
  obtain ⟨block, blocks, hx, hrest, rfl⟩ := List.forall₂_cons_left_iff.1 hblocks
  exact ⟨block, blocks.flatten, hx, ⟨blocks, hrest, rfl⟩, rfl⟩

/-- Calls leave no record. -/
theorem of_calls {k : Nat} (h : Follows sites (List.replicate k .call ++ notes) log) :
    Follows sites notes log := by
  induction k generalizing log with
  | zero => exact h
  | succ k ih =>
    rw [List.replicate_succ, List.cons_append] at h
    obtain ⟨block, rest, rfl, hrest, rfl⟩ := h.cons_inv
    exact ih hrest

/-- What is recorded in a life: the calls of one opening, and those of one closing. -/
theorem of_life {k : Nat}
    (h : Follows sites (.hook .opening :: (List.replicate k .call ++ [.hook .closing])) log) :
    ∃ stores : Hook → Store α σ,
      log = (Site.callEach (sites .opening) (stores .opening)).1.map (.opening, ·) ++
      (Site.callEach (sites .closing) (stores .closing)).1.map (.closing, ·) := by
  obtain ⟨_, rest, ⟨s, rfl⟩, hrest, rfl⟩ := h.cons_inv
  obtain ⟨_, rest', ⟨s', rfl⟩, ⟨blocks, hblocks, rfl⟩, rfl⟩ := hrest.of_calls.cons_inv
  cases hblocks
  exact ⟨fun hook => if hook = .opening then s else s', by simp⟩

end Follows

/-- The bodies have the hooks that those of a plant have, and what is recorded agrees with what is
noted. -/
structure Chronicled (p : Plant α σ) (w : Noted (Plant.Recorded α σ)) : Prop where
  sites : ∀ i, ∀ hook, (w.1.1.body i).sites hook = (p.body i).sites hook
  follows : ∀ i, Follows (fun hook => (p.body i).sites hook) (history w.2 i) (inside w.1.2 i)

namespace Chronicled

variable {p : Plant α σ} {w : Noted (Plant.Recorded α σ)}

theorem start (p : Plant α σ) : Chronicled p ((p, []), []) := ⟨fun _ _ => rfl, fun _ => .nil⟩

/-- What is done in bodies with the same hooks, to one of the stages, is noted and recorded. -/
theorem change {w' : Noted (Plant.Recorded α σ)} (h : Chronicled p w) (i : StageId) {x : Note}
    {block : List (Hook × Site.Call)}
    (hs : ∀ j hook, (w'.1.1.body j).sites hook = (w.1.1.body j).sites hook)
    (hn : w'.2 = w.2 ++ [(i, x)]) (hl : w'.1.2 = w.1.2 ++ block.map (i, ·))
    (hx : Plays (fun hook => (p.body i).sites hook) x block) : Chronicled p w' where
  sites j hook := (hs j hook).trans (h.sites j hook)
  follows j := by
    rw [hn, hl, history_append, inside_append]
    by_cases hij : i = j
    · subst hij
      rw [if_pos rfl, if_pos rfl]
      exact (h.follows i).concat hx
    · rw [if_neg hij, if_neg hij, List.append_nil, List.append_nil]
      exact h.follows j

theorem keeps (p : Plant α σ) : Plant.recording.noting.Keeps (Chronicled p) := by
  intro hook i w h
  have hx : ∀ s, Plays (fun hook => (p.body i).sites hook) (.hook hook)
      ((Site.callEach ((w.1.1.body i).sites hook) s).1.map (hook, ·)) :=
      fun s => ⟨s, by rw [h.sites]⟩
  refine h.change (x := .hook hook) i (fun j k => ?_) ?_ ?_ (hx w.1.1.store)
  · cases hook <;> rfl
  · cases hook <;> rfl
  · rw [List.map_map]
    cases hook <;> rfl

/-- A call changes bodies, but not their hooks. -/
theorem call (h : Chronicled p w) (i : StageId) (v : Visit) :
    Chronicled p (Plant.recording.noting.call i v w).2.2 := by
  have silent : Plays (fun hook => (p.body i).sites hook) .call [] := rfl
  refine h.change i (fun j hook => ?_) rfl (by simp [Bodies.noting, Plant.recording]) silent
  change ((Plant.interface.call i v w.1.1).2.2.body j).sites hook = _
  rw [Plant.body_call]
  split
  · next hij =>
    obtain ⟨rfl, -⟩ := hij
    exact Body.sites_execute hook (w.1.1.body i) v w.1.1.store
  · rfl

end Chronicled

/-! ### Sessions -/

namespace Session

variable {p : Plant α σ} {sc : Scheduler} {s : Session (Noted (Plant.Recorded α σ))}
  {e : Event (Noted (Plant.Recorded α σ))}

/-- What is changed from outside is the store at most. -/
def TunesStore (s : Session (Noted (Plant.Recorded α σ))) (e : Event (Noted (Plant.Recorded α σ))) :
    Prop :=
  ∀ world, e = .order (.outside world) →
    ∃ store, world = (({ s.network.world.1.1 with store }, s.network.world.1.2), s.network.world.2)

theorem TunesStore.keepsNotes (h : s.TunesStore e) : s.KeepsNotes e := by
  intro world hw
  obtain ⟨store, rfl⟩ := h world hw
  rfl

theorem Reached.chronicled (h : Reached Plant.recording.noting TunesStore ((p, []), []) sc s) :
    Chronicled p s.network.world := by
  refine (h.invariant (P := fun s => s.network.graph.Wired ∧ Chronicled p s.network.world) ?_ ?_
    ?_).2
  · exact ⟨Graph.wired_empty, .start p⟩
  · rintro s part ⟨wd, hc⟩
    exact ⟨wd.add part, hc⟩
  · rintro s e ⟨wd, hc⟩ he ht
    refine ⟨wired_perform wd he, ?_⟩
    by_cases hexec : ∃ w, e = .exec w
    · obtain ⟨w, rfl⟩ := hexec
      cases hh : s.holdOf w with
      | none => rwa [perform, exec_of_none hh]
      | some x =>
        rw [perform, exec_of_some hh (mem_of_holdOf hh).2]
        simp only [Network.world_call]
        exact hc.call x.stage (s.visit x)
    · refine (Chronicled.keeps p).perform (fun _ => wd.lt_size_of_mem_sources) he
        (fun world hw => ?_) (fun w hw => hexec ⟨w, hw⟩) hc
      obtain ⟨store, rfl⟩ := ht world hw
      exact ⟨hc.sites, hc.follows⟩

end Session

/-- **A hook inside a body is called once if all before it succeed.** In any session, whatever is in
the bodies of the stages: when a stage has finished and nobody holds it, its opening and then its
closing have gone through all that is inside its body. Each hook was called exactly once if all
hooks before it in the order of the sites have succeeded, and otherwise never. So all of them were
called exactly once if and only if none but the last has failed. -/
theorem nested_hooks_once_iff (p : Plant α σ) (sc : Scheduler)
    {s : Session (Noted (Plant.Recorded α σ))}
    (hr : Session.Reached Plant.recording.noting Session.TunesStore ((p, []), []) sc s)
    {i : StageId} (hf : (s.network.graph.stage i).state = .finished)
    (hh : (s.network.graph.stage i).holders = 0) :
    ∃ calls : Hook → List Site.Call,
      inside s.network.world.1.2 i =
        (calls .opening).map (.opening, ·) ++ (calls .closing).map (.closing, ·) ∧
      ∀ hook, InTurn ((p.body i).paths hook) (calls hook) ∧
        ((∀ path ∈ (p.body i).paths hook, ((calls hook).map Site.Call.path).count path = 1) ↔
          ∀ path ∈ ((p.body i).paths hook).dropLast, ⟨path, true⟩ ∈ calls hook) := by
  have order : s.InOrder := (hr.mono fun _ _ ht => ht.keepsNotes).inOrder
  obtain ⟨k, hk⟩ := (order.framed i).whole (order.prompt i) hf hh
  have follows := hr.chronicled.follows i
  rw [show history s.network.world.2 i = _ from hk] at follows
  obtain ⟨stores, hlog⟩ := follows.of_life
  have turns : ∀ hook, InTurn ((p.body i).paths hook)
      (Site.callEach ((p.body i).sites hook) (stores hook)).1 :=
    fun hook => Site.inTurn_callEach (Body.nodup_paths hook _) (stores hook)
  exact ⟨_, hlog, fun hook => ⟨turns hook, (turns hook).all_once_iff⟩⟩

/-- One stage: a group of two bodies of which the first cannot be opened, and of a sink whose first
processor cannot finish. -/
def reluctant : Plant Unit Unit where
  bodies := [.group (.ofList [
    .callback
      { call := fun v s => (.returned .comeBackLater, v, s),
        opening := fun s => (.failed ⟨"no"⟩, s) },
    .callback { call := fun v s => (.returned .comeBackLater, v, s) },
    .sink {
      processors := [{ process := fun _ s => (.ok (), s), finish := fun s => (.failed ⟨"no"⟩, s) },
        { process := fun _ s => (.ok (), s) }]
      input := 0 }])]
  store := { env := () }

/-- The stage is finished before anything else has happened. -/
def dismissed : Session (Noted (Plant.Recorded Unit Unit)) :=
  let n : Network (Noted (Plant.Recorded Unit Unit)) :=
    ⟨.ofParts [.stage "group" .group false, .source 0], (reluctant, []), []⟩
  ⟨(n.complete Plant.recording.noting 0 none).2, ⟨.roundRobin, 1⟩, []⟩

theorem reached_dismissed :
    Session.Reached Plant.recording.noting Session.TunesStore ((reluctant, []), []) ⟨.roundRobin, 1⟩
      dismissed := by
  have built := Session.Reached.parts Plant.recording.noting Session.TunesStore
    ((reluctant, []), []) ⟨.roundRobin, 1⟩ [.stage "group" .group false, .source 0]
  exact built.finishes 0 nofun (by decide) rfl

theorem nested_hooks_once_iff_reluctant :
    (dismissed.network.graph.stage 0).state = .finished ∧
      (dismissed.network.graph.stage 0).holders = 0 ∧
      ∃ calls : Hook → List Site.Call,
        inside dismissed.network.world.1.2 0 =
          (calls .opening).map (.opening, ·) ++ (calls .closing).map (.closing, ·) ∧
        ∀ hook, InTurn ((reluctant.body 0).paths hook) (calls hook) ∧
          ((∀ path ∈ (reluctant.body 0).paths hook,
              ((calls hook).map Site.Call.path).count path = 1) ↔
            ∀ path ∈ ((reluctant.body 0).paths hook).dropLast, ⟨path, true⟩ ∈ calls hook) :=
  ⟨by decide, by decide,
    nested_hooks_once_iff reluctant ⟨.roundRobin, 1⟩ reached_dismissed (by decide) (by decide)⟩

/-- After the first member has not been opened the second one is not opened either, though it is
closed in the end; and after the first processor has not finished the second one never does. -/
theorem nested_hooks_skipped :
    Session.Reached Plant.recording.noting Session.TunesStore ((reluctant, []), [])
      ⟨.roundRobin, 1⟩ dismissed ∧
      (dismissed.network.graph.stage 0).state = .finished ∧
      (dismissed.network.graph.stage 0).holders = 0 ∧
      (reluctant.body 0).paths .opening = [[], [0], [1], [2]] ∧
      (reluctant.body 0).paths .closing = [[], [0], [1], [2], [2, 0], [2, 1]] ∧
      inside dismissed.network.world.1.2 0 =
        [(.opening, ⟨[], true⟩), (.opening, ⟨[0], false⟩), (.closing, ⟨[], true⟩),
          (.closing, ⟨[0], true⟩), (.closing, ⟨[1], true⟩), (.closing, ⟨[2], true⟩),
          (.closing, ⟨[2, 0], false⟩)] :=
  ⟨reached_dismissed, by decide, by decide, by decide, by decide, by decide⟩

end Pipework
