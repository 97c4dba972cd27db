import Pipework.Proofs.Network.Calm
import Pipework.Proofs.Session.Drain

/-!
# Ledgers

A `Ledger` is a session together with the calls that were made in it, each with the world in which
it began. What holds of the calls so far and of the world, and survives hooks, tuning from outside
and the call of any stage, holds throughout every run (`Ledger.Run.through`): nothing else that is
done to stages or by workers touches the world.
-/

namespace Pipework

/-! ### Events without calls -/

/-- What hooks leave of the world every step leaves of it that calls no stage. -/
theorem Bodies.Keeps.perform {W : Type} {B : Bodies W} {Q : W → Prop} (hB : B.Keeps Q)
    {s : Session W} {e : Event W}
    (hsources : ∀ i ∈ s.network.graph.sources, i < s.network.graph.size) (he : s.Sound e)
    (outside : ∀ world, e = .order (.outside world) → Q world) (hne : ∀ w, e ≠ .exec w)
    (h : Q s.network.world) :
    Q (s.perform B e).network.world := by
  cases e with
  | order call =>
    exact hB.stable.order hsources he (fun _ => h) (fun _ _ => h)
      (fun world hcall => outside world (congrArg _ hcall)) h
  | next w => exact hB.assign h _
  | exec w => exact absurd rfl (hne w)
  | release w =>
    cases hh : s.holdOf w with
    | none => rwa [Session.perform, Session.release_of_none hh]
    | some x =>
      rw [Session.perform, Session.release_of_some hh]
      exact hB.giveBack h
  | report w result => exact h

/-- A session and the calls that were made in it. -/
structure Ledger (W : Type) where
  session : Session W
  calls : List (CallRecord W) := []

namespace Ledger

variable {W : Type}

/-- The call that a step makes, if it makes one. -/
def callsIn (s : Session W) : Event W → List (CallRecord W)
  | .exec w => ((s.holdOf w).map fun h => ⟨h.stage, s.visit h, s.network.world⟩).toList
  | _ => []

/-- Takes one step and enters the call. -/
def perform (B : Bodies W) (l : Ledger W) (e : Event W) : Ledger W where
  session := l.session.perform B e
  calls := l.calls ++ callsIn l.session e

/-- Whether the world is tuned at most, if a step changes it from outside. -/
def Tunes (Tuned : W → W → Prop) (s : Session W) (e : Event W) : Prop :=
  ∀ world, e = .order (.outside world) → Tuned s.network.world world

/-- The ledgers that can be reached by sound steps in which the world is tuned at most. -/
inductive Run (B : Bodies W) (Tuned : W → W → Prop) (l₀ : Ledger W) : Ledger W → Prop where
  | start : Run B Tuned l₀ l₀
  | step {l : Ledger W} (e : Event W) : Run B Tuned l₀ l → l.session.Sound e →
    Tunes Tuned l.session e →
    Run B Tuned l₀ (l.perform B e)

variable {B : Bodies W} {Tuned : W → W → Prop} {l₀ l : Ledger W} {w : WorkerId} {h : Hold}
  {e : Event W}

/-! ### One step -/

/-- Only a worker that calls its stage adds to the calls. -/
theorem calls_perform_of_ne (he : ∀ w, e ≠ .exec w) : (l.perform B e).calls = l.calls := by
  cases e with
  | exec w => exact absurd rfl (he w)
  | _ => exact List.append_nil _

theorem perform_exec_of_none (h' : l.session.holdOf w = none) : l.perform B (.exec w) = l := by
  simp only [perform, Session.perform, Session.exec_of_none h', callsIn, h', Option.map_none,
    Option.toList_none, List.append_nil]

theorem calls_perform_exec (h' : l.session.holdOf w = some h) :
    (l.perform B (.exec w)).calls =
      l.calls ++ [⟨h.stage, l.session.visit h, l.session.network.world⟩] := by
  simp only [perform, callsIn, h', Option.map_some, Option.toList_some]

theorem world_perform_exec (h' : l.session.holdOf w = some h) (hw : h.worker = w) :
    (l.perform B (.exec w)).session.network.world =
      (B.call h.stage (l.session.visit h) l.session.network.world).2.2 := by
  simp only [perform, Session.perform, Session.exec_of_some h' hw, Network.world_call]

/-- At the start activating everything opens one by one the stages that are linked to the only
source. -/
theorem perform_activateAll {g : Graph} {world : W} {sc : Scheduler} {i : StageId}
    {rest : List StageId} (hs : g.sources = [i]) (hl : g.Links (i :: rest)) (hn : (i :: rest).Nodup)
    (hd : ∀ k ∈ i :: rest, k < g.size ∧ (g.stage k).dormant = true) :
    Ledger.perform B { session := ⟨⟨g, world⟩, sc, []⟩ } (.order .activateAll) =
      { session :=
          ⟨(i :: rest).foldl (fun n k => (n.openOne B k none).2) ⟨g, world⟩, sc, []⟩ } := by
  have opens : (Network.activateAll ⟨g, world⟩ B).2 =
      (i :: rest).foldl (fun n k => (n.openOne B k none).2) ⟨g, world⟩ := by
    rw [Network.activateAll, hs]
    exact Network.activateEach_of_links hl rfl hn hd
  exact congrArg (fun n => ({ session := ⟨n, sc, []⟩ } : Ledger W)) opens

/-! ### Runs -/

namespace Run

/-- What holds at the start and survives every such step holds throughout. -/
theorem invariant {P : Ledger W → Prop} (hr : Run B Tuned l₀ l) (h₀ : P l₀)
    (hs : ∀ l e, P l → l.session.Sound e → Tunes Tuned l.session e → P (l.perform B e)) : P l := by
  induction hr with
  | start => exact h₀
  | step e _ hsound htunes ih => exact hs _ e ih hsound htunes

theorem opened {g : Graph} {world : W} {sc : Scheduler} {i : StageId} {rest : List StageId}
    (hs : g.sources = [i]) (hl : g.Links (i :: rest)) (hn : (i :: rest).Nodup)
    (hd : ∀ k ∈ i :: rest, k < g.size ∧ (g.stage k).dormant = true) :
    Run B Tuned { session := ⟨⟨g, world⟩, sc, []⟩ }
      { session :=
          ⟨(i :: rest).foldl (fun n k => (n.openOne B k none).2) ⟨g, world⟩, sc, []⟩ } := by
  rw [← perform_activateAll hs hl hn hd]
  exact .step (.order .activateAll) .start rfl nofun

theorem next (hr : Run B Tuned l₀ l) (w : WorkerId) (hw : l.session.holdOf w = none) :
    Run B Tuned l₀ (l.perform B (.next w)) := by
  refine .step (.next w) hr (fun x hx => ?_) nofun
  rw [hw] at hx
  cases hx

theorem exec (hr : Run B Tuned l₀ l) (w : WorkerId) : Run B Tuned l₀ (l.perform B (.exec w)) :=
  .step (.exec w) hr trivial nofun

/-- The wiring stays as it is, and the holders are counted. -/
theorem tallied (hr : Run B Tuned l₀ l) (wd : l₀.session.network.graph.Wired)
    (t : l₀.session.Tallied) :
    l.session.network.graph.bare = l₀.session.network.graph.bare ∧ l.session.Tallied := by
  refine hr.invariant (P := fun l => l.session.network.graph.bare = l₀.session.network.graph.bare ∧
    l.session.Tallied) ⟨rfl, t⟩ fun l e h he _ => ?_
  have hsources : ∀ i ∈ l.session.network.graph.sources,
      i < l.session.network.graph.size := fun _ =>
    (wd.of_bare h.1).lt_size_of_mem_sources
  exact ⟨(Session.bare_perform hsources he).trans h.1, h.2.perform hsources he⟩

/-- **Only calls, hooks and tuning touch the world.** What is preserved by hooks, by tuning and by a
call of any stage, and holds at the start, holds throughout. No call has handled anything when it
begins. -/
theorem through {Q : List (CallRecord W) → W → Prop} (hr : Run B Tuned l₀ l)
    (wd : l₀.session.network.graph.Wired) (t : l₀.session.Tallied)
    (keeps : ∀ calls, B.Keeps (Q calls))
    (tunes : ∀ {calls w w'}, Q calls w → Tuned w w' → Q calls w')
    (call : ∀ {calls w} i v, Q calls w → i < l₀.session.network.graph.size → v.items = 0 →
      Q (calls ++ [⟨i, v, w⟩]) (B.call i v w).2.2) (h₀ : Q l₀.calls l₀.session.network.world) :
    Q l.calls l.session.network.world := by
  induction hr with
  | start => exact h₀
  | @step l e hr he ht ih =>
    obtain ⟨bare, tallied⟩ := hr.tallied wd t
    by_cases hexec : ∃ k, e = .exec k
    · obtain ⟨k, rfl⟩ := hexec
      cases hh : l.session.holdOf k with
      | none => rwa [perform_exec_of_none hh]
      | some x =>
        obtain ⟨hm, hk⟩ := Session.mem_of_holdOf hh
        rw [world_perform_exec hh hk, calls_perform_exec hh]
        refine call _ _ ih ?_ rfl
        rw [← Graph.size_of_bare bare]
        exact tallied.lt_size hm
    · have hne : ∀ k, e ≠ .exec k := fun k hk => hexec ⟨k, hk⟩
      rw [calls_perform_of_ne hne]
      exact (keeps l.calls).perform (fun _ => (wd.of_bare bare).lt_size_of_mem_sources) he
        (fun world hw => tunes ih (ht world hw)) hne ih

end Run

end Ledger

end Pipework
