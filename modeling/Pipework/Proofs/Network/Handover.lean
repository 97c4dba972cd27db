import Pipework.Proofs.Network.Calls
import Pipework.Proofs.Network.Holders

/-!
# Handing over

A worker that held one stage, or none, comes to hold another one, or none, and nobody else's hold
changes (`Graph.Hands`). Handing over can be done in steps (`Graph.Hands.trans`), and keeps a stage
that is for one worker at a time to one worker. The life of stages hands nothing over
(`stable_hands`); a worker that asks hands in what it held for what it is given, which is a running
stage (`Scheduler.hands_assign`, `Scheduler.running_of_assign`).
-/

namespace Pipework

namespace Graph

variable {g g' g'' : Graph} {a b c : Option StageId} {i : StageId}

theorem parallel_of_bare (h : g.bare = g'.bare) (i : StageId) :
    (g.stage i).parallel = (g'.stage i).parallel := by
  have := congrArg Stage.parallel (stage_of_bare h i)
  exact this

/-- No stage that is for one worker at a time has more than one holder. -/
def Exclusive (g : Graph) : Prop := ∀ i, (g.stage i).parallel = false → (g.stage i).holders ≤ 1

/-- Fewer holders do no harm. -/
theorem Exclusive.mono (h : g.Exclusive) (hb : g'.bare = g.bare)
    (hh : ∀ i, (g'.stage i).holders ≤ (g.stage i).holders) : g'.Exclusive := by
  intro i hp
  rw [parallel_of_bare hb] at hp
  exact Nat.le_trans (hh i) (h i hp)

theorem Fresh.exclusive (h : g.Fresh) : g.Exclusive := fun i _ => by
  rw [h.holders]
  exact Nat.zero_le 1

/-- From the first graph to the second a worker that held `a` has come to hold `b`, and no other
hold has changed. -/
structure Hands (g g' : Graph) (a b : Option StageId) : Prop where
  bare : g'.bare = g.bare
  holders : ∀ j, (g'.stage j).holders + (if a = some j then 1 else 0) =
    (g.stage j).holders + if b = some j then 1 else 0
  exclusive : g.Exclusive → g'.Exclusive

namespace Hands

/-- The worker still holds what it held. -/
theorem still (hb : g'.bare = g.bare) (hh : ∀ j, (g'.stage j).holders = (g.stage j).holders)
    (a : Option StageId) :
    g.Hands g' a a where
  bare := hb
  holders j := by rw [hh]
  exclusive h := h.mono hb fun i => Nat.le_of_eq (hh i)

theorem trans (h : g.Hands g' a b) (h' : g'.Hands g'' b c) : g.Hands g'' a c where
  bare := h'.bare.trans h.bare
  holders j := by
    have := h.holders j
    have := h'.holders j
    omega
  exclusive hx := h'.exclusive (h.exclusive hx)

/-- What is handed in must have been held. -/
theorem handsIn (hb : g'.bare = g.bare) (hp : 0 < (g.stage i).holders)
    (hh : ∀ j, (g'.stage j).holders = (g.stage j).holders - if i = j then 1 else 0) :
    g.Hands g' (some i) none where
  bare := hb
  holders j := by
    rw [hh]
    by_cases hij : i = j
    · subst hij
      simp only [if_true, reduceCtorEq, if_false]
      omega
    · simp [hij]
  exclusive h := h.mono hb fun j => Nat.le_trans (Nat.le_of_eq (hh j)) (Nat.sub_le ..)

/-- What is handed out must be free, or for several workers at once. -/
theorem handsOut (hb : g'.bare = g.bare)
    (hf : (g.stage i).holders = 0 ∨ (g.stage i).parallel = true)
    (hh : ∀ j, (g'.stage j).holders = (g.stage j).holders + if i = j then 1 else 0) :
    g.Hands g' none (some i) where
  bare := hb
  holders j := by
    rw [hh]
    simp
  exclusive h j hp := by
    rw [parallel_of_bare hb] at hp
    rw [hh]
    by_cases hij : i = j
    · subst hij
      rcases hf with h₀ | h₁
      · rw [h₀]
        simp
      · rw [hp] at h₁
        cases h₁
    · simpa [hij] using h j hp

end Hands

end Graph

variable {W : Type} {B : Bodies W} {n : Network W} {i : StageId} {a b previous : Option StageId}
  {sc : Scheduler} {w : WorkerId} {result : Option Outcome} {call : Call W}

/-- The life of stages hands nothing over. -/
theorem stable_hands (B : Bodies W) (g : Graph) (a b : Option StageId) :
    Stable B fun n => g.Hands n.graph a b where
  opens c h hi hd := h.trans (.still ((stable_bare B _).opens c rfl hi hd)
    ((stable_holders B _).opens c (fun _ => rfl) hi hd) b)
  halts h hr :=
    h.trans (.still ((stable_bare B _).halts rfl hr) ((stable_holders B _).halts (fun _ => rfl) hr)
      b)
  completes c h hi hf := h.trans (.still ((stable_bare B _).completes c rfl hi hf)
    ((stable_holders B _).completes c (fun _ => rfl) hi hf) b)

namespace Graph

theorem hands_recordFailure (g : Graph) (f : Failure) (a : Option StageId) :
    g.Hands (g.recordFailure f) a a :=
  .still (bare_recordFailure g f) (fun _ => by rw [stage_recordFailure]) a

/-- Nor does a change of anything else. -/
theorem hands_modify (g : Graph) (i : StageId) {f : Stage → Stage} (hb : ∀ s, (f s).bare = s.bare)
    (hh : ∀ s, (f s).holders = s.holders) (a : Option StageId) : g.Hands (g.modify i f) a a :=
  .still (bare_modify hb i) (map_stage_modify Stage.holders hh i) a

theorem hands_modifyKnobs (g : Graph) (i : StageId) (f : Knobs → Knobs) (a : Option StageId) :
    g.Hands (g.modifyKnobs i f) a a :=
  g.hands_modify i (f := fun s => { s with knobs := f s.knobs }) (fun _ => rfl) (fun _ => rfl) a

end Graph

namespace Network

theorem hands_call (n : Network W) (B : Bodies W) (i : StageId) (v : Visit) (a : Option StageId) :
    n.graph.Hands (n.call B i v).2.2.graph a a :=
  .still (n.alike_call B i v).bare (n.holders_call B i v) a

end Network

namespace Scheduler

theorem hands_giveBack (hp : 0 < (n.graph.stage i).holders) :
    n.graph.Hands (sc.giveBack B n w i result).graph (some i) none :=
  .handsIn ((stable_bare B n.graph.bare).toLasting.giveBack (fun _ _ h ha => ha.bare.trans h) rfl)
    hp fun j => sc.holders_giveBack B n w i j result

theorem hands_freed (hp : ∀ i ∈ previous, 0 < (n.graph.stage i).holders) :
    n.graph.Hands (sc.freed B n w previous result).graph previous none := by
  cases previous with
  | none => exact .still (n.alike_clearStreak w).bare (fun _ => rfl) none
  | some i => exact hands_giveBack (hp i rfl)

theorem hands_handOut (sc : Scheduler) (B : Bodies W) (n : Network W) (w : WorkerId) :
    n.graph.Hands (sc.handOut B n w).2.graph none (sc.handOut B n w).1 := by
  have unchanged : n.graph.Hands n.graph none none := .still rfl (fun _ => rfl) none
  rcases sc.handOut_cases B n w with ⟨i, hi, he, -, ho⟩ | ⟨-, ho⟩ | ⟨-, -, ho⟩ <;> rw [ho]
  · exact .handsOut (n.alike_take w i).bare (eligible_iff.1 he).2.1 fun j => holders_take hi w j
  · exact unchanged
  · exact (stable_hands B n.graph none none).settling.settle unchanged

/-- **A worker that asks hands in what it held for what it is given.** -/
theorem hands_assign (sc : Scheduler) (B : Bodies W) (w : WorkerId) (result : Option Outcome)
    (hp : ∀ i ∈ previous, 0 < (n.graph.stage i).holders) :
    n.graph.Hands (sc.assign B n w previous result).2.graph previous
      (sc.assign B n w previous result).1 := by
  rcases sc.assign_cases B n w previous result with ⟨i, rfl, -, he⟩ | he <;> rw [he]
  · exact .still (n.alike_keep w i).bare (holders_keep n w i) (some i)
  · exact (hands_freed hp).trans (sc.hands_handOut B _ w)

theorem running_of_mayKeep (h : sc.mayKeep B n w i result = true) :
    (n.graph.stage i).state = .running := by
  unfold mayKeep at h
  split at h
  · simp only [Bool.and_eq_true, beq_iff_eq] at h
    exact h.1.1.2
  · cases h

/-- **What a worker is given is running**, whatever it may have handed in. -/
theorem running_of_assign (h : (sc.assign B n w previous result).1 = some i) :
    ((sc.assign B n w previous result).2.graph.stage i).state = .running := by
  rcases sc.assign_cases B n w previous result with ⟨k, -, hk, he⟩ | he <;> rw [he] at h ⊢
  · cases h
    rw [(n.alike_keep w i).state]
    exact running_of_mayKeep hk
  · rcases sc.handOut_cases B (sc.freed B n w previous result) w with ⟨k, -, hel, -, ho⟩ | ⟨-, ho⟩ |
      ⟨-, -, ho⟩ <;>
      rw [ho] at h ⊢
    · cases h
      rw [(Network.alike_take _ w i).state]
      exact (eligible_iff.1 hel).1
    · cases h
    · cases h

end Scheduler

end Pipework
