import Pipework.Plant

/-!
# Probes: what bodies tell about themselves

A source tells how much it has produced, a sink how much it has consumed, and a group how many
members it has; the other bodies tell nothing. A group comes after its members, which carry its
label with a dot and their number.
-/

namespace Pipework

/-- What a body tells about itself. -/
inductive Probe where
  | produced (n : UInt64)
  | consumed (n : UInt64) (text : String)
  | members (n : Nat) (text : String)
  deriving DecidableEq, Repr

variable {α σ : Type}

mutual

/-- What a body and its parts tell, each under its label. -/
def Body.probes : Body α σ → String → Store α σ → List (String × Probe)
  | .source b, label, _ => [(label, .produced b.produced)]
  | .sink b, label, s => [(label, .consumed b.consumed (b.describe s))]
  | .group ms, label, s => ms.probes label 0 s ++ [(label, .members ms.size ms.describe)]
  | _, _, _ => []

/-- What members tell, from number `k` on. -/
def Members.probes : Members α σ → String → Nat → Store α σ → List (String × Probe)
  | .nil, _, _, _ => []
  | .cons _ b rest, label, k, s =>
    b.probes (label ++ "." ++ toString k) s ++ rest.probes label (k + 1) s

end

/-- What the body of each stage of a pipeline tells, stage by stage. -/
def Pipeline.probes (n : Pipeline α σ) : List (List (String × Probe)) :=
  (n.graph.stages.zip n.world.bodies).map fun sb => sb.2.probes sb.1.name n.store

end Pipework
