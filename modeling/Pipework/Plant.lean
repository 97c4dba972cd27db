import Pipework.Body
import Pipework.Network

/-!
# Plants: the ready-made bodies as a world

A `Plant` holds the body of each stage and the store that they share. `Plant.interface` says how a
network drives it; so a pipeline of ready-made bodies is a `Network (Plant α σ)`.
-/

namespace Pipework

/-- The bodies of all stages, by number, and what they share. -/
structure Plant (α σ : Type) where
  bodies : List (Body α σ) := []
  store : Store α σ

namespace Plant

variable {α σ : Type}

/-- The body of a stage; that of a stage that does not exist does nothing. -/
def body (p : Plant α σ) (i : StageId) : Body α σ := p.bodies.getD i default

def addBody (p : Plant α σ) (b : Body α σ) : Plant α σ := { p with bodies := p.bodies ++ [b] }

/-- Changes the store. -/
def mapStore (p : Plant α σ) (f : Store α σ → Store α σ) : Plant α σ :=
  { p with store := f p.store }

/-- How a network drives a plant. -/
def interface : Bodies (Plant α σ) where
  opening i p :=
    let r := (p.body i).opening p.store
    (r.1, { p with store := r.2 })
  call i v p :=
    let r := (p.body i).execute v p.store
    (r.ending, r.visit, { bodies := p.bodies.set i r.body, store := r.store })
  closing i p :=
    let r := (p.body i).closing p.store
    (r.1, { p with store := r.2 })
  pending i p := (p.body i).pending p.store
  threshold i p := (p.body i).threshold p.store
  setThreshold i n p := { p with store := (p.body i).setThreshold n p.store }

end Plant

/-- A network of ready-made bodies. -/
abbrev Pipeline (α σ : Type) := Network (Plant α σ)

namespace Pipeline

variable {α σ : Type}

/-- A pipeline without stages. -/
def start (env : σ) : Pipeline α σ := ⟨.empty, { store := { env } }⟩

def store (n : Pipeline α σ) : Store α σ := n.world.store

/-- Changes the store of a pipeline. -/
def mapStore (n : Pipeline α σ) (f : Store α σ → Store α σ) : Pipeline α σ :=
  { n with world := n.world.mapStore f }

/-- Adds a stage with its body. -/
def addStage (n : Pipeline α σ) (name : String) (kind : Kind) (parallel : Bool) (b : Body α σ) :
    Except GraphError (Pipeline α σ) := do
  pure ⟨← n.graph.addStage name kind parallel, n.world.addBody b⟩

/-- Adds a queue, whose name has to be new. -/
def addQueue (n : Pipeline α σ) (q : Queue α) : Except GraphError (Pipeline α σ) :=
  if (n.store.findQueue? q.name).isSome then .error (.duplicateQueue q.name)
  else .ok (n.mapStore (·.addQueue q))

/-- The number of a queue with a name. -/
def findQueue (n : Pipeline α σ) (name : String) : Except GraphError QueueId :=
  match n.store.findQueue? name with
  | some i => .ok i
  | none => .error (.queueNotFound name)

/-- The pipeline as descriptions show it. -/
def describe (n : Pipeline α σ) : String :=
  let ids (is : List StageId) := "[" ++ ", ".intercalate (is.map StageId.text) ++ "]"
  "Topology \x7b stages: " ++ toString n.graph.size ++ ", queues: " ++
    toString n.store.queues.length
    ++ ", sources: " ++ ids n.graph.sources ++ ", sinks: " ++ ids n.graph.sinks ++ ", running: "
    ++ toString n.graph.running ++ ", .. \x7d"

end Pipeline

end Pipework
