import Pipework.Scheduler

/-!
# Engines

What the workers of one run share: the network, the scheduler, and whether a stop was asked for.
Asking for a stop finishes the sources, once; the rest of the network then drains by itself.
-/

namespace Pipework

/-- A network in operation. -/
structure Engine (W : Type) where
  network : Network W
  scheduler : Scheduler
  stopRequested : Bool := false

namespace Engine

variable {W : Type}

/-- Changes the network of an engine. -/
def mapNetwork (e : Engine W) (f : Network W → Network W) : Engine W :=
  { e with network := f e.network }

def graph (e : Engine W) : Graph := e.network.graph

/-- Finishes the sources, unless that was asked for before. -/
def requestStop (e : Engine W) (B : Bodies W) : Engine W :=
  if e.stopRequested then e
  else { e with network := (e.network.finishSources B).2, stopRequested := true }

/-- Whether a worker that finds nothing to do may leave. -/
def mayLeave (e : Engine W) : Bool :=
  e.stopRequested || e.graph.failure.isSome || e.graph.allFinished

end Engine

end Pipework
