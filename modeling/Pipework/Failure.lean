import Pipework.Config
import Pipework.Stage

/-!
# Failures and errors

A `Failure` is the record of the first stage that failed in a run. The error types say what can be
wrong with a graph (`GraphError`), with the handling of workers (`ControlError`) and with anything
at all (`EngineError`); each has its wording in one function `message`.
-/

namespace Pipework

/-- Which stage failed, where, and why. -/
structure Failure where
  stage : StageId
  name : String
  worker : Option WorkerId := none
  location : Option Nat := none
  message : String
  deriving DecidableEq, Repr

/-- A failure in words. The place is told only if both worker and location are known. -/
def Failure.text (f : Failure) : String :=
  let place := match f.worker, f.location with
    | some w, some l => " on worker " ++ toString w ++ " (location " ++ toString l ++ ")"
    | _, _ => ""
  "stage '" ++ f.name ++ "' failed" ++ place ++ ": " ++ f.message

/-- What can be wrong with a graph of stages. -/
inductive GraphError where
  | stageNotFound (stage : StageId)
  | queueNotFound (name : String)
  | duplicateStage (name : String)
  | duplicateQueue (name : String)
  | selfLoop (name : String)
  | empty
  | noSources
  | hookFailed (stage hook message : String)
  deriving DecidableEq, Repr

/-- The name of the kind of a graph error. -/
def GraphError.kind : GraphError → String
  | .stageNotFound _ => "StageNotFound"
  | .queueNotFound _ => "QueueNotFound"
  | .duplicateStage _ => "DuplicateStage"
  | .duplicateQueue _ => "DuplicateQueue"
  | .selfLoop _ => "SelfLoop"
  | .empty => "EmptyTopology"
  | .noSources => "NoSources"
  | .hookFailed _ _ _ => "HookFailed"

def GraphError.message : GraphError → String
  | .stageNotFound i => "stage not found: " ++ StageId.text i
  | .queueNotFound name => "queue not found: " ++ name
  | .duplicateStage name => "duplicate stage name: " ++ name
  | .duplicateQueue name => "duplicate queue name: " ++ name
  | .selfLoop name => "stage '" ++ name ++ "' cannot listen to itself"
  | .empty => "empty topology: no stages"
  | .noSources => "no source stages marked"
  | .hookFailed stage hook message =>
    "stage '" ++ stage ++ "' failed in " ++ hook ++ ": " ++ message

/-- What can be wrong with the handling of workers. -/
inductive ControlError where
  | graph (error : GraphError)
  | alreadyRunning
  | notRunning
  | spawnFailed (worker : WorkerId) (message : String)
  | workerPanicked (worker : WorkerId) (message : String)
  | invalidConfig (reason : String)
  deriving DecidableEq, Repr

/-- The name of the kind of a control error; a graph error keeps its own. -/
def ControlError.kind : ControlError → String
  | .graph e => e.kind
  | .alreadyRunning => "AlreadyRunning"
  | .notRunning => "NotRunning"
  | .spawnFailed _ _ => "SpawnFailed"
  | .workerPanicked _ _ => "WorkerPanicked"
  | .invalidConfig _ => "InvalidConfig"

def ControlError.message : ControlError → String
  | .graph e => e.message
  | .alreadyRunning => "controller is already running"
  | .notRunning => "controller is not running"
  | .spawnFailed w m => "failed to spawn worker " ++ toString w ++ ": " ++ m
  | .workerPanicked w m => "worker " ++ toString w ++ " panicked: " ++ m
  | .invalidConfig reason => "invalid configuration: " ++ reason

/-- Anything that can go wrong in an engine. -/
inductive EngineError where
  | graph (error : GraphError)
  | control (error : ControlError)
  | config (error : ConfigError)
  | stage (error : StageError)
  deriving DecidableEq, Repr

def EngineError.message : EngineError → String
  | .graph e => "Topology error: " ++ e.message
  | .control e => "Controller error: " ++ e.message
  | .config e => "Config error: " ++ e.message
  | .stage e => "Stage error: " ++ e.message

end Pipework
