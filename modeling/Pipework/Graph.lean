import Pipework.Failure
import Pipework.Metrics

/-!
# The graph of stages

A `Graph` lists its stages with their settings, counters and scheduling status, together with what
concerns all of them: the clock of the scheduler, how long each worker has stayed with its stage,
the first failure, and how many stages are running. Edges go from a stage to its *listeners*; each
listener has the stage among its *feeders*.

This module holds the graph itself, how it is built, and the changes of status that involve no code
of a stage.
-/

namespace Pipework

/-- Which worker gave a stage back last, and whether it had found nothing to do. -/
structure Yield where
  worker : WorkerId
  backedOff : Bool
  deriving DecidableEq, Repr

/-- A node of the graph. -/
structure Stage where
  name : String
  kind : Kind
  /-- Whether several workers may hold the stage at once. -/
  parallel : Bool
  knobs : Knobs := {}
  metrics : StageMetrics := {}
  state : State := .unopened
  /-- How many workers hold the stage. -/
  holders : Nat := 0
  /-- How many feeders are running. -/
  runningFeeders : Nat := 0
  listeners : List StageId := []
  feeders : List StageId := []
  isSource : Bool := false
  /-- Whether the opening hook has been called. -/
  opened : Bool := false
  /-- Whether the closing hook is left to the last worker that gives the stage back. -/
  closingDue : Bool := false
  /-- The time at which the stage was last handed out. -/
  lastPicked : UInt64 := 0
  lastYield : Option Yield := none

instance : Inhabited Stage := ⟨{ name := "", kind := .interior, parallel := false }⟩

/-- Whether activation would set the stage running. -/
def Stage.dormant (s : Stage) : Bool := s.state == .unopened || s.state == .paused

/-- The stages of a pipeline and their scheduling status. -/
structure Graph where
  stages : List Stage := []
  sources : List StageId := []
  sinks : List StageId := []
  /-- Counts the assignments. -/
  tick : UInt64 := 0
  /-- For each worker that holds a stage, how many times in a row it was given that stage. -/
  streaks : List (WorkerId × Nat) := []
  failure : Option Failure := none
  /-- How many stages are running. -/
  running : Nat := 0

namespace Graph

def empty : Graph := {}

instance : Inhabited Graph := ⟨empty⟩

/-- How many stages there are. -/
def size (g : Graph) : Nat := g.stages.length

/-- A stage by its number. -/
def stage (g : Graph) (i : StageId) : Stage := g.stages.getD i default

/-- Changes one stage. -/
def modify (g : Graph) (i : StageId) (f : Stage → Stage) : Graph :=
  { g with stages := g.stages.modify i f }

/-- Changes each stage of a list, once for each time that it is listed. -/
def modifyAll (g : Graph) (is : List StageId) (f : Stage → Stage) : Graph :=
  is.foldl (fun g i => g.modify i f) g

/-! ### Inspection -/

/-- Refuses the number of a stage that does not exist. -/
def check (g : Graph) (i : StageId) : Except GraphError Unit :=
  if i < g.size then .ok () else .error (.stageNotFound i)

/-- The number of the stage with a name. -/
def find? (g : Graph) (name : String) : Option StageId := g.stages.findIdx? (·.name == name)

/-- Whether no stage is running. -/
def drained (g : Graph) : Bool := g.running == 0

/-- Whether every stage is finished. -/
def allFinished (g : Graph) : Bool := g.stages.all (·.state == .finished)

/-- How many parcels the sinks have handled. -/
def sunk (g : Graph) : UInt64 := g.sinks.foldr (fun i n => (g.stage i).metrics.items + n) 0

/-- Whether a run of this graph could start. -/
def validate (g : Graph) : Except GraphError Unit :=
  if g.stages.isEmpty then .error .empty
  else if g.sources.isEmpty then .error .noSources
  else .ok ()

/-! ### Building -/

/-- Adds a stage; its number is that of the stages before it. -/
def addStage (g : Graph) (name : String) (kind : Kind) (parallel : Bool) :
    Except GraphError Graph :=
  if (g.find? name).isSome then .error (.duplicateStage name)
  else .ok { g with stages := g.stages ++ [{ name, kind, parallel }] }

/-- Makes a stage listen to another; doing so twice changes nothing. -/
def connect (g : Graph) (feeder listener : StageId) : Except GraphError Graph := do
  g.check feeder
  g.check listener
  if feeder = listener then .error (.selfLoop (g.stage feeder).name)
  else if listener ∈ (g.stage feeder).listeners then pure g
  else
    pure ((g.modify feeder fun s =>
      { s with listeners := s.listeners ++ [listener] }).modify listener fun s =>
      { s with feeders := s.feeders ++ [feeder] })

/-- Marks a stage as a source. -/
def markSource (g : Graph) (i : StageId) : Except GraphError Graph := do
  g.check i
  if i ∈ g.sources then pure g
  else pure { g.modify i (fun s => { s with isSource := true }) with sources := g.sources ++ [i] }

/-- Marks a stage as a sink. -/
def markSink (g : Graph) (i : StageId) : Except GraphError Graph := do
  g.check i
  if i ∈ g.sinks then pure g else pure { g with sinks := g.sinks ++ [i] }

/-- Changes the knobs of one stage. -/
def modifyKnobs (g : Graph) (i : StageId) (f : Knobs → Knobs) : Graph :=
  g.modify i fun s => { s with knobs := f s.knobs }

/-- Gives every stage the knobs of a configuration. -/
def applyDefaults (g : Graph) (c : Config) : Graph :=
  { g with stages := g.stages.map fun s => { s with knobs := c.knobs } }

/-! ### Changes of status -/

/-- Records a failure, unless there is one already. -/
def recordFailure (g : Graph) (f : Failure) : Graph :=
  match g.failure with
  | some _ => g
  | none => { g with failure := some f }

/-- Sets a stage running and tells its listeners. -/
def enterRunning (g : Graph) (i : StageId) : Graph :=
  let listeners := (g.stage i).listeners
  let g := g.modify i fun s => { s with state := .running, opened := true }
  { g.modifyAll listeners (fun s => { s with runningFeeders := s.runningFeeders + 1 }) with
    running := g.running + 1 }

/-- Tells the listeners of a stage that it is no longer running. -/
def leaveRunning (g : Graph) (i : StageId) : Graph :=
  { g.modifyAll (g.stage i).listeners
      (fun s => { s with runningFeeders := s.runningFeeders - 1 }) with
    running := g.running - 1 }

/-- Pauses a stage, if it is running. -/
def halt (g : Graph) (i : StageId) : Graph :=
  if (g.stage i).state = .running then
    (g.modify i fun s => { s with state := .paused }).leaveRunning i
  else g

/-- Finishes a stage; one that is held still has to be closed. -/
def retire (g : Graph) (i : StageId) : Graph :=
  let marked := g.modify i fun s =>
    { s with
      state := .finished, opened := true, closingDue := s.closingDue || decide (0 < s.holders) }
  if (g.stage i).state = .running then marked.leaveRunning i else marked

/-- Takes a stage out of the hands of a worker. -/
def letGo (g : Graph) (i : StageId) (y : Yield) : Graph :=
  g.modify i fun s => { s with holders := s.holders - 1, lastYield := some y }

/-- Whether the last worker has given a stage back that still has to be closed. -/
def closes (g : Graph) (i : StageId) : Bool := (g.stage i).holders == 0 && (g.stage i).closingDue

/-! ### Streaks -/

/-- How many times in a row a worker was given its stage. -/
def streak (g : Graph) (w : WorkerId) : Nat := (g.streaks.lookup w).getD 0

def clearStreak (g : Graph) (w : WorkerId) : Graph :=
  { g with streaks := g.streaks.filter (·.1 != w) }

def setStreak (g : Graph) (w : WorkerId) (n : Nat) : Graph :=
  { g with streaks := (w, n) :: g.streaks.filter (·.1 != w) }

/-! ### How many stages are dormant -/

/-- How many stages activation could set running. -/
def dormantCount (g : Graph) : Nat := g.stages.countP Stage.dormant

theorem dormantCount_modify_of_state {g : Graph} (i : StageId) {f : Stage → Stage}
    (h : ∀ s, (f s).state = s.state) : (g.modify i f).dormantCount = g.dormantCount := by
  have key : ∀ (l : List Stage) (i : Nat), (l.modify i f).countP Stage.dormant =
      l.countP Stage.dormant := by
    intro l
    induction l with
    | nil => intro i; cases i <;> simp
    | cons s l ih =>
      intro i
      cases i with
      | zero => simp [List.countP_cons, Stage.dormant, h]
      | succ i => simp [List.countP_cons, ih]
  exact key _ _

theorem dormantCount_modifyAll_of_state {g : Graph} (is : List StageId) {f : Stage → Stage}
    (h : ∀ s, (f s).state = s.state) : (g.modifyAll is f).dormantCount = g.dormantCount := by
  induction is generalizing g with
  | nil => rfl
  | cons i is ih => exact (ih (g := g.modify i f)).trans (dormantCount_modify_of_state i h)

theorem dormantCount_modify_lt {g : Graph} {i : StageId} {f : Stage → Stage}
    (hi : i < g.size) (hs : (g.stage i).dormant) (hf : ∀ s, ¬ (f s).dormant) :
    (g.modify i f).dormantCount < g.dormantCount := by
  have key : ∀ (l : List Stage) (i : Nat), i < l.length → (l.getD i default).dormant →
      (l.modify i f).countP Stage.dormant < l.countP Stage.dormant := by
    intro l
    induction l with
    | nil => intro i hi; simp at hi
    | cons s l ih =>
      intro i hi hs
      cases i with
      | zero =>
        have hs : s.dormant = true := by simpa using hs
        simp [hf, hs]
      | succ i =>
        have := ih i (by simpa using hi) (by simpa using hs)
        simp [List.countP_cons, this]
  exact key _ _ hi hs

/-- Setting a dormant stage running leaves fewer dormant ones. -/
theorem dormantCount_enterRunning_lt {g : Graph} {i : StageId} (hi : i < g.size)
    (hs : (g.stage i).dormant) :
    (g.enterRunning i).dormantCount < g.dormantCount := by
  unfold enterRunning
  have h₁ := dormantCount_modify_lt (g := g)
    (f := fun s => { s with state := .running, opened := true }) hi hs
    (fun s => by simp [Stage.dormant])
  have h₂ := dormantCount_modifyAll_of_state
    (g := g.modify i fun s => { s with state := .running, opened := true })
    (g.stage i).listeners (f := fun s => { s with runningFeeders := s.runningFeeders + 1 })
    (fun _ => rfl)
  exact h₂ ▸ h₁

@[simp] theorem stages_recordFailure (g : Graph) (f : Failure) :
    (g.recordFailure f).stages = g.stages := by
  unfold recordFailure
  split <;> rfl

end Graph

end Pipework
