import Pipework.Network

/-!
# Handing stages to workers

A worker that asks for a stage gives back the one it holds. Under the sticky policy it may first
keep a stage on which it was successful. Otherwise it gets the best of the *eligible* stages:
running, not held by anybody or parallel, and not exhausted. Stages with work waiting come first;
then the sum of the waiting work and of the time since the stage was last handed out decides, so
that every stage is reached in the end. If nothing is eligible all settled stages are paused or
finished.
-/

namespace Pipework

/-- The policy by which stages are handed out. -/
structure Scheduler where
  fairness : Fairness
  /-- Into how many locations the workers are divided. -/
  locations : Nat := 1
  deriving DecidableEq, Repr

/-- What decides between eligible stages, in the order of the fields; of two equal ones the earlier
stage wins. -/
structure Rank where
  /-- Whether work is waiting. -/
  waiting : Bool
  /-- The work that waits plus the age of the stage, cut to 64 bits. -/
  load : Nat
  /-- Whether the asking worker did *not* just find nothing to do here. -/
  fresh : Bool
  /-- Whether another worker had the stage last. -/
  foreign : Bool
  deriving DecidableEq, Repr

namespace Rank

/-- Whether the first rank is higher than the second. -/
def beats (a b : Rank) : Bool :=
  if a.waiting ≠ b.waiting then a.waiting
  else if a.load ≠ b.load then b.load < a.load
  else if a.fresh ≠ b.fresh then a.fresh
  else a.foreign && !b.foreign

end Rank

namespace Scheduler

variable {W : Type}

/-- A policy with a number of locations, one at the least. -/
def withLocations (fairness : Fairness) (locations : Nat) : Scheduler :=
  { fairness, locations := max locations 1 }

/-- The location of a worker. -/
def locationOf (sc : Scheduler) (w : WorkerId) : Nat := w % sc.locations

def caller (sc : Scheduler) (w : WorkerId) : Caller := ⟨w, sc.locationOf w⟩

/-- The scheduler as descriptions show it. -/
def describe (sc : Scheduler) : String :=
  "Scheduler \x7b fairness: " ++ sc.fairness.describe ++ ", locations: " ++ toString sc.locations ++
    ", .. \x7d"

/-! ### Picking -/

/-- Whether a stage can be handed out. -/
def eligible (B : Bodies W) (n : Network W) (i : StageId) : Bool :=
  let s := n.graph.stage i
  s.state == .running && (s.holders == 0 || s.parallel) && !n.exhausted B i

/-- The time since a stage was last handed out. -/
def age (g : Graph) (i : StageId) : Nat := g.tick.toNat - (g.stage i).lastPicked.toNat

/-- The rank of a stage for a worker. -/
def rank (B : Bodies W) (n : Network W) (w : WorkerId) (i : StageId) : Rank :=
  let pending := B.pending i n.world
  let lastYield := (n.graph.stage i).lastYield
  { waiting := decide (pending > 0)
    load := min (pending + age n.graph i) ((1 <<< 64) - 1)
    fresh := !lastYield.any fun y => y.worker == w && y.backedOff
    foreign := lastYield.any fun y => y.worker != w }

/-- The better of the best stage so far and another one. -/
def better (B : Bodies W) (n : Network W) (w : WorkerId) (best : Option StageId) (i : StageId) :
    Option StageId :=
  match best with
  | none => some i
  | some j => if (rank B n w i).beats (rank B n w j) then some i else some j

/-- The best eligible stage for a worker. -/
def pick (B : Bodies W) (n : Network W) (w : WorkerId) : Option StageId :=
  ((List.range n.graph.size).filter (eligible B n)).foldl (better B n w) none

/-! ### Handing out -/

/-- Whether a worker may keep the stage that it holds. -/
def mayKeep (sc : Scheduler) (B : Bodies W) (n : Network W) (w : WorkerId) (i : StageId)
    (result : Option Outcome) : Bool :=
  match sc.fairness, result with
  | .sticky maxStreak, some .success =>
    n.graph.failure.isNone && (n.graph.stage i).state == .running && !n.exhausted B i
      && decide (n.graph.streak w < maxStreak)
  | _, _ => false

/-- Lets a worker keep its stage for one more assignment. -/
def keep (n : Network W) (w : WorkerId) (i : StageId) : Network W :=
  n.mapGraph fun g =>
    { (g.setStreak w (g.streak w + 1)).modify i (fun s => { s with lastPicked := g.tick + 1 }) with
      tick := g.tick + 1 }

/-- Gives a stage to a worker. -/
def take (n : Network W) (w : WorkerId) (i : StageId) : Network W :=
  n.mapGraph fun g =>
    { (g.setStreak w 1).modify i
        (fun s => { s with holders := s.holders + 1, lastPicked := g.tick + 1 }) with
      tick := g.tick + 1 }

/-- Takes a stage back from a worker that asks for no other one. -/
def giveBack (sc : Scheduler) (B : Bodies W) (n : Network W) (w : WorkerId) (i : StageId)
    (result : Option Outcome) : Network W :=
  (n.handBack B i (sc.caller w) result).2.mapGraph (·.clearStreak w)

/-- Hands out a stage to a worker that holds none; settles what is settled if there is nothing to
hand out. After a failure nothing is handed out. -/
def handOut (sc : Scheduler) (B : Bodies W) (n : Network W) (w : WorkerId) :
    Option StageId × Network W :=
  if n.graph.failure.isSome then (none, n)
  else
    match pick B n w with
    | some i => (some i, take n w i)
    | none =>
      let idle := (List.range n.graph.size).filter (n.settled B)
      (none, (n.settle B idle (some (sc.caller w))).2)

/-- Answers a worker that asks for a stage, giving back the one it held with the outcome of its last
call. -/
def assign (sc : Scheduler) (B : Bodies W) (n : Network W) (w : WorkerId)
    (previous : Option StageId) (result : Option Outcome) : Option StageId × Network W :=
  match previous with
  | none => sc.handOut B (n.mapGraph (·.clearStreak w)) w
  | some i =>
    if sc.mayKeep B n w i result then (some i, keep n w i)
    else sc.handOut B (sc.giveBack B n w i result) w

end Scheduler

end Pipework
