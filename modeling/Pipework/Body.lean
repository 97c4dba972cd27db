import Pipework.Body.Source
import Pipework.Body.Map
import Pipework.Body.Split
import Pipework.Body.Sink

/-!
# Stage bodies

What a stage does when a worker calls it: one of the four ready-made bodies, code handed in from
outside, or a *group* of bodies that are called one after the other as a single stage.

A member of a group is finished when it says so; every member but the first is finished too when all
members before it are and it has nothing pending. Finished members are not called again, and the
group is finished when all are.

A call of a group that is suspended inside a member leaves a `Stay` there. The next call of the same
worker goes on from it: the members before it are not called again.
-/

namespace Pipework

/-- A body made of code handed in from outside. -/
structure Callback (α σ : Type) where
  call : Visit → Store α σ → Ending × Visit × Store α σ
  opening : Store α σ → Reply Unit × Store α σ := fun s => (.ok (), s)
  closing : Store α σ → Reply Unit × Store α σ := fun s => (.ok (), s)
  pending : Store α σ → Nat := fun _ => 0

/-- How far a call of a group has come. -/
structure Passage where
  /-- Whether all members so far are finished; there is nothing to say before the first. -/
  above : Option Bool := none
  /-- Whether one of the members so far got on. -/
  progressed : Bool := false
  deriving DecidableEq, Repr

/-- A passage that has come past one more member, given whether that one is finished and whether it
got on. -/
def Passage.past (p : Passage) (finished moved : Bool) : Passage :=
  { above := some (p.above.getD true && finished), progressed := p.progressed || moved }

/-- A call of a group that is suspended inside a member. -/
structure Stay where
  worker : WorkerId
  /-- How far the call had come before the member. -/
  passage : Passage
  /-- The parcels that the members before it have handled. -/
  items : UInt64
  deriving DecidableEq, Repr

/-- What a group knows of one member. -/
structure Standing where
  finished : Bool := false
  /-- The calls that are suspended inside the member. -/
  stays : List Stay := []
  deriving DecidableEq, Repr

namespace Standing

/-- The call of a worker that is suspended inside the member. -/
def stayOf? (m : Standing) (w : WorkerId) : Option Stay := m.stays.find? (·.worker == w)

/-- The member once the call of a worker is no longer suspended inside it. -/
def freed (m : Standing) (w : WorkerId) : Standing :=
  { m with stays := m.stays.filter (·.worker != w) }

/-- The member with a call suspended inside it. -/
def holding (m : Standing) (t : Stay) : Standing :=
  { m with stays := t :: (m.freed t.worker).stays }

end Standing

mutual

/-- The body of a stage. -/
inductive Body (α σ : Type) where
  | source (b : Source α σ)
  | map (b : Map α σ)
  | split (b : Split α σ)
  | sink (b : Sink α σ)
  | callback (b : Callback α σ)
  | group (members : Members α σ)

/-- The members of a group in the order in which they are called. -/
inductive Members (α σ : Type) where
  | nil
  | cons (standing : Standing) (body : Body α σ) (rest : Members α σ)

end

variable {α σ : Type}

instance : Inhabited (Body α σ) := ⟨.group .nil⟩

namespace Members

/-- The group of some bodies, none of them finished. -/
def ofList : List (Body α σ) → Members α σ
  | [] => .nil
  | b :: bs => .cons {} b (ofList bs)

def size : Members α σ → Nat
  | .nil => 0
  | .cons _ _ rest => rest.size + 1

/-- Whether every member is finished. -/
def allFinished : Members α σ → Bool
  | .nil => true
  | .cons m _ rest => m.finished && rest.allFinished

/-- Whether a call of a worker is suspended inside a member. -/
def holds (w : WorkerId) : Members α σ → Bool
  | .nil => false
  | .cons m _ rest => (m.stayOf? w).isSome || rest.holds w

/-- The members as descriptions show them. -/
def describe (ms : Members α σ) : String :=
  "GroupStage \x7b members: " ++ toString ms.size ++ ", .. \x7d"

end Members

mutual

/-- The work that waits for a body. -/
def Body.pending : Body α σ → Store α σ → Nat
  | .source b, s => b.pending s
  | .map b, s => b.pending s
  | .split b, s => b.pending s
  | .sink b, s => b.pending s
  | .callback b, s => b.pending s
  | .group ms, s => ms.pending s

/-- The work that waits for all members together. -/
def Members.pending : Members α σ → Store α σ → Nat
  | .nil, _ => 0
  | .cons _ b rest, s => b.pending s + rest.pending s

end

/-- The queue by which a body is throttled, if it has one: the output of a source and the input of
the others; for a group that of its first member. -/
def Body.gauge : Body α σ → Option QueueId
  | .source b => some b.output
  | .map b => some b.input
  | .split b => some b.input
  | .sink b => some b.input
  | .callback _ => none
  | .group .nil => none
  | .group (.cons _ b _) => b.gauge

/-- The threshold of the queue by which a body is throttled. -/
def Body.threshold (b : Body α σ) (s : Store α σ) : Nat :=
  match b.gauge with
  | some i => (s.queue i).threshold
  | none => 0

/-- Changes the threshold of the queue by which a body is throttled. -/
def Body.setThreshold (b : Body α σ) (n : Nat) (s : Store α σ) : Store α σ :=
  match b.gauge with
  | some i => s.setThreshold i n
  | none => s

mutual

/-- Prepares a body for its first call. -/
def Body.opening : Body α σ → Store α σ → Reply Unit × Store α σ
  | .source b, s => b.producer.opening s
  | .callback b, s => b.opening s
  | .group ms, s => ms.opening s
  | _, s => (.ok (), s)

/-- Prepares members in order, until one does not succeed. -/
def Members.opening : Members α σ → Store α σ → Reply Unit × Store α σ
  | .nil, s => (.ok (), s)
  | .cons _ b rest, s =>
    match b.opening s with
    | (.ok _, s) => rest.opening s
    | r => r

end

mutual

/-- Ends the work of a body. -/
def Body.closing : Body α σ → Store α σ → Reply Unit × Store α σ
  | .source b, s => b.producer.closing s
  | .sink b, s => b.closing s
  | .callback b, s => b.closing s
  | .group ms, s => ms.closing s
  | _, s => (.ok (), s)

/-- Ends the work of members in order, until one does not succeed. -/
def Members.closing : Members α σ → Store α σ → Reply Unit × Store α σ
  | .nil, s => (.ok (), s)
  | .cons _ b rest, s =>
    match b.closing s with
    | (.ok _, s) => rest.closing s
    | r => r

end

/-- A run whose body has been put back into its place. -/
def Run.inBody {β : Type} (r : Run β α σ) (f : β → Body α σ) : Run (Body α σ) α σ :=
  ⟨r.ending, r.visit, f r.body, r.store⟩

/-- What calling a row of members came to: whether one of them got on, or what cut the row short. -/
inductive Round where
  | through (progressed : Bool)
  | cut (ending : Ending)
  deriving DecidableEq

/-- A row of members after it was called. -/
structure Called (α σ : Type) where
  round : Round
  visit : Visit
  members : Members α σ
  store : Store α σ

mutual

/-- One call of a body. -/
def Body.execute : Body α σ → Visit → Store α σ → Run (Body α σ) α σ
  | .source b, v, s => (b.execute v s).inBody .source
  | .map b, v, s => (b.execute v s).inBody .map
  | .split b, v, s => (b.execute v s).inBody .split
  | .sink b, v, s => (b.execute v s).inBody .sink
  | .callback b, v, s =>
    let (ending, v, s) := b.call v s
    ⟨ending, v, .callback b, s⟩
  | .group ms, v, s =>
    let c := ms.execute (if ms.holds v.worker then none else some {}) v s
    match c.round with
    | .cut ending => ⟨ending, c.visit, .group c.members, c.store⟩
    | .through progressed =>
      let outcome : Outcome :=
        if c.members.allFinished then .finished else if progressed then .success else .comeBackLater
      ⟨.returned outcome, c.visit, .group c.members, c.store⟩

/-- Calls the members that are not finished, in order. The first argument after the members says how
far the call has come; a call that goes on after it was suspended passes over the members, with
nothing to say, until it reaches its stay. -/
def Members.execute : Members α σ → Option Passage → Visit → Store α σ → Called α σ
  | .nil, p?, v, s => ⟨.through (p?.any (·.progressed)), v, .nil, s⟩
  | .cons m b rest, p?, v, s =>
    let here : Option (Passage × UInt64) :=
      match p? with
      | some p => if m.finished then none else some (p, v.items)
      | none => (m.stayOf? v.worker).map fun t => (t.passage, t.items)
    match here with
    | none =>
      let c := rest.execute (p?.map (·.past true false)) v s
      ⟨c.round, c.visit, .cons m b c.members, c.store⟩
    | some (p, items) =>
      let v := { v with items }
      let m := m.freed v.worker
      let r := b.execute (.start v.worker v.location v.chunk) s
      let all := { v with items := items + r.visit.items }
      match r.ending with
      | .panicked e => ⟨.cut (.panicked e), v, .cons m r.body rest, r.store⟩
      | .suspended =>
        ⟨.cut .suspended, v, .cons (m.holding ⟨v.worker, p, items⟩) r.body rest, r.store⟩
      | .returned (.failed e) => ⟨.cut (.returned (.failed e)), all, .cons m r.body rest, r.store⟩
      | .returned o =>
        let done :=
          m.finished || o == .finished || (p.above == some true && r.body.pending r.store == 0)
        let moved := o == .success || (o == .finished && r.visit.items != 0)
        let c := rest.execute (some (p.past done moved)) all r.store
        ⟨c.round, c.visit, .cons { m with finished := done } r.body c.members, c.store⟩

end

end Pipework
