import Pipework.Script.Memory

/-!
# Scripted bodies

Bodies described by data: a source that plays a list of answers, a function that fails on a certain
number, a call that goes through a list of outcomes, and so on. `Plan.build` makes a body from such
a description, finding queues and pools by their names; the label under which a body logs is the
name of its stage, with a dot and a number for each group around it.
-/

namespace Pipework.Script

/-- What a scripted hook does after it has been logged. -/
inductive HookPlan where
  | fine
  | fails (message : String)
  | panics (message : String)
  deriving DecidableEq, Repr

def HookPlan.reply : HookPlan → Reply Unit
  | .fine => .ok ()
  | .fails m => .failed ⟨m⟩
  | .panics m => .panicked (.text m)

/-- A hook that logs itself. -/
def hook (p : HookPlan) (what label : String) (s : Stock) : Reply Unit × Stock :=
  (p.reply, remember s (·.log (.hook what label)))

/-- One scripted answer of a producer. -/
inductive PollPlan where
  | number (n : UInt64)
  | empty
  | exhausted
  | panics (message : String)
  deriving DecidableEq, Repr

/-- Further effects of a scripted function on one number. -/
structure Trigger (β : Type) where
  on : UInt64
  effect : β
  deriving DecidableEq, Repr

/-- A scripted function on numbers: `x * mul + add`, with exceptions. -/
structure FunctionPlan where
  mul : UInt64 := 1
  add : UInt64 := 0
  failOn : Option UInt64 := none
  panicOn : Option UInt64 := none
  /-- Numbers that are pushed to the output queue on the way. -/
  inject : Option (Trigger (List UInt64)) := none
  /-- A new threshold of the output queue. -/
  recap : Option (Trigger Nat) := none
  deriving DecidableEq, Repr

/-- A scripted processor of a sink. -/
structure ProcessorPlan where
  failOn : Option UInt64 := none
  panicOn : Option UInt64 := none
  /-- What happens at the end; nothing for a processor without an end. -/
  finish : Option HookPlan := some .fine
  deriving DecidableEq, Repr

/-- How a scripted call ends. -/
inductive CallEnd where
  | success
  | comeBackLater
  | finished
  | fails (message : String)
  | panics (panic : Panic)
  /-- With success, as soon as a counter is not zero. -/
  | waits (counter : String)
  deriving DecidableEq, Repr

/-- One scripted call: how many parcels it counts, and how it ends. -/
structure CallPlan where
  items : Nat
  ending : CallEnd
  deriving DecidableEq, Repr

/-- The description of a body. -/
inductive Plan where
  /-- A source of the numbers below a bound. -/
  | count (total : UInt64) (out : String)
  /-- A source that plays answers, and is exhausted after them. -/
  | play (polls : List PollPlan) (out : String) (opening closing : HookPlan)
  /-- A source of the numbers below a bound, held back while the next one is not below a counter. -/
  | gate (counter : String) (total : UInt64) (out : String)
  /-- A source of a number of parcels from a pool. -/
  | pooled (pool : String) (total : UInt64) (out : String)
  | map (input out : String) (function : FunctionPlan)
  /-- A split that takes so many numbers at a time off the front of a block. -/
  | split (input out : String) (perCall : Nat) (failOn : Option UInt64)
  | sink (input : String) (processors : List ProcessorPlan) (pool : Option String)
  | group (members : List Plan)
  /-- A body that goes through a list of calls and then repeats the last entry for ever. What waits
  for it is a counter, from which each call takes its items; another counter grows by them. -/
  | calls (script : List CallPlan) (after : CallPlan) (pending feeds : Option String)
      (opening closing : Option HookPlan)

/-! ### Producers -/

/-- The producer that plays a list of answers. -/
def player (label : String) (polls : List PollPlan) (opening closing : HookPlan) (i : Nat) :
    Producer Parcel Memory where
  opening := hook opening "open" label
  poll s :=
    let n := (Memory.cursor i).get s.env
    let s := remember s ((Memory.cursor i).set (n + 1))
    match polls[n.toNat]? with
    | some (.number x) => (.item (.number x), s)
    | some .empty => (.empty, s)
    | some .exhausted => (.exhausted, s)
    | some (.panics m) => (.panicked (.text m), s)
    | none => (.exhausted, s)
  closing := hook closing "close" label

/-- The producer behind a gate. -/
def gated (counter : String) (total : UInt64) (i : Nat) : Producer Parcel Memory where
  poll s :=
    let n := (Memory.cursor i).get s.env
    if total ≤ n then (.exhausted, s)
    else if s.env.counter counter ≤ n.toNat then (.empty, s)
    else (.item (.number n), remember s ((Memory.cursor i).set (n + 1)))

/-- The producer that borrows its parcels. -/
def borrowing (pool : PoolId) (total : UInt64) (i : Nat) : Producer Parcel Memory where
  poll s :=
    let n := (Memory.cursor i).get s.env
    if total ≤ n then (.exhausted, s)
    else
      match s.acquire pool with
      | (none, s) => (.empty, s)
      | (some a, s) => (.item a, remember s ((Memory.cursor i).set (n + 1)))

/-! ### Functions, splitters, processors, calls -/

/-- A scripted function whose results go to the queue `out`. -/
def FunctionPlan.apply (f : FunctionPlan) (out : QueueId) (a : Parcel) (s : Stock) :
    Reply Parcel × Stock :=
  let x := a.value
  if f.failOn = some x then (.failed ⟨"bad item " ++ toString x.toNat⟩, s)
  else if f.panicOn = some x then (.panicked (.text ("awful item " ++ toString x.toNat)), s)
  else
    let s := match f.inject with
      | some t => if t.on = x then (s.offerEach out (t.effect.map .number)).2 else s
      | none => s
    let s := match f.recap with
      | some t => if t.on = x then s.setThreshold out t.effect else s
      | none => s
    (.ok (.number (x * f.mul + f.add)), s)

/-- A splitter that takes `perCall` numbers at a time. -/
def splitter (label : String) (perCall : Nat) (failOn : Option UInt64) :
    Splitter Parcel Memory where
  split a s :=
    let xs := a.values
    match xs, failOn with
    | x :: _, some bad =>
      if x = bad then (.failed ⟨"corrupt block " ++ toString x.toNat⟩, s)
      else (.ok (portion xs), s)
    | _, _ => (.ok (portion xs), s)
  recycle _ s := remember s (·.log (.hook "recycle" label))
  work a := a.values.length
where
  portion (xs : List UInt64) : Portion Parcel :=
    { parcels := (xs.take perCall).map .number
      block := .block (xs.drop perCall)
      done := (xs.drop perCall).isEmpty }

/-- The processor number `i` of a sink. -/
def ProcessorPlan.build (p : ProcessorPlan) (label : String) (i : Nat) :
    Processor Parcel Memory where
  process a s :=
    let x := a.value
    let s := remember s (·.log (.shown label i x))
    if p.failOn = some x then (.failed ⟨"cannot take " ++ toString x.toNat⟩, s)
    else if p.panicOn = some x then (.panicked (.text ("cannot bear " ++ toString x.toNat)), s)
    else (.ok (), s)
  finish s :=
    match p.finish with
    | some h => hook h "finish" (label ++ "/" ++ toString i) s
    | none => (.ok (), s)

/-- What the counters of a scripted body become when a call handles `n` parcels. -/
def settleCounters (pending feeds : Option String) (n : Nat) (m : Memory) : Memory :=
  let m := match pending with
    | some name => m.setCounter name (m.counter name - n)
    | none => m
  match feeds with
  | some name => m.setCounter name (m.counter name + n)
  | none => m

/-- One call of the body with the cursor `i` that goes through a script. -/
def play (script : List CallPlan) (after : CallPlan) (pending feeds : Option String) (i : Nat)
    (v : Visit) (s : Stock) : Ending × Visit × Stock :=
  match s.env.waitingFor? i v.worker with
  | some x =>
    if s.env.counter x.counter = 0 then (.suspended, v, s)
    else
      (.returned .success, v.record x.items,
        remember s fun m => { m with waiting := m.waiting.erase x })
  | none =>
    let n := (Memory.cursor i).get s.env
    let step := script.getD n.toNat after
    let s := remember s fun m =>
      settleCounters pending feeds step.items
        (if n.toNat < script.length then (Memory.cursor i).set (n + 1) m else m)
    let v' := v.record step.items
    match step.ending with
    | .success => (.returned .success, v', s)
    | .comeBackLater => (.returned .comeBackLater, v', s)
    | .finished => (.returned .finished, v', s)
    | .fails m => (.returned (.failed ⟨m⟩), v', s)
    | .panics p => (.panicked p, v', s)
    | .waits counter =>
      if s.env.counter counter = 0 then
        (.suspended, v,
          remember s fun m => { m with waiting := ⟨i, v.worker, counter, step.items⟩ :: m.waiting })
      else (.returned .success, v', s)

/-! ### Building -/

/-- The queue with a name. -/
def queueNamed (s : Stock) (name : String) : QueueId := (s.findQueue? name).getD s.queues.length

/-- The pool with a name. -/
def poolNamed (s : Stock) (name : String) : PoolId := (s.findPool? name).getD s.pools.length

mutual

/-- Makes the body of a description, and its cursors. -/
def Plan.build (p : Plan) (label : String) (s : Stock) : Body Parcel Memory × Stock :=
  let i := s.env.cursors.length
  match p with
  | .count total out =>
    (.source { producer := .counting .number (Memory.cursor i) total, output := queueNamed s out },
      remember s Memory.addCursor)
  | .play polls out opening closing =>
    (.source { producer := player label polls opening closing i, output := queueNamed s out },
      remember s Memory.addCursor)
  | .gate counter total out =>
    (.source { producer := gated counter total i, output := queueNamed s out },
      remember s Memory.addCursor)
  | .pooled pool total out =>
    (.source { producer := borrowing (poolNamed s pool) total i, output := queueNamed s out },
      remember s Memory.addCursor)
  | .map input out f =>
    (.map
      { apply := f.apply (queueNamed s out), input := queueNamed s input,
        output := queueNamed s out }, s)
  | .split input out perCall failOn =>
    (.split
      { splitter := splitter label perCall failOn, input := queueNamed s input,
        output := queueNamed s out }, s)
  | .sink input processors pool =>
    (.sink
      { processors := processors.mapIdx fun k p => p.build label k
        input := queueNamed s input
        pool := pool.map (poolNamed s) }, s)
  | .group members =>
    let r := buildMembers members label 0 s
    (.group r.1, r.2)
  | .calls script after pending feeds opening closing =>
    let framed (h : Option HookPlan) (what : String) (s : Stock) : Reply Unit × Stock :=
      match h with
      | some h => hook h what label s
      | none => (.ok (), s)
    (.callback
      { call := play script after pending feeds i
        opening := framed opening "init"
        closing := framed closing "fin"
        pending := fun s => match pending with
          | some name => s.env.counter name
          | none => 0 },
      remember s Memory.addCursor)

/-- Makes the members of a group, from number `k` on. -/
def buildMembers (ps : List Plan) (label : String) (k : Nat) (s : Stock) :
    Members Parcel Memory × Stock :=
  match ps with
  | [] => (.nil, s)
  | p :: ps =>
    let r := p.build (label ++ "." ++ toString k) s
    let rest := buildMembers ps label (k + 1) r.2
    (.cons {} r.1 rest.1, rest.2)

end

/-- A pipeline of scripted bodies. -/
abbrev Line := Pipeline Parcel Memory

/-- Adds a stage with the body of a description. If the stage is refused, its body is made all the
same and put down as unused. -/
def Line.addStage (n : Line) (name : String) (kind : Kind) (parallel : Bool) (p : Plan) :
    Except GraphError StageId × Line :=
  let (body, s) := p.build name n.store
  match Pipeline.addStage (n.mapStore fun _ => s) name kind parallel body with
  | .ok n' => (.ok n.graph.size, n')
  | .error e =>
    let unused : Unused := ⟨n.graph.size, body.probes name s⟩
    (.error e, n.mapStore fun s => remember s fun m => { m with unused := m.unused ++ [unused] })

/-- What all bodies of a line tell, in the order in which they were made. -/
def Line.probes (n : Line) : List (String × Probe) :=
  let unused (k : Nat) := (n.store.env.unused.filter (·.stages == k)).flatMap (·.probes)
  let each := (Pipeline.probes n).mapIdx fun k probes => unused k ++ probes
  each.flatten ++ unused n.graph.size

end Pipework.Script
