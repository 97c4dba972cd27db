import Pipework.Parcel
import Pipework.Plant

/-!
# The checksum pipeline

A demonstration pipeline of three stages. The source fills borrowed blocks with consecutive numbers,
starting at 0; the split takes numbers from the end of each block and gives the empty block back;
the sink counts the numbers and adds them up. At the end `check` compares count and sum with what
they have to be for the numbers below `blocks * blockSize`, each seen once.
-/

namespace Pipework.Checksum

/-- What the pipeline remembers. -/
structure Tally where
  /-- The first number of the next block. -/
  next : UInt64 := 0
  /-- How many blocks are still to be filled. -/
  remaining : UInt64
  count : UInt64 := 0
  sum : UInt64 := 0
  /-- What was logged at the end of the sink. -/
  messages : List String := []
  deriving DecidableEq, Repr

/-- The store of the pipeline. -/
abbrev Stock := Store Parcel Tally

/-- The pool of blocks. -/
def pool : PoolId := 0

/-- The queues of the pipeline. -/
def blockQueue : QueueId := 0
def itemQueue : QueueId := 1

/-- The numbers from `first` on, `n` of them. -/
def consecutive (first : UInt64) (n : Nat) : List UInt64 :=
  (List.range n).map fun k => first + k.toUInt64

/-- The producer of blocks. -/
def filler (blockSize : Nat) : Producer Parcel Tally where
  poll s :=
    if s.env.remaining = 0 then (.exhausted, s)
    else
      match s.acquire pool with
      | (none, s) => (.empty, s)
      | (some block, s) =>
        let t := s.env
        (.item (.block (block.values ++ consecutive t.next blockSize)),
          { s with
            env := { t with next := t.next + blockSize.toUInt64, remaining := t.remaining - 1 } })

/-- The splitter, which takes up to `perCall` numbers from the end of a block. -/
def unloader (perCall : Nat) : Splitter Parcel Tally where
  split a s :=
    let xs := a.values
    let left := xs.length - perCall
    (.ok
      { parcels := (xs.drop left).map .number, block := .block (xs.take left), done := left == 0 },
      s)
  recycle a s := s.release pool a
  work a := a.values.length

/-- The processor that counts and adds up. -/
def adder : Processor Parcel Tally where
  process a s :=
    let t := s.env
    (.ok (), { s with env := { t with sum := t.sum + a.value, count := t.count + 1 } })
  finish s :=
    let t := s.env
    let message :=
      "Checksum processor done: " ++ toString t.count.toNat ++ " items, sum " ++
        toString t.sum.toNat
    (.ok (), { s with env := { t with messages := t.messages ++ [message] } })

/-- The pipeline for a number of blocks of a size. The queue of numbers has room for as many blocks
as the queue of blocks, counted in 64 bits. -/
def pipeline (blocks : UInt64) (blockSize : Nat) (c : Config) :
    Except GraphError (Pipeline Parcel Tally) := do
  let n : Pipeline Parcel Tally := .start { remaining := blocks }
  let n := n.mapStore (·.addPool
    (.filled "blocks" c.poolSize c.limitInFlight (fun _ => .block []) fun _ => .block []))
  let n ← n.addQueue (.bounded "blocks" c.queueThreshold)
  let n ← n.addQueue (.bounded "items" (c.queueThreshold * max blockSize 1 % (1 <<< 64)))
  let n ← n.addStage "block_source" .source false
    (.source { producer := filler blockSize, output := blockQueue })
  let n ← n.addStage "block_splitter" .interior false
    (.split { splitter := unloader (max c.chunk 1), input := blockQueue, output := itemQueue })
  let n ← n.addStage "checksum_sink" .sink true
    (.sink { processors := [adder], input := itemQueue })
  let g ← n.graph.connect 0 1
  let g ← g.connect 1 2
  let g ← g.markSource 0
  let g ← g.markSink 2
  pure { n with graph := g }

/-! ### The final check -/

/-- How many numbers there are to be, counted in 64 bits. -/
def expectedCount (blocks : UInt64) (blockSize : Nat) : UInt64 := blocks * blockSize.toUInt64

/-- Half of a product that stops at the largest 64-bit number: the sum of the numbers below `total`,
as long as twice that sum fits in 64 bits. -/
def expectedSum (total : UInt64) : UInt64 :=
  (min ((total.toNat - 1) * total.toNat) ((1 <<< 64) - 1) / 2).toUInt64

/-- What is wrong with a count and a sum at the end, if anything. -/
def check (blocks : UInt64) (blockSize : Nat) (t : Tally) : Option String :=
  let total := expectedCount blocks blockSize
  let expected := expectedSum total
  if t.count ≠ total ∨ t.sum ≠ expected then
    some ("checksum mismatch: " ++ toString t.count.toNat ++ " items summing to " ++
      toString t.sum.toNat
      ++ ", expected " ++ toString total.toNat ++ " / " ++ toString expected.toNat)
  else none

end Pipework.Checksum
