import Pipework.Stage

/-!
# Counters of stages and workers

Running totals for inspection; nothing is decided by them. Every counter has 64 bits and wraps.
Times are added up in nanoseconds, cut to 64 bits; rates are doubles, rounded to nearest.
-/

namespace Pipework

/-- A time as the 64-bit number of its nanoseconds. -/
def Duration.word (d : Duration) : UInt64 := d.nanos.toUInt64

/-- The time that a 64-bit number of nanoseconds stands for. -/
def Duration.ofWord (w : UInt64) : Duration := .clip w.toNat

/-- How often something happened per second; zero if no time went by. -/
def rate (count : UInt64) (elapsed : Duration) : Float :=
  let s := elapsed.toSeconds
  if s ≤ 0.0 then 0.0 else count.toFloat / s

/-- The counters of a stage. -/
structure StageMetrics where
  invocations : UInt64 := 0
  items : UInt64 := 0
  busy : UInt64 := 0
  successes : UInt64 := 0
  comeBackLaters : UInt64 := 0
  finishes : UInt64 := 0
  errors : UInt64 := 0
  exhaustions : UInt64 := 0
  /-- Parcels per second of the last call that handled any in a measurable time. -/
  throughput : Float := 0.0

namespace StageMetrics

/-- Counts one call. -/
def record (m : StageMetrics) (o : Outcome) (items : UInt64) (elapsed : Duration) : StageMetrics :=
  let counted := { m with
    invocations := m.invocations + 1
    items := m.items + items
    busy := m.busy + elapsed.word
    throughput :=
      if items > 0 && elapsed.word > 0 then items.toFloat * 1e9 / elapsed.word.toFloat
        else m.throughput }
  match o with
  | .success => { counted with successes := m.successes + 1 }
  | .comeBackLater => { counted with comeBackLaters := m.comeBackLaters + 1 }
  | .finished => { counted with finishes := m.finishes + 1 }
  | .failed _ => { counted with errors := m.errors + 1 }

/-- Counts one stage given up after all waits. -/
def recordExhaustion (m : StageMetrics) : StageMetrics :=
  { m with exhaustions := m.exhaustions + 1 }

/-- How often each outcome was seen, in the order of `Outcome`, and how often the stage was given
up. -/
def results (m : StageMetrics) : List UInt64 :=
  [m.successes, m.comeBackLaters, m.finishes, m.errors, m.exhaustions]

/-- The mean time per parcel; zero before the first one. -/
def latency (m : StageMetrics) : Duration :=
  if m.items = 0 then .zero else .ofWord (m.busy / m.items)

end StageMetrics

/-- The counters of a worker. -/
structure WorkerMetrics where
  useful : UInt64 := 0
  idle : UInt64 := 0
  backoff : UInt64 := 0
  scheduler : UInt64 := 0
  iterations : UInt64 := 0

namespace WorkerMetrics

/-- Counts one call of a body. -/
def recordUseful (m : WorkerMetrics) (d : Duration) : WorkerMetrics :=
  { m with useful := m.useful + d.word, iterations := m.iterations + 1 }

def recordIdle (m : WorkerMetrics) (d : Duration) : WorkerMetrics :=
  { m with idle := m.idle + d.word }

def recordBackoff (m : WorkerMetrics) (d : Duration) : WorkerMetrics :=
  { m with backoff := m.backoff + d.word }

def recordScheduler (m : WorkerMetrics) (d : Duration) : WorkerMetrics :=
  { m with scheduler := m.scheduler + d.word }

end WorkerMetrics

end Pipework
