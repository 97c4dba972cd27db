import Pipework.Checksum
import Pipework.Config.Registry
import Pipework.Logging.Filter
import Pipework.Report

/-!
# The command line

Running the checksum pipeline from the command line. `Options.read` understands the arguments: long
options with the value after a blank or an equals sign, short ones also with the value attached,
each at most once except for `-P`. `run` says what such a run comes to: the exit code, what is
logged, the report, and the complaint on the error stream.
-/

namespace Pipework.CommandLine

/-! ### Options -/

/-- What can be asked for. -/
inductive Flag where
  | workers
  | blocks
  | blockSize
  | chunk
  | logLevel
  | reportMillis
  | param
  | json
  | help
  | version
  deriving DecidableEq, Repr

namespace Flag

/-- The option with a long name. -/
def ofLong? : String → Option Flag
  | "nthreads" => some workers
  | "blocks" => some blocks
  | "block-size" => some blockSize
  | "chunksize" => some chunk
  | "log-level" => some logLevel
  | "report-ms" => some reportMillis
  | "json" => some json
  | "help" => some help
  | "version" => some version
  | _ => none

/-- The option with a one-letter name. -/
def ofShort? : Char → Option Flag
  | 'n' => some workers
  | 'P' => some param
  | 'h' => some help
  | 'V' => some version
  | _ => none

/-- Whether a value goes with the option. -/
def takesValue : Flag → Bool
  | json => false
  | help => false
  | version => false
  | _ => true

end Flag

/-- What the arguments say; a field is missing if its option is. -/
structure Options where
  workers : Option Nat := none
  blocks : Option Nat := none
  blockSize : Option Nat := none
  chunk : Option Nat := none
  logLevel : Option String := none
  reportMillis : Option Nat := none
  json : Bool := false
  params : List String := []
  deriving DecidableEq, Repr

/-- Why the arguments do not lead to a run. -/
inductive Refusal where
  /-- They cannot be understood. -/
  | usage
  /-- They ask for help. -/
  | help
  /-- They ask for the version. -/
  | version
  deriving DecidableEq, Repr

namespace Options

/-- A number that is given for the first time. -/
def once (field : Option Nat) (value : String) : Except Refusal (Option Nat) :=
  match field, Parameters.natural 64 value with
  | none, .ok n => .ok (some n)
  | _, _ => .error .usage

/-- Takes note of an option with its value. -/
def put (o : Options) (f : Flag) (value : String) : Except Refusal Options :=
  match f with
  | .workers => (once o.workers value).map fun v => { o with workers := v }
  | .blocks => (once o.blocks value).map fun v => { o with blocks := v }
  | .blockSize => (once o.blockSize value).map fun v => { o with blockSize := v }
  | .chunk => (once o.chunk value).map fun v => { o with chunk := v }
  | .reportMillis => (once o.reportMillis value).map fun v => { o with reportMillis := v }
  | .logLevel => if o.logLevel.isSome then .error .usage else .ok { o with logLevel := some value }
  | .param => .ok { o with params := o.params ++ [value] }
  | _ => .error .usage

/-- Takes note of an option that has no value. -/
def switch (o : Options) (f : Flag) : Except Refusal Options :=
  match f with
  | .json => if o.json then .error .usage else .ok { o with json := true }
  | .help => .error .help
  | .version => .error .version
  | _ => .error .usage

/-- Reads one-letter options written together; the first that takes a value takes the rest of them,
with or without an equals sign before it. Also gives the option whose value is still to come. -/
def readShort (o : Options) : List Char → Except Refusal (Options × Option Flag)
  | [] => .ok (o, none)
  | c :: rest =>
    match Flag.ofShort? c with
    | none => .error .usage
    | some f =>
      if f.takesValue then
        match rest with
        | [] => .ok (o, some f)
        | '=' :: value => (o.put f (String.ofList value)).map fun o => (o, none)
        | value => (o.put f (String.ofList value)).map fun o => (o, none)
      else
        match o.switch f with
        | .ok o => o.readShort rest
        | .error e => .error e

/-- Reads a long option, without the dashes. Also gives the option whose value is still to come. -/
def readLong (o : Options) (cs : List Char) : Except Refusal (Options × Option Flag) :=
  let value := cs.dropWhile (· != '=')
  match Flag.ofLong? (String.ofList (cs.takeWhile (· != '='))) with
  | none => .error .usage
  | some f =>
    match f.takesValue, value with
    | true, [] => .ok (o, some f)
    | true, _ :: value => (o.put f (String.ofList value)).map fun o => (o, none)
    | false, [] => (o.switch f).map fun o => (o, none)
    | false, _ => .error .usage

/-- Reads arguments. The option before them may still want its value, which cannot start with a dash
unless it is nothing but a dash. -/
def readFrom (o : Options) (awaiting : Option Flag) : List String → Except Refusal Options
  | [] => if awaiting.isSome then .error .usage else .ok o
  | a :: rest =>
    match a.toList, awaiting with
    | ['-', '-'], none => if rest.isEmpty then .ok o else .error .usage
    | '-' :: '-' :: cs, none =>
      match o.readLong cs with
      | .ok (o, awaiting) => o.readFrom awaiting rest
      | .error e => .error e
    | '-' :: c :: cs, none =>
      match o.readShort (c :: cs) with
      | .ok (o, awaiting) => o.readFrom awaiting rest
      | .error e => .error e
    | '-' :: _ :: _, some _ => .error .usage
    | _, some f =>
      match o.put f a with
      | .ok o => o.readFrom none rest
      | .error e => .error e
    | _, none => .error .usage

/-- Reads the arguments; the number of workers may also come from the environment. -/
def read (args : List String) (environment : Option String) : Except Refusal Options := do
  let o ← readFrom {} none args
  match o.workers, environment with
  | none, some value => o.put .workers value
  | _, _ => pure o

/-! ### What the options mean -/

/-- The parameters, with those that have an option of their own. -/
def parameters (o : Options) : Except (String × ConfigError) Parameters := do
  let p ← o.params.foldlM (fun (p : Parameters) assignment =>
    (p.assign assignment).mapError fun e => ("bad parameter '" ++ assignment ++ "'", e)) .empty
  let p := match o.workers with
    | some n => p.set Config.Key.workers (toString n)
    | none => p
  pure (match o.chunk with
    | some n => p.set Config.Key.chunk (toString n)
    | none => p)

/-- The targets under which the program logs: its own, which shows what was computed, and that of
its engine. -/
def logTargets : List String := ["sluice", "sluice_core"]

/-- The log filter that the options ask for, and what of it cannot be understood. What is given as
the level goes behind each target, so that it may bring further directives with it. -/
def logFilter (o : Options) : Logging.Filter × List Logging.Rejected :=
  let level := o.logLevel.getD "info"
  Logging.Filter.read (",".intercalate (logTargets.map (· ++ "=" ++ level)))

end Options

/-! ### A run -/

/-- What a run comes to. -/
structure Transcript where
  exit : Nat
  /-- What is printed if nothing is run: the help or the version. -/
  notice : List String := []
  /-- What is logged about parameters and checksums. -/
  messages : List String := []
  report : Option Report := none
  /-- Whether the report is asked for as JSON. -/
  json : Bool := false
  /-- What is written to the error stream. -/
  complaint : String := ""

/-- A complaint with its cause; the lines of the cause are indented. -/
def withCause (context cause : String) : String :=
  "Error: " ++ context ++ "\n\nCaused by:\n    " ++ cause.replace "\n" "\n    "

/-- More turns than any run takes. -/
def patience : Nat := 1000000000000

/-- Runs the pipeline with a configuration until its workers are gone. -/
def runPipeline (o : Options) (config : Config) :
    Except String (Controller (Plant Parcel Checksum.Tally)) := do
  let B := Plant.interface
  let n ← (Checksum.pipeline (o.blocks.getD 10000).toUInt64 (o.blockSize.getD 256) config).mapError
    GraphError.message
  let c ← (Controller.create n config).mapError ControlError.message
  match c.start B with
  | (.error e, _) => .error e.message
  | (.ok _, c) => .ok ((c.await B Controller.settled patience).waitUntilStopped B patience)

/-- What the end of a run with some options comes to; the settings have been logged before. -/
def conclude (o : Options) (settings : List String) (c : Controller (Plant Parcel Checksum.Tally)) :
    Transcript :=
  let tally := (Pipeline.store c.engine.network).env
  let messages := settings ++ tally.messages
  match c.graph.failure with
  | some f => { exit := 1, messages, complaint := "Error: pipeline failed: " ++ f.text }
  | none =>
    let report := some (c.report Plant.interface)
    match Checksum.check (o.blocks.getD 10000).toUInt64 (o.blockSize.getD 256) tally with
    | some e => { exit := 1, messages, report, complaint := "Error: " ++ e }
    | none => { exit := 0, messages := messages ++ ["Checksum verified"], report }

/-- What the command comes to with some options that are taken as they are. -/
def attempt (o : Options) (processors : Nat) : Transcript :=
  match o.parameters with
  | .error (context, e) => { exit := 1, complaint := withCause context e.message }
  | .ok p =>
    match Config.ofParameters { workers := processors } p with
    | .error e => { exit := 1, complaint := withCause "invalid engine parameters" e.message }
    | .ok config =>
      let settings := p.sorted.map fun e => "Parameter " ++ e.1 ++ " = " ++ e.2
      match runPipeline o config with
      | .error e => { exit := 1, messages := settings, complaint := "Error: " ++ e }
      | .ok c => conclude o settings c

/-- What the command comes to with some options, on a machine with a number of processors. Messages
are only shown if the log filter lets them pass, and what cannot be understood of it is complained
about first. -/
def execute (o : Options) (processors : Nat) : Transcript :=
  let (filter, rejected) := o.logFilter
  let t := attempt o processors
  { t with
    json := o.json
    messages := if filter.passes "sluice" .info then t.messages.map Logging.line else []
    complaint := String.join (rejected.map fun r => r.message ++ "\n") ++ t.complaint }

/-- What is printed when help is asked for. -/
def helpText : List String :=
  ["Standalone runner for sluice dataflow pipelines",
   "",
   "Usage: sluice [OPTIONS]",
   "",
   "Options:",
   "  -n, --nthreads <NTHREADS>      Worker threads (defaults to the number of CPUs) [env: SLUICE_NTHREADS=]",
   "      --blocks <BLOCKS>          Number of blocks the source produces [default: 10000]",
   "      --block-size <BLOCK_SIZE>  Items per block [default: 256]",
   "      --chunksize <CHUNKSIZE>    Items per execute call",
   "      --log-level <LOG_LEVEL>    Log level [default: info]",
   "      --report-ms <REPORT_MS>    Progress report interval in milliseconds [default: 1000]",
   "      --json                     Print the final report as JSON",
   "  -P <KEY=VALUE>                 Engine parameter, repeatable (e.g. -P sluice:fairness=round_robin)",
   "  -h, --help                     Print help",
   "  -V, --version                  Print version"]

/-- What the command comes to with some arguments. -/
def run (args : List String) (environment : Option String) (processors : Nat) : Transcript :=
  match Options.read args environment with
  | .error .usage => { exit := 2, notice := ["For more information, try '--help'."] }
  | .error .help => { exit := 0, notice := helpText }
  | .error .version => { exit := 0, notice := ["sluice-server 0.1.0"] }
  | .ok o => execute o processors

/-- What a run prints, line by line: what it logs, and then its report. -/
def Transcript.output (t : Transcript) : List String :=
  t.notice ++ t.messages ++
    match t.report with
    | none => []
    | some r => if t.json then [r.toJson.render ""] else r.table

end Pipework.CommandLine
