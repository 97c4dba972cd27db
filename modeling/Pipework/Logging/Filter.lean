import Pipework.Logging.Directive

/-!
# Log filters

A filter is a list of directives, separated by commas. Of those that apply to a message the most
specific one decides: the one with the longest target, one with a field before one without, and the
last of those that are equally specific. Directives for spans, and for fields with a value, apply to
nothing outside a span; they are kept, and decide nothing here. A filter without any directive lets
errors pass.
-/

namespace Pipework.Logging

/-- Directives in the order in which they were given. -/
structure Filter where
  directives : List Directive := []
  deriving DecidableEq, Repr

/-- A part of a filter's text that is no directive. -/
structure Rejected where
  text : String
  error : DirectiveError
  deriving DecidableEq, Repr

/-- What is said about a part that is left out. -/
def Rejected.message (r : Rejected) : String :=
  "ignoring \x60" ++ r.text ++ "\x60: " ++ r.error.message

namespace Directive

/-- Whether a directive is about messages outside of spans. -/
def outsideSpans (d : Directive) : Bool := d.span.isNone && d.field.all (·.value.isNone)

/-- Whether a directive applies to messages with a target, whose only field is the message
itself. -/
def appliesTo (d : Directive) (target : String) : Bool :=
  d.outsideSpans && d.target.all (·.toList.isPrefixOf target.toList) &&
    d.field.all (·.name == "message")

/-- How specific a directive is. -/
def specificity (d : Directive) : Nat :=
  2 * (match d.target with
    | some t => t.utf8ByteSize + 1
    | none => 0) + (if d.field.isSome then 1 else 0)

/-- The more specific of two directives, the second if they are equally so. -/
def moreSpecific (d e : Directive) : Directive := if e.specificity < d.specificity then d else e

end Directive

namespace Filter

/-- Reads a filter, leaving out what is no directive. -/
def readParts : List String → Filter × List Rejected
  | [] => ({}, [])
  | part :: parts =>
    let r := readParts parts
    match Directive.read part with
    | .ok d => ({ directives := d :: r.1.directives }, r.2)
    | .error error => (r.1, ⟨part, error⟩ :: r.2)

/-- Reads a filter; of its parts between commas those that are empty do not count. -/
def read (s : String) : Filter × List Rejected := readParts ((s.splitOn ",").filter (!·.isEmpty))

/-- The directive that decides about messages with a target. -/
def decisive? (f : Filter) (target : String) : Option Directive :=
  (f.directives.filter (·.appliesTo target)).foldl
    (fun best d => some ((best.map (·.moreSpecific d)).getD d)) none

/-- Whether a filter lets messages with a target and a level pass. -/
def passes (f : Filter) (target : String) (level : Level) : Bool :=
  match f.decisive? target with
  | some d => level.rank ≤ d.level.rank
  | none => f.directives.isEmpty && level.rank ≤ Level.error.rank

end Filter

/-! ### Messages on a line -/

/-- A character of a logged message: those that a terminal might take for a command are written as
escapes. -/
def lineChar (c : Char) : String :=
  let hex := String.ofList (Nat.toDigits 16 c.toNat)
  if c = '\x1b' ∨ c = '\x7f' then "\x5cx" ++ hex
  else if c = '\x07' ∨ c = '\x08' ∨ c = '\x0c' then "\x5cx0" ++ hex
  else if 0x80 ≤ c.toNat ∧ c.toNat ≤ 0x9f then "\x5cu\x7b" ++ hex ++ "\x7d"
  else c.toString

/-- A logged message as it is written. -/
def line (message : String) : String := String.join (message.toList.map lineChar)

end Pipework.Logging
