import Pipework.Config.Parameters
import Pipework.Text.Alphanumeric

/-!
# Directives of a log filter

A directive asks for log messages up to a level. It has one of the forms `level`, `target`,
`target=level` and `target[span{field=value}]=level`, where the target, the braces with the field,
and the level with its sign may be missing from the last. Without a level everything is asked for.

Blanks around a directive do not count when its parts are found, but they are not taken off either:
every part is cut out of the whole text, at the distance from the start, in bytes, at which it was
found in the text without the blanks.
-/

namespace Pipework.Logging

/-! ### Levels -/

/-- How much is logged. -/
inductive Level where
  | off
  | error
  | warn
  | info
  | debug
  | trace
  deriving DecidableEq, Repr

namespace Level

/-- The levels with their names; each asks for more than those before it. -/
def named : List (String × Level) :=
  [("off", .off), ("error", .error), ("warn", .warn), ("info", .info), ("debug", .debug),
    ("trace", .trace)]

/-- The place of a level among all levels. -/
def rank : Level → Nat
  | off => 0
  | error => 1
  | warn => 2
  | info => 3
  | debug => 4
  | trace => 5

/-- The level with a number, or with a name in any case. -/
def ofText? (s : String) : Option Level :=
  match Parameters.natural 64 s with
  | .ok n => named[n]?.map (·.2)
  | .error _ => named.lookup (Text.lower s)

end Level

/-! ### Parts of a text -/

/-- How many bytes characters take up. -/
def width (cs : List Char) : Nat := cs.foldr (fun c n => c.utf8Size + n) 0

/-- The characters that begin before the byte `n`. -/
def takeBytes (n : Nat) : List Char → List Char
  | [] => []
  | c :: cs => if n = 0 then [] else c :: takeBytes (n - c.utf8Size) cs

/-- The characters that do not begin before the byte `n`. -/
def dropBytes (n : Nat) : List Char → List Char
  | [] => []
  | c :: cs => if n = 0 then c :: cs else dropBytes (n - c.utf8Size) cs

/-- The part of a text between two bytes. -/
def cut (text : List Char) (start stop : Nat) : String :=
  String.ofList (takeBytes (stop - start) (dropBytes start text))

/-! ### Directives -/

/-- A field that a message has to have, possibly with a value. -/
structure Field where
  name : String
  value : Option String := none
  deriving DecidableEq, Repr

/-- The field that a text asks for: a name up to the first equals sign, and a value up to the
next. -/
def Field.ofText? (s : String) : Option Field :=
  if s.isEmpty then none
  else
    match s.splitOn "=" with
    | [] => none
    | name :: rest => some { name, value := rest.head? }

/-- A request for messages up to a level. -/
structure Directive where
  level : Level := .trace
  /-- How the target of a message has to start. -/
  target : Option String := none
  /-- The span that the message has to be in. -/
  span : Option String := none
  field : Option Field := none
  deriving DecidableEq, Repr

/-- Why a text is no directive. -/
inductive DirectiveError where
  | malformed
  | level
  deriving DecidableEq, Repr

def DirectiveError.message : DirectiveError → String
  | .malformed => "invalid filter directive"
  | .level =>
    "error parsing level filter: expected one of "
      ++ ", ".intercalate (Level.named.map fun l => "\x22" ++ l.1 ++ "\x22") ++ ", or a number 0-5"

namespace Directive

/-- Whether a directive may start with a character, other than the bracket before a span. -/
def startsName (c : Char) : Bool := c == '-' || c == ':' || c == '_' || Text.isAlphanumeric c

/-- Reads the level, which is the rest of the text from the byte `pos` on. -/
def readLevel (text : List Char) (pos : Nat) (d : Directive) : Except DirectiveError Directive :=
  let s := String.ofList (dropBytes pos text)
  if s.isEmpty then .ok d
  else
    match Level.ofText? s with
    | some level => .ok { d with level }
    | none => .error .level

/-- Reads what comes after the closing bracket of a span. -/
def readTail (text : List Char) (pos : Nat) (rest : List Char) (d : Directive) :
    Except DirectiveError Directive :=
  match rest with
  | [] => .ok d
  | '=' :: _ => d.readLevel text (pos + 1)
  | _ => .error .malformed

/-- Reads a field from behind its opening brace on. -/
def readField (text : List Char) (pos : Nat) (rest : List Char) (d : Directive) :
    Except DirectiveError Directive :=
  let content := rest.takeWhile (· != '\x7d')
  let stop := pos + width content
  match Field.ofText? (cut text pos stop), rest.drop content.length with
  | some field, '\x7d' :: ']' :: rest =>
    { d with field := some field }.readTail text (stop + 2) rest
  | _, _ => .error .malformed

/-- Reads a span from behind its opening bracket on. A span without a name but with a field is any
span. -/
def readSpan (text : List Char) (pos : Nat) (rest : List Char) (d : Directive) :
    Except DirectiveError Directive :=
  let name := rest.takeWhile fun c => c != ']' && c != '\x7b'
  let stop := pos + width name
  let span := cut text pos stop
  match rest.drop name.length with
  | ']' :: rest => { d with span := some span }.readTail text (stop + 1) rest
  | '\x7b' :: rest =>
    { d with span := if span.isEmpty then none else some span }.readField text (stop + 1) rest
  | _ => .error .malformed

/-- Reads a directive. -/
def read (s : String) : Except DirectiveError Directive :=
  let text := s.toList
  match Text.trimChars text with
  | [] => .error .malformed
  | '[' :: rest => readSpan text 1 rest {}
  | c :: cs =>
    if !startsName c then .error .malformed
    else
      let name := (c :: cs).takeWhile fun c => c != '=' && c != '['
      let stop := width name
      let d : Directive := { target := some (cut text 0 stop) }
      match (c :: cs).drop name.length with
      | '[' :: rest => d.readSpan text (stop + 1) rest
      | _ :: _ => d.readLevel text (stop + 1)
      | [] =>
        match Level.ofText? s with
        | some level => .ok { level }
        | none => .ok { target := some s }

end Directive

end Pipework.Logging
