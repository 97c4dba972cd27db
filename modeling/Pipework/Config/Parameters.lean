import Pipework.Config
import Pipework.Text.Numeral

/-!
# Named parameters

A store of texts under names, in which a configuration is looked up. A default never replaces a
value that is there. Reading a value as a number or truth value fails with the name, the text and
the reason.
-/

namespace Pipework

/-- A parameter is listed at most once. -/
structure Parameters where
  entries : List (String × String) := []
  deriving Repr

namespace Parameters

def empty : Parameters := {}

instance : Inhabited Parameters := ⟨empty⟩

/-- The text stored under a name. -/
def get? (p : Parameters) (key : String) : Option String := p.entries.lookup key

def contains (p : Parameters) (key : String) : Bool := (p.get? key).isSome

def getD (p : Parameters) (key default : String) : String := (p.get? key).getD default

def size (p : Parameters) : Nat := p.entries.length

/-- Stores a text under a name, in the place of one that was there. -/
def set (p : Parameters) (key value : String) : Parameters :=
  if p.contains key then
    ⟨p.entries.map fun e => if e.1 == key then (key, value) else e⟩
  else ⟨p.entries ++ [(key, value)]⟩

/-- Stores a text under a name that has none yet. -/
def setDefault (p : Parameters) (key value : String) : Parameters :=
  if p.contains key then p else p.set key value

/-- Stores what a text of the form `name=value` says; blanks around the two parts do not count. -/
def assign (p : Parameters) (assignment : String) : Except ConfigError Parameters :=
  let cs := assignment.toList
  match cs.dropWhile (· != '=') with
  | [] => .error (.malformed assignment)
  | _ :: value =>
    let key := Text.trimChars (cs.takeWhile (· != '='))
    if key.isEmpty then .error (.malformed assignment)
    else .ok (p.set (String.ofList key) (String.ofList (Text.trimChars value)))

/-- All entries in the order of their names, compared by code points. -/
def sorted (p : Parameters) : List (String × String) :=
  p.entries.mergeSort fun a b => decide (a.1 < b.1) || a.1 == b.1

/-! ### Reading values -/

/-- Reads the text under a name, if there is one. -/
def parse {β : Type} (p : Parameters) (read : String → Except String β) (key : String) :
    Except ConfigError (Option β) :=
  match p.get? key with
  | none => .ok none
  | some raw =>
    match read raw with
    | .ok v => .ok (some v)
    | .error reason => .error (.invalidValue key raw reason)

/-- Reads the text under a name, which has to be there. -/
def require {β : Type} (p : Parameters) (read : String → Except String β) (key : String) :
    Except ConfigError β :=
  match p.parse read key with
  | .error e => .error e
  | .ok none => .error (.missing key)
  | .ok (some v) => .ok v

/-- A reader of unsigned numbers of `bits` bits. -/
def natural (bits : Nat) (s : String) : Except String Nat :=
  (Text.Numeral.readNat bits s).mapError Text.Numeral.Fault.message

/-- A reader of the numbers of a range. -/
def integer (r : Text.Numeral.Range) (s : String) : Except String Int :=
  (Text.Numeral.read r s).mapError Text.Numeral.Fault.message

/-- A reader of truth values. -/
def truth (s : String) : Except String Bool :=
  if s = "true" then .ok true
  else if s = "false" then .ok false
  else .error "provided string was not \x60true\x60 or \x60false\x60"

end Parameters

end Pipework
