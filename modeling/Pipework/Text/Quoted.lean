import Pipework.Text.Unprintable

/-!
# Quoted text

How a name is shown inside a description such as `StageQueue { name: "q", .. }`: between double
quotes, with quotes, backslashes and line controls behind a backslash and characters that leave no
mark as `\u{..}`.
-/

namespace Pipework.Text

/-- One character of quoted text. -/
def quoteChar (c : Char) : String :=
  if c = '\x00' then "\\0"
  else if c = '\t' then "\\t"
  else if c = '\r' then "\\r"
  else if c = '\n' then "\\n"
  else if c = '\x22' then "\x5c\x22"
  else if c = '\x5c' then "\x5c\x5c"
  else if isUnprintable c then "\\u\x7b" ++ String.ofList (Nat.toDigits 16 c.toNat) ++ "\x7d"
  else c.toString

/-- A text between double quotes, escaped. -/
def quote (s : String) : String :=
  "\x22" ++ s.foldl (fun acc c => acc ++ quoteChar c) "" ++ "\x22"

/-- Truth values as descriptions show them. -/
def truth (b : Bool) : String := if b then "true" else "false"

end Pipework.Text
