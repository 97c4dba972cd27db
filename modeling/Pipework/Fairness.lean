import Pipework.Text.Blank

/-!
# Fairness

Whether a worker may keep a stage that is making progress. Under `sticky n` it keeps it for up to
`n` assignments in a row, under `roundRobin` it hands it back every time.
-/

namespace Pipework

/-- How long a worker may stay with a stage. -/
inductive Fairness where
  | sticky (maxStreak : Nat)
  | roundRobin
  deriving DecidableEq, Repr

namespace Fairness

/-- Eight assignments in a row, unless something else is asked for. -/
def standard : Fairness := .sticky 8

instance : Inhabited Fairness := ⟨standard⟩

/-- The name of a policy. -/
def text : Fairness → String
  | .sticky _ => "sticky"
  | .roundRobin => "round_robin"

/-- A policy as descriptions show it. -/
def describe : Fairness → String
  | .sticky n => "Sticky \x7b max_streak: " ++ toString n ++ " \x7d"
  | .roundRobin => "RoundRobin"

/-- Reads the name of a policy, whatever its case and the blanks around it. -/
def parse (s : String) : Except String Fairness :=
  match Text.lower (Text.trim s) with
  | "sticky" => .ok standard
  | "round_robin" => .ok .roundRobin
  | "round-robin" => .ok .roundRobin
  | "roundrobin" => .ok .roundRobin
  | other => .error ("unknown fairness policy '" ++ other ++ "' (expected sticky or round_robin)")

end Fairness

end Pipework
