/-!
# Written truth values and numbers

Truth values are written in lower case, numbers in decimal with a sign if they are negative.
-/

namespace Handoff.Text

/-- A truth value in lower case. -/
def truth (b : Bool) : String := if b then "true" else "false"

/-- A number in decimal. -/
def decimal (n : Int64) : String := toString n.toInt

/-- A count in decimal. -/
def count (n : Nat) : String := toString n

/-- A number that may be missing. -/
def decimal? : Option Int64 → String
  | some n => decimal n
  | none => "none"

end Handoff.Text
