import Handoff.Text.Written

/-!
# Values

A value on its way between operations is a number together with what dropping it leaves in the
journal. A factory refers to the values stored by the operations around it by their depth; such a
list of numbers, innermost first, is an environment. Arithmetic wraps to 64 bits.
-/

namespace Handoff

/-- What dropping a value leaves in the journal. -/
inductive Note where
  | silent
  /-- The label, with the number the value has by then. -/
  | numbered (label : String)
  /-- The label alone. -/
  | tracked (label : String)
  deriving DecidableEq, Repr

/-- The note for an optional label, where an empty label says nothing. -/
def Note.ofLabel : Option String → Note
  | some "" => silent
  | some label => numbered label
  | none => silent

/-- A number on its way between operations. -/
structure Value where
  n : Int64
  note : Note := .silent
  /-- The run of a script that delivered the value, if one did. -/
  giver : Option Nat := none
  deriving DecidableEq, Repr

/-- The entry that dropping a value leaves, if any. -/
def Value.dropText (v : Value) : Option String :=
  match v.note with
  | .silent => none
  | .numbered label => some ("drop value " ++ label ++ " = " ++ Text.decimal v.n)
  | .tracked label => some ("drop " ++ label)

/-- Stored numbers by depth, innermost first. -/
abbrev Env := List Int64

/-- The innermost stored number; an empty environment reads zero. -/
def innermost : Env → Int64
  | [] => 0
  | n :: _ => n

@[simp] theorem innermost_cons (n : Int64) (env : Env) : innermost (n :: env) = n := rfl

/-- A number that may depend on a stored one; a depth outside the environment reads zero. -/
inductive Num where
  | const (n : Int64)
  | stored (depth : Nat) (mul add : Int64)
  deriving DecidableEq, Repr

/-- The number denoted in an environment. -/
def Num.eval (env : Env) : Num → Int64
  | const n => n
  | stored d mul add => env.getD d 0 * mul + add

/-- How two numbers are compared. -/
inductive Comparison where
  | lt | gt | eq
  deriving DecidableEq, Repr

/-- A comparison of two numbers that may depend on stored ones. -/
structure Condition where
  comparison : Comparison
  left : Num
  right : Num
  deriving DecidableEq, Repr

/-- Whether a comparison holds in an environment. -/
def Condition.holds (env : Env) (t : Condition) : Bool :=
  match t.comparison with
  | .lt => t.left.eval env < t.right.eval env
  | .gt => t.right.eval env < t.left.eval env
  | .eq => t.left.eval env == t.right.eval env

/-- A text, or a number written in decimal. -/
inductive Message where
  | text (s : String)
  | number (n : Num)
  deriving DecidableEq, Repr

/-- The text denoted in an environment. -/
def Message.eval (env : Env) : Message → String
  | text s => s
  | number n => Text.decimal (n.eval env)

end Handoff
