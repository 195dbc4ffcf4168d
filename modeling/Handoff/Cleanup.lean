/-!
# What an operation owns

A binding operation runs a predecessor and then a successor in the same storage. Its `Cleanup`
says what it owns at the moment, and so what dropping it has to destroy. A run moves it forward
along `predecessor`, `invalid`, `values`, `successor`, and may stop at any of them.
-/

namespace Handoff

/-- What a binding operation owns, and so what its drop destroys. -/
inductive Cleanup where
  /-- Amid the handoff from predecessor to successor: nothing can be torn down safely. -/
  | invalid
  /-- The predecessor operation. -/
  | predecessor
  /-- The stored value; no successor is complete. -/
  | values
  /-- The successor operation and the value that it may refer to. -/
  | successor
  deriving DecidableEq, Repr, Inhabited

namespace Cleanup

/-- The written name of a state. -/
def name : Cleanup → String
  | invalid => "Invalid"
  | predecessor => "PredecessorOp"
  | values => "Values"
  | successor => "SuccessorOpAndValues"

/-- The position of a state on the way of a handoff. -/
def stage : Cleanup → Nat
  | predecessor => 0
  | invalid => 1
  | values => 2
  | successor => 3

theorem stage_injective {a b : Cleanup} (h : a.stage = b.stage) : a = b := by
  cases a <;> cases b <;> first | rfl | cases h

end Cleanup

end Handoff
