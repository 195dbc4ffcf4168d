import Handoff.Cleanup
import Handoff.Text.Quoted

/-!
# Raised payloads

Code that gives up raises a payload, which travels outwards until something catches it. A payload
is a text or a number; only a text has a message. The library's own faults are listed as `Fault`,
with their wording in `Fault.message`.
-/

namespace Handoff

/-- What is raised when code gives up. -/
inductive Payload where
  | text (s : String)
  | number (n : Int64)
  deriving DecidableEq, Repr

namespace Payload

/-- The message of a payload, if it is a text. -/
def message : Payload → Option String
  | text s => some s
  | number _ => none

/-- How a caught payload reads. -/
def display (p : Payload) : String :=
  match p.message with
  | some m => "panicked: " ++ m
  | none => "panicked"

/-- The written form of a caught payload. -/
def debug (p : Payload) : String :=
  match p.message with
  | some m => "Panic \x7b message: Some(" ++ Text.quote m ++ ") \x7d"
  | none => "Panic \x7b message: None \x7d"

end Payload

/-- The faults of operations, slots and receivers. -/
inductive Fault where
  /-- A slot without an operation was started. -/
  | vacantStart
  /-- A slot with an operation was connected into. -/
  | occupiedConnect
  /-- An inline operation was started again. -/
  | readyRestarted
  /-- A binding operation was started after its handoff. -/
  | bindRestarted
  /-- A binding operation was completed after it had used its receiver. -/
  | bindCompleted
  /-- A binding operation was to call its factory again. -/
  | factoryConsumed
  /-- A child completed a binding operation that was not in the expected state. -/
  | wrongState (actual expected : Cleanup)
  /-- A blocked caller's receiver was lost without a completion. -/
  | receiverLost
  /-- A journalled leaf was started again. -/
  | leafRestarted
  /-- A journalled leaf was dropped. -/
  | leafExploded
  /-- A leaf was connected that cannot be. -/
  | connectExploded
  /-- A scripted operation was started again. -/
  | scriptRestarted
  /-- A script had no receiver left to complete. -/
  | receiverConsumed
  deriving DecidableEq, Repr

/-- The wording of a failed comparison of two written values. -/
def assertionFailed (claim left right : String) : String :=
  "assertion `left == right` failed: " ++ claim ++ "\n  left: " ++ left ++ "\n right: " ++ right

namespace Fault

/-- The wording of each fault. -/
def message : Fault → String
  | vacantStart => "started a vacant operation slot"
  | occupiedConnect => "connected into an occupied slot"
  | readyRestarted => "Ready started more than once"
  | bindRestarted => "let_value operation started more than once"
  | bindCompleted => "let_value completed more than once"
  | factoryConsumed => "let_value factory already consumed"
  | wrongState actual expected =>
    assertionFailed "let_value completion arrived in the wrong state" actual.name expected.name
  | receiverLost => "sync_wait: operation dropped its receiver without completing"
  | leafRestarted => "scripted operation started twice"
  | leafExploded => "drop exploded"
  | connectExploded => "connect exploded"
  | scriptRestarted => "script started twice"
  | receiverConsumed => "script receiver already consumed"

/-- A fault as it is raised. -/
def payload (f : Fault) : Payload := .text f.message

end Fault

end Handoff
