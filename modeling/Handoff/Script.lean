import Handoff.Completion
import Handoff.Failure
import Handoff.Value

/-!
# Scripts

A script is the program of a leaf: what it does when it is connected, the instructions it runs when
it is started, and what its drop leaves behind. The instructions may complete the leaf's receiver
more than once, too late or never, and may be put off to a later task.
-/

namespace Handoff

/-- A completion whose parts may depend on stored numbers. -/
inductive Delivery where
  | value (n : Num) (label : Option String)
  | error (e : Message)
  | done
  deriving DecidableEq, Repr

/-- The completion denoted in an environment, given by a run. -/
def Delivery.eval (env : Env) (giver : Option Nat) : Delivery → Completion Value Failure
  | value n label => .value ⟨n.eval env, .ofLabel label, giver⟩
  | error e => .error (.leaf (e.eval env))
  | done => .done

/-- One instruction of a script. -/
inductive Instr where
  /-- Complete the receiver. -/
  | complete (d : Delivery)
  /-- Complete the receiver and journal what that raises. -/
  | attempt (d : Delivery)
  /-- Journal what the receiver says about stop requests. -/
  | askStop
  /-- Complete with done and end, if a stop was requested. -/
  | stopDone
  /-- Journal who waits behind the receiver, as a term. -/
  | chain
  /-- Journal who waits behind the receiver, as a list. -/
  | info
  /-- Request a stop of a source. -/
  | request (source : Int)
  | log (s : String)
  /-- Journal a stored number. -/
  | peek (depth : Nat)
  /-- Change a stored number. -/
  | poke (depth : Nat) (n : Num)
  | raise (p : Payload)
  /-- Drop the receiver. -/
  | forget
  /-- Put the remaining instructions off to a task. -/
  | defer
  /-- Put other instructions off to a task. -/
  | later (steps : List Instr)

/-- What a script does when it is connected. -/
inductive Connecting where
  /-- Fill the place. -/
  | fill
  /-- Raise a payload and leave the place vacant. -/
  | raise (p : Payload)
  /-- Fill the place, then raise a payload. -/
  | half (p : Payload)
  /-- Complete at once and leave the place vacant, then raise a payload, if there is one. -/
  | deliver (d : Delivery) (p : Option Payload)
  deriving DecidableEq, Repr

/-- The program of a leaf. -/
structure Script where
  label : String
  connecting : Connecting
  start : List Instr
  /-- What dropping the operation raises. -/
  explode : Option Payload
  /-- The stored number that dropping the operation journals. -/
  peekOnDrop : Option Nat

end Handoff
