import Handoff.World

/-!
# Configurations

Completions re-enter operations that are still being started or connected, so a run is given by an
abstract machine with an explicit stack. A `Config` is a world, a `Control` that says what is done
next, and a stack of `Frame`s, innermost first, that say what is done when that returns or raises a
payload.
-/

namespace Handoff

/-- A call that a host makes on the world. -/
inductive Call where
  | connect (place : Int) (s : Sender) (r : Receiver)
  | start (place : Int)
  | clear (place : Int)
  | vacant (place : Int)
  | pending
  /-- Run the first task of the queue. -/
  | tick
  /-- Run tasks until none is left. -/
  | drain
  | request (source : Int)
  | stopped (source : Int)
  | schedule (j : Job)
  /-- Connect and start a sender and block until it completes. -/
  | wait (s : Sender)

/-- The call that a step of a program stands for. -/
def Step.call : Step → Call
  | connect p e r => .connect p (e.sender []) (.observer (.place p) r)
  | start p => .start p
  | clear p => .clear p
  | vacant p => .vacant p
  | pending => .pending
  | tick => .tick
  | drain => .drain
  | request k => .request k
  | stopped k => .stopped k
  | wait e => .wait (e.sender [])

/-- What a machine does next. -/
inductive Control where
  /-- Connect a sender to a receiver in the slot at a height of a site. -/
  | connect (s : Sender) (r : Receiver) (site : Site) (height : Nat)
  /-- Start the slot at a height of a site. -/
  | start (site : Site) (height : Nat)
  /-- Complete a receiver. -/
  | complete (r : Receiver) (c : Completion Value Failure)
  /-- Call the factory at a height of a site, whose predecessor is gone. -/
  | build (site : Site) (height : Nat)
  /-- Go on with what a final receiver does when it is completed. -/
  | react (home : Site) (label : String) (actions : List Action)
  /-- Go on with a run of a script. -/
  | follow (r : Run) (steps : List Instr)
  | call (c : Call)
  | task (t : Task)
  /-- Return with an answer. -/
  | done (r : Reply)
  /-- Raise a payload. -/
  | raised (p : Payload)

/-- What is done when the control above returns or raises a payload. -/
inductive Frame where
  /-- If a payload is raised, vacate the slot at a height of a site. -/
  | guard (site : Site) (height : Nat)
  /-- Start the successor that was built at a height of a site, or report the payload raised. -/
  | handoff (site : Site) (height : Nat)
  /-- Go on with a run of a script. -/
  | script (r : Run) (rest : List Instr)
  /-- Journal the payload raised and go on with a run of a script. -/
  | attempt (r : Run) (rest : List Instr)
  /-- Raise a payload, if there is one. -/
  | thenRaise (p : Option Payload)
  /-- Drop what a completion carries. -/
  | discard (site : Site) (c : Completion Value Failure)
  /-- Drop what a completion carries and the receivers that waited for it. -/
  | settle (home : Site) (c : Completion Value Failure) (waiting : List Observer)
  /-- Journal a step of a final receiver and go on with the rest. -/
  | acting (home : Site) (label step : String) (rest : List Action)
  /-- Return an answer. -/
  | answer (r : Reply)
  /-- Run the next task of the queue. -/
  | draining
  /-- Start the operation of a blocked caller. -/
  | waitConnected
  /-- Run the queue until the blocked caller can go on. -/
  | waitStarted
  /-- Give up the operation of a blocked caller that was not completed. -/
  | waitDrained
  /-- Unblock the caller. -/
  | waitOver

/-- A machine at work. -/
structure Config where
  world : World
  control : Control
  stack : List Frame := []

namespace Machine

/-- Raise a fault. -/
def fault (w : World) (f : Fault) (K : List Frame) : Config := ⟨w, .raised f.payload, K⟩

/-- Return without an answer. -/
def finish (w : World) (K : List Frame) : Config := ⟨w, .done .nothing, K⟩

/-- Return, or raise a payload if there is one. -/
def finishOr (w : World) (raised : Option Payload) (K : List Frame) : Config :=
  match raised with
  | none => finish w K
  | some p => ⟨w, .raised p, K⟩

@[simp] theorem finishOr_none (w : World) (K : List Frame) : finishOr w none K = finish w K := rfl

@[simp] theorem finishOr_some (w : World) (p : Payload) (K : List Frame) :
    finishOr w (some p) K = ⟨w, .raised p, K⟩ := rfl

end Machine

end Handoff
