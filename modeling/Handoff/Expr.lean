import Handoff.Script
import Handoff.Signature

/-!
# Programs

A program is a list of steps on numbered places, among them connecting an expression to a final
receiver. Expressions describe senders: inline completions, scripts, one of two alternatives, and a
predecessor bound to a factory. Final receivers may take steps themselves when they are completed,
so the three kinds of syntax refer to each other.
-/

namespace Handoff

/-- One thing a factory does before it builds its sender. -/
inductive Edit where
  /-- Add to its own stored value. -/
  | add (n : Num)
  /-- Replace its own stored value. -/
  | set (n : Num)
  | raise (p : Payload)
  | raiseIf (t : Condition) (p : Payload)
  | log (s : String)
  | peek (depth : Nat)
  | poke (depth : Nat) (n : Num)

/-- An expression for a sender. -/
inductive Expr where
  | value (n : Num) (label : Option String)
  | error (e : Message)
  | done
  | script (s : Script)
  /-- One of two alternatives, already decided. -/
  | arm (which : Arm) (e : Expr)
  /-- One of two alternatives, decided when the sender is built. -/
  | cond (t : Condition) (l r : Expr)
  /-- A predecessor, and a factory that has a label, edits stored values and then builds. -/
  | bind (p : Expr) (label : String) (edits : List Edit) (body : Expr)

mutual

/-- A final receiver. A plain one says nothing about stop requests and about who waits for it;
any other may name a stop source and lists those that wait for it, perhaps nobody. -/
inductive Observer where
  | mk (label : String) (plain : Bool) (stop : Option Int) (waiting : List Observer)
    (reaction : List Action)

/-- One thing a final receiver does when it is completed. -/
inductive Action where
  | raise (p : Payload)
  | log (s : String)
  | step (s : Step)

/-- One step on numbered places, numbered stop sources and the queue of tasks. -/
inductive Step where
  | connect (place : Int) (e : Expr) (r : Observer)
  | start (place : Int)
  | clear (place : Int)
  | vacant (place : Int)
  | pending
  | tick
  | drain
  | request (source : Int)
  | stopped (source : Int)
  | wait (e : Expr)

end

/-- The written name of a step. -/
def Step.name : Step → String
  | connect _ _ _ => "connect"
  | start _ => "start"
  | clear _ => "clear"
  | vacant _ => "vacant"
  | pending => "pending"
  | tick => "tick"
  | drain => "loop"
  | request _ => "request"
  | stopped _ => "stopped"
  | wait _ => "sync_wait"

/-- The place whose occupancy a step may change. -/
def Step.place? : Step → Option Int
  | connect p _ _ => some p
  | start p => some p
  | clear p => some p
  | _ => none

namespace Observer

def label : Observer → String
  | mk l _ _ _ _ => l

/-- Whether a receiver says nothing about stop requests and about who waits for it. -/
def isPlain : Observer → Bool
  | mk _ p _ _ _ => p

/-- The source that a stop request for this receiver comes from. -/
def stop : Observer → Option Int
  | mk _ _ k _ _ => k

def waiting : Observer → List Observer
  | mk _ _ _ w _ => w

def reaction : Observer → List Action
  | mk _ _ _ _ a => a

/-- The name under which a final receiver is listed. -/
def name (o : Observer) : String := if o.isPlain then "Plain" else "Final"

mutual

/-- The labels of a receiver and of those that wait for it, from the outside in. -/
def labels : Observer → List String
  | mk l _ _ w _ => l :: labelsAll w

/-- The labels of a list of receivers. -/
def labelsAll : List Observer → List String
  | [] => []
  | o :: rest => labels o ++ labelsAll rest

end

mutual

/-- The names of a receiver and of those that wait for it, from the outside in. -/
def names : Observer → List String
  | mk l p k w a => name (mk l p k w a) :: namesAll w

/-- The names of a list of receivers. -/
def namesAll : List Observer → List String
  | [] => []
  | o :: rest => names o ++ namesAll rest

end

mutual

/-- A receiver and those that wait for it, as a term. -/
def term : Observer → String
  | mk l p k w a =>
    match terms w with
    | [] => name (mk l p k w a)
    | ts => name (mk l p k w a) ++ "(" ++ ",".intercalate ts ++ ")"

/-- The terms of a list of receivers. -/
def terms : List Observer → List String
  | [] => []
  | o :: rest => term o :: terms rest

end

end Observer

end Handoff
