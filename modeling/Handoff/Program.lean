import Handoff.Machine

/-!
# Running a program

A program is a list of steps. Each step is a call on the world, made by a machine that starts with
an empty stack, and `World.call` says how it ends. A run reports for each step what it answered or
raised and what the journal says of it; then each place is cleared, in the order of their keys, and
at last the tasks still queued are dropped. The number of moves that a machine is given follows
from the size of the program: every instruction, step and operation is worked off at most once, and
for each the machine moves at most a fixed number of times per level of nesting.
-/

namespace Handoff

/-! ### Sizes -/

mutual

/-- The number of instructions in an instruction. -/
def Instr.size : Instr → Nat
  | .later steps => 1 + Instr.sizeAll steps
  | _ => 1

/-- The number of instructions in a list of them. -/
def Instr.sizeAll : List Instr → Nat
  | [] => 0
  | i :: rest => i.size + Instr.sizeAll rest

end

/-- The number of operations, edits and instructions in an expression. -/
def Expr.size : Expr → Nat
  | .script s => 1 + Instr.sizeAll s.start
  | .arm _ e => 1 + e.size
  | .cond _ l r => 1 + l.size + r.size
  | .bind p _ edits body => 1 + p.size + edits.length + body.size
  | _ => 1

mutual

/-- The number of steps and operations in a final receiver. -/
def Observer.size : Observer → Nat
  | .mk _ _ _ waiting reaction => 1 + Observer.sizeAll waiting + Action.sizeAll reaction

/-- The number of steps and operations in a list of final receivers. -/
def Observer.sizeAll : List Observer → Nat
  | [] => 0
  | o :: rest => o.size + Observer.sizeAll rest

/-- The number of steps and operations in an action. -/
def Action.size : Action → Nat
  | .step s => 1 + s.size
  | .raise _ => 1
  | .log _ => 1

/-- The number of steps and operations in a list of actions. -/
def Action.sizeAll : List Action → Nat
  | [] => 0
  | a :: rest => a.size + Action.sizeAll rest

/-- The number of steps and operations in a step. -/
def Step.size : Step → Nat
  | .connect _ e r => 1 + e.size + r.size
  | .wait e => 1 + e.size
  | .start _ => 1
  | .clear _ => 1
  | .vacant _ => 1
  | .pending => 1
  | .tick => 1
  | .drain => 1
  | .request _ => 1
  | .stopped _ => 1

end

/-! ### Calls -/

/-- How a call ends. -/
inductive Outcome where
  | answered (r : Reply)
  | raised (p : Payload)
  /-- The machine ran out of moves. -/
  | unfinished
  deriving DecidableEq, Repr

/-- How a machine has ended, if it has. -/
def Config.outcome (c : Config) : Outcome :=
  match c.control, c.stack with
  | .done r, [] => .answered r
  | .raised p, [] => .raised p
  | _, _ => .unfinished

/-- Make a call on the world, with a number of moves. -/
def World.call (w : World) (moves : Nat) (c : Call) : World × Outcome :=
  let final := Config.run moves ⟨w, .call c, []⟩
  (final.world, final.outcome)

/-! ### Programs -/

/-- What is reported of one step. -/
structure Report where
  outcome : Outcome
  journal : List Entry
  /-- Whether the place that the step was about is vacant afterwards. -/
  vacant : Option Bool := none
  deriving DecidableEq, Repr

/-- A list of steps, with log records in the journal or without. -/
structure Program where
  logging : Bool
  steps : List Step

/-- What a run reports. -/
structure Transcript where
  steps : List Report
  /-- One report for each place, by its key, when it is cleared at the end. -/
  places : List (Int × Report)
  /-- The journal of the tasks that are dropped at the end. -/
  tasks : List Entry
  deriving DecidableEq, Repr

namespace Program

/-- The number of moves that suffice for each step of a program. -/
def moves (p : Program) : Nat :=
  let size := p.steps.foldl (fun n s => n + s.size) 4
  64 * size * size

/-- The journal of what has happened in a world after an earlier one. -/
def journalSince (logging : Bool) (before after : World) : List Entry :=
  journal logging (after.events.drop before.events.length)

/-- Carry out one step and report it. -/
def perform (logging : Bool) (moves : Nat) (w : World) (s : Step) : World × Report :=
  let (w', outcome) := w.call moves s.call
  (w', { outcome,
         journal := journalSince logging w w',
         vacant := s.place?.map fun p => w'.isVacant (.place p) 0 })

/-- Carry out a list of steps and report each. -/
def performAll (logging : Bool) (moves : Nat) (w : World) : List Step → World × List Report
  | [] => (w, [])
  | s :: rest =>
    let (w', report) := perform logging moves w s
    let (w'', reports) := performAll logging moves w' rest
    (w'', report :: reports)

/-- Clear places and report each. -/
def clearAll (logging : Bool) (moves : Nat) (w : World) : List Int → World × List (Int × Report)
  | [] => (w, [])
  | k :: rest =>
    let (w', report) := perform logging moves w (.clear k)
    let (w'', reports) := clearAll logging moves w' rest
    (w'', (k, { report with vacant := none }) :: reports)

/-- Run a program in an empty world. -/
def run (p : Program) : Transcript :=
  let (w, steps) := performAll p.logging p.moves {} p.steps
  let (w, places) := clearAll p.logging p.moves w w.places.keys
  let dropped := w.queue.flatMap fun t => t.drop.map (Event.mk t.site?)
  { steps, places, tasks := journal p.logging dropped }

end Program

end Handoff
