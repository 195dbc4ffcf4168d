import Handoff.Event
import Handoff.Expr

/-!
# Senders

A sender is work that has been described and not yet connected. Leaves complete inline, run a
script, or are the journalled leaves of a bench; `bind` runs a predecessor and then the sender that
its factory builds from the stored numbers, its own innermost. `Expr.sender` builds the sender of
an expression: what lies outside factories is evaluated at once, what lies inside waits for the
factory to be called.
-/

namespace Handoff

/-- A journalled leaf with a fixed completion. -/
structure Leaf where
  label : String
  completion : Completion Value Failure
  /-- Whether it completes from a task and not inside its start. -/
  deferred : Bool := false
  /-- Whether it lists at its start who waits behind its receiver. -/
  inspecting : Bool := false
  /-- Whether dropping its operation raises a payload. -/
  explodes : Bool := false
  deriving DecidableEq, Repr

/-- What calling a factory leads to, short of the sender it builds. -/
structure Called where
  /-- The stored numbers afterwards. -/
  env : Env
  remarks : List String := []
  raised : Option Payload := none
  deriving DecidableEq, Repr

/-- What makes the successor of a binding operation, short of the sender it builds. -/
structure Factory where
  /-- The label under which the factory is journalled. -/
  label : Option String := none
  /-- What calling it does with the stored numbers. -/
  call : Env → Called

/-- Work that has been described and not yet connected. -/
inductive Sender where
  /-- A completion that is delivered inline. -/
  | ready (c : Completion Value Failure)
  | leaf (l : Leaf)
  /-- A leaf whose connect raises a payload, perhaps after building an operation of that label. -/
  | exploding (built : Option String)
  | script (s : Script)
  /-- The sender of one of two alternatives. -/
  | either (which : Arm) (s : Sender)
  /-- A predecessor, a factory, and the sender built from the stored numbers it leaves. -/
  | bind (p : Sender) (f : Factory) (next : Env → Sender)

/-- The drop of a value as it is recorded. -/
def Value.drop (v : Value) : List Act := [.valueDropped v.dropText]

/-- The drop of the value that a completion carries, if any. -/
def dropCarried (c : Completion Value Failure) : List Act :=
  c.value?.elim [] Value.drop

/-- The drop of a factory that was not called. -/
def Factory.drop (f : Factory) : List Act := (f.label.map Act.uncalled).toList

namespace Sender

/-- The drop of a sender that was not connected. -/
def drop : Sender → List Act
  | ready c => dropCarried c
  | leaf l => dropCarried l.completion
  | exploding _ => []
  | script _ => []
  | either _ s => s.drop
  | bind p f _ => p.drop ++ f.drop

/-- The written form of a sender on one line. -/
def debug : Sender → String
  | either .left s => "Left(" ++ s.debug ++ ")"
  | either .right s => "Right(" ++ s.debug ++ ")"
  | bind p _ _ =>
    "LetValue \x7b predecessor: " ++ p.debug ++ ", return_address: <location>, .. \x7d"
  | ready _ => "Leaf"
  | leaf _ => "Leaf"
  | exploding _ => "Leaf"
  | script _ => "Leaf"

/-- The start of a line at a depth of nesting. -/
def newline (depth : Nat) : String := "\n" ++ String.join (List.replicate depth "    ")

/-- The written form of a sender with one part a line. -/
def pretty (depth : Nat) : Sender → String
  | either which s =>
    let head := match which with
      | .left => "Left("
      | .right => "Right("
    head ++ newline (depth + 1) ++ s.pretty (depth + 1) ++ "," ++ newline depth ++ ")"
  | bind p _ _ =>
    "LetValue \x7b" ++ newline (depth + 1) ++ "predecessor: " ++ p.pretty (depth + 1) ++ ","
      ++ newline (depth + 1) ++ "return_address: <location>," ++ newline (depth + 1) ++ ".."
      ++ newline depth ++ "\x7d"
  | ready _ => "Leaf"
  | leaf _ => "Leaf"
  | exploding _ => "Leaf"
  | script _ => "Leaf"

end Sender

/-! ### Building -/

/-- Carry out what a factory does before it builds, up to the first payload it raises. -/
def runEdits (label : String) : List Edit → Env → Called
  | [], env => { env }
  | e :: rest, env =>
    let go (env : Env) := runEdits label rest env
    let say (text : String) :=
      let c := go env
      { c with remarks := text :: c.remarks }
    match e with
    | .add n => go (env.modify 0 (· + n.eval env))
    | .set n => go (env.set 0 (n.eval env))
    | .raise p => { env, raised := some p }
    | .raiseIf t p => if t.holds env then { env, raised := some p } else go env
    | .log s => say (label ++ ": " ++ s)
    | .peek d => say (label ++ " peek " ++ Text.decimal? env[d]?)
    | .poke d n => go (env.set d (n.eval env))

/-- Build the sender of an expression among stored numbers. -/
def Expr.sender (env : Env) : Expr → Sender
  | value n label => .ready (.value { n := n.eval env, note := .ofLabel label })
  | error e => .ready (.error (.leaf (e.eval env)))
  | done => .ready .done
  | script s => .script s
  | arm which e => .either which (e.sender env)
  | cond t l r =>
    if t.holds env then .either .left (l.sender env) else .either .right (r.sender env)
  | bind p label edits body =>
    .bind (p.sender env) { label := some label, call := runEdits label edits }
      fun env => body.sender env

end Handoff
