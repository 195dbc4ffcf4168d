import Handoff.Sender
import Handoff.Signature

/-!
# Chains

A chain is a sender without scripts, whose factories are functions of the stored number alone. Each
part of it promises a signature: `Chain.signature` is the promise of the whole, and `Chain.query` is
what it answers when asked for its blocking class. `Chain.sender` is the sender itself.
-/

namespace Handoff

/-- A journalled leaf of a chain. -/
structure Chain.Leaf where
  label : String
  completion : Completion Int64 String
  /-- The label under which the drop of its value is journalled. -/
  tracked : Option String := none
  deferred : Bool := false
  inspecting : Bool := false
  explodes : Bool := false
  deriving DecidableEq, Repr

/-- A sender without scripts, whose factories depend on the stored number alone. -/
inductive Chain where
  | ready (c : Completion Int64 String)
  | leaf (l : Chain.Leaf)
  | exploding (built : Option String)
  /-- The sender of one of two alternatives, with the promise of the other. -/
  | either (which : Arm) (c : Chain) (other : Signature)
  /-- A predecessor, what the factory raises for a stored number, if anything, and else the
  successor it builds, with the promise made for all successors. -/
  | bind (p : Chain) (raises : Int64 → Option Payload) (next : Int64 → Chain)
    (promised : Signature)

namespace Chain

/-- The completion of a leaf as a sender delivers it. -/
def deliver (tracked : Option String) (c : Completion Int64 String) : Completion Value Failure :=
  (c.map fun n => { n, note := tracked.elim .silent .tracked }).mapError .leaf

/-- A leaf of a chain as the leaf of a sender. -/
def Leaf.leaf (l : Leaf) : Handoff.Leaf where
  label := l.label
  completion := deliver l.tracked l.completion
  deferred := l.deferred
  inspecting := l.inspecting
  explodes := l.explodes

/-- The factory of a binding operation of a chain. -/
def factory (raises : Int64 → Option Payload) : Factory where
  call env := { env, raised := raises (innermost env) }

/-- The sender that a chain describes. -/
def sender : Chain → Sender
  | ready c => .ready (deliver none c)
  | leaf l => .leaf l.leaf
  | exploding built => .exploding built
  | either which c _ => .either which c.sender
  | bind p raises next _ => .bind p.sender (factory raises) fun env => (next (innermost env)).sender

/-- What a chain promises before it runs. -/
def signature : Chain → Signature
  | ready .done => .done
  | ready _ => .ready
  | leaf _ => .unspecified
  | exploding _ => .unspecified
  | either .left c other => c.signature.either other
  | either .right c other => other.either c.signature
  | bind p _ _ promised => p.signature.bind promised

/-- What a chain answers when asked for its blocking class. -/
def query : Chain → Blocking
  | ready _ => .alwaysInline
  | leaf l => if l.deferred then .never else .alwaysInline
  | exploding _ => .maybe
  | either _ c _ => c.query
  | bind p _ _ promised => .sequence p.query promised.blocking

/-- Whether a chain is a binding of a predecessor to a factory. -/
def isBind : Chain → Bool
  | bind _ _ _ _ => true
  | _ => false

end Chain

end Handoff
