import Handoff.Blocking

/-!
# Completion signatures

Before anything runs, a sender promises its blocking class, whether it may complete with done and
whether it completes where it was started. `Signature.bind` and `Signature.either` combine the
promises of parts. A `Shape` is a tree of such parts; `Shape.signature` is its promise, and
`Shape.query` is what a particular sender of that shape answers when asked for its class: it may
know more about the leaf that runs first, and knows no more than the promise of all that come after.
-/

namespace Handoff

/-- One of two alternatives. -/
inductive Arm where
  | left
  | right
  deriving DecidableEq, Repr

/-- What a sender promises before it runs. -/
structure Signature where
  blocking : Blocking
  /-- Whether it may complete with done. -/
  sendsDone : Bool
  /-- Whether it always completes on the execution context it was started on. -/
  schedulerAffine : Bool
  deriving DecidableEq, Repr

namespace Signature

/-- The promise of a sender that says nothing about itself. -/
def unspecified : Signature := ⟨.maybe, true, false⟩

/-- The promise of an inline value or error. -/
def ready : Signature := ⟨.alwaysInline, false, true⟩

/-- The promise of an inline done. -/
def done : Signature := ⟨.alwaysInline, true, true⟩

/-- The promise of a predecessor followed by a successor. -/
def bind (p s : Signature) : Signature where
  blocking := .sequence p.blocking s.blocking
  sendsDone := p.sendsDone || s.sendsDone
  schedulerAffine := p.schedulerAffine && s.schedulerAffine

/-- The promise of one of two senders. -/
def either (l r : Signature) : Signature where
  blocking := .either l.blocking r.blocking
  sendsDone := l.sendsDone || r.sendsDone
  schedulerAffine := l.schedulerAffine && r.schedulerAffine

end Signature

/-- A sender reduced to what its signature depends on. -/
inductive Shape where
  /-- A leaf, with its promise and with the class that it answers when asked. -/
  | leaf (promise : Signature) (answer : Blocking)
  /-- A predecessor and the successor that its value leads to. -/
  | bind (p s : Shape)
  /-- Two alternatives, of which the one named is taken. -/
  | either (l r : Shape) (active : Arm)
  deriving Repr

namespace Shape

/-- The promise of a shape. -/
def signature : Shape → Signature
  | leaf promise _ => promise
  | bind p s => p.signature.bind s.signature
  | either l r _ => l.signature.either r.signature

/-- The class that a sender of this shape answers when asked. -/
def query : Shape → Blocking
  | leaf _ answer => answer
  | bind p s => .sequence p.query s.signature.blocking
  | either l _ .left => l.query
  | either _ r .right => r.query

/-- A leaf that answers what it promises. -/
def plain (promise : Signature) : Shape := .leaf promise promise.blocking

@[simp] theorem signature_plain (σ : Signature) : (plain σ).signature = σ := rfl

@[simp] theorem query_plain (σ : Signature) : (plain σ).query = σ.blocking := rfl

end Shape

end Handoff
