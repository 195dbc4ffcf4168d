import Handoff.Binding

/-!
# The operations of a site

An operation has at most one live child, built inside it, so what a site holds is a list of layers,
outermost first: binding operations and alternatives, and at the end a leaf. The place of a child
is vacant if the list ends there. `Layer.dropAll` drops a list of layers from the outside: each
operation tears its child down first, in the order that its `Cleanup` demands, and a payload raised
by a leaf's drop travels outwards while the rest is dropped all the same.
-/

namespace Handoff

/-- One operation of a site, without the child inside it. -/
inductive Layer where
  /-- An inline completion, with its receiver, until it is started. -/
  | ready (serial : Nat) (held : Option (Completion Value Failure × Receiver))
  /-- A journalled leaf, with its receiver until it is started. -/
  | leaf (serial : Nat) (l : Leaf) (held : Option Receiver)
  /-- A scripted leaf, with its receiver until it is started. -/
  | script (serial : Nat) (s : Script) (held : Option Receiver)
  /-- The operation of one of two alternatives. -/
  | either (serial : Nat) (which : Arm)
  | bind (b : Binding)

/-- What dropping operations leaves behind: what happens, and the payload raised, if any. -/
structure Dropped where
  acts : List Act := []
  raised : Option Payload := none
  deriving DecidableEq, Repr

/-- Drop a binding operation around a child. A value whose successor is gone goes before the factory
and the receiver, unless dropping the successor raised a payload: then it goes last. -/
def Binding.drop (b : Binding) (child : Dropped) : Dropped :=
  let log := Act.logged b.serial (.tearingDown b.cleanup)
  let handed := b.dropFactory ++ dropHeld b.receiver
  match b.cleanup with
  | .invalid => { acts := log :: .logged b.serial .midHandoff :: (handed ++ b.dropValue) }
  | .predecessor => { child with acts := log :: (child.acts ++ (handed ++ b.dropValue)) }
  | .values | .successor =>
    match child.raised with
    | none => { child with acts := log :: (child.acts ++ (b.dropValue ++ handed)) }
    | some _ => { child with acts := log :: (child.acts ++ (handed ++ b.dropValue)) }

namespace Layer

/-- The kinds of operation that a numbered place tells apart. -/
inductive Kind where
  | ready | leaf | script | either | bind
  deriving DecidableEq, Repr

/-- The kind of a layer. -/
def kind : Layer → Kind
  | ready _ _ => .ready
  | leaf _ _ _ => .leaf
  | script _ _ _ => .script
  | either _ _ => .either
  | bind _ => .bind

/-- The number of a layer among the operations of its site. -/
def serial : Layer → Nat
  | ready k _ => k
  | leaf k _ _ => k
  | script k _ _ => k
  | either k _ => k
  | bind b => b.serial

/-- The number that a layer lends to the operations inside it. -/
def lent : Layer → Env
  | bind b => b.lent
  | _ => []

/-- The receiver that a layer holds, if any. -/
def receiver? : Layer → Option Receiver
  | ready _ held => held.map Prod.snd
  | leaf _ _ held => held
  | script _ _ held => held
  | either _ _ => none
  | bind b => b.receiver

/-- Drop a layer around its child. While a payload is on its way out no other is raised. -/
def drop (unwinding : Bool) (env : Env) (child : Dropped) : Layer → Dropped
  | ready _ held =>
    { child with acts := held.elim [] (fun h => dropCarried h.1 ++ h.2.drop) ++ child.acts }
  | leaf _ l held =>
    let undelivered := if held.isSome then dropCarried l.completion else []
    { acts := .dropped l.label :: (undelivered ++ dropHeld held ++ child.acts)
      raised := if l.explodes && !unwinding then some Fault.leafExploded.payload else child.raised }
  | script _ s held =>
    let seen := match s.peekOnDrop with
      | some d => Act.droppedSeeing s.label env[d]?
      | none => .dropped s.label
    { acts := seen :: (dropHeld held ++ child.acts)
      raised := if unwinding then child.raised else s.explode.or child.raised }
  | either _ _ => child
  | bind b => b.drop child

/-- Drop layers from the outside, among the stored numbers lent to the outermost. -/
def dropAll (unwinding : Bool) : Env → List Layer → Dropped
  | _, [] => {}
  | env, l :: rest =>
    let d := l.drop unwinding env (dropAll unwinding (l.lent ++ env) rest)
    { d with acts := d.acts ++ [.closed l.serial] }

/-- The stored numbers that layers lend to what is inside them, innermost first. -/
def scope (ls : List Layer) : Env := (ls.flatMap lent).reverse

/-- Write stored numbers, outermost first, back to the layers that lend them. -/
def writeBack : Env → List Layer → List Layer
  | _, [] => []
  | ns, l :: rest =>
    match l, l.lent, ns with
    | bind b, _ :: _, n :: ns => bind (b.restore [n]) :: writeBack ns rest
    | l, _, ns => l :: writeBack ns rest

/-- The receivers that a completion goes through, from a receiver outwards: a handle leads to the
receiver of the operation it points into, as long as that has one. -/
def trail (ls : List Layer) : Nat → Receiver → List Receiver
  | n + 1, r@(.child _ _ i) =>
    match ls[i]? with
    | some (bind b) => r :: b.receiver.elim [] (trail ls n)
    | _ => [r]
  | _, r => [r]

/-! ### Dropping and scopes of lists -/

@[simp] theorem dropAll_nil (unwinding : Bool) (env : Env) : dropAll unwinding env [] = {} := rfl

@[simp] theorem scope_nil : scope [] = [] := rfl

@[simp] theorem length_writeBack (ns : Env) (ls : List Layer) :
    (writeBack ns ls).length = ls.length := by
  induction ls generalizing ns with
  | nil => rfl
  | cons l rest ih =>
    simp only [writeBack]
    split <;> simp [ih]

/-- Writing back the numbers that were lent changes nothing. -/
theorem writeBack_lent (ls : List Layer) : writeBack (ls.flatMap lent) ls = ls := by
  induction ls with
  | nil => rfl
  | cons l rest ih =>
    cases l with
    | bind b =>
      cases hs : b.storage <;> cases hv : b.value <;>
        simp_all [writeBack, lent, Binding.lent, Binding.stored, Binding.restore]
      rw [← hv, ← hs]
    | _ => simp_all [writeBack, lent]

end Layer

/-- The kind of operation that connecting a sender builds. -/
def Sender.kind : Sender → Layer.Kind
  | ready _ => .ready
  | leaf _ => .leaf
  | exploding _ => .leaf
  | script _ => .script
  | either _ _ => .either
  | bind _ _ _ => .bind

end Handoff
