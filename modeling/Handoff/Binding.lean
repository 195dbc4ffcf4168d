import Handoff.Receiver

/-!
# Binding operations

A binding operation keeps a predecessor and, later on, the successor made from its value, in the
same storage. The small steps of a handoff are `store`, `vacate`, `call`, `emplace` and `settle`, in
this order; using up the receiver (`spend`) is apart from them. Each step moves the `Cleanup` on or
leaves it, and says exactly what has become of the other fields.
-/

namespace Handoff

/-- Whose turn the shared storage of a binding operation is. -/
inductive Storage where
  | vacant
  | predecessor
  | successor
  deriving DecidableEq, Repr

/-- An operation that runs a predecessor and then the successor made from its value. -/
structure Binding where
  /-- The number of the operation among those of its site. -/
  serial : Nat
  /-- The factory and what it builds, until it is called. -/
  factory : Option (Factory × (Env → Sender))
  /-- The receiver, until it is completed. -/
  receiver : Option Receiver
  /-- The value of the predecessor, once there is one. -/
  value : Option Value := none
  storage : Storage := .predecessor
  cleanup : Cleanup := .predecessor

namespace Binding

/-! ### The steps of a handoff -/

/-- Keep the value of the predecessor. Until the predecessor operation is gone, nothing can be torn
down. -/
def store (b : Binding) (v : Value) : Binding :=
  { b with value := some v, cleanup := .invalid }

/-- Give up the child in the storage. -/
def vacate (b : Binding) : Binding := { b with storage := .vacant }

/-- Take the factory out, to call it. -/
def call (b : Binding) : Binding := { b with factory := none, cleanup := .values }

/-- Make room for the successor in the storage. -/
def emplace (b : Binding) : Binding := { b with storage := .successor }

/-- The successor is complete. -/
def settle (b : Binding) : Binding := { b with cleanup := .successor }

/-- Take the receiver out, to complete it. -/
def spend (b : Binding) : Binding := { b with receiver := none }

/-! ### The stored number -/

/-- The stored number, if there is one, as an environment. -/
def stored (b : Binding) : Env := (b.value.map Value.n).toList

/-- Change the stored number to the innermost one of an environment. -/
def restore (b : Binding) : Env → Binding
  | [] => b
  | n :: _ => { b with value := b.value.map fun v => { v with n } }

/-- The stored number, while a successor may refer to it. -/
def lent (b : Binding) : Env :=
  match b.storage with
  | .successor => b.stored
  | .predecessor => []
  | .vacant => []

/-- Whether the stored value was delivered by a run of a script. -/
def keepsValueOf (b : Binding) (run : Nat) : Bool := b.value.any fun v => v.giver = some run

/-! ### Dropping -/

/-- The drop of a factory that was not called. -/
def dropFactory (b : Binding) : List Act := b.factory.elim [] fun f => f.1.drop

/-- The drop of a stored value. -/
def dropValue (b : Binding) : List Act :=
  b.value.elim [] fun v => v.drop ++ [.released b.serial]

/-! ### What each step does to the fields -/

section Fields

variable (b : Binding) (v : Value) (env : Env)

@[simp] theorem serial_store : (b.store v).serial = b.serial := rfl

@[simp] theorem serial_vacate : b.vacate.serial = b.serial := rfl

@[simp] theorem serial_call : b.call.serial = b.serial := rfl

@[simp] theorem serial_emplace : b.emplace.serial = b.serial := rfl

@[simp] theorem serial_settle : b.settle.serial = b.serial := rfl

@[simp] theorem serial_spend : b.spend.serial = b.serial := rfl

@[simp] theorem serial_restore : (b.restore env).serial = b.serial := by
  cases env <;> rfl

@[simp] theorem receiver_store : (b.store v).receiver = b.receiver := rfl

@[simp] theorem receiver_vacate : b.vacate.receiver = b.receiver := rfl

@[simp] theorem receiver_call : b.call.receiver = b.receiver := rfl

@[simp] theorem receiver_emplace : b.emplace.receiver = b.receiver := rfl

@[simp] theorem receiver_settle : b.settle.receiver = b.receiver := rfl

@[simp] theorem receiver_spend : b.spend.receiver = none := rfl

@[simp] theorem receiver_restore : (b.restore env).receiver = b.receiver := by
  cases env <;> rfl

@[simp] theorem storage_store : (b.store v).storage = b.storage := rfl

@[simp] theorem storage_vacate : b.vacate.storage = .vacant := rfl

@[simp] theorem storage_call : b.call.storage = b.storage := rfl

@[simp] theorem storage_emplace : b.emplace.storage = .successor := rfl

@[simp] theorem storage_settle : b.settle.storage = b.storage := rfl

@[simp] theorem storage_spend : b.spend.storage = b.storage := rfl

@[simp] theorem storage_restore : (b.restore env).storage = b.storage := by
  cases env <;> rfl

@[simp] theorem factory_store : (b.store v).factory = b.factory := rfl

@[simp] theorem factory_vacate : b.vacate.factory = b.factory := rfl

@[simp] theorem factory_call : b.call.factory = none := rfl

@[simp] theorem factory_emplace : b.emplace.factory = b.factory := rfl

@[simp] theorem factory_settle : b.settle.factory = b.factory := rfl

@[simp] theorem factory_spend : b.spend.factory = b.factory := rfl

@[simp] theorem factory_restore : (b.restore env).factory = b.factory := by
  cases env <;> rfl

@[simp] theorem value_store : (b.store v).value = some v := rfl

@[simp] theorem value_vacate : b.vacate.value = b.value := rfl

@[simp] theorem value_call : b.call.value = b.value := rfl

@[simp] theorem value_emplace : b.emplace.value = b.value := rfl

@[simp] theorem value_settle : b.settle.value = b.value := rfl

@[simp] theorem value_spend : b.spend.value = b.value := rfl

@[simp] theorem isSome_value_restore : (b.restore env).value.isSome = b.value.isSome := by
  cases env <;> simp [restore]

@[simp] theorem cleanup_restore : (b.restore env).cleanup = b.cleanup := by
  cases env <;> rfl

end Fields

@[simp] theorem cleanup_store (b : Binding) (v : Value) : (b.store v).cleanup = .invalid := rfl

@[simp] theorem cleanup_vacate (b : Binding) : b.vacate.cleanup = b.cleanup := rfl

@[simp] theorem cleanup_call (b : Binding) : b.call.cleanup = .values := rfl

@[simp] theorem cleanup_emplace (b : Binding) : b.emplace.cleanup = b.cleanup := rfl

@[simp] theorem cleanup_settle (b : Binding) : b.settle.cleanup = .successor := rfl

@[simp] theorem cleanup_spend (b : Binding) : b.spend.cleanup = b.cleanup := rfl

@[simp] theorem restore_nil (b : Binding) : b.restore [] = b := rfl

@[simp] theorem lent_vacate (b : Binding) : b.vacate.lent = [] := rfl

@[simp] theorem lent_emplace (b : Binding) : b.emplace.lent = b.stored := rfl

end Binding

end Handoff
