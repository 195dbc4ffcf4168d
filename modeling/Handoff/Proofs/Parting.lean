import Handoff.Layer
import Mathlib.Tactic.Common

/-!
# What dropping records

Dropping operations, receivers and what they carry records partings only: that something is gone,
and log records on the way. The main statement is `Layer.partings_dropAll`. Nothing is connected,
started, called or completed while operations are dropped.
-/

namespace Handoff

/-- Whether something is gone by this, or a record of that is logged. -/
def Act.isParting : Act → Bool
  | closed _ => true
  | released _ => true
  | uncalled _ => true
  | dropped _ => true
  | droppedSeeing _ _ => true
  | valueDropped _ => true
  | receiverDropped _ => true
  | logged _ _ => true
  | _ => false

/-- All that happens is partings. -/
def Act.Partings (acts : List Act) : Prop := ∀ a ∈ acts, a.isParting = true

open Act (Partings)

@[simp] lemma Act.partings_nil : Partings [] := by
  simp [Partings]

@[simp] lemma Act.partings_cons (a : Act) (acts : List Act) :
    Partings (a :: acts) ↔ a.isParting = true ∧ Partings acts := by
  simp [Partings]

@[simp] lemma Act.partings_append (xs ys : List Act) :
    Partings (xs ++ ys) ↔ Partings xs ∧ Partings ys := by
  simp [Partings, or_imp, forall_and]

lemma partings_dropCarried (c : Completion Value Failure) : Partings (dropCarried c) := by
  cases c <;> simp [dropCarried, Completion.value?, Value.drop, Act.isParting]

lemma partings_receiverDropped (labels : List String) :
    Partings (labels.map .receiverDropped) := by
  intro a ha
  obtain ⟨label, -, rfl⟩ := List.mem_map.1 ha
  rfl

lemma partings_drop_receiver (r : Receiver) : Partings r.drop := by
  cases r with
  | observer home o => exact partings_receiverDropped o.labels
  | _ => exact Act.partings_nil

lemma partings_dropHeld (r : Option Receiver) : Partings (dropHeld r) := by
  cases r with
  | none => exact Act.partings_nil
  | some r => exact partings_drop_receiver r

namespace Layer

lemma partings_drop_binding (b : Binding) {child : Dropped} (hc : Partings child.acts) :
    Partings (b.drop child).acts := by
  have hfactory : Partings b.dropFactory := by
    cases hf : b.factory with
    | none => simp [Binding.dropFactory, hf]
    | some f =>
      cases hl : f.1.label <;> simp [Binding.dropFactory, hf, Factory.drop, hl, Act.isParting]
  have hvalue : Partings b.dropValue := by
    cases hv : b.value <;> simp [Binding.dropValue, hv, Value.drop, Act.isParting]
  have hheld := partings_dropHeld b.receiver
  rw [Binding.drop]
  cases b.cleanup <;> cases child.raised <;> simp [Act.isParting, *]

lemma partings_drop (unwinding : Bool) (env : Env) (l : Layer) {child : Dropped}
    (hc : Partings child.acts) : Partings (l.drop unwinding env child).acts := by
  cases l with
  | ready k held =>
    cases held with
    | none => simpa [drop] using hc
    | some held => simp [drop, partings_dropCarried, partings_drop_receiver, hc]
  | leaf k l held =>
    have : Partings (if held.isSome then dropCarried l.completion else []) := by
      split <;> simp [partings_dropCarried]
    simp [drop, Act.isParting, this, partings_dropHeld, hc]
  | script k s held =>
    cases hp : s.peekOnDrop <;> simp [drop, Act.isParting, hp, partings_dropHeld, hc]
  | either k which => exact hc
  | bind b => exact partings_drop_binding b hc

/-- Dropping operations records partings only. -/
theorem partings_dropAll (unwinding : Bool) (env : Env) (ls : List Layer) :
    Partings (dropAll unwinding env ls).acts := by
  induction ls generalizing env with
  | nil => exact Act.partings_nil
  | cons l rest ih => simp [dropAll, Act.isParting, partings_drop, ih]

end Layer

end Handoff
