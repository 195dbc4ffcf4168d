import Handoff.Sender
import Handoff.World
import Mathlib.Tactic.Common

/-!
# Lawful senders

A leaf may complete its receiver once, from its start or from a task, and not while it is being
connected. A script is free to break these rules; `Sender.Lawful` are the senders whose scripts keep
them. They may still raise payloads wherever they like.
-/

namespace Handoff

mutual

/-- How often a script completes its receiver at most from an instruction on, given how often it
does after that. -/
def Instr.spends : Instr → Nat → Nat
  | .later steps, n => Instr.spendsAll steps + n
  | .complete _, n => n + 1
  | .attempt _, n => n + 1
  | .stopDone, n => max 1 n
  | .raise _, _ => 0
  | _, n => n

/-- How often instructions complete their receiver at most, with those that they put off. -/
def Instr.spendsAll : List Instr → Nat
  | [] => 0
  | i :: rest => i.spends (Instr.spendsAll rest)

end

/-- A script that completes its receiver at most once, and not while it is being connected. -/
structure Script.Lawful (s : Script) : Prop where
  spendsAll_le : Instr.spendsAll s.start ≤ 1
  connecting_ne (d : Delivery) (p : Option Payload) : s.connecting ≠ .deliver d p

/-- A sender whose scripts are lawful, as are those of all that its factories may build. -/
def Sender.Lawful : Sender → Prop
  | ready _ => True
  | leaf _ => True
  | exploding _ => True
  | script s => s.Lawful
  | either _ s => s.Lawful
  | bind p _ next => p.Lawful ∧ ∀ env, (next env).Lawful

/-- A layer that was made from a lawful sender. -/
def Layer.Lawful : Layer → Prop
  | script _ s _ => s.Lawful
  | bind b => ∀ f next, b.factory = some (f, next) → ∀ env, (next env).Lawful
  | _ => True

/-- A task that completes a receiver at most once. -/
def Task.Lawful : Task → Prop
  | resume _ steps => Instr.spendsAll steps ≤ 1
  | _ => True

/-- The receiver that a run may still complete. -/
def Run.right (r : Run) (steps : List Instr) : Option Receiver :=
  if Instr.spendsAll steps = 0 then none else r.receiver

/-- The receiver that a task completes. -/
def Task.right : Task → Option Receiver
  | complete _ r => some r
  | resume r steps => r.right steps
  | job _ => none

namespace Layer

/-- Whether starting an operation starts the one inside. -/
def descends : Layer → Bool
  | either _ _ => true
  | bind b => b.storage = .predecessor
  | _ => false

/-- The receiver that starting the outermost of these operations may lead to complete. -/
def offer : List Layer → Option Receiver
  | [] => none
  | .ready _ held :: _ => held.map Prod.snd
  | .leaf _ _ held :: _ => held
  | .script _ s held :: _ => if Instr.spendsAll s.start = 0 then none else held
  | .either _ _ :: rest => offer rest
  | .bind b :: rest => if b.storage = .predecessor then offer rest else none

variable {xs ys : List Layer} {l : Layer} {b : Binding}

lemma offer_append_of_descends (h : ∀ l ∈ xs, l.descends = true) (ys : List Layer) :
    offer (xs ++ ys) = offer ys := by
  induction xs with
  | nil => rfl
  | cons l xs ih =>
    obtain ⟨hl, hxs⟩ := List.forall_mem_cons.1 h
    cases l with
    | either k which => exact ih hxs
    | bind b =>
      have hb : b.storage = .predecessor := by simpa [descends] using hl
      simpa [offer, hb] using ih hxs
    | _ => simp [descends] at hl

/-- What is offered is offered by the first operations, or they pass the start on. -/
lemma offer_append (xs ys : List Layer) :
    offer (xs ++ ys) = offer xs ∨ offer xs = none ∧ offer (xs ++ ys) = offer ys := by
  induction xs with
  | nil => exact .inr ⟨rfl, rfl⟩
  | cons l xs ih =>
    cases l with
    | either k which => exact ih
    | bind b =>
      by_cases hb : b.storage = .predecessor
      · simpa [offer, hb] using ih
      · simp [offer, hb]
    | _ => exact .inl rfl

/-- Operations that do not offer anything offer nothing either if those inside change to such that
do not. -/
lemma offer_eq_none_of_append (h : offer (xs ++ ys) = none) {zs : List Layer}
    (hz : offer zs = none) : offer (xs ++ zs) = none := by
  induction xs with
  | nil => exact hz
  | cons l xs ih =>
    cases l with
    | either k which => exact ih h
    | bind b =>
      by_cases hb : b.storage = .predecessor
      · simp only [List.cons_append, offer, hb, if_true] at h ⊢
        exact ih h
      · simp [offer, hb]
    | _ => exact h

end Layer

end Handoff
