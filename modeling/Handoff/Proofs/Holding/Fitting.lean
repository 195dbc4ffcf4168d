import Handoff.Receiver
import Handoff.Layer
import Mathlib.Data.List.Forall2
import Mathlib.Tactic.Common

/-!
# What the operations of a site hold

A binding operation owns a factory, a receiver, a value and a child, and its `Cleanup` says which of
them are there. `Binding.Fits` puts this as a relation between the fields and the operations inside,
and `Layer.Fitting` extends it to all operations of a site. Operations may be replaced on top of
those around them, and stored numbers may be written back, as long as what is replaced was no part
of a child that had failed to connect: `Layer.Fitting.replace`.
-/

namespace Handoff

/-! ### The fields of an operation -/

/-- What a leaf leaves behind whose connect raised a payload when its operation was built already.
It was not started. -/
def Layer.HalfBuilt (ls : List Layer) : Prop := ∃ k l r, ls = [.leaf k l (some r)]

/-- The fields of a binding operation and the operations inside are as its `Cleanup` says. -/
structure Binding.Fits (b : Binding) (inside : List Layer) : Prop where
  /-- There still is a predecessor operation, hence no value, and the factory was not called. -/
  predecessor : b.cleanup = .predecessor →
    b.storage = .predecessor ∧ inside ≠ [] ∧ b.value = none ∧ b.factory.isSome
  /-- Dropping the predecessor operation has raised a payload, which the receiver was given. -/
  invalid : b.cleanup = .invalid →
    b.storage = .vacant ∧ inside = [] ∧ b.value.isSome ∧ b.factory.isSome ∧ b.receiver = none
  /-- Calling the factory or connecting its sender has raised a payload, which the receiver was
  given. -/
  values : b.cleanup = .values →
    b.value.isSome ∧ b.factory = none ∧ b.receiver = none ∧
      (b.storage = .vacant ∧ inside = [] ∨
        b.storage = .successor ∧ (inside = [] ∨ Layer.HalfBuilt inside))
  /-- There is a successor operation, built from the value by the factory. -/
  successor : b.cleanup = .successor →
    b.storage = .successor ∧ inside ≠ [] ∧ b.value.isSome ∧ b.factory = none

namespace Layer

/-- What an operation holds is as it should be: leaves hold no operations, and alternatives hold
some. -/
def Fits : Layer → List Layer → Prop
  | ready _ _, inside => inside = []
  | leaf _ _ _, inside => inside = []
  | script _ _ _, inside => inside = []
  | either _ _, inside => inside ≠ []
  | bind b, inside => b.Fits inside

/-- Each of the operations of a site holds what it should. -/
def Fitting : List Layer → Prop
  | [] => True
  | l :: rest => l.Fits rest ∧ Fitting rest

variable {s : Site} {base base' inside inside' rest rest' : List Layer} {l l' : Layer}

@[simp] lemma fitting_nil : Fitting [] := trivial

lemma Fitting.of_append (h : Fitting (base ++ rest)) : Fitting rest := by
  induction base with
  | nil => exact h
  | cons x base ih => exact ih h.2

/-- Each operation, wherever it stands, fits with all that stands inside it. -/
lemma Fitting.fits (h : Fitting (base ++ l :: rest)) : l.Fits rest := h.of_append.1

lemma not_halfBuilt_bind (b : Binding) : ¬ HalfBuilt (.bind b :: rest) := by
  rintro ⟨k, y, r, h⟩
  simp at h

lemma not_halfBuilt_cons_cons (x : Layer) : ¬ HalfBuilt (x :: l :: rest) := by
  rintro ⟨k, y, r, h⟩
  simp at h

/-- What is inside an operation matters only as far as there is something, and no more than a half
built child. -/
lemma Fits.congr (h : l.Fits inside) (hnil : inside' = [] ↔ inside = [])
    (hhalf : HalfBuilt inside → HalfBuilt inside') : l.Fits inside' := by
  cases l with
  | bind b =>
    refine ⟨fun hc => ?_, fun hc => ?_, fun hc => ?_, fun hc => ?_⟩
    · simpa only [ne_eq, hnil] using h.predecessor hc
    · simpa only [hnil] using h.invalid hc
    · have hv := h.values hc
      rw [← hnil] at hv
      exact ⟨hv.1, hv.2.1, hv.2.2.1, hv.2.2.2.imp_right fun ⟨hs, hi⟩ => ⟨hs, hi.imp_right hhalf⟩⟩
    · simpa only [ne_eq, hnil] using h.successor hc
  | either k which => simpa only [Fits, ne_eq, hnil] using h
  | _ => exact hnil.2 h

/-- What stands innermost is no binding operation whose child has failed to connect. -/
def Whole (base : List Layer) : Prop :=
  ∀ pre b, base = pre ++ [.bind b] → b.cleanup ≠ .values

lemma whole_nil : Whole [] := by
  intro pre b h
  simp at h

lemma Whole.of_cons {x : Layer} (h : Whole (x :: base)) : Whole base :=
  fun pre b hb => h (x :: pre) b (by rw [hb, List.cons_append])

/-- An operation of a site may be replaced, with all inside it, unless it is the half-built child of
a binding operation. -/
lemma Fitting.replace (h : Fitting (base ++ l :: rest)) (h' : Fitting (l' :: rest'))
    (hhalf : HalfBuilt (l :: rest) → Whole base) : Fitting (base ++ l' :: rest') := by
  induction base with
  | nil => exact h'
  | cons x base ih =>
    refine ⟨?_, ih h.2 fun hl => (hhalf hl).of_cons⟩
    have hx : x.Fits (base ++ l :: rest) := h.1
    by_cases hbuilt : HalfBuilt (base ++ l :: rest)
    · -- Only the innermost operation of `base` has a half-built child.
      obtain rfl : base = [] := by
        cases base with
        | nil => rfl
        | cons y base =>
          cases base <;> exact absurd hbuilt (not_halfBuilt_cons_cons y)
      cases x with
      | bind b =>
        have hv : b.cleanup ≠ .values := hhalf hbuilt [] b rfl
        refine ⟨fun hc => ?_, fun hc => ?_, fun hc => absurd hc hv, fun hc => ?_⟩
        · simpa using hx.predecessor hc
        · simpa using hx.invalid hc
        · simpa using hx.successor hc
      | either k which => simp [Fits]
      | _ => simp [Fits] at hx
    · exact hx.congr (by simp) fun hb => absurd hb hbuilt

/-! ### Stored numbers -/

/-- The same operation, but perhaps for the number that it stores. -/
def Restored (l l' : Layer) : Prop := l' = l ∨ ∃ b env, l = .bind b ∧ l' = .bind (b.restore env)

lemma forall₂_restored_writeBack (ns : Env) (ls : List Layer) :
    List.Forall₂ Restored ls (writeBack ns ls) := by
  induction ls generalizing ns with
  | nil => exact .nil
  | cons l rest ih =>
    simp only [writeBack]
    split
    · exact .cons (.inr ⟨_, _, rfl, rfl⟩) (ih _)
    · exact .cons (.inl rfl) (ih _)

lemma halfBuilt_of_restored (h : List.Forall₂ Restored rest rest') (hr : HalfBuilt rest) :
    HalfBuilt rest' := by
  obtain ⟨k, y, r, rfl⟩ := hr
  cases h with
  | cons hl hnil =>
    cases hnil
    obtain rfl | ⟨b, env, hb, -⟩ := hl
    · exact ⟨k, y, r, rfl⟩
    · simp at hb

lemma nil_iff_of_restored (h : List.Forall₂ Restored rest rest') : rest' = [] ↔ rest = [] := by
  cases h <;> simp

lemma Fits.restored (h : l.Fits inside) (hl : Restored l l') : l'.Fits inside := by
  obtain rfl | ⟨b, env, rfl, rfl⟩ := hl
  · exact h
  · have hvalue : (b.restore env).value = none ↔ b.value = none := by
      rw [← Option.not_isSome_iff_eq_none, Binding.isSome_value_restore,
        Option.not_isSome_iff_eq_none]
    refine ⟨fun hc => ?_, fun hc => ?_, fun hc => ?_, fun hc => ?_⟩
    · simpa [hvalue] using Binding.Fits.predecessor h (by simpa using hc)
    · simpa using Binding.Fits.invalid h (by simpa using hc)
    · simpa using Binding.Fits.values h (by simpa using hc)
    · simpa using Binding.Fits.successor h (by simpa using hc)

/-- Stored numbers may be written back around an operation that is replaced. -/
lemma Fitting.restored (h : Fitting (base ++ rest)) (hb : List.Forall₂ Restored base base') :
    Fitting (base' ++ rest) := by
  induction hb with
  | nil => exact h
  | @cons x x' base base' hx hb ih =>
    have hall : List.Forall₂ Restored (base ++ rest) (base' ++ rest) :=
      List.rel_append hb (List.forall₂_same.2 fun _ _ => .inl rfl)
    exact ⟨(Fits.restored h.1 hx).congr (nil_iff_of_restored hall) (halfBuilt_of_restored hall),
      ih h.2⟩

end Layer

end Handoff
