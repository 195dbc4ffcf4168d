import Handoff.Signature
import Mathlib.Tactic.Common

/-!
# Signatures leaf by leaf

`Shape.signature` and `Shape.query` are computed along the tree of a shape, by rules that are not
all monotone. What they come to can be read off the leaves: some are reached first, through
predecessors, and the others only through successors. `Blocking.Governs` is the rule for a class,
given the classes of the leaves that may be first and those of all leaves. It governs the promise,
and it governs the answer of a particular sender if the one leaf that is first there stands for
those that may be: `Shape.signature_leafwise`.
-/

namespace Handoff

namespace Blocking

/-- A class follows from the classes of leaves, of those that may be first and of all. -/
structure Governs (first all : List Blocking) (b : Blocking) : Prop where
  alwaysInline_iff : b = alwaysInline ↔ ∀ a ∈ all, a = alwaysInline
  isSynchronous_iff : b.isSynchronous = true ↔ ∀ a ∈ all, a.isSynchronous = true
  never_iff : b = never ↔ ∀ a ∈ first, a = never
  maybe_iff : b = maybe ↔
    ¬(∀ a ∈ all, a.isSynchronous = true) ∧ ¬∀ a ∈ first, a = never

/-- An answer tells no less than a promise, and nothing that is at odds with it. -/
def Refines (answer promise : Blocking) : Prop :=
  answer = promise ∨ promise = maybe ∨ answer = alwaysInline ∧ promise = always

/-- An answer is at odds with a promise at most in which of the synchronous classes it names. -/
def Resembles (answer promise : Blocking) : Prop :=
  answer = promise ∨ promise = maybe ∨ answer.isSynchronous = true ∧ promise.isSynchronous = true

variable {a b c : Blocking} {first first' all all' : List Blocking}

/-! ### Sequences and alternatives -/

lemma sequence_eq_alwaysInline_iff :
    a.sequence b = alwaysInline ↔ a = alwaysInline ∧ b = alwaysInline := by
  cases a <;> cases b <;> decide

lemma isSynchronous_sequence (a b : Blocking) :
    (a.sequence b).isSynchronous = (a.isSynchronous && b.isSynchronous) := by
  cases a <;> cases b <;> rfl

lemma sequence_eq_never_iff : a.sequence b = never ↔ a = never := by
  cases a <;> cases b <;> decide

lemma either_eq_alwaysInline_iff :
    a.either b = alwaysInline ↔ a = alwaysInline ∧ b = alwaysInline := by
  cases a <;> cases b <;> decide

lemma isSynchronous_either (a b : Blocking) :
    (a.either b).isSynchronous = (a.isSynchronous && b.isSynchronous) := by
  cases a <;> cases b <;> rfl

lemma either_eq_never_iff : a.either b = never ↔ a = never ∧ b = never := by
  cases a <;> cases b <;> decide

lemma eq_maybe_iff : a = maybe ↔ ¬a.isSynchronous = true ∧ a ≠ never := by
  cases a <;> decide

/-! ### The rule -/

/-- The class that promises nothing is what is left when the other rules do not apply. -/
lemma Governs.of_three (hinline : b = alwaysInline ↔ ∀ a ∈ all, a = alwaysInline)
    (hsync : b.isSynchronous = true ↔ ∀ a ∈ all, a.isSynchronous = true)
    (hnever : b = never ↔ ∀ a ∈ first, a = never) : Governs first all b :=
  ⟨hinline, hsync, hnever, by rw [eq_maybe_iff, hsync, ne_eq, hnever]⟩

lemma Governs.single (b : Blocking) : Governs [b] [b] b := by
  apply Governs.of_three <;> simp

/-- What comes after a value adds its leaves, but none that may be first. -/
lemma Governs.sequence (ha : Governs first all a) (hb : Governs first' all' b) :
    Governs first (all ++ all') (a.sequence b) := by
  apply Governs.of_three
  · rw [sequence_eq_alwaysInline_iff, ha.alwaysInline_iff, hb.alwaysInline_iff,
      List.forall_mem_append]
  · rw [isSynchronous_sequence, Bool.and_eq_true, ha.isSynchronous_iff, hb.isSynchronous_iff,
      List.forall_mem_append]
  · rw [sequence_eq_never_iff, ha.never_iff]

/-- Of two alternatives each may be first. -/
lemma Governs.either (ha : Governs first all a) (hb : Governs first' all' b) :
    Governs (first ++ first') (all ++ all') (a.either b) := by
  apply Governs.of_three
  · rw [either_eq_alwaysInline_iff, ha.alwaysInline_iff, hb.alwaysInline_iff,
      List.forall_mem_append]
  · rw [isSynchronous_either, Bool.and_eq_true, ha.isSynchronous_iff, hb.isSynchronous_iff,
      List.forall_mem_append]
  · rw [either_eq_never_iff, ha.never_iff, hb.never_iff, List.forall_mem_append]

/-! ### Answers and promises -/

/-- A relation of answers to promises that goes on to hold when both are followed by a promise, and
when an alternative is added to the promise. -/
structure Lasting (R : Blocking → Blocking → Prop) : Prop where
  sequence {a c : Blocking} (h : R a c) (b : Blocking) : R (a.sequence b) (c.sequence b)
  left {a c : Blocking} (h : R a c) (b : Blocking) : R a (c.either b)
  right {a c : Blocking} (h : R a c) (b : Blocking) : R a (b.either c)

instance : DecidableRel Refines := fun a c =>
  inferInstanceAs (Decidable (a = c ∨ c = maybe ∨ a = alwaysInline ∧ c = always))

instance : DecidableRel Resembles := fun a c =>
  inferInstanceAs
    (Decidable (a = c ∨ c = maybe ∨ a.isSynchronous = true ∧ c.isSynchronous = true))

lemma lasting_refines : Lasting Refines where
  sequence {a c} h b := by revert h; cases a <;> cases c <;> cases b <;> decide
  left {a c} h b := by revert h; cases a <;> cases c <;> cases b <;> decide
  right {a c} h b := by revert h; cases a <;> cases c <;> cases b <;> decide

lemma lasting_resembles : Lasting Resembles where
  sequence {a c} h b := by revert h; cases a <;> cases c <;> cases b <;> decide
  left {a c} h b := by revert h; cases a <;> cases c <;> cases b <;> decide
  right {a c} h b := by revert h; cases a <;> cases c <;> cases b <;> decide

end Blocking

namespace Shape

open Blocking (Governs Lasting Refines Resembles)

/-- The promises of all leaves. -/
def leaves : Shape → List Signature
  | leaf promise _ => [promise]
  | bind p s => p.leaves ++ s.leaves
  | either l r _ => l.leaves ++ r.leaves

/-- The promises of the leaves that may be first: those reached through predecessors, and through
either of two alternatives. -/
def heads : Shape → List Signature
  | leaf promise _ => [promise]
  | bind p _ => p.heads
  | either l r _ => l.heads ++ r.heads

/-- The promise and the answer of the leaf that is first, through predecessors and the alternatives
that are taken. -/
def head : Shape → Signature × Blocking
  | leaf promise answer => (promise, answer)
  | bind p _ => p.head
  | either l _ .left => l.head
  | either _ r .right => r.head

/-- The promises of the leaves of all successors that are passed on the way to the first leaf. -/
def passed : Shape → List Signature
  | leaf _ _ => []
  | bind p s => p.passed ++ s.leaves
  | either l _ .left => l.passed
  | either _ r .right => r.passed

variable (x : Shape)

lemma sendsDone_iff : x.signature.sendsDone = true ↔ ∃ σ ∈ x.leaves, σ.sendsDone = true := by
  induction x with
  | leaf promise answer => simp [signature, leaves]
  | bind p s ihp ihs =>
    simp [signature, leaves, Signature.bind, ihp, ihs, or_and_right, exists_or]
  | either l r active ihl ihr =>
    simp [signature, leaves, Signature.either, ihl, ihr, or_and_right, exists_or]

lemma schedulerAffine_iff :
    x.signature.schedulerAffine = true ↔ ∀ σ ∈ x.leaves, σ.schedulerAffine = true := by
  induction x with
  | leaf promise answer => simp [signature, leaves]
  | bind p s ihp ihs =>
    rw [leaves, List.forall_mem_append, ← ihp, ← ihs]
    simp [signature, Signature.bind]
  | either l r active ihl ihr =>
    rw [leaves, List.forall_mem_append, ← ihl, ← ihr]
    simp [signature, Signature.either]

lemma governs_signature :
    Governs (x.heads.map Signature.blocking) (x.leaves.map Signature.blocking)
      x.signature.blocking := by
  induction x with
  | leaf promise answer => exact .single promise.blocking
  | bind p s ihp ihs =>
    rw [leaves, List.map_append]
    exact ihp.sequence ihs
  | either l r active ihl ihr =>
    rw [leaves, heads, List.map_append, List.map_append]
    exact ihl.either ihr

lemma governs_query :
    Governs [x.head.2] (x.head.2 :: x.passed.map Signature.blocking) x.query := by
  induction x with
  | leaf promise answer => exact .single answer
  | bind p s ihp _ =>
    rw [passed, List.map_append, ← List.cons_append]
    exact ihp.sequence s.governs_signature
  | either l r active ihl ihr =>
    cases active with
    | left => exact ihl
    | right => exact ihr

/-- What is so of the first leaf's answer and its promise is so of the whole. -/
lemma query_of_head {R : Blocking → Blocking → Prop} (hR : Lasting R)
    (h : R x.head.2 x.head.1.blocking) : R x.query x.signature.blocking := by
  induction x with
  | leaf promise answer => exact h
  | bind p s ihp _ => exact hR.sequence (ihp h) s.signature.blocking
  | either l r active ihl ihr =>
    cases active with
    | left => exact hR.left (ihl h) r.signature.blocking
    | right => exact hR.right (ihr h) l.signature.blocking

/-- The signature of a shape in closed form. It may complete with done if one of its leaves may, and
completes where it was started if all of its leaves do. Its class is governed by the classes that
its leaves promise, and what it answers when asked by the answer of the one leaf that is first and
the promises of the leaves behind. The answer refines the promise, or resembles it, as soon as that
of the first leaf does. -/
theorem signature_leafwise :
    (x.signature.sendsDone = true ↔ ∃ σ ∈ x.leaves, σ.sendsDone = true) ∧
    (x.signature.schedulerAffine = true ↔ ∀ σ ∈ x.leaves, σ.schedulerAffine = true) ∧
    Governs (x.heads.map Signature.blocking) (x.leaves.map Signature.blocking)
      x.signature.blocking ∧
    Governs [x.head.2] (x.head.2 :: x.passed.map Signature.blocking) x.query ∧
    (Refines x.head.2 x.head.1.blocking → Refines x.query x.signature.blocking) ∧
    (Resembles x.head.2 x.head.1.blocking → Resembles x.query x.signature.blocking) :=
  ⟨x.sendsDone_iff, x.schedulerAffine_iff, x.governs_signature, x.governs_query,
    x.query_of_head Blocking.lasting_refines, x.query_of_head Blocking.lasting_resembles⟩

/-- A binding of two alternatives. The one that is taken answers more than it promises. -/
def choosy : Shape :=
  .bind (.either (.leaf ⟨.always, false, true⟩ .alwaysInline) (.plain ⟨.never, true, false⟩) .left)
    (.plain Signature.ready)

theorem signature_leafwise_choosy :
    choosy.signature = ⟨.maybe, true, false⟩ ∧ choosy.query = .alwaysInline ∧
    Governs [.always, .never] [.always, .never, .alwaysInline] choosy.signature.blocking ∧
    Governs [.alwaysInline] [.alwaysInline, .alwaysInline] choosy.query ∧
    Refines choosy.query choosy.signature.blocking ∧
    Resembles choosy.query choosy.signature.blocking := by
  obtain ⟨-, -, hpromise, hanswer, hrefines, hresembles⟩ := choosy.signature_leafwise
  exact ⟨rfl, rfl, hpromise, hanswer, hrefines (by decide), hresembles (by decide)⟩

end Shape

end Handoff
