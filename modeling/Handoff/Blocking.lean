/-!
# Blocking classes

A sender promises how its completion relates to the thread that started it. The four classes are
ordered by severity: the further up, the less a caller may assume. Besides the two lattice
operations there is a rule for running one sender after another (`sequence`) and one for a
sender that is one of two (`either`); the second is not monotone in the severity.
-/

namespace Handoff

/-- How the completion of a sender relates to the thread that starts it. -/
inductive Blocking where
  /-- Completes before starting returns, on the starting thread. -/
  | alwaysInline
  /-- Completes on the starting thread, possibly after starting returns. -/
  | always
  /-- Promises nothing. -/
  | maybe
  /-- Never completes on the starting thread before starting returns. -/
  | never
  deriving DecidableEq, Repr, Inhabited

namespace Blocking

/-- The rank of a class in the order of severity. -/
def rank : Blocking → Nat
  | alwaysInline => 0
  | always => 1
  | maybe => 2
  | never => 3

/-- The written name of a class. -/
def name : Blocking → String
  | alwaysInline => "AlwaysInline"
  | always => "Always"
  | maybe => "Maybe"
  | never => "Never"

/-- The class with a given written name. -/
def ofName? : String → Option Blocking
  | "AlwaysInline" => some alwaysInline
  | "Always" => some always
  | "Maybe" => some maybe
  | "Never" => some never
  | _ => none

/-- The more severe of two classes. -/
def max (a b : Blocking) : Blocking :=
  if b.rank ≤ a.rank then a else b

/-- The less severe of two classes. -/
def min (a b : Blocking) : Blocking :=
  if a.rank ≤ b.rank then a else b

/-- A synchronous class completes on the starting thread. -/
def isSynchronous : Blocking → Bool
  | alwaysInline => true
  | always => true
  | maybe => false
  | never => false

/-- The class of a sender that runs `s` once `p` has produced a value. The successor runs on that
path only, so what it adds is capped at `maybe`. -/
def sequence (p s : Blocking) : Blocking :=
  p.max (s.min maybe)

/-- The class of a sender that behaves like `l` or like `r`. -/
def either (l r : Blocking) : Blocking :=
  if l.rank = r.rank then l
  else if l.isSynchronous && r.isSynchronous then always
  else maybe

/-! ### Laws of the severity order -/

theorem rank_injective {a b : Blocking} (h : a.rank = b.rank) : a = b := by
  cases a <;> cases b <;> first | rfl | cases h

@[simp] theorem rank_max (a b : Blocking) :
    (a.max b).rank = Nat.max a.rank b.rank := by
  cases a <;> cases b <;> rfl

@[simp] theorem rank_min (a b : Blocking) :
    (a.min b).rank = Nat.min a.rank b.rank := by
  cases a <;> cases b <;> rfl

theorem isSynchronous_iff (a : Blocking) : a.isSynchronous = true ↔ a.rank ≤ 1 := by
  cases a <;> decide

theorem ofName?_name (a : Blocking) : ofName? a.name = some a := by
  cases a <;> rfl

/-! ### Terms over the four operations -/

/-- The four ways of combining two classes. -/
inductive Operation where
  | max | min | sequence | either
  deriving DecidableEq, Repr

/-- The function an operation stands for. -/
def Operation.apply : Operation → Blocking → Blocking → Blocking
  | .max => Blocking.max
  | .min => Blocking.min
  | .sequence => Blocking.sequence
  | .either => Blocking.either

/-- A term over blocking classes. -/
inductive Term where
  | const (b : Blocking)
  | combine (f : Operation) (l r : Term)
  deriving Repr

/-- The class a term denotes. -/
def Term.eval : Term → Blocking
  | .const b => b
  | .combine f l r => f.apply l.eval r.eval

end Blocking

end Handoff
