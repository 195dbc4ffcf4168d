import Handoff.Payload
import Handoff.Text.Written

/-!
# A place for one operation

A slot is vacant or holds one operation, which stays where it was built until it is dropped.
Filling an occupied slot is refused: the operation offered is dropped and the resident one stays.
`Slot.fillAndBuild` finishes an operation in place, and if that raises a payload drops it again.
Here slots hold `Counter`s, which count their starts and journal their own life; a drop that
happens while a payload is already on its way out does not raise another.
-/

namespace Handoff

/-- An operation that counts how often it was started. -/
structure Counter where
  label : String
  /-- What its drop raises. -/
  explode : Option Payload
  starts : Nat := 0
  deriving DecidableEq, Repr

namespace Counter

/-- What the life of a counter leaves in the journal. -/
inductive Entry where
  | started (label : String) (count : Nat)
  | dropped (label : String) (starts : Nat)
  | seen (label : String) (starts : Nat)
  deriving DecidableEq, Repr

/-- The text of an entry; a mere look at the counter is journalled as a pair instead. -/
def Entry.text? : Entry → Option String
  | .started l n => some ("start " ++ l ++ " #" ++ Text.count n)
  | .dropped l n => some ("drop " ++ l ++ " after " ++ Text.count n ++ " starts")
  | .seen _ _ => none

/-- Start a counter once more. -/
def start (c : Counter) : Counter × Entry :=
  let c' := { c with starts := c.starts + 1 }
  (c', .started c.label c'.starts)

/-- The entry that the drop of a counter leaves. -/
def drop (c : Counter) : Entry := .dropped c.label c.starts

/-- One thing that is done to a counter while it is being built. -/
inductive Build where
  | start
  | raise (p : Payload)
  | see
  deriving DecidableEq, Repr

/-- Build a counter: what is left of it, what was journalled, and what was raised, if anything. -/
def build (c : Counter) : List Build → Counter × List Entry × Option Payload
  | [] => (c, [], none)
  | .raise p :: _ => (c, [], some p)
  | .see :: rest =>
    let (c', es, r) := c.build rest
    (c', .seen c.label c.starts :: es, r)
  | .start :: rest =>
    let (c₁, e) := c.start
    let (c', es, r) := c₁.build rest
    (c', e :: es, r)

end Counter

/-- A place for at most one operation. -/
structure Slot where
  content : Option Counter := none
  deriving DecidableEq, Repr

namespace Slot

open Counter

/-- A call on a slot. -/
inductive Step where
  | fill (c : Counter)
  | fillAndBuild (c : Counter) (how : List Build)
  | start
  | clear
  | look
  deriving DecidableEq, Repr

/-- What a call on a slot leads to. -/
structure Outcome where
  slot : Slot
  journal : List Entry := []
  /-- The payload the call raised, or the operation it returned, if any. -/
  result : Except Payload (Option Counter) := .ok none

/-- Whether a slot holds no operation. -/
def isVacant (s : Slot) : Bool := s.content.isNone

/-- Drop what a slot holds. The slot is vacant even if that raises a payload. -/
def clear (s : Slot) : Outcome :=
  match s.content with
  | none => { slot := {} }
  | some c =>
    { slot := {}, journal := [c.drop],
      result := match c.explode with
        | some p => .error p
        | none => .ok none }

/-- Put an operation into a vacant slot; an occupied one refuses it. -/
def fill (s : Slot) (c : Counter) : Outcome :=
  match s.content with
  | none => { slot := ⟨some c⟩, result := .ok (some c) }
  | some _ => { slot := s, journal := [c.drop], result := .error Fault.occupiedConnect.payload }

/-- Put an operation into a vacant slot and finish it there. If that raises a payload the
operation is dropped and the slot is vacant again. -/
def fillAndBuild (s : Slot) (c : Counter) (how : List Build) : Outcome :=
  match s.content with
  | some _ => s.fill c
  | none =>
    match c.build how with
    | (c', es, none) => { slot := ⟨some c'⟩, journal := es }
    | (c', es, some p) => { slot := {}, journal := es ++ [c'.drop], result := .error p }

/-- Start what a slot holds. -/
def start (s : Slot) : Outcome :=
  match s.content with
  | none => { slot := s, result := .error Fault.vacantStart.payload }
  | some c => { slot := ⟨some c.start.1⟩, journal := [c.start.2] }

/-- What one call does. -/
def step (s : Slot) : Step → Outcome
  | .fill c => s.fill c
  | .fillAndBuild c how => s.fillAndBuild c how
  | .start => s.start
  | .clear => s.clear
  | .look => { slot := s, result := .ok s.content }

/-- The outcomes of a sequence of calls. -/
def run (s : Slot) : List Step → List Outcome
  | [] => []
  | c :: rest => s.step c :: (s.step c).slot.run rest

/-- The slot left after a sequence of calls. -/
def after (s : Slot) (steps : List Step) : Slot :=
  steps.foldl (fun s c => (s.step c).slot) s

@[simp] theorem isVacant_clear (s : Slot) : s.clear.slot.isVacant = true := by
  cases s with
  | mk content => cases content <;> rfl

@[simp] theorem length_run (s : Slot) (steps : List Step) :
    (s.run steps).length = steps.length := by
  induction steps generalizing s with
  | nil => rfl
  | cons c rest ih => simp [run, ih]

end Slot

end Handoff
