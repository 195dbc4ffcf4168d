import Handoff.Payload

/-!
# Errors with the path they took

An error starts at a leaf as a text, or as a payload caught while a successor was being built. Each
binding operation that it passes on the way out adds one tag, which says whether it came from the
predecessor or from the successor. Tags do not show in the text (`Failure.display`); they show
as steps of the list of causes (`Failure.causes`).
-/

namespace Handoff

/-- An error as a final receiver sees it. -/
inductive Failure where
  /-- The error of a leaf. -/
  | leaf (e : String)
  /-- An error that a predecessor completed with. -/
  | predecessor (e : Failure)
  /-- An error that a successor completed with. -/
  | successor (e : Failure)
  /-- A payload raised while a successor was being built. -/
  | panicked (p : Payload)
  deriving DecidableEq, Repr

namespace Failure

/-- How an error reads: like the error inside its tags. -/
def display : Failure → String
  | leaf e => e
  | predecessor e => e.display
  | successor e => e.display
  | panicked p => "failed to build the successor: " ++ p.display

/-- How the causes of an error read, from the outermost to the first. -/
def causes : Failure → List String
  | leaf _ => []
  | predecessor e => e.display :: e.causes
  | successor e => e.display :: e.causes
  | panicked p => [p.display]

/-- Whether the outermost tag is that of a caught payload; a bare leaf error has no tag. -/
def isPanic : Failure → Option Bool
  | leaf _ => none
  | predecessor _ => some false
  | successor _ => some false
  | panicked _ => some true

/-- The written form of an error. -/
def debug : Failure → String
  | leaf e => Text.quote e
  | predecessor e => "Predecessor(" ++ e.debug ++ ")"
  | successor e => "Successor(" ++ e.debug ++ ")"
  | panicked p => "Panicked(" ++ p.debug ++ ")"

@[simp] theorem display_predecessor (e : Failure) : (predecessor e).display = e.display := rfl

@[simp] theorem display_successor (e : Failure) : (successor e).display = e.display := rfl

end Failure

end Handoff
