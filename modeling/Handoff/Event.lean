import Handoff.Completion
import Handoff.Failure
import Handoff.Value

/-!
# Events

Everything that happens to places, operations and values is recorded as an `Event`, in order and
with the site it belongs to. A journal shows some of them: `Event.entry?` is the entry of an event,
if it has one, and log records show only when logging is on. The lives of operations and stored
values are recorded by number and never show.
-/

namespace Handoff

/-- Where an operation is built: in a numbered place, or in the frame of a blocked caller. -/
inductive Site where
  | place (key : Int)
  | wait
  deriving DecidableEq, Repr

/-- The key of a numbered place. -/
def Site.key? : Site → Option Int
  | place key => some key
  | wait => none

/-- What a step answers. -/
inductive Reply where
  | nothing
  | flag (b : Bool)
  | count (n : Nat)
  | completion (c : Completion Int64 Failure)
  /-- The step was not carried out, for the reason given. -/
  | refused (why : String)
  deriving DecidableEq, Repr

/-- A log record of a binding operation. -/
inductive Record where
  | connecting
  | starting
  | produced
  | connectingSuccessor
  | failed
  | stopped
  | tearingDown (c : Cleanup)
  | buildFailed (p : Payload)
  | midHandoff
  deriving DecidableEq, Repr

/-- The level and text of a record. -/
def Record.text : Record → String
  | connecting => "TRACE let_value: connecting"
  | starting => "TRACE let_value: starting predecessor"
  | produced => "TRACE let_value: predecessor produced a value"
  | connectingSuccessor => "TRACE let_value: connecting successor"
  | failed => "TRACE let_value: predecessor failed, skipping the factory"
  | stopped => "TRACE let_value: predecessor stopped, skipping the factory"
  | tearingDown c => "TRACE let_value: tearing down from " ++ c.name
  | buildFailed p => "DEBUG let_value: building the successor failed: " ++ p.display
  | midHandoff => "ERROR let_value operation dropped mid-handoff; leaking its child operation"

/-- Something that happens. -/
inductive Act where
  /-- An operation comes into being, at a height of its site. -/
  | opened (serial height : Nat)
  /-- An operation is gone. -/
  | closed (serial : Nat)
  /-- A binding operation stores the value of its predecessor. -/
  | stored (serial : Nat)
  /-- The value stored by a binding operation is gone. -/
  | released (serial : Nat)
  /-- A binding operation calls its factory with the stored number. -/
  | called (serial : Nat) (label : Option String) (n : Int64)
  /-- A factory is dropped without having been called. -/
  | uncalled (label : String)
  /-- A leaf is connected. -/
  | connected (label : String)
  /-- A leaf is started. -/
  | started (label : String)
  /-- A leaf sees a stop request and gives up. -/
  | gaveUp (label : String)
  /-- The operation of a leaf is dropped. -/
  | dropped (label : String)
  /-- The operation of a leaf is dropped and reads a stored number. -/
  | droppedSeeing (label : String) (n : Option Int64)
  /-- A leaf lists who waits behind its receiver, innermost first. -/
  | walked (label : String) (names : List String)
  /-- A value is dropped, with a text if it has a label. -/
  | valueDropped (text : Option String)
  /-- A final receiver is dropped without a completion. -/
  | receiverDropped (label : String)
  /-- A final receiver is completed. -/
  | completed (label : String) (c : Completion Int64 Failure)
  /-- A final receiver has carried out a step. -/
  | did (label step : String) (r : Reply)
  /-- A script has caught a payload. -/
  | caught (label : String) (p : Payload)
  /-- Any other remark. -/
  | remark (text : String)
  /-- A binding operation logs a record. -/
  | logged (serial : Nat) (r : Record)
  /-- A blocked caller starts to wait. -/
  | waitStarted
  /-- A completion arrives after the blocked caller has left. -/
  | waiterGone
  deriving DecidableEq, Repr

/-- Something that happens, and the site it belongs to, if any. -/
structure Event where
  site : Option Site
  act : Act
  deriving DecidableEq, Repr

/-- What a labelled entry of the journal holds. -/
inductive Detail where
  | completion (c : Completion Int64 Failure)
  | payload (p : Payload)
  | texts (ts : List String)
  | reply (r : Reply)
  deriving DecidableEq, Repr

/-- An entry of the journal. -/
inductive Entry where
  | text (s : String)
  | labelled (label : String) (d : Detail)
  deriving DecidableEq, Repr

/-- How one receiver of a walk is listed. -/
def continuationInfo (name : String) : String :=
  "ContinuationInfo \x7b type_name: " ++ Text.quote name ++ ", address: <address> \x7d"

/-- The journal entry of what happens, if it has one. -/
def Act.entry? (logging : Bool) : Act → Option Entry
  | opened _ _ => none
  | closed _ => none
  | stored _ => none
  | released _ => none
  | called _ (some label) n =>
    some (.text ("factory " ++ label ++ " got " ++ Text.decimal n))
  | called _ none n => some (.text ("factory " ++ Text.decimal n))
  | uncalled label => some (.text ("drop factory " ++ label))
  | connected label => some (.text ("connect " ++ label))
  | started label => some (.text ("start " ++ label))
  | gaveUp label => some (.text ("stopped " ++ label))
  | dropped label => some (.text ("drop " ++ label))
  | droppedSeeing label n => some (.text ("drop " ++ label ++ " saw " ++ Text.decimal? n))
  | walked label names => some (.labelled (label ++ " info") (.texts (names.map continuationInfo)))
  | valueDropped text => text.map .text
  | receiverDropped label => some (.text ("drop receiver " ++ label))
  | completed label c => some (.labelled label (.completion c))
  | did label step r => some (.labelled (label ++ " did " ++ step) (.reply r))
  | caught label p => some (.labelled (label ++ " caught") (.payload p))
  | remark text => some (.text text)
  | logged _ r => if logging then some (.text r.text) else none
  | waitStarted => if logging then some (.text "TRACE sync_wait: starting") else none
  | waiterGone =>
    if logging then some (.text "WARN sync_wait: completion arrived after the waiter gave up")
    else none

/-- The journal of a list of events. -/
def journal (logging : Bool) (events : List Event) : List Entry :=
  events.filterMap fun e => e.act.entry? logging

@[simp] theorem journal_nil (logging : Bool) : journal logging [] = [] := rfl

@[simp] theorem journal_append (logging : Bool) (xs ys : List Event) :
    journal logging (xs ++ ys) = journal logging xs ++ journal logging ys := by
  simp [journal]

end Handoff
