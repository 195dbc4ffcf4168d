import Handoff.Sender

/-!
# Receivers

A receiver takes the completion of an operation. A child of a binding operation is given a handle
into it, which may be copied; final receivers are used up by their completion. Operations never
move, so a handle is a site and a height.
-/

namespace Handoff

/-- The part a child plays in a binding operation. -/
inductive Role where
  | predecessor
  | successor
  deriving DecidableEq, Repr

/-- What a binding operation owns when a child in this role may complete it. -/
def Role.expects : Role → Cleanup
  | predecessor => .predecessor
  | successor => .successor

/-- What takes the completion of an operation. -/
inductive Receiver where
  /-- A handle into the binding operation at a height of a site. -/
  | child (role : Role) (site : Site) (height : Nat)
  /-- A final receiver, with the site it was connected at. -/
  | observer (home : Site) (o : Observer)
  /-- A final receiver that keeps a record of completions. -/
  | recorder (home : Site) (stop : Option Int)
  /-- The final receiver of the blocked caller of that number. -/
  | waiter (id : Nat)

namespace Receiver

/-- Whether a receiver is a handle that may be copied. -/
def isChild : Receiver → Bool
  | child _ _ _ => true
  | _ => false

/-- The site a receiver belongs to, if it belongs to one. -/
def site : Receiver → Option Site
  | child _ s _ => some s
  | observer home _ => some home
  | recorder home _ => some home
  | waiter _ => some .wait

/-- The name under which a receiver is listed. -/
def name : Receiver → String
  | child .predecessor _ _ => "PredecessorReceiver"
  | child .successor _ _ => "SuccessorReceiver"
  | observer _ o => o.name
  | recorder _ _ => "Recorder"
  | waiter _ => "SyncWaitReceiver"

/-- The source that stop requests of a final receiver come from. -/
def ownStop : Receiver → Option Int
  | child _ _ _ => none
  | observer _ o => o.stop
  | recorder _ k => k
  | waiter _ => none

/-- The names of a receiver and of those that it knows itself to be waited for by. -/
def ownNames : Receiver → List String
  | observer _ o => o.names
  | r => [r.name]

/-- A receiver as a term, without what lies behind a handle. -/
def ownTerm : Receiver → String
  | observer _ o => o.term
  | r => r.name

/-- The drop of a receiver that was not completed. -/
def drop : Receiver → List Act
  | observer _ o => o.labels.map .receiverDropped
  | _ => []

end Receiver

/-- The drop of a receiver that may be gone already. -/
def dropHeld (r : Option Receiver) : List Act := r.elim [] Receiver.drop

end Handoff
