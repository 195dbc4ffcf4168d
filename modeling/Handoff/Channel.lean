/-!
# Channels for one message

A caller that blocks until a sender completes makes a channel for one message, gives the sending end
away with its final receiver and blocks on the other end. A channel is made elsewhere: `Channel` is
what is used of one, and `Channel.OneShot` what is relied on.
-/

namespace Handoff

/-- What blocking on the receiving end of a channel comes to. -/
inductive Received (α : Type) where
  | sent (a : α)
  /-- Nothing was sent, and nothing will be. -/
  | canceled
  deriving DecidableEq, Repr

/-- What is used of a channel. -/
structure Channel (α : Type) where
  State : Type
  /-- A channel whose sending end was not used yet. -/
  new : State
  /-- Send a message, which uses up the sending end. -/
  send : State → α → State
  /-- Drop the sending end without using it. -/
  close : State → State
  /-- What a caller receives that blocks on the receiving end, if it does not block for good. -/
  block : State → Option (Received α)

namespace Channel

variable {α : Type}

/-- A caller receives what was sent, is told if the sending end was dropped unused, and blocks as
long as that end is there. -/
structure OneShot (ch : Channel α) : Prop where
  sent (a : α) : ch.block (ch.send ch.new a) = some (.sent a)
  canceled : ch.block (ch.close ch.new) = some .canceled
  pending : ch.block ch.new = none

/-- A channel that is no more than what will be received from it, if anything. -/
def cell (α : Type) : Channel α where
  State := Option (Received α)
  new := none
  send _ a := some (.sent a)
  close _ := some .canceled
  block x := x

theorem oneShot_cell (α : Type) : (cell α).OneShot where
  sent _ := rfl
  canceled := rfl
  pending := rfl

end Channel

end Handoff
