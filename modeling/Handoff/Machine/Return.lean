import Handoff.Channel
import Handoff.Machine.Complete

/-!
# Returning and unwinding

When the control has returned or raised a payload, the innermost frame of the stack says how to go
on. Most frames let a payload through, after dropping what they hold; a handoff turns it into an
error, and an attempt of a script journals it.
-/

namespace Handoff.Machine

/-- Go on with a caller by what it has received. Its operation is dropped before what it was given,
and what it was given is lost with a drop that raises a payload. -/
def release (w : World) (x : Received (Completion Value Failure)) (K : List Frame) : Config :=
  match x with
  | .canceled => fault (w.dropAbove .wait 0 true).1.leave .receiverLost K
  | .sent c =>
    match w.dropAbove .wait 0 false with
    | (w, some p) => ⟨w.leave, .raised p, K⟩
    | (w, none) => ⟨w.leave.note .wait (dropCarried c), .done (.completion (c.map Value.n)), K⟩

/-- Unblock a caller that was given a completion or has let go of its operation. -/
def unblock (w : World) (K : List Frame) : Config :=
  match w.given with
  | none => release w .canceled K
  | some c => release w (.sent c) K

/-- Let go of the operation of a blocked caller that was not given anything. -/
def abandon (w : World) (K : List Frame) : Config :=
  match w.given with
  | some _ => finish w K
  | none =>
    let d := (w.note .wait [.remark "abandoned"]).dropAbove .wait 0 false
    finishOr d.1 d.2 K

/-- What is dropped when a final receiver is through with a completion. -/
def settled (c : Completion Value Failure) (waiting : List Observer) : List Act :=
  dropCarried c ++ (Observer.labelsAll waiting).map .receiverDropped

/-- Return an answer to a frame. -/
def resume (w : World) (r : Reply) (f : Frame) (K : List Frame) : Config :=
  match f with
  | .guard _ _ => finish w K
  | .handoff site h =>
    match w.binding? site h with
    | none => finish w K
    | some b => ⟨w.setBinding site h b.settle, .start site (h + 1), K⟩
  | .script run rest => ⟨w, .follow run rest, K⟩
  | .attempt run rest => ⟨w, .follow run rest, K⟩
  | .thenRaise p => finishOr w p K
  | .discard site c => finish (w.note site (dropCarried c)) K
  | .settle home c waiting => finish (w.note home (settled c waiting)) K
  | .acting home label step rest =>
    ⟨w.note home [.did label step r], .react home label rest, K⟩
  | .answer a => ⟨w, .done a, K⟩
  | .draining => ⟨w, .call .drain, K⟩
  | .waitConnected => ⟨w, .start .wait 0, .waitStarted :: K⟩
  | .waitStarted => ⟨w, .call .drain, .waitDrained :: K⟩
  | .waitDrained => abandon w K
  | .waitOver => unblock w K

/-- Raise a payload through a frame. -/
def unwind (w : World) (p : Payload) (f : Frame) (K : List Frame) : Config :=
  match f with
  | .guard site h => ⟨(w.dropAbove site h true).1, .raised p, K⟩
  | .handoff site h =>
    match w.binding? site h with
    | none => ⟨w, .raised p, K⟩
    | some b =>
      pass (w.note site [.logged b.serial (.buildFailed p)]) site h b (.error (.panicked p)) K
  | .script run _ => ⟨w.note run.site (dropHeld run.receiver), .raised p, K⟩
  | .attempt run rest => ⟨w.note run.site [.caught run.label p], .follow run rest, K⟩
  | .discard site c => ⟨w.note site (dropCarried c), .raised p, K⟩
  | .settle home c waiting => ⟨w.note home (settled c waiting), .raised p, K⟩
  | .waitOver =>
    ⟨(w.dropAbove .wait 0 true).1.leave.note .wait (w.given.elim [] dropCarried), .raised p, K⟩
  | .thenRaise _ => ⟨w, .raised p, K⟩
  | .acting _ _ _ _ => ⟨w, .raised p, K⟩
  | .answer _ => ⟨w, .raised p, K⟩
  | .draining => ⟨w, .raised p, K⟩
  | .waitConnected => ⟨w, .raised p, K⟩
  | .waitStarted => ⟨w, .raised p, K⟩
  | .waitDrained => ⟨w, .raised p, K⟩

end Handoff.Machine
