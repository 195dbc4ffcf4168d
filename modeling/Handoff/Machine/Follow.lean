import Handoff.Machine.Config

/-!
# Following a script

A run of a script carries out its instructions one by one. Before each it makes sure that it may
still use its receiver: the operation that a handle points into may be gone by then. Once it is,
only remarks and raised payloads are left of the script.
-/

namespace Handoff.Machine

/-- Drop the receiver that a run has left, if it has one. -/
def dropReceiver (w : World) (r : Run) : World := w.note r.site (dropHeld r.receiver)

/-- What is left of a run whose receiver is given away, be it used or moved into a task: a handle
may be copied, a final receiver not. -/
def giveAway (r : Run) : Run :=
  { r with receiver := r.receiver.filter Receiver.isChild }

/-- Let a run complete its receiver. -/
def deliver (w : World) (r : Run) (d : Delivery) (frame : Run → Frame) (K : List Frame) :
    Config :=
  let c := d.eval (w.scopeOf r) (some r.id)
  match r.receiver with
  | none => fault (w.note r.site (dropCarried c)) .receiverConsumed (frame r :: K)
  | some receiver => ⟨w, .complete receiver c, frame (giveAway r) :: K⟩

/-- Journal what a run finds out about its receiver, if it has one. -/
def ask (w : World) (r : Run) (say : Receiver → String) : World :=
  w.note r.site [.remark (r.receiver.elim (r.label ++ " has no receiver") say)]

/-- What a receiver says about stop requests. -/
def stopText (w : World) (label : String) (r : Receiver) : String :=
  label ++ " token possible=" ++ Text.truth (w.stopOf r).isSome ++ " requested="
    ++ Text.truth (w.isStopped r)

/-- Carry out one instruction of a run that may use its receiver. -/
def instruct (w : World) (r : Run) (i : Instr) (rest : List Instr) (K : List Frame) : Config :=
  let say (text : String) : Config := ⟨w.note r.site [.remark text], .follow r rest, K⟩
  match i with
  | .complete d => deliver w r d (.script · rest) K
  | .attempt d => deliver w r d (.attempt · rest) K
  | .askStop => ⟨ask w r (stopText w r.label), .follow r rest, K⟩
  | .stopDone =>
    if r.receiver.any w.isStopped then
      deliver (w.note r.site [.gaveUp r.label]) r .done (.script · []) K
    else ⟨w, .follow r rest, K⟩
  | .chain =>
    ⟨ask w r fun c => "chain " ++ r.label ++ ": " ++ w.termFrom c, .follow r rest, K⟩
  | .info =>
    ⟨w.note r.site [.walked r.label (r.receiver.elim [] w.namesFrom)], .follow r rest, K⟩
  | .request k =>
    let (w, first) := w.request k
    ⟨w.note r.site [.remark (r.label ++ " request_stop " ++ Text.truth first)],
      .follow r rest, K⟩
  | .log s => say (r.label ++ ": " ++ s)
  | .peek d => say (r.label ++ " peek " ++ Text.decimal? (w.scopeOf r)[d]?)
  | .poke d n =>
    let env := w.scopeOf r
    ⟨w.setScope r.site r.reach (env.set d (n.eval env)), .follow r rest, K⟩
  | .raise p => ⟨dropReceiver w r, .raised p, K⟩
  | .forget => ⟨dropReceiver w r, .follow { r with receiver := none } rest, K⟩
  | .defer => finish (w.schedule (.resume r rest)) K
  | .later steps =>
    let w' := w.schedule (.resume { r with id := w.runs } steps)
    ⟨{ w' with runs := w.runs + 1 }, .follow (giveAway r) rest, K⟩

/-- Go on with a run of a script. -/
def follow (w : World) (r : Run) (steps : List Instr) (K : List Frame) : Config :=
  match steps with
  | [] => finish (dropReceiver w r) K
  | i :: rest =>
    if w.isUsable r then instruct w r i rest K
    else match i with
      | .log _ => instruct w r i rest K
      | .raise _ => instruct w r i rest K
      | _ => ⟨w, .follow r rest, K⟩

end Handoff.Machine
