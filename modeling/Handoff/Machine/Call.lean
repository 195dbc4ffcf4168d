import Handoff.Machine.Config

/-!
# Calls and tasks

A host makes calls on numbered places, stop sources and the queue. A place holds one kind of
operation at a time; a call that does not fit is refused with a reason and changes nothing.
-/

namespace Handoff.Machine

/-- Run a task of the queue. A script that may no longer use its receiver is lost. -/
def runTask (w : World) (t : Task) (K : List Frame) : Config :=
  match t with
  | .complete c r => ⟨w, .complete r c, K⟩
  | .resume r steps =>
    if w.isUsable r then ⟨w.note r.site [.remark ("resume " ++ r.label)], .follow r steps, K⟩
    else finish (w.note r.site (.remark ("lost " ++ r.label) :: dropHeld r.receiver)) K
  | .job (.mk label spawned raised) =>
    finishOr ((spawned.map Task.job).foldl World.schedule (w.record none [.remark label])) raised K

/-- Answer that a call was not carried out. -/
def refuse (w : World) (why : String) (K : List Frame) : Config := ⟨w, .done (.refused why), K⟩

/-- Connect in a numbered place, unless that holds an operation of another kind. -/
def connectPlace (w : World) (site : Site) (s : Sender) (r : Receiver) (K : List Frame) :
    Config :=
  match w.layers site with
  | [] => ⟨w.setLayers site [], .connect s r site 0, K⟩
  | l :: _ =>
    if l.kind = s.kind then ⟨w, .connect s r site 0, K⟩
    else refuse (w.note site s.drop) "place holds another type of operation" K

/-- Go on with a numbered place, unless nothing was ever connected there. -/
def withPlace (w : World) (site : Site) (go : Config) (K : List Frame) : Config :=
  match w.places.get? site with
  | some _ => go
  | none => refuse w "no such place" K

/-- Make a call on the world. -/
def call (w : World) (c : Call) (K : List Frame) : Config :=
  match c with
  | .connect p s r => connectPlace w (.place p) s r K
  | .start p => withPlace w (.place p) ⟨w, .start (.place p) 0, K⟩ K
  | .clear p =>
    let d := w.dropAbove (.place p) 0 false
    withPlace w (.place p) (finishOr d.1 d.2 K) K
  | .vacant p => ⟨w, .done (.flag (w.isVacant (.place p) 0)), K⟩
  | .pending => ⟨w, .done (.count w.queue.length), K⟩
  | .tick =>
    match w.queue with
    | [] => ⟨w, .done (.flag false), K⟩
    | t :: rest => ⟨{ w with queue := rest }, .task t, .answer (.flag true) :: K⟩
  | .drain =>
    match w.queue with
    | [] => finish w K
    | t :: rest => ⟨{ w with queue := rest }, .task t, .draining :: K⟩
  | .request k => ⟨(w.request k).1, .done (.flag (w.request k).2), K⟩
  | .stopped k => ⟨w, .done (.flag (w.isRequested k)), K⟩
  | .schedule j => finish (w.schedule (.job j)) K
  | .wait s =>
    let w' := { w with waiter := some { id := w.waits }, waits := w.waits + 1 }
    ⟨(w'.setLayers .wait []).note .wait [.waitStarted], .connect s (.waiter w.waits) .wait 0,
      .waitConnected :: .waitOver :: K⟩

end Handoff.Machine
