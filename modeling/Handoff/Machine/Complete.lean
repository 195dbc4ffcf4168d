import Handoff.Machine.Config

/-!
# Completing

A completion that reaches a binding operation through a handle must find it in the state that the
child's role expects. The value of a predecessor begins the handoff: the value is stored, the
predecessor operation dropped, the factory called and its sender connected, and what any of this
raises becomes the error `Failure.panicked` of the operation. All else is passed on, under a tag,
to the operation's receiver, which that uses up.
-/

namespace Handoff.Machine

/-- Complete the receiver of a binding operation. -/
def pass (w : World) (site : Site) (h : Nat) (b : Binding) (c : Completion Value Failure)
    (K : List Frame) : Config :=
  match b.receiver with
  | some r => ⟨w.setBinding site h b.spend, .complete r c, K⟩
  | none => fault (w.note site (dropCarried c)) .bindCompleted K

theorem pass_eq {b : Binding} {r : Receiver} (hr : b.receiver = some r) (w : World) (site : Site)
    (h : Nat) (c : Completion Value Failure) (K : List Frame) :
    pass w site h b c K = ⟨w.setBinding site h b.spend, .complete r c, K⟩ := by
  rw [pass, hr]

/-- Store the value of a predecessor and drop the predecessor operation. From here on until the
successor is connected, what is raised is caught. -/
def accept (w : World) (site : Site) (h : Nat) (b : Binding) (v : Value) (K : List Frame) :
    Config :=
  let b := b.store v
  let d := (w.setBinding site h b).dropAbove site (h + 1) false
  let control := d.2.elim (Control.build site h) Control.raised
  ⟨d.1.setBinding site h b.vacate, control, .handoff site h :: K⟩

/-- Call the factory of a binding operation and connect the sender that it builds. -/
def build (w : World) (site : Site) (h : Nat) (K : List Frame) : Config :=
  match w.binding? site h with
  | none => finish w K
  | some b =>
    match b.factory with
    | none => fault (w.setBinding site h b.call) .factoryConsumed K
    | some (f, next) =>
      let c := f.call (b.stored ++ w.scope site h)
      let acts := b.stored.map (.called b.serial f.label) ++ c.remarks.map .remark
      let w := (w.note site acts).setScope site h (c.env.drop b.stored.length)
      let b := b.call.restore c.env
      match c.raised with
      | some p => ⟨w.setBinding site h b, .raised p, K⟩
      | none =>
        let w := w.note site [.logged b.serial .connectingSuccessor]
        ⟨w.setBinding site h b.emplace,
          .connect (next c.env) (.child .successor site h) site (h + 1), K⟩

/-- A child completes a binding operation that is in the state its role expects. -/
def receive (w : World) (role : Role) (site : Site) (h : Nat) (b : Binding)
    (c : Completion Value Failure) (K : List Frame) : Config :=
  match role, c with
  | .predecessor, .value v =>
    accept (w.note site [.logged b.serial .produced, .stored b.serial]) site h b v K
  | .predecessor, .error e =>
    pass (w.note site [.logged b.serial .failed]) site h b (.error (.predecessor e)) K
  | .predecessor, .done => pass (w.note site [.logged b.serial .stopped]) site h b .done K
  | .successor, c => pass w site h b (c.mapError .successor) K

/-- Give a completion to the blocked caller of a number, if it is still waiting. -/
def completeWaiter (w : World) (id : Nat) (c : Completion Value Failure) (K : List Frame) :
    Config :=
  if w.waiter = some { id } then finish { w with waiter := some { id, given := some c } } K
  else finish (w.note .wait (.waiterGone :: dropCarried c)) K

/-- Complete a receiver. A handle into an operation that is gone only drops what it is given. -/
def complete (w : World) (r : Receiver) (c : Completion Value Failure) (K : List Frame) : Config :=
  match r with
  | .child role site h =>
    match w.binding? site h with
    | none => finish (w.note site (dropCarried c)) K
    | some b =>
      if b.cleanup = role.expects then receive w role site h b c K
      else fault (w.note site (dropCarried c)) (.wrongState b.cleanup role.expects) K
  | .observer home o =>
    ⟨w.note home [.completed o.label (c.map Value.n)], .react home o.label o.reaction,
      .settle home c o.waiting :: K⟩
  | .recorder _ _ => finish { w with recorded := w.recorded ++ [c.map Value.n] } K
  | .waiter id => completeWaiter w id c K

/-- Go on with what a final receiver does when it is completed. -/
def react (w : World) (home : Site) (label : String) (actions : List Action) (K : List Frame) :
    Config :=
  match actions with
  | [] => finish w K
  | .raise p :: _ => ⟨w, .raised p, K⟩
  | .log s :: rest => ⟨w.note home [.remark (label ++ ": " ++ s)], .react home label rest, K⟩
  | .step s :: rest => ⟨w, .call s.call, .acting home label s.name rest :: K⟩

end Handoff.Machine
