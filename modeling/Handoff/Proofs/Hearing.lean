import Handoff.Proofs.Delivery
import Handoff.Proofs.Site

/-!
# Calm receivers

A final receiver may do anything when it is completed. A calm one makes no calls of its own: it
records the completion, may leave remarks, and then returns or raises a payload. What a calm
receiver does with a completion is `World.hear`; it leaves all operations and the queue alone.
-/

namespace Handoff

open Config Machine

/-- Whether an action is a call. -/
def Action.isStep : Action → Bool
  | .step _ => true
  | .raise _ => false
  | .log _ => false

/-- The remarks of a final receiver up to the first payload that it raises, if any. -/
def Action.remarks (label : String) : List Action → List Act
  | .log s :: rest => .remark (label ++ ": " ++ s) :: remarks label rest
  | .raise _ :: _ => []
  | .step _ :: _ => []
  | [] => []

/-- The first payload that a final receiver raises. -/
def Action.firstRaised : List Action → Option Payload
  | .log _ :: rest => firstRaised rest
  | .raise p :: _ => some p
  | .step _ :: _ => none
  | [] => none

namespace Receiver

/-- A final receiver that makes no calls when it is completed. -/
def Calm : Receiver → Prop
  | child _ _ _ => False
  | observer _ o => ∀ a ∈ o.reaction, a.isStep = false
  | recorder _ _ => True
  | waiter _ => True

/-- What a calm receiver raises when it is completed, if anything. -/
def raises : Receiver → Option Payload
  | observer _ o => Action.firstRaised o.reaction
  | _ => none

lemma Calm.isChild_eq {r : Receiver} (h : r.Calm) : r.isChild = false := by
  cases r with
  | child role s h' => exact h.elim
  | _ => rfl

end Receiver

namespace World

/-- The world after a calm receiver has been completed. -/
def hear (w : World) (r : Receiver) (v : Completion Value Failure) : World :=
  match r with
  | .child _ _ _ => w
  | .observer home o =>
    w.note home (.completed o.label (v.map Value.n) ::
      (Action.remarks o.label o.reaction ++ settled v o.waiting))
  | .recorder _ _ => { w with recorded := w.recorded ++ [v.map Value.n] }
  | .waiter id =>
    if w.waiter = some { id } then { w with waiter := some { id, given := some v } }
    else w.note .wait (.waiterGone :: dropCarried v)

variable {w : World} {s : Site} {r : Receiver} {v : Completion Value Failure}

lemma hear_put (p : Place) : (w.put s p).hear r v = (w.hear r v).put s p := by
  cases r with
  | waiter id =>
    by_cases h : w.waiter = some { id }
    · simp [hear, put, h]
    · simp [hear, put, h, note, record]
  | _ => rfl

/-- A calm receiver hears the same whatever stands at a site. -/
lemma hear_after {ls : List Layer} {n : Nat} {acts : List Act} :
    (w.after s ls n acts).hear r v = ((w.note s acts).hear r v).after s ls n [] :=
  (hear_put (w := w.note s acts) _).trans note_nil.symm

@[simp] lemma queue_hear : (w.hear r v).queue = w.queue := by
  cases r with
  | waiter id =>
    by_cases h : w.waiter = some { id }
    · simp [hear, h]
    · simp [hear, h, note, record]
  | _ => rfl

@[simp] lemma places_hear : (w.hear r v).places = w.places := by
  cases r with
  | waiter id =>
    by_cases h : w.waiter = some { id }
    · simp [hear, h]
    · simp [hear, h, note, record]
  | _ => rfl

@[simp] lemma requested_hear : (w.hear r v).requested = w.requested := by
  cases r with
  | waiter id =>
    by_cases h : w.waiter = some { id }
    · simp [hear, h]
    · simp [hear, h, note, record]
  | _ => rfl

end World

lemma leads_react (home : Site) (label : String) (actions : List Action)
    (ha : ∀ a ∈ actions, a.isStep = false) (w : World) (K : List Frame) :
    Leads ⟨w, .react home label actions, K⟩ []
      (finishOr (w.note home (Action.remarks label actions)) (Action.firstRaised actions) K) := by
  induction actions generalizing w with
  | nil => exact .quiet rfl rfl (by simpa [react, Action.remarks, Action.firstRaised] using .refl _)
  | cons a rest ih =>
    obtain ⟨hhead, htail⟩ := List.forall_mem_cons.1 ha
    cases a with
    | raise p =>
      exact .quiet rfl rfl (by simpa [react, Action.remarks, Action.firstRaised] using .refl _)
    | log s =>
      have hrest := ih htail (w.note home [.remark (label ++ ": " ++ s)])
      refine .quiet rfl rfl ?_
      simpa [react, Action.remarks, Action.firstRaised, World.note_note] using hrest
    | step s => simp [Action.isStep] at hhead

/-- Completing a calm receiver gives it the completion and nothing else to any final receiver. -/
theorem leads_hear {r : Receiver} (hr : r.Calm) (w : World) (v : Completion Value Failure)
    (K : List Frame) :
    Leads ⟨w, .complete r v, K⟩ [(r, v)] (finishOr (w.hear r v) r.raises K) := by
  refine .give hr.isChild_eq ?_
  cases r with
  | child role s h => exact hr.elim
  | observer home o =>
    have hreact := leads_react home o.label o.reaction hr
      (w.note home [.completed o.label (v.map Value.n)]) (.settle home v o.waiting :: K)
    refine hreact.append_quiet ?_
    simp only [Receiver.raises]
    cases Action.firstRaised o.reaction with
    | none =>
      exact .quiet rfl rfl (by simpa [resume, World.hear, World.note_note] using Leads.refl _)
    | some p =>
      exact .quiet rfl rfl (by simpa [unwind, World.hear, World.note_note] using Leads.refl _)
  | recorder home k => exact .refl _
  | waiter id =>
    simp only [complete, completeWaiter, World.hear, Receiver.raises]
    split_ifs with h
    · exact .refl _
    · exact .refl _

end Handoff
