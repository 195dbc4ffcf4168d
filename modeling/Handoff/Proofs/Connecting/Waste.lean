import Handoff.Receiver
import Mathlib.Tactic.Common

/-!
# What is dropped unused

A sender that is not to run and a final receiver that is not completed are dropped with all that
they own. `Act.isWaste` picks such drops from a record.
-/

namespace Handoff

namespace Act

/-- Whether an act is the drop of a value, a factory or a final receiver that was not used. -/
def isWaste : Act → Bool
  | uncalled _ => true
  | valueDropped _ => true
  | receiverDropped _ => true
  | _ => false

/-- Whether an act only connects or drops: nothing is started, completed, stored or called. -/
def isIdle : Act → Bool
  | connected _ => true
  | dropped _ => true
  | droppedSeeing _ _ => true
  | logged _ .connecting => true
  | logged _ (.tearingDown _) => true
  | a => a.isWaste

lemma isIdle_of_isWaste {a : Act} (h : a.isWaste = true) : a.isIdle = true := by
  cases a with
  | logged k r => simp [isWaste] at h
  | _ => first | rfl | simpa [isIdle] using h

end Act

open Act (isWaste)

lemma isWaste_drop_receiver (r : Receiver) : ∀ a ∈ r.drop, isWaste a = true := by
  cases r <;> simp [Receiver.drop, isWaste]

lemma isWaste_dropCarried (c : Completion Value Failure) :
    ∀ a ∈ dropCarried c, isWaste a = true := by
  cases c <;> simp [dropCarried, Completion.value?, Value.drop, isWaste]

lemma isWaste_drop_factory (f : Factory) : ∀ a ∈ f.drop, isWaste a = true := by
  simp [Factory.drop, isWaste]

lemma isWaste_drop_sender (x : Sender) : ∀ a ∈ x.drop, isWaste a = true := by
  induction x with
  | ready c => exact isWaste_dropCarried c
  | leaf l => exact isWaste_dropCarried l.completion
  | exploding built => simp [Sender.drop]
  | script x => simp [Sender.drop]
  | either which x ih => exact ih
  | bind p f next ih _ =>
    intro a ha
    obtain ha | ha := List.mem_append.1 ha
    · exact ih a ha
    · exact isWaste_drop_factory f a ha

end Handoff
