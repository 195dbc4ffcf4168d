import Handoff.World
import Mathlib.Tactic.Common

/-!
# Worlds changed at one site

All that an operation does to the world while it is connected, started or completed happens at its
own site: other operations stand there, more of them were built, more was recorded.
`World.after` is the world after such a change. The operations of `World` take worlds of this form
to worlds of this form, so that a course of moves at one site is computed on the three parts alone.
-/

namespace Handoff

namespace Places

variable {s : Site} {p q : Place}

lemma replace_replace (es : List (Site × Place)) :
    replace s q (replace s p es) = replace s q es := by
  induction es with
  | nil => simp [replace]
  | cons e rest ih => by_cases h : e.1 = s <;> simp [replace, h, ih]

lemma replace_eq_self (es : List (Site × Place)) (h : find s es = some p) :
    replace s p es = es := by
  induction es with
  | nil => simp [find] at h
  | cons e rest ih =>
    by_cases he : e.1 = s
    · simp only [find, he, if_true, Option.some.injEq] at h
      simp [replace, ← he, ← h]
    · simp only [find, he, if_false] at h
      simp [replace, he, ih h]

@[simp] lemma insert_insert (t : Places) : (t.insert s p).insert s q = t.insert s q := by
  simp [insert, replace_replace]

lemma insert_eq_self (t : Places) (h : t.get? s = some p) : t.insert s p = t := by
  obtain ⟨es⟩ := t
  simp only [insert, replace_eq_self es h]

end Places

namespace World

/-- The world after a change at one site: which operations stand there, how many were built so
far, and what was recorded on the way. -/
def after (w : World) (s : Site) (ls : List Layer) (n : Nat) (acts : List Act) : World :=
  (w.put s ⟨ls, n⟩).note s acts

/-- A site exists, holds the given operations and has built so many. -/
def Holds (w : World) (s : Site) (ls : List Layer) (n : Nat) : Prop :=
  w.places.get? s = some ⟨ls, n⟩

section After

variable {w : World} {s s' : Site} {ls ls' : List Layer} {n n' : Nat} {acts acts' : List Act}

@[simp] lemma place_after : (w.after s ls n acts).place s = ⟨ls, n⟩ := by
  simp [after]

@[simp] lemma layers_after : (w.after s ls n acts).layers s = ls := by
  simp [layers]

@[simp] lemma nextSerial_after : (w.after s ls n acts).nextSerial s = n := by
  simp [nextSerial]

@[simp] lemma events_after :
    (w.after s ls n acts).events = w.events ++ acts.map (Event.mk (some s)) := rfl

@[simp] lemma queue_after : (w.after s ls n acts).queue = w.queue := rfl

lemma note_note : (w.note s acts).note s acts' = w.note s (acts ++ acts') := by
  simp [note, record, List.append_assoc]

@[simp] lemma note_nil : w.note s [] = w := by
  simp [note, record]

@[simp] lemma note_after : (w.after s ls n acts).note s acts' = w.after s ls n (acts ++ acts') :=
  note_note

lemma setLayers_eq_after (w : World) (s : Site) (ls : List Layer) :
    w.setLayers s ls = w.after s ls (w.nextSerial s) [] := by
  simp [after, setLayers, nextSerial]

@[simp] lemma after_note : (w.note s acts).after s ls n acts' = w.after s ls n (acts ++ acts') := by
  simp [after, note, record, put, List.append_assoc]

@[simp] lemma after_after :
    (w.after s ls n acts).after s ls' n' acts' = w.after s ls' n' (acts ++ acts') := by
  simp [after, note, record, put, List.append_assoc]

@[simp] lemma put_after : (w.after s ls n acts).put s ⟨ls', n'⟩ = w.after s ls' n' acts := by
  simp [after, note, record, put]

@[simp] lemma setLayers_after :
    (w.after s ls n acts).setLayers s ls' = w.after s ls' n acts := by
  simp [setLayers]

@[simp] lemma setLayer_after (h : Nat) (l : Layer) :
    (w.after s ls n acts).setLayer s h l = w.after s (ls.set h l) n acts := by
  simp [setLayer]

@[simp] lemma scope_after (h : Nat) :
    (w.after s ls n acts).scope s h = Layer.scope (ls.take h) := by
  simp [scope]

@[simp] lemma dropAbove_after (h : Nat) (unwinding : Bool) :
    (w.after s ls n acts).dropAbove s h unwinding =
      let d := Layer.dropAll unwinding (Layer.scope (ls.take h)) (ls.drop h)
      (w.after s (ls.take h) n (acts ++ d.acts), d.raised) := by
  simp [dropAbove]

@[simp] lemma fill_after (make : Nat → Layer) :
    (w.after s ls n acts).fill s ls.length make =
      (w.after s (ls ++ [make n]) (n + 1) (acts ++ [.opened n ls.length]), true) := by
  rw [fill_of_isVacant (by simp [isVacant])]
  simp

/-- Writing back the stored numbers as they are changes nothing. -/
lemma setScope_after_scope (h : Nat) :
    (w.after s ls n acts).setScope s h (Layer.scope (ls.take h)) = w.after s ls n acts := by
  simp [setScope, Layer.scope, Layer.writeBack_lent]

lemma after_self (h : w.Holds s ls n) : w.after s ls n [] = w := by
  simp only [after, note_nil, put, Places.insert_eq_self w.places h]

@[simp] lemma holds_after : (w.after s ls n acts).Holds s ls n := by
  simp [Holds, after, note, record, put]

@[simp] lemma holds_note : (w.note s' acts).Holds s ls n ↔ w.Holds s ls n := Iff.rfl

lemma Holds.layers_eq (h : w.Holds s ls n) : w.layers s = ls := by
  simp [layers, place, show w.places.get? s = _ from h]

lemma exists_holds_of_layers_ne (h : w.layers s ≠ []) : ∃ n, w.Holds s (w.layers s) n := by
  cases hq : w.places.get? s with
  | none => simp [layers, place, hq] at h
  | some q => exact ⟨q.count, by simp [Holds, layers, place, hq]⟩

end After

/-! ### The operation on top of those below -/

section Top

variable {w : World} {s : Site} {base rest : List Layer} {n : Nat} {acts : List Act}

lemma take_top (l : Layer) : (base ++ l :: rest).take (base.length + 1) = base ++ [l] := by
  simp [List.take_append, List.take_of_length_le]

@[simp] lemma binding?_after_top (b : Binding) :
    (w.after s (base ++ .bind b :: rest) n acts).binding? s base.length = some b := by
  simp [binding?]

@[simp] lemma setBinding_after_top (l : Layer) (b : Binding) :
    (w.after s (base ++ l :: rest) n acts).setBinding s base.length b =
      w.after s (base ++ .bind b :: rest) n acts := by
  simp [setBinding]

@[simp] lemma setScope_after_top :
    (w.after s (base ++ rest) n acts).setScope s base.length (Layer.scope base) =
      w.after s (base ++ rest) n acts := by
  have := @setScope_after_scope w s (base ++ rest) n acts base.length
  rwa [List.take_left] at this

end Top

end World

end Handoff
