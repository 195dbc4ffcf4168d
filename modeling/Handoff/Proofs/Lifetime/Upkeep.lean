import Handoff.Proofs.Lifetime.Booking

/-!
# The books of a world

What is done to the numbered places of a world is in order if it is at each of them: `World.Turns`
says so, with one lemma for each operation of the world. The frame of a blocked caller is not among
these places: a caller that blocks within another overwrites it.
-/

namespace Handoff

open Act (Unbooked)
open Ledger (Takes)

namespace World

/-- What was recorded at a site, in order. -/
def actsAt (w : World) (s : Site) : List Act :=
  w.events.filterMap fun e => if e.site = some s then some e.act else none

/-- The numbered places are as places are at all times. -/
def Sound (w : World) : Prop := ∀ p, (w.place (.place p)).Sound

/-- What is done to numbered places from one world to another is in order. -/
def Turns (w w' : World) : Prop :=
  ∀ p, ∃ acts, w'.actsAt (.place p) = w.actsAt (.place p) ++ acts ∧
    (w.place (.place p)).Turns acts (w'.place (.place p))

variable {w w' w'' : World} {s s' : Site} {h : Nat} {acts : List Act}

lemma Turns.trans (hw : w.Turns w') (hw' : w'.Turns w'') : w.Turns w'' := by
  intro p
  obtain ⟨acts, hacts, hturns⟩ := hw p
  obtain ⟨acts', hacts', hturns'⟩ := hw' p
  exact ⟨acts ++ acts', by rw [hacts', hacts, List.append_assoc], hturns.trans hturns'⟩

lemma Turns.sound (hw : w.Turns w') (h : w.Sound) : w'.Sound := by
  intro p
  obtain ⟨acts, -, hturns⟩ := hw p
  exact (hturns (h p)).1

lemma Turns.of_eq (hp : w'.places = w.places) (he : w'.events = w.events) : w.Turns w' := by
  intro p
  refine ⟨[], by simp [actsAt, he], ?_⟩
  rw [show w'.place (.place p) = w.place (.place p) by simp [place, hp]]
  exact .others _ Act.unbooked_nil

lemma Turns.refl (w : World) : w.Turns w := .of_eq rfl rfl

lemma actsAt_record (o : Option Site) :
    (w.record o acts).actsAt s = w.actsAt s ++ if o = some s then acts else [] := by
  simp only [actsAt, record, List.filterMap_append, List.filterMap_map]
  split_ifs with h <;> simp [h]

@[simp] lemma actsAt_note : (w.note s acts).actsAt s = w.actsAt s ++ acts := by
  simp [note, actsAt_record]

@[simp] lemma actsAt_put (q : Place) : (w.put s' q).actsAt s = w.actsAt s := rfl

lemma Turns.record (w : World) (o : Option Site) (h : Unbooked acts) :
    w.Turns (w.record o acts) := by
  intro p
  refine ⟨_, actsAt_record o, .others _ ?_⟩
  split_ifs <;> simp [h]

lemma Turns.note (w : World) (s : Site) (h : Unbooked acts) : w.Turns (w.note s acts) :=
  .record w (some s) h

lemma place_put_of_ne (q : Place) (h : s' ≠ s) : (w.put s q).place s' = w.place s' := by
  simp [place, put, Places.get?_insert_of_ne h]

lemma Turns.after (w : World) {s : Site} {ls : List Layer} {n : Nat}
    (h : s ≠ .wait → (w.place s).Turns acts ⟨ls, n⟩) : w.Turns (w.after s ls n acts) := by
  intro p
  by_cases hs : s = .place p
  · subst hs
    exact ⟨acts, by simp [World.after], by simpa using h (by simp)⟩
  · refine ⟨[], ?_, ?_⟩
    · simp [World.after, World.note, actsAt_record, hs]
    · rw [show (w.after s ls n acts).place (.place p) = w.place (.place p) from
        place_put_of_ne _ (Ne.symm hs)]
      exact .others _ Act.unbooked_nil

lemma Turns.setLayers (w : World) (s : Site) {ls : List Layer}
    (h : List.Forall₂ Layer.Alters (w.layers s) ls) : w.Turns (w.setLayers s ls) := by
  rw [setLayers_eq_after]
  exact .after w fun _ => .altered _ h

lemma forall₂_set {ls : List Layer} {l l' : Layer} (hl : ls[h]? = some l) (ha : l.Alters l') :
    List.Forall₂ Layer.Alters ls (ls.set h l') := by
  induction ls generalizing h with
  | nil => simp at hl
  | cons x rest ih =>
    cases h with
    | zero =>
      obtain rfl : x = l := by simpa using hl
      exact .cons ha (List.forall₂_same.2 fun y _ => .refl y)
    | succ h => exact .cons (.refl x) (ih (by simpa using hl))

lemma forall₂_writeBack (ns : Env) (ls : List Layer) :
    List.Forall₂ Layer.Alters ls (Layer.writeBack ns ls) := by
  induction ls generalizing ns with
  | nil => exact .nil
  | cons l rest ih =>
    simp only [Layer.writeBack]
    split
    · refine .cons ⟨?_, ?_, ?_, ?_⟩ (ih _) <;> simp [Layer.serial, Layer.holds, Layer.cleanup?]
    · exact .cons (.refl _) (ih _)

lemma Turns.setLayer {l l' : Layer} (hl : (w.layers s)[h]? = some l) (ha : l.Alters l') :
    w.Turns (w.setLayer s h l') :=
  .setLayers w s (forall₂_set hl ha)

lemma binding?_eq_some_iff {b : Binding} :
    w.binding? s h = some b ↔ (w.layers s)[h]? = some (.bind b) := by
  unfold binding?
  split <;> simp_all

lemma Turns.setBinding {b b' : Binding} (hb : w.binding? s h = some b)
    (ha : (Layer.bind b).Alters (.bind b')) : w.Turns (w.setBinding s h b') :=
  .setLayer (binding?_eq_some_iff.1 hb) ha

lemma Turns.setScope (w : World) (s : Site) (h : Nat) (env : Env) :
    w.Turns (w.setScope s h env) := by
  refine .setLayers w s ?_
  have htake := forall₂_writeBack env.reverse ((w.layers s).take h)
  have hdrop : List.Forall₂ Layer.Alters ((w.layers s).drop h) ((w.layers s).drop h) :=
    List.forall₂_same.2 fun l _ => .refl l
  have hall : List.Forall₂ Layer.Alters ((w.layers s).take h ++ (w.layers s).drop h)
      (Layer.writeBack env.reverse ((w.layers s).take h) ++ (w.layers s).drop h) :=
    List.rel_append htake hdrop
  rwa [List.take_append_drop] at hall

lemma Turns.dropAbove (w : World) (s : Site) (h : Nat) (unwinding : Bool) :
    w.Turns (w.dropAbove s h unwinding).1 := by
  have hafter : (w.dropAbove s h unwinding).1 = w.after s ((w.layers s).take h) (w.nextSerial s)
      (Layer.dropAll unwinding (w.scope s h) ((w.layers s).drop h)).acts := by
    simp [World.dropAbove, setLayers_eq_after]
  rw [hafter]
  exact .after w fun _ => .dropped (w.place s) h unwinding (w.scope s h)

/-- The slot at a height is the one on top of what stands at a site, if it is vacant, and nothing
there is amid a handoff. -/
def Ready (w : World) (s : Site) (h : Nat) : Prop :=
  (w.layers s).length ≤ h →
    (w.layers s).length = h ∧ ∀ l ∈ w.layers s, l.cleanup? ≠ some .invalid

lemma Turns.fill (hw : s ≠ .wait → w.Ready s h) (make : Nat → Layer)
    (hserial : ∀ k, (make k).serial = k) (hholds : ∀ k, (make k).holds = false) :
    w.Turns (w.fill s h make).1 := by
  by_cases hv : w.isVacant s h = true
  · rw [fill_of_isVacant hv]
    refine .after w ?_
    intro hs
    obtain ⟨hlen, hvalid⟩ := hw hs (by simpa [isVacant] using hv)
    rw [← hlen]
    exact .opened (w.place s) (make (w.nextSerial s)) (hserial _) (hholds _) hvalid
  · rw [fill_of_not_isVacant (by simpa using hv)]
    intro p
    by_cases hs : s = .place p
    · subst hs
      exact ⟨_, actsAt_note, .refused _ (hserial _) (hholds _) true _⟩
    · refine ⟨[], by simp [World.note, actsAt_record, hs], .others _ Act.unbooked_nil⟩

/-- A slot that has taken an operation has the next one ready. -/
lemma ready_of_fill (hw : w.Ready s h) (make : Nat → Layer)
    (hmake : ∀ k, (make k).cleanup? ≠ some .invalid) (hfill : (w.fill s h make).2 = true) :
    (w.fill s h make).1.Ready s (h + 1) := by
  by_cases hv : w.isVacant s h = true
  · rw [fill_of_isVacant hv]
    obtain ⟨hlen, hvalid⟩ := hw (by simpa [isVacant] using hv)
    intro _
    simp only [layers_note, layers_put_self, List.length_append, List.length_singleton,
      List.mem_append, List.mem_singleton]
    refine ⟨by omega, ?_⟩
    rintro l (hl | rfl)
    · exact hvalid l hl
    · exact hmake _
  · rw [fill_of_not_isVacant (by simpa using hv)] at hfill
    simp at hfill

end World

end Handoff
