import Handoff.Proofs.Lifetime.Upkeep

/-!
# The part of the world that belongs to a site

`World.only` keeps of a world what one site has in it: what stands there, the tasks that complete
into it, the requests of some stop sources, and what was recorded there. Every operation of the
world on a site commutes with this restriction to the site, and an operation on another site leaves
the restriction as it is.
-/

namespace Handoff

namespace Places

variable {s s' : Site} {p : Place}

/-- The entry of one site, if it has one. -/
def only (s : Site) (t : Places) : Places := ⟨t.entries.filter fun e => e.1 = s⟩

lemma find_filter (es : List (Site × Place)) :
    find s (es.filter fun e => e.1 = s) = find s es := by
  induction es with
  | nil => rfl
  | cons e rest ih => by_cases h : e.1 = s <;> simp [find, h, ih]

lemma filter_replace (es : List (Site × Place)) :
    (replace s p es).filter (fun e => e.1 = s) = replace s p (es.filter fun e => e.1 = s) := by
  induction es with
  | nil => simp [replace]
  | cons e rest ih => by_cases h : e.1 = s <;> simp [replace, h, ih]

lemma filter_replace_of_ne (h : s' ≠ s) (es : List (Site × Place)) :
    (replace s' p es).filter (fun e => e.1 = s) = es.filter fun e => e.1 = s := by
  induction es with
  | nil => simp [replace, h]
  | cons e rest ih =>
    by_cases he : e.1 = s'
    · simp [replace, he, h]
    · by_cases hs : e.1 = s <;> simp [replace, he, hs, h.symm, ih]

@[simp] lemma get?_only (t : Places) : (t.only s).get? s = t.get? s := find_filter t.entries

@[simp] lemma only_insert (t : Places) : (t.insert s p).only s = (t.only s).insert s p := by
  simp [only, insert, filter_replace]

lemma only_insert_of_ne (h : s' ≠ s) (t : Places) : (t.insert s' p).only s = t.only s := by
  simp [only, insert, filter_replace_of_ne h]

@[simp] lemma only_only (t : Places) : (t.only s).only s = t.only s := by
  simp [only, List.filter_filter]

end Places

namespace World

/-- What a site has in the world, and which stops were requested of the sources listed. -/
def only (s : Site) (ks : List Int) (w : World) : World where
  places := w.places.only s
  queue := w.queue.filter fun t => t.site? = some s
  requested := w.requested.filter (· ∈ ks)
  events := w.events.filter fun e => e.site = some s

variable {w : World} {s s' : Site} {ks : List Int} {h : Nat} {acts : List Act} {r : Receiver}

@[simp] lemma only_empty : ({} : World).only s ks = {} := rfl

@[simp] lemma only_only : (w.only s ks).only s ks = w.only s ks := by
  simp [only, List.filter_filter]

/-! ### What is read -/

@[simp] lemma get?_only : (w.only s ks).places.get? s = w.places.get? s :=
  Places.get?_only w.places

@[simp] lemma place_only : (w.only s ks).place s = w.place s := by simp [place]

@[simp] lemma layers_only : (w.only s ks).layers s = w.layers s := by simp [layers]

@[simp] lemma binding?_only : (w.only s ks).binding? s h = w.binding? s h := by simp [binding?]

@[simp] lemma scope_only : (w.only s ks).scope s h = w.scope s h := by simp [scope]

@[simp] lemma nextSerial_only : (w.only s ks).nextSerial s = w.nextSerial s := by simp [nextSerial]

@[simp] lemma isVacant_only : (w.only s ks).isVacant s h = w.isVacant s h := by simp [isVacant]

@[simp] lemma actsAt_only : (w.only s ks).actsAt s = w.actsAt s := by
  simp only [actsAt, only, List.filterMap_filter]
  congr 1
  funext e
  by_cases he : e.site = some s <;> simp [he]

lemma isRequested_only {k : Int} (hk : k ∈ ks) :
    (w.only s ks).isRequested k = w.isRequested k := by
  simp [isRequested, only, hk]

lemma trail_only (hr : r.site = some s) : (w.only s ks).trail r = w.trail r := by
  simp [trail, hr]

lemma namesFrom_only (hr : r.site = some s) : (w.only s ks).namesFrom r = w.namesFrom r := by
  simp [namesFrom, trail_only hr]

lemma isStopped_only (hr : r.site = some s) (hk : ∀ k, w.stopOf r = some k → k ∈ ks) :
    (w.only s ks).isStopped r = w.isStopped r := by
  have hstop : (w.only s ks).stopOf r = w.stopOf r := by simp [stopOf, trail_only hr]
  simp only [isStopped, hstop]
  cases h : w.stopOf r with
  | none => rfl
  | some k => simpa using isRequested_only (hk k h)

/-! ### What is changed at the site -/

@[simp] lemma only_put (p : Place) : (w.put s p).only s ks = (w.only s ks).put s p := by
  simp [put, only]

@[simp] lemma only_note : (w.note s acts).only s ks = (w.only s ks).note s acts := by
  simp only [note, record, only, List.filter_append, mk.injEq, true_and, and_true]
  congr 1
  exact List.filter_eq_self.2 (by simp)

@[simp] lemma only_setLayers (ls : List Layer) :
    (w.setLayers s ls).only s ks = (w.only s ks).setLayers s ls := by
  simp [setLayers]

@[simp] lemma only_setLayer (l : Layer) :
    (w.setLayer s h l).only s ks = (w.only s ks).setLayer s h l := by
  simp [setLayer]

@[simp] lemma only_setBinding (b : Binding) :
    (w.setBinding s h b).only s ks = (w.only s ks).setBinding s h b := by
  simp [setBinding]

@[simp] lemma only_setScope (env : Env) :
    (w.setScope s h env).only s ks = (w.only s ks).setScope s h env := by
  simp [setScope]

@[simp] lemma dropAbove_only (unwinding : Bool) :
    (w.only s ks).dropAbove s h unwinding =
      ((w.dropAbove s h unwinding).1.only s ks, (w.dropAbove s h unwinding).2) := by
  simp [dropAbove]

@[simp] lemma fill_only (make : Nat → Layer) :
    (w.only s ks).fill s h make = ((w.fill s h make).1.only s ks, (w.fill s h make).2) := by
  unfold fill
  simp only [place_only, isVacant_only, scope_only]
  split <;> simp

@[simp] lemma only_schedule {t : Task} (ht : t.site? = some s) :
    (w.schedule t).only s ks = (w.only s ks).schedule t := by
  simp [schedule, only, ht]

/-! ### What is changed elsewhere -/

lemma only_put_of_ne (hs : s' ≠ s) (p : Place) : (w.put s' p).only s ks = w.only s ks := by
  simp [put, only, Places.only_insert_of_ne hs]

lemma only_note_of_ne (hs : s' ≠ s) : (w.note s' acts).only s ks = w.only s ks := by
  simp only [note, record, only, List.filter_append, mk.injEq, true_and, and_true]
  have h : (acts.map (Event.mk (some s'))).filter (fun e => e.site = some s) = [] :=
    List.filter_eq_nil_iff.2 (by simp [hs])
  rw [h, List.append_nil]

lemma only_schedule_of_ne {t : Task} (ht : t.site? ≠ some s) :
    (w.schedule t).only s ks = w.only s ks := by
  simp [schedule, only, ht]

end World

end Handoff
