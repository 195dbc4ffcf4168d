import Handoff.Proofs.Recounting.Layers
import Handoff.Proofs.Site
import Mathlib.Logic.Function.Basic

/-!
# Worlds under other numbers

`World.recount` gives the operations of all sites other numbers and puts other events before those
of the world. A `Recount` fits a world if it keeps numbers apart, numbers that are still to come
follow each other as before, and sites that do not exist start from zero. Every operation of the
world commutes with it.
-/

namespace Handoff

/-- New numbers for the operations of each site. -/
abbrev Recount := Site → Nat → Nat

/-- What a site holds, under other numbers. -/
def Place.recount (f : Nat → Nat) (p : Place) : Place :=
  ⟨p.layers.map (Layer.recount f), f p.count⟩

/-- What happens at a site, under other numbers of that site. -/
def Event.recount (F : Recount) (e : Event) : Event :=
  { e with act := e.site.elim e.act fun s => e.act.recount (F s) }

/-- A run of an operation under another number. -/
def Run.recount (F : Recount) (r : Run) : Run := { r with serial := F r.site r.serial }

/-- A task under other numbers. -/
def Task.recount (F : Recount) : Task → Task
  | resume r steps => resume (r.recount F) steps
  | t => t

namespace Places

/-- A list of entries under other numbers. Only the first entry of a site counts. -/
def recountAll (F : Recount) : List (Site × Place) → List (Site × Place)
  | [] => []
  | e :: rest => (e.1, e.2.recount (F e.1)) :: recountAll (Function.update F e.1 id) rest

/-- The sites that exist, under other numbers. -/
def recount (F : Recount) (t : Places) : Places := ⟨recountAll F t.entries⟩

variable {F : Recount} {s : Site}

lemma find_recountAll (es : List (Site × Place)) :
    find s (recountAll F es) = (find s es).map (Place.recount (F s)) := by
  induction es generalizing F with
  | nil => rfl
  | cons e rest ih =>
    by_cases h : e.1 = s
    · subst h
      simp [recountAll, find]
    · simp [recountAll, find, h, ih, Function.update_of_ne (Ne.symm h)]

lemma recountAll_replace (p : Place) (es : List (Site × Place)) :
    recountAll F (replace s p es) = replace s (p.recount (F s)) (recountAll F es) := by
  induction es generalizing F with
  | nil => rfl
  | cons e rest ih =>
    by_cases h : e.1 = s
    · subst h
      simp [recountAll, replace]
    · simp [recountAll, replace, h, ih, Function.update_of_ne (Ne.symm h)]

@[simp] lemma get?_recount (t : Places) :
    (t.recount F).get? s = (t.get? s).map (Place.recount (F s)) :=
  find_recountAll t.entries

@[simp] lemma recount_insert (t : Places) (p : Place) :
    (t.insert s p).recount F = (t.recount F).insert s (p.recount (F s)) := by
  simp [recount, insert, recountAll_replace]

end Places

namespace World

/-- A world under other numbers, after other events. -/
def recount (F : Recount) (es : List Event) (w : World) : World :=
  { w with
    places := w.places.recount F
    queue := w.queue.map (Task.recount F)
    events := es ++ w.events.map (Event.recount F) }

end World

/-- New numbers that leave the ways of a world as they are. -/
structure Recount.Fits (F : Recount) (w : World) : Prop where
  injective : ∀ s, Function.Injective (F s)
  succ : ∀ s k, w.nextSerial s ≤ k → F s (k + 1) = F s k + 1
  /-- Sites that do not exist start from zero. -/
  zero : ∀ s, w.places.get? s = none → F s 0 = 0

open World (setLayers)

variable {F : Recount} {es : List Event} {w w' : World} {s : Site} {h : Nat} {r : Receiver}

/-! ### Fitting on -/

namespace Recount.Fits

/-- New numbers fit on as long as sites stay and no number is given twice. -/
lemma mono (hF : F.Fits w) (hcount : ∀ s, w.nextSerial s ≤ w'.nextSerial s)
    (hexists : ∀ s, w'.places.get? s = none → w.places.get? s = none) : F.Fits w' where
  injective := hF.injective
  succ s k hk := hF.succ s k (Nat.le_trans (hcount s) hk)
  zero s hs := hF.zero s (hexists s hs)

lemma of_places_eq (hF : F.Fits w) (h : w'.places = w.places) : F.Fits w' :=
  hF.mono (fun s => by simp [World.nextSerial, World.place, h]) (fun s hs => by rwa [h] at hs)

lemma note (hF : F.Fits w) (s : Site) (acts : List Act) : F.Fits (w.note s acts) :=
  hF.of_places_eq rfl

lemma put (hF : F.Fits w) (s : Site) {p : Place} (hp : w.nextSerial s ≤ p.count) :
    F.Fits (w.put s p) := by
  refine hF.mono (fun s' => ?_) (fun s' hs' => ?_)
  · by_cases h : s' = s
    · subst h
      simpa [World.nextSerial] using hp
    · simp [World.nextSerial, World.place, World.put, Places.get?_insert_of_ne h]
  · by_cases h : s' = s
    · subst h
      simp [World.put] at hs'
    · rwa [World.put, Places.get?_insert_of_ne h] at hs'

lemma setLayers (hF : F.Fits w) (s : Site) (ls : List Layer) : F.Fits (w.setLayers s ls) :=
  hF.put s (by simp [World.nextSerial])

lemma setLayer (hF : F.Fits w) (s : Site) (h : Nat) (l : Layer) : F.Fits (w.setLayer s h l) :=
  hF.setLayers s _

lemma setBinding (hF : F.Fits w) (s : Site) (h : Nat) (b : Binding) :
    F.Fits (w.setBinding s h b) :=
  hF.setLayer s h _

lemma setScope (hF : F.Fits w) (s : Site) (h : Nat) (env : Env) : F.Fits (w.setScope s h env) :=
  hF.setLayers s _

lemma dropAbove (hF : F.Fits w) (s : Site) (h : Nat) (unwinding : Bool) :
    F.Fits (w.dropAbove s h unwinding).1 :=
  (hF.setLayers s _).note s _

lemma fill (hF : F.Fits w) (s : Site) (h : Nat) (make : Nat → Layer) :
    F.Fits (w.fill s h make).1 := by
  unfold World.fill
  split
  · exact (hF.put s (by simp [World.nextSerial])).note s _
  · exact hF.note s _

end Recount.Fits

namespace World

/-! ### What is read -/

lemma get?_recount :
    (w.recount F es).places.get? s = (w.places.get? s).map (Place.recount (F s)) :=
  Places.get?_recount w.places

lemma place_recount (hF : F.Fits w) :
    (w.recount F es).place s = (w.place s).recount (F s) := by
  cases hs : w.places.get? s with
  | none => simp [place, get?_recount, hs, Place.recount, hF.zero s hs]
  | some p => simp [place, get?_recount, hs]

@[simp] lemma layers_recount :
    (w.recount F es).layers s = (w.layers s).map (Layer.recount (F s)) := by
  cases hs : w.places.get? s <;> simp [layers, place, get?_recount, hs, Place.recount]

lemma nextSerial_recount (hF : F.Fits w) :
    (w.recount F es).nextSerial s = F s (w.nextSerial s) := by
  simp [nextSerial, place_recount hF, Place.recount]

@[simp] lemma binding?_recount :
    (w.recount F es).binding? s h = (w.binding? s h).map (Binding.recount (F s)) := by
  simp only [binding?, layers_recount, List.getElem?_map]
  cases (w.layers s)[h]? with
  | none => rfl
  | some l => cases l <;> rfl

@[simp] lemma isVacant_recount : (w.recount F es).isVacant s h = w.isVacant s h := by
  simp [isVacant]

@[simp] lemma scope_recount : (w.recount F es).scope s h = w.scope s h := by
  simp [scope, ← List.map_take]

@[simp] lemma trail_recount : (w.recount F es).trail r = w.trail r := by
  cases hs : r.site <;> simp [trail, hs, Layer.trail_recount]

@[simp] lemma stopOf_recount : (w.recount F es).stopOf r = w.stopOf r := by simp [stopOf]

@[simp] lemma isRequested_recount (k : Int) :
    (w.recount F es).isRequested k = w.isRequested k := rfl

@[simp] lemma isStopped_recount : (w.recount F es).isStopped r = w.isStopped r := by
  cases hs : w.stopOf r <;> simp [isStopped, hs]

@[simp] lemma namesFrom_recount : (w.recount F es).namesFrom r = w.namesFrom r := by
  simp [namesFrom]

@[simp] lemma termFrom_recount : (w.recount F es).termFrom r = w.termFrom r := by simp [termFrom]

@[simp] lemma given_recount : (w.recount F es).given = w.given := rfl

@[simp] lemma scopeOf_recount (x : Run) :
    (w.recount F es).scopeOf (x.recount F) = w.scopeOf x := by
  simp [scopeOf, Run.recount, Run.reach]

lemma isAlive_recount (hF : F.Fits w) (x : Run) :
    (w.recount F es).isAlive (x.recount F) = w.isAlive x := by
  simp only [isAlive, Run.recount, layers_recount, List.getElem?_map, Option.any_map,
    Layer.serial_recount, (hF.injective x.site).eq_iff]

lemma isUsable_recount (hF : F.Fits w) (x : Run) :
    (w.recount F es).isUsable (x.recount F) = w.isUsable x := by
  simp only [isUsable, isAlive_recount hF]
  cases x with
  | mk id label site height serial owner receiver =>
    cases owner with
    | none => rfl
    | some o =>
      obtain ⟨role, i⟩ := o
      cases role <;> simp [Run.recount, Option.any_map]

/-! ### What is changed -/

@[simp] lemma recount_record (o : Option Site) (acts : List Act) :
    (w.record o acts).recount F es =
      (w.recount F es).record o (acts.map fun a => o.elim a fun s => a.recount (F s)) := by
  simp [record, recount, Event.recount, Function.comp_def]

@[simp] lemma recount_note (acts : List Act) :
    (w.note s acts).recount F es = (w.recount F es).note s (acts.map (Act.recount (F s))) := by
  simp [note]

@[simp] lemma recount_put (p : Place) :
    (w.put s p).recount F es = (w.recount F es).put s (p.recount (F s)) := by
  simp [put, recount]

lemma recount_setLayers (hF : F.Fits w) (ls : List Layer) :
    (w.setLayers s ls).recount F es =
      (w.recount F es).setLayers s (ls.map (Layer.recount (F s))) := by
  simp [setLayers, place_recount hF, Place.recount]

lemma recount_setLayer (hF : F.Fits w) (l : Layer) :
    (w.setLayer s h l).recount F es = (w.recount F es).setLayer s h (l.recount (F s)) := by
  simp [setLayer, recount_setLayers hF, List.map_set]

lemma recount_setBinding (hF : F.Fits w) (b : Binding) :
    (w.setBinding s h b).recount F es = (w.recount F es).setBinding s h (b.recount (F s)) :=
  recount_setLayer hF _

lemma recount_setScope (hF : F.Fits w) (env : Env) :
    (w.setScope s h env).recount F es = (w.recount F es).setScope s h env := by
  simp [setScope, recount_setLayers hF, ← List.map_take, ← List.map_drop, Layer.writeBack_recount]

lemma dropAbove_recount (hF : F.Fits w) (unwinding : Bool) :
    (w.recount F es).dropAbove s h unwinding =
      ((w.dropAbove s h unwinding).1.recount F es, (w.dropAbove s h unwinding).2) := by
  simp [dropAbove, recount_setLayers hF, ← List.map_take, ← List.map_drop, Layer.dropAll_recount,
    Dropped.recount]

lemma fill_recount (hF : F.Fits w) (make : Nat → Layer)
    (hmake : ∀ k, make (F s k) = (make k).recount (F s)) :
    (w.recount F es).fill s h make =
      ((w.fill s h make).1.recount F es, (w.fill s h make).2) := by
  have hdrop : ((make (w.place s).count).recount (F s)).drop true (w.scope s h) {} =
      ((make (w.place s).count).drop true (w.scope s h) {}).recount (F s) :=
    Layer.drop_recount true (w.scope s h) {} _
  have hsucc : F s ((w.place s).count + 1) = F s (w.place s).count + 1 :=
    hF.succ s _ (Nat.le_refl _)
  unfold fill
  simp only [place_recount hF, isVacant_recount, scope_recount]
  split <;> simp [Place.recount, hmake, hdrop, hsucc, Dropped.recount]

@[simp] lemma recount_schedule (t : Task) :
    (w.schedule t).recount F es = (w.recount F es).schedule (t.recount F) := by
  simp [schedule, recount]

@[simp] lemma recount_leave : w.leave.recount F es = (w.recount F es).leave := rfl

lemma request_recount (k : Int) :
    (w.recount F es).request k = ((w.request k).1.recount F es, (w.request k).2) := by
  unfold request
  rw [isRequested_recount]
  split <;> rfl

end World

end Handoff
