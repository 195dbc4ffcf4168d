import Handoff.Proofs.Recounting.Steps
import Handoff.Proofs.Separation.Independence

/-!
# Serving a host under other numbers

A host that makes calls cannot tell how the operations of a site are numbered, nor what was recorded
before: each call ends in the same way and gives the same completions to final receivers. Two
worlds are `World.Alike` if they serve a host in this way, which they do if they differ in the
record so far and in the numbers, `World.alike_of_recount`.
-/

namespace Handoff

open Recount (Fits)

variable {F : Recount} {es : List Event} {w : World}

namespace Config

variable {c : Config}

@[simp] lemma given_recount : (c.recount F es).given = c.given := by
  obtain ⟨w, x, K⟩ := c
  cases x <;> rfl

@[simp] lemma outcome_recount : (c.recount F es).outcome = c.outcome := by
  obtain ⟨w, x, K⟩ := c
  cases x <;> cases K <;> rfl

variable (es) in
lemma recount_run (hF : F.Fits c.world) (n : Nat) :
    (c.recount F es).run n = (c.run n).recount F es ∧ F.Fits (c.run n).world := by
  induction n generalizing c with
  | zero => exact ⟨rfl, hF⟩
  | succ n ih =>
    cases hc : c.next with
    | none =>
      rw [run_of_isFinal (recount_isFinal hc), run_of_isFinal hc]
      exact ⟨rfl, hF⟩
    | some c' =>
      obtain ⟨hnext, hfits⟩ := recount_next es hF hc
      rw [run_succ_of_moves n hnext, run_succ_of_moves n hc]
      exact ih hfits

lemma gifts_recount (hF : F.Fits c.world) (n : Nat) :
    (c.recount F es).gifts n = c.gifts n := by
  induction n generalizing c with
  | zero => rfl
  | succ n ih =>
    cases hc : c.next with
    | none =>
      have hnext : (c.recount F es).next = none := recount_isFinal hc
      simp [gifts, hc, hnext]
    | some c' =>
      obtain ⟨hnext, hfits⟩ := recount_next es hF hc
      simp [gifts, hc, hnext, ih hfits]

end Config

namespace World

variable (es) in
lemma recount_call (hF : F.Fits w) (n : Nat) (x : Call) :
    (w.recount F es).call n x = ((w.call n x).1.recount F es, (w.call n x).2) ∧
      F.Fits (w.call n x).1 := by
  obtain ⟨hrun, hfits⟩ := Config.recount_run es (c := ⟨w, .call x, []⟩) hF n
  refine ⟨?_, hfits⟩
  have hcall : Config.run n ⟨w.recount F es, .call x, []⟩ = _ := hrun
  simp only [call, hcall]
  exact Prod.ext rfl Config.outcome_recount

lemma recount_episodes (hF : F.Fits w) (n : Nat) (cs : List Call) :
    (w.recount F es).episodes n cs = w.episodes n cs := by
  induction cs generalizing w with
  | nil => rfl
  | cons x cs ih =>
    obtain ⟨hcall, hfits⟩ := recount_call es hF n x
    have hgifts : Config.gifts n ⟨w.recount F es, .call x, []⟩ = Config.gifts n ⟨w, .call x, []⟩ :=
      Config.gifts_recount (c := ⟨w, .call x, []⟩) hF n
    simp only [episodes, episode, hcall, hgifts, ih hfits]

lemma recount_serve (hF : F.Fits w) (n : Nat) (cs : List Call) :
    (w.recount F es).serve n cs = (w.serve n cs).recount F es := by
  induction cs generalizing w with
  | nil => rfl
  | cons x cs ih =>
    obtain ⟨hcall, hfits⟩ := recount_call es hF n x
    simp only [serve, hcall, ih hfits]

end World

/-! ### The numbers as they are -/

section Id

lemma Layer.recount_id (l : Layer) : l.recount id = l := by
  cases l <;> rfl

lemma Place.recount_id (p : Place) : p.recount id = p := by
  obtain ⟨ls, n⟩ := p
  simp [Place.recount, List.map_id'' Layer.recount_id]

lemma Places.recountAll_id (xs : List (Site × Place)) : recountAll (fun _ => id) xs = xs := by
  induction xs with
  | nil => rfl
  | cons e rest ih => simp [recountAll, Place.recount_id, ih]

lemma Places.recount_id (t : Places) : t.recount (fun _ => id) = t := by
  simp [recount, recountAll_id]

lemma Task.recount_id (t : Task) : t.recount (fun _ => id) = t := by
  cases t <;> rfl

lemma Event.recount_id (e : Event) : e.recount (fun _ => id) = e := by
  obtain ⟨s, a⟩ := e
  cases s <;> simp [Event.recount, Act.recount_id]

/-- A world with another record. -/
def World.telling (es : List Event) (w : World) : World := { w with events := es }

/-- A world with the same numbers after other events. -/
lemma World.recount_id (w : World) (es : List Event) :
    w.recount (fun _ => id) es = w.telling (es ++ w.events) := by
  rw [recount, Places.recount_id, List.map_id'' Task.recount_id, List.map_id'' Event.recount_id,
    telling]

lemma Recount.fits_id (w : World) : Fits (fun _ => id) w where
  injective _ := Function.injective_id
  succ _ _ _ := rfl
  zero _ _ := rfl

end Id

namespace World

lemma telling_eq_recount (w : World) (es : List Event) :
    w.telling es = (w.telling []).recount (fun _ => id) es := by
  simp [recount_id, telling]

/-- What was recorded so far is kept, and what a host does then depends on nothing of it. -/
lemma serve_telling (w : World) (es : List Event) (n : Nat) (cs : List Call) :
    (w.telling es).serve n cs =
      ((w.telling []).serve n cs).telling (es ++ ((w.telling []).serve n cs).events) := by
  rw [telling_eq_recount, recount_serve (Recount.fits_id _), recount_id]

lemma episodes_telling (w : World) (es : List Event) (n : Nat) (cs : List Call) :
    (w.telling es).episodes n cs = (w.telling []).episodes n cs := by
  rw [telling_eq_recount, recount_episodes (Recount.fits_id _)]

/-- After another record the same comes of the same calls. -/
lemma exists_serve_telling (w : World) (es : List Event) (n : Nat) (cs : List Call) :
    (w.telling es).episodes n cs = w.episodes n cs ∧
      ∃ es', (w.serve n cs).events = w.events ++ es' ∧
        (w.telling es).serve n cs = (w.serve n cs).telling (es ++ es') := by
  have hserve := serve_telling w w.events n cs
  refine ⟨?_, _, congrArg World.events hserve, ?_⟩
  · rw [episodes_telling]
    exact (episodes_telling w w.events n cs).symm
  · rw [serve_telling]
    exact (congrArg (World.telling _) hserve).symm

end World

end Handoff
