import Handoff.Proofs.Recounting.Serving

/-!
# Numbers that were skipped

A place that has built operations and dropped them again goes on with higher numbers than it would
have otherwise. A host cannot tell: `World.alike_put` says that two worlds are `World.Alike` if they
differ in what was recorded so far and in how many operations a vacant place has built.
-/

namespace Handoff

/-- Numbers from the first bound on go to those from the second bound on, at one site. -/
def Recount.gap (s : Site) (lo hi : Nat) : Recount := fun s' k =>
  if s' = s ∧ lo ≤ k then hi + (k - lo) else k

/-- What happens, without the numbers of operations. -/
def Event.unnumbered (e : Event) : Event := e.recount fun _ _ => 0

/-- Two worlds serve a host alike: whatever calls it makes, each ends in the same way and gives the
same to final receivers, and the same is recorded but for the numbers of operations. -/
def World.Alike (w w' : World) : Prop :=
  ∀ n cs, w'.episodes n cs = w.episodes n cs ∧
    ∃ es es', (w.serve n cs).events = w.events ++ es ∧ (w'.serve n cs).events = w'.events ++ es' ∧
      es'.map Event.unnumbered = es.map Event.unnumbered

/-- A journal shows no numbers of operations. -/
lemma journal_unnumbered (logging : Bool) (es : List Event) :
    journal logging (es.map Event.unnumbered) = journal logging es := by
  have he (e : Event) : e.unnumbered.act.entry? logging = e.act.entry? logging := by
    obtain ⟨o, a⟩ := e
    cases o with
    | none => rfl
    | some s => exact Act.entry?_recount logging a
  simp [journal, List.filterMap_map, he]

/-- What is recorded by worlds that are alike reads the same in a journal. -/
lemma World.Alike.journal_eq {w w' : World} (h : w.Alike w') (logging : Bool) (n : Nat)
    (cs : List Call) :
    ∃ es es', (w.serve n cs).events = w.events ++ es ∧ (w'.serve n cs).events = w'.events ++ es' ∧
      journal logging es' = journal logging es := by
  obtain ⟨-, es, es', hw, hw', heq⟩ := h n cs
  refine ⟨es, es', hw, hw', ?_⟩
  rw [← journal_unnumbered, heq, journal_unnumbered]

variable {s s' : Site} {lo hi : Nat}

namespace Recount

lemma gap_of_lt {k : Nat} (h : k < lo) : gap s lo hi s' k = k := by
  simp [gap, Nat.not_le.2 h]

lemma gap_of_ne (h : s' ≠ s) : gap s lo hi s' = id := by
  funext k
  simp [gap, h]

lemma gap_self : gap s lo hi s lo = hi := by simp [gap]

lemma gap_injective (h : lo ≤ hi) (s' : Site) : Function.Injective (gap s lo hi s') := by
  by_cases hs : s' = s
  · intro j k hjk
    simp only [gap, hs, true_and] at hjk
    split_ifs at hjk <;> omega
  · rw [gap_of_ne hs]
    exact Function.injective_id

lemma fits_gap (h : lo ≤ hi) (w : World) : (gap s lo hi).Fits (w.put s ⟨[], lo⟩) where
  injective := gap_injective h
  succ s' k hk := by
    by_cases hs : s' = s
    · subst hs
      have hlo : lo ≤ k := by simpa [World.nextSerial] using hk
      simp only [gap, true_and, if_pos hlo, if_pos (Nat.le_succ_of_le hlo)]
      omega
    · simp [gap_of_ne hs]
  zero s' hs' := by
    by_cases hs : s' = s
    · subst hs
      simp [World.put] at hs'
    · simp [gap_of_ne hs]

end Recount

open Recount (gap)

/-! ### What the gap leaves as it is -/

/-- The gap concerns only what the site itself holds. -/
lemma Places.recount_gap_insert (t : Places) (q : Place) :
    (t.recount (gap s lo hi)).insert s q = t.insert s q := by
  obtain ⟨es⟩ := t
  simp only [recount, insert, mk.injEq]
  suffices h : ∀ F : Recount, (∀ s', s' ≠ s → F s' = id) →
      replace s q (recountAll F es) = replace s q es from h _ fun s' => Recount.gap_of_ne
  induction es with
  | nil => exact fun F _ => rfl
  | cons e rest ih =>
    intro F hF
    have hupdate : ∀ s', s' ≠ s → Function.update F e.1 id s' = id := by
      intro s' hs'
      by_cases h : s' = e.1 <;> simp [h, hF s' hs']
    by_cases he : e.1 = s
    · obtain rfl := he
      have hid : Function.update F e.1 id = fun _ => id := by
        funext s'
        by_cases h : s' = e.1
        · simp [h]
        · exact hupdate s' h
      simp [recountAll, replace, hid, recountAll_id]
    · simp [recountAll, replace, he, ih _ hupdate, hF _ he, Place.recount_id]

lemma Event.unnumbered_recount (F : Recount) (e : Event) :
    (e.recount F).unnumbered = e.unnumbered := by
  obtain ⟨o, a⟩ := e
  cases o with
  | none => rfl
  | some s => cases a <;> rfl

/-- The queue is as it was if the scripts in it are of operations below the gap. -/
lemma Task.map_recount_gap {ts : List Task}
    (h : ∀ x steps, .resume x steps ∈ ts → x.site = s → x.serial < lo) :
    ts.map (Task.recount (gap s lo hi)) = ts := by
  conv_rhs => rw [← List.map_id ts]
  refine List.map_congr_left fun t ht => ?_
  cases t with
  | resume x steps =>
    have hx : gap s lo hi x.site x.serial = x.serial := by
      by_cases hs : x.site = s
      · exact Recount.gap_of_lt (h x steps ht hs)
      · simp [Recount.gap_of_ne hs]
    simp [Task.recount, Run.recount, hx]
  | _ => rfl

namespace World

/-- Worlds are alike that differ in what was recorded so far and in how many operations were built
at a vacant place, unless a script waits that is of none of those built in both. -/
lemma alike_put (w : World) (es : List Event) (h : lo ≤ hi)
    (hq : ∀ x steps, .resume x steps ∈ w.queue → x.site = s → x.serial < lo) :
    (w.put s ⟨[], lo⟩).Alike ((w.telling es).put s ⟨[], hi⟩) := by
  intro n cs
  have hfits : (gap s lo hi).Fits ((w.put s ⟨[], lo⟩).telling []) :=
    Recount.fits_gap h (w.telling [])
  have hgap : (w.telling es).put s ⟨[], hi⟩ =
      ((w.put s ⟨[], lo⟩).telling []).recount (gap s lo hi) es := by
    simp [recount, put, telling, Places.recount_gap_insert, Place.recount, Recount.gap_self,
      Task.map_recount_gap hq]
  obtain ⟨hepisodes, es', hserve, -⟩ := exists_serve_telling (w.put s ⟨[], lo⟩) [] n cs
  have hevents := congrArg World.events (serve_telling (w.put s ⟨[], lo⟩) w.events n cs)
  have hes : (((w.put s ⟨[], lo⟩).telling []).serve n cs).events = es' :=
    List.append_cancel_left (hevents.symm.trans hserve)
  rw [hgap, recount_episodes hfits, recount_serve hfits]
  refine ⟨hepisodes, es', es'.map (Event.recount (gap s lo hi)), hserve, ?_, ?_⟩
  · simp [recount, telling, ← hes]
  · simp [Function.comp_def, Event.unnumbered_recount]

end World

end Handoff
