import Handoff.Proofs.Connecting.Refusal
import Handoff.Proofs.Holding.Passing

/-!
# Rounds

A host without scripts makes calls one after another. Each move from a poised configuration is a
stride, `Config.Poised.strides`, so each call that comes to an end keeps the world orderly, and what
is live at a place stays so unless its final receiver was given a completion or the place was
cleared: `Config.Poised.sustains`.
-/

namespace Handoff

namespace Machine

open Config (Strides)
open World (Leaves)

variable {w w' : World} {K K' : List Frame} {s : Site} {n : Nat} {acts : List Act}

/-! ### Calls and tasks -/

/-- Jobs are put at the end of the queue. -/
lemma leaves_spawned (hw : w.Orderly) (js : List Job) :
    w.Leaves ((js.map Task.job).foldl World.schedule w) := by
  induction js generalizing w with
  | nil => exact .refl hw
  | cons j js ih =>
    have hscheduled := Leaves.schedule hw (t := .job j) trivial
    exact hscheduled.trans (ih hscheduled.orderly)

lemma strides_runTask {t : Task} (hw : w.Orderly) (hK : ∀ f ∈ K, f.Poised) (ht : t.Unscripted) :
    Strides ⟨w, .task t, K⟩ (runTask w t K) := by
  cases t with
  | complete c r => exact Config.strides_of_poised ⟨hw, ht, hK⟩ fun p o hp => hp
  | resume x steps => exact ht.elim
  | job j =>
    obtain ⟨label, spawned, raised⟩ := j
    have hnoted : w.Leaves (w.record none [.remark label]) := .congr hw (fun _ => rfl) rfl
    exact strides_finishOr rfl (hnoted.trans (leaves_spawned hnoted.orderly spawned)) hK raised

/-- A task is taken out of the queue. -/
lemma strides_unqueue {t : Task} {ts : List Task} {x : Control} (hw : w.Orderly)
    (hK : ∀ f ∈ K', f.Poised) (hq : w.queue = t :: ts) (hx : x.due = none) :
    Strides ⟨w, x, K⟩ ⟨{ w with queue := ts }, .task t, K'⟩ := by
  have horderly : ({ w with queue := ts } : World).Orderly :=
    ⟨hw.layers, hw.fitting, fun t' ht' => hw.queue t' (by simp [hq, ht'])⟩
  refine Config.strides_of_poised ⟨horderly, hw.queue t (by simp [hq]), hK⟩
    fun p o hp => ?_
  obtain ⟨ho, base, l, x', r, hl, hbase, howes⟩ := hp.live hx
  by_cases hrest : l.Owes ts r
  · exact .inl ⟨ho, base, l, x', r, hl, hbase, hrest⟩
  · -- The task completes the very leaf that ends the line.
    obtain ⟨k, y, rfl, ht⟩ : ∃ k y, l = .leaf k y none ∧ .complete y.completion r = t := by
      cases l with
      | leaf k y held =>
        obtain hheld | ⟨rfl, hmem⟩ := howes
        · exact absurd (.inl hheld) hrest
        · rw [hq, List.mem_cons] at hmem
          exact ⟨k, y, rfl, hmem.resolve_right fun hmem => hrest (.inr ⟨rfl, hmem⟩)⟩
      | ready k held => exact absurd howes hrest
      | _ => exact howes.elim
    subst ht
    exact .inr ⟨r, rfl, ho, base, _, x', hl, hbase⟩

/-- A sender without scripts is connected at a site where nothing stands. -/
lemma leads_connected {x : Sender} {r : Receiver} (hx : x.Scriptless) (hr : r.Unscripted)
    (hw : w.Orderly) (n : Nat) (acts : List Act) :
    ∃ ls m n' acts', Layer.Built s x r 0 ls m ∧ (w.after s ls n' acts').Orderly ∧ ∀ K,
      Config.Leads ⟨w.after s [] n acts, .connect x r s 0, K⟩ []
        (finishOr (w.after s ls n' acts') m K) := by
  have hls : Layer.Built s x r 0 (x.lay s [] r 0 n).layers x.flaw := Sender.built_lay hx r 0 n
  exact ⟨_, _, _, _, hls, hw.after _ _ (Sender.unscripted_lay hx hr _ _) hls.fitting, fun K =>
    Sender.leads_connect hx.silent r w [] n acts K⟩

/-- A sender is connected at a site that nothing stands at, be it because the frame of a blocked
caller was overwritten. -/
lemma strides_connected {c : Call} {x : Sender} {r : Receiver} (hx : x.Scriptless)
    (hr : r.Unscripted) (hw : w.Leaves w') (hs : ∀ p, s = .place p → w.layers s = [])
    (hK : ∀ f ∈ K', f.Poised)
    (hd : Config.Moves ⟨w, .call c, K⟩ ⟨w'.after s [] n acts, .connect x r s 0, K'⟩) :
    Strides ⟨w, .call c, K⟩ ⟨w'.after s [] n acts, .connect x r s 0, K'⟩ := by
  obtain ⟨ls, m, n', acts', hls, horderly, hleads⟩ :=
    leads_connected (s := s) hx hr hw.orderly n acts
  refine Config.strides_of_leads (.quiet hd rfl (hleads K')) hd ?_ ?_ fun p o hp => ?_
  · cases m <;> simp [finishOr, finish]
  · cases m <;> exact ⟨horderly, trivial, hK⟩
  · have hlive := hp.live rfl
    have hne : .place p ≠ s := by
      rintro rfl
      exact hlive.ne_nil (hs p rfl)
    have hafter := (hw.live p o hlive).after_of_ne hne ls n' acts'
    cases m <;> exact .inl hafter

/-- A sender is connected at a site where something stands. -/
lemma strides_occupied {c : Call} {x : Sender} {r : Receiver} (hx : x.Scriptless) (hw : w.Orderly)
    (hK : ∀ f ∈ K, f.Poised) (hv : w.isVacant s 0 = false)
    (hd : Config.Moves ⟨w, .call c, K⟩ ⟨w, .connect x r s 0, K⟩) :
    Strides ⟨w, .call c, K⟩ ⟨w, .connect x r s 0, K⟩ := by
  obtain ⟨acts, p, hraised⟩ : ∃ acts p, Config.next ⟨w, .connect x r s 0, K⟩ =
      some ⟨w.note s acts, .raised p, K⟩ := by
    have hoffers (hx : x.Offers) : ∃ acts p, Config.next ⟨w, .connect x r s 0, K⟩ =
        some ⟨w.note s acts, .raised p, K⟩ := by
      obtain ⟨acts, -, hnext⟩ := Config.next_connect_of_occupied hv hx
      exact ⟨acts, _, hnext⟩
    cases x with
    | script y => exact hx.elim
    | exploding built =>
      cases built with
      | none => exact ⟨r.drop, Fault.connectExploded.payload, rfl⟩
      | some label => exact hoffers rfl
    | _ => exact hoffers trivial
  have hnoted := Leaves.note hw s acts
  refine Config.strides_of_leads (.quiet hd rfl (.quiet hraised rfl (.refl _))) hd (by simp)
    ⟨hnoted.orderly, trivial, hK⟩ fun p o hp => .inl (hnoted.live p o (hp.live rfl))

lemma strides_connectPlace {p : Int} {x : Sender} {r : Receiver} (hw : w.Orderly)
    (hK : ∀ f ∈ K, f.Poised) (hx : x.Scriptless) (hr : r.Unscripted) :
    Strides ⟨w, .call (.connect p x r), K⟩ (connectPlace w (.place p) x r K) := by
  have hd : Config.Moves ⟨w, .call (.connect p x r), K⟩ (connectPlace w (.place p) x r K) := rfl
  revert hd
  unfold connectPlace
  cases hl : w.layers (.place p) with
  | nil =>
    dsimp only
    rw [World.setLayers_eq_after]
    exact strides_connected hx hr (.refl hw) (fun _ _ => hl) hK
  | cons l rest =>
    dsimp only
    split_ifs
    · exact strides_occupied hx hw hK (by simp [World.isVacant, hl])
    · exact fun _ => strides_quiet rfl (.note hw _ _) trivial hK

lemma strides_withPlace {c : Call} {go : Config} (hw : w.Orderly) (hK : ∀ f ∈ K, f.Poised)
    (hgo : Strides ⟨w, .call c, K⟩ go) : Strides ⟨w, .call c, K⟩ (withPlace w s go K) := by
  unfold withPlace
  split
  · exact hgo
  · exact strides_quiet rfl (.refl hw) trivial hK

/-- Clearing a place does not touch what is at others. -/
lemma strides_clear (hw : w.Orderly) (hK : ∀ f ∈ K, f.Poised) (p : Int) :
    Strides ⟨w, .call (.clear p), K⟩
      (finishOr (w.dropAbove (.place p) 0 false).1 (w.dropAbove (.place p) 0 false).2 K) := by
  have hvacated := hw.vacated (.place p) false
  have hlive {p' : Int} {o : Receiver} {control : Control}
      (hne : Control.call (.clear p) ≠ .call (.clear p'))
      (hp : Config.Attends (.place p') o ⟨w, .call (.clear p), K⟩) :
      Config.Attends (.place p') o ⟨(w.dropAbove (.place p) 0 false).1, control, K⟩ := by
    have hsite : Site.place p' ≠ .place p := by
      rintro ⟨⟩
      exact hne rfl
    exact .inl ((hp.live rfl).of_eq (World.layers_dropAbove_of_ne hsite 0 false) fun _ ht => ht)
  cases (w.dropAbove (.place p) 0 false).2 <;>
    exact ⟨[], _, .refl _, ⟨hvacated, trivial, hK⟩, fun p' o hne hp => .inl (hlive hne hp)⟩

lemma strides_call {c : Call} (hw : w.Orderly) (hK : ∀ f ∈ K, f.Poised) (hc : c.Unscripted) :
    Strides ⟨w, .call c, K⟩ (call w c K) := by
  cases c with
  | connect p x r => exact strides_connectPlace hw hK hc.1 hc.2.1
  | start p => exact strides_withPlace hw hK (strides_quiet rfl (.refl hw) (startable_zero w _) hK)
  | clear p => exact strides_withPlace hw hK (strides_clear hw hK p)
  | tick =>
    unfold call
    cases hq : w.queue with
    | nil => exact strides_quiet rfl (.refl hw) trivial hK
    | cons t ts => exact strides_unqueue hw (poised_cons trivial hK) hq rfl
  | drain =>
    unfold call
    cases hq : w.queue with
    | nil => exact strides_quiet rfl (.refl hw) trivial hK
    | cons t ts => exact strides_unqueue hw (poised_cons trivial hK) hq rfl
  | request k =>
    have hsame : w.Leaves (w.request k).1 := by
      unfold World.request
      split
      · exact .refl hw
      · exact .congr hw (fun _ => rfl) rfl
    exact strides_quiet rfl hsame trivial hK
  | schedule j => exact strides_quiet rfl (.schedule hw trivial) trivial hK
  | wait x =>
    have hd : Config.Moves ⟨w, .call (.wait x), K⟩ (call w (.wait x) K) := rfl
    revert hd
    unfold call
    dsimp only
    rw [World.setLayers_eq_after, World.note_after]
    exact strides_connected hc trivial (.congr hw (fun _ => rfl) rfl) (by simp)
      (poised_cons trivial (poised_cons trivial hK))
  | _ => exact strides_quiet rfl (.refl hw) trivial hK

end Machine

namespace Config

open Machine

variable {c d e : Config} {ps qs : List Parcel} {p : Int} {o : Receiver}

/-- Every move from a poised configuration is a stride. -/
theorem Poised.strides (hc : c.Poised) (hd : c.Moves d) : c.Strides d := by
  obtain ⟨w, control, K⟩ := c
  obtain ⟨hw, hcontrol, hK⟩ := hc
  cases control with
  | connect x r s h => exact hcontrol.elim
  | build s h => exact hcontrol.elim
  | follow r steps => exact hcontrol.elim
  | done r =>
    cases K with
    | nil => simp [Moves, next] at hd
    | cons f K =>
      obtain rfl := Option.some.inj hd
      obtain ⟨hf, hK⟩ := List.forall_mem_cons.1 hK
      exact strides_resume hw hK hf r
  | raised m =>
    cases K with
    | nil => simp [Moves, next] at hd
    | cons f K =>
      obtain rfl := Option.some.inj hd
      obtain ⟨hf, hK⟩ := List.forall_mem_cons.1 hK
      exact strides_unwind hw hK hf m
  | start s h =>
    obtain rfl := Option.some.inj hd
    exact strides_start hw hK hcontrol
  | complete r v =>
    obtain rfl := Option.some.inj hd
    exact strides_complete hw hK hcontrol
  | react home label actions =>
    obtain rfl := Option.some.inj hd
    exact strides_react hw hK home label hcontrol
  | call x =>
    obtain rfl := Option.some.inj hd
    exact strides_call hw hK hcontrol
  | task t =>
    obtain rfl := Option.some.inj hd
    exact strides_runTask hw hK hcontrol

/-- A numbered place is attended to at the end of a course of moves if it was at the beginning, was
not cleared and its final receiver was given no completion. -/
def Sustains (p : Int) (o : Receiver) (c : Config) (ps : List Parcel) (e : Config) : Prop :=
  (∀ d, c.Reaches d → d.control ≠ .call (.clear p)) → c.Attends (.place p) o →
    e.Attends (.place p) o ∨ ∃ g ∈ ps, g.1 = o

lemma Sustains.trans (h : Sustains p o c ps d) (h' : Sustains p o d qs e) (hd : c.Reaches d) :
    Sustains p o c (ps ++ qs) e := by
  intro hclear hp
  obtain hp | ⟨g, hg, ho⟩ := h hclear hp
  · exact (h' (fun d' hd' => hclear d' (hd.trans hd')) hp).imp_right fun ⟨g, hg, ho⟩ =>
      ⟨g, List.mem_append_right ps hg, ho⟩
  · exact .inr ⟨g, List.mem_append_left qs hg, ho⟩

/-- A machine that comes to an end passes through what the strides on its way lead to. -/
lemma sustains_of_leads (h : c.Leads ps e) (he : e.IsFinal) :
    ∀ {qs c'}, c.Leads qs c' → c'.Poised →
      ∃ ps', ps = qs ++ ps' ∧ e.Poised ∧ ∀ p o, Sustains p o c' ps' e := by
  induction h with
  | refl e =>
    intro qs c' h' hc'
    cases h' with
    | refl => exact ⟨[], rfl, hc', fun _ _ _ => .inl⟩
    | step hm _ => exact absurd (hm.symm.trans he) (by simp)
  | @step c d e ps hm h ih =>
    intro qs c' h' hc'
    cases h' with
    | step hm' h' =>
      obtain rfl := hm.unique hm'
      obtain ⟨ps', rfl, hpoised, hsustains⟩ := ih he h' hc'
      exact ⟨ps', (List.append_assoc ..).symm, hpoised, hsustains⟩
    | refl =>
      obtain ⟨qs, c', h', hc'', hstride⟩ := hc'.strides hm
      obtain ⟨ps', rfl, hpoised, hsustains⟩ := ih he h' hc''
      refine ⟨_, rfl, hpoised, fun p o => ?_⟩
      have hfirst : Sustains p o c (c.given ++ qs) c' := fun hclear hp =>
        hstride p o (hclear c (.refl c)) hp
      simpa using hfirst.trans (hsustains p o) (.step hm h'.reaches)

/-- A machine that comes to an end stays orderly, and attends to what it has attended to. -/
lemma Poised.sustains (hc : c.Poised) (h : c.Leads ps e) (he : e.IsFinal) :
    e.Poised ∧ ∀ p o, Sustains p o c ps e := by
  obtain ⟨ps', rfl, hpoised, hsustains⟩ := sustains_of_leads h he (.refl c) hc
  exact ⟨hpoised, hsustains⟩

end Config

end Handoff
