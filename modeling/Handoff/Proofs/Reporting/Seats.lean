import Handoff.Proofs.Queue.Waiting
import Handoff.Proofs.Reporting.Passing
import Handoff.Proofs.Wiring.Walks

/-!
# Tasks and the places they come from

What a leaf has put off waits in the queue or is under way, while the operation of the leaf stands
where it stood: `Config.Seated` says that each task which may still complete a receiver comes from
an operation of the site that was given this receiver. This takes that nobody else changes the
operations in the meantime. In a run that keeps the rules only one at a time may complete, so that
nothing does: `Thread.persists`.
-/

namespace Handoff

open Machine

/-- What an operation that stems from this sender may have put off. -/
def Task.StemsFrom (y : Sender) : Task → Prop
  | complete v _ => y.Gives v
  | resume _ _ => ∃ z, y = .script z
  | job _ => True

lemma Run.receiver_eq_of_right {run : Run} {steps : List Instr} {r : Receiver}
    (h : run.right steps = some r) : run.receiver = some r := by
  unfold Run.right at h
  split_ifs at h
  exact h

namespace Layer

variable {x y : Sender} {o r : Receiver} {s : Site} {path : List Role} {ls ls' : List Layer}
  {l : Layer} {h : Nat}

lemma Seats.persists (h : Seats x o s ls path y r) (hls : List.Forall₂ Persists ls ls') :
    Seats x o s ls' path y r := by
  obtain ⟨hline, hy⟩ := h
  obtain ⟨base', l', rest', rfl, hbase, hl⟩ := exists_of_forall₂_append hls.flip
  exact .mk (hline.persists hbase.flip) (hl.ensues.yields hy)

/-- An operation that has its receiver still stands on the line to the place that it stems from. -/
lemma Wired.seats (hwired : Wired x o s ls) (hl : ls[h]? = some l) (hr : l.held? = some r) :
    ∃ path y, Seats x o s ls path y r ∧ y.Yields r l := by
  obtain ⟨hlt, rfl⟩ := List.getElem?_eq_some_iff.1 hl
  have hsplit : ls = ls.take h ++ ls[h] :: ls.drop (h + 1) := by
    rw [← List.drop_eq_getElem_cons hlt, List.take_append_drop]
  obtain ⟨path, y, r', hline, hy⟩ := hwired _ _ _ hsplit
  obtain rfl := hy.eq_of_held? hr
  refine ⟨path, y, ?_, hy⟩
  rw [hsplit]
  exact .mk hline hy

end Layer

namespace Sender

variable {y : Sender} {r r' : Receiver} {k : Nat} {v : Completion Value Failure} {l : Leaf}
  {x : Script} {held : Option Receiver}

lemma Yields.gives_ready (h : y.Yields r (.ready k (some (v, r')))) : y.Gives v := by
  cases h with
  | ready hh =>
    rcases hh with hh | hh
    · cases hh
    · obtain ⟨rfl, -⟩ := Prod.mk.inj (Option.some.inj hh)
      exact .ready _

lemma Yields.gives_leaf (h : y.Yields r (.leaf k l held)) : y.Gives l.completion := by
  cases h with
  | leaf => exact .leaf l
  | exploding => exact .exploding _

lemma Yields.eq_script (h : y.Yields r (.script k x held)) : y = .script x := by
  cases h with
  | script => exact rfl

end Sender

namespace Config

open Layer (Seats Persists)

/-- Each task that may complete a receiver comes from an operation of the site that was given it. -/
def Seated (x : Sender) (o : Receiver) (s : Site) (c : Config) : Prop :=
  ∀ t ∈ c.underWay ++ c.world.queue, ∀ r, t.right = some r →
    ∃ path y, Seats x o s (c.world.layers s) path y r ∧ t.StemsFrom y

/-- A task that may complete a receiver waits or is under way. -/
def Pending (c : Config) : Prop := ∃ t ∈ c.underWay ++ c.world.queue, ∃ r, t.right = some r

/-- Nothing is being handed over, completed, connected or cleared at a site, and no call of another
kind is about to be made. -/
structure Undisturbed (s : Site) (c : Config) : Prop where
  control : c.control.Fit s ∨ ∃ h, c.control = .start s h
  ne (r : Receiver) (v : Completion Value Failure) : c.control ≠ .complete r v
  stack {f : Frame} (hf : f ∈ c.stack) : f.Idle

variable {x : Sender} {o r : Receiver} {p : Int} {s s' : Site} {h n : Nat} {c c' : Config}

lemma Undisturbed.not_mem (hc : c.Undisturbed s) {f : Frame} (hf : ¬f.Idle) : f ∉ c.stack :=
  fun hmem => hf (hc.stack hmem)

/-- What stands at a place goes on to stand while nobody disturbs it. -/
lemma Undisturbed.persists (hc : c.Undisturbed (.place p)) (hm : c.Moves c') :
    List.Forall₂ Persists (c.world.layers (.place p)) (c'.world.layers (.place p)) := by
  have hfit {control : Control} (hcontrol : c.control = control)
      (hstart : ∀ h, control ≠ .start (.place p) h) : control.Fit (.place p) := by
    rcases hc.control with hfit | ⟨h, heq⟩
    · exact hcontrol ▸ hfit
    · exact absurd (hcontrol.symm.trans heq) (hstart h)
  cases hm.touches (.place p) with
  | like _ hw => exact Layer.forall₂_persists_of_bare hw.layers_eq
  | released _ hl hl' _ hrel =>
    rw [hl, hl']
    exact Layer.forall₂_persists_replace hrel.persists _ _
  | missed _ _ hw => exact Layer.forall₂_persists_of_bare hw.layers_eq
  | refused _ hw => exact Layer.forall₂_persists_of_bare hw.layers_eq
  | delivered _ _ hw => exact Layer.forall₂_persists_of_bare hw.layers_eq
  | asked _ _ hw => exact Layer.forall₂_persists_of_bare hw.layers_eq
  | spent _ _ _ _ hcontrol =>
    rcases hcontrol with ⟨role, u, hcontrol, -⟩ | ⟨-, hmem⟩
    · exact absurd hcontrol (hc.ne _ _)
    · exact absurd hmem (hc.not_mem id)
  | settled _ hmem => exact absurd hmem (hc.not_mem id)
  | accepted hcontrol => exact absurd hcontrol (hc.ne _ _)
  | called hcontrol => exact (hfit hcontrol nofun).elim
  | built hcontrol => exact (hfit hcontrol nofun).elim
  | filled hcontrol => exact (hfit hcontrol nofun).elim
  | nested hcontrol => exact (hfit hcontrol nofun).elim
  | blocked hcontrol => exact (hfit hcontrol nofun).elim
  | cut _ _ hcuts =>
    cases hcuts with
    | guard _ hmem => exact absurd hmem (hc.not_mem id)
    | clear hcontrol => exact (hfit hcontrol nofun).elim
    | unblocked _ hs => cases hs

end Config

open Config

variable {x : Sender} {o r : Receiver} {p : Int} {s s' : Site} {h n : Nat} {c c' : Config}

/-! ### What may complete in each phase -/

/-- What a frame goes on with completes nothing. -/
def Frame.Inert (f : Frame) : Prop := ∀ t ∈ f.underWay, t.right = none

lemma Frame.Idle.inert {f : Frame} (hf : f.Idle) : f.Inert := by
  intro t ht
  cases f with
  | script run rest =>
    obtain rfl := List.mem_singleton.1 ht
    exact run.right_eq_none hf
  | attempt run rest =>
    obtain rfl := List.mem_singleton.1 ht
    exact run.right_eq_none hf
  | _ => cases ht

lemma inert_of_mem_guards {base : Nat} {f : Frame} (hf : f ∈ Frame.guards s base n) : f.Inert := by
  obtain ⟨j, rfl, -⟩ := Frame.exists_of_mem_guards hf
  intro t ht
  cases ht

lemma Footing.inert {base settled : List Layer} {K : List Frame} (hf : Footing o s base settled K)
    {i m : Nat} : ∀ f ∈ Frame.guards s i m ++ K, f.Inert := by
  intro f hmem
  rcases List.mem_append.1 hmem with hmem | hmem
  · exact inert_of_mem_guards hmem
  · cases hf with
    | vacant => cases hmem
    | handoff hb hK =>
      rcases List.mem_cons.1 hmem with rfl | hmem
      · intro t ht
        cases ht
      · exact (hK f hmem).inert

lemma not_pending {w : World} {control : Control} {K : List Frame} (hc : control.underWay = [])
    (hK : ∀ f ∈ K, f.Inert) (hq : w.spare = []) : ¬Pending ⟨w, control, K⟩ := by
  rintro ⟨t, ht, r, hr⟩
  rw [Config.underWay, hc, List.nil_append, List.mem_append, List.mem_flatMap] at ht
  rcases ht with ⟨f, hf, ht⟩ | ht
  · rw [hK f hf t ht] at hr
    cases hr
  · have hmem : r ∈ w.spare := List.mem_filterMap.2 ⟨t, ht, hr⟩
    rw [hq] at hmem
    cases hmem

/-- Where nothing completes, no task may complete a receiver and no leaf is about to be started. -/
lemma not_arising {w : World} {control : Control} {K : List Frame} (hc : control.underWay = [])
    (hstart : ∀ h, control ≠ .start s h) (hK : ∀ f ∈ K, f.Inert) (hq : w.spare = []) :
    ¬(Pending ⟨w, control, K⟩ ∨ ∃ h, control = .start s h) := by
  rintro (hpending | ⟨h, heq⟩)
  · exact not_pending hc hK hq hpending
  · exact hstart h heq

/-- If a task may complete a receiver, nothing is under way that changes operations otherwise. -/
lemma Thread.undisturbed (ht : Thread o s n c) (hn : n ≤ 1)
    (hc : c.Pending ∨ ∃ h, c.control = .start s h) : c.Undisturbed s := by
  cases ht with
  | loose hw hfit hK hb =>
    refine ⟨.inl hfit, ?_, fun hf => hK _ hf⟩
    rintro r v rfl
    obtain ⟨-, -, hq, -⟩ := hb.single hn
    exact absurd hc (not_arising rfl nofun (fun f hf => (hK f hf).inert) hq)
  | starting hw hl ho hlast hK hb => exact ⟨.inr ⟨_, rfl⟩, nofun, fun hf => hK _ hf⟩
  | called hw hp hl hq hx => exact absurd hc (not_arising rfl nofun (by simp) hq)
  | building hw hb hl hK hq =>
    have hinert := (Footing.handoff hb hK).inert (i := 0) (m := 0)
    exact absurd hc (not_arising rfl nofun hinert hq)
  | connecting hw hf hl ho hq hx hr => exact absurd hc (not_arising rfl nofun hf.inert hq)
  | connected hw hf hl hq hr => exact absurd hc (not_arising rfl nofun hf.inert hq)
  | failed hw hf hl ho hq hr => exact absurd hc (not_arising rfl nofun hf.inert hq)

lemma Thread.persists (ht : Thread o (.place p) n c) (hn : n ≤ 1)
    (hc : c.Pending ∨ ∃ h, c.control = .start (.place p) h) (hm : c.Moves c') :
    List.Forall₂ Layer.Persists (c.world.layers (.place p)) (c'.world.layers (.place p)) :=
  (ht.undisturbed hn hc).persists hm

/-- Only what stands at the site is started. -/
lemma Thread.site_of_start (ht : Thread o s n c) (hc : c.control = .start s' h) : s' = s := by
  cases ht with
  | loose _ hfit =>
    subst hc
    exact hfit.elim
  | starting => exact (Control.start.inj hc).1.symm
  | _ => cases hc

/-! ### From move to move -/

namespace Config

open Layer (Seats)

lemma seated_of_jobs (hc : c.underWay = []) (hq : ∀ t ∈ c.world.queue, ∃ j, t = .job j) :
    c.Seated x o s := by
  intro t ht r hr
  rw [hc, List.nil_append] at ht
  obtain ⟨j, rfl⟩ := hq t ht
  cases hr

/-- What a task comes from stands where it stood, and what a started leaf puts off comes from the
operation of the leaf. -/
theorem Seated.move (hc : c.Seated x o (.place p)) (ht : Thread o (.place p) n c) (hn : n ≤ 1)
    (hwired : c.Wired x o (.place p)) (hm : c.Moves c') : c'.Seated x o (.place p) := by
  intro t' hmem r hr
  have hstayed {t : Task} (ht' : t ∈ c.underWay ++ c.world.queue) (hr' : t.right = some r)
      (hstems : ∀ y, t.StemsFrom y → t'.StemsFrom y) :
      ∃ path y, Seats x o (.place p) (c'.world.layers (.place p)) path y r ∧
        t'.StemsFrom y := by
    obtain ⟨path, y, hy, hfrom⟩ := hc t ht' r hr'
    exact ⟨path, y, hy.persists (ht.persists hn (.inl ⟨t, ht', r, hr'⟩) hm), hstems y hfrom⟩
  have hstarted {s' : Site} {h : Nat} {l : Layer} (hstart : c.control = .start s' h)
      (hl : (c.world.layers s')[h]? = some l) (hheld : l.held? = some r)
      (hstems : ∀ y, y.Yields r l → t'.StemsFrom y) :
      ∃ path y, Seats x o (.place p) (c'.world.layers (.place p)) path y r ∧
        t'.StemsFrom y := by
    obtain rfl := ht.site_of_start hstart
    obtain ⟨path, y, hy, hyields⟩ := hwired.layers.seats hl hheld
    exact ⟨path, y, hy.persists (ht.persists hn (.inr ⟨h, hstart⟩) hm), hstems y hyields⟩
  cases hm.forwards.stems hmem with
  | same ht' => exact hstayed ht' hr fun y => id
  | rest ht' hright =>
    exact hstayed (List.mem_append_left _ ht') (hright r hr) fun y => id
  | job j => cases hr
  | leaf hstart hl =>
    obtain rfl := Option.some.inj hr
    exact hstarted hstart hl rfl fun y hy => hy.gives_leaf
  | script hstart hl hrun =>
    obtain rfl := Option.some.inj (hrun.symm.trans (Run.receiver_eq_of_right hr))
    exact hstarted hstart hl rfl fun y hy => ⟨_, hy.eq_script⟩

lemma Seated.next (hc : c.Seated x o s) (z : Call) : Seated x o s ⟨c.world, .call z, []⟩ := by
  intro t ht
  exact hc t (List.mem_append_right _ ht)

end Config

end Handoff
