import Handoff.Proofs.Reporting.Sending

/-!
# Where errors come from

Each error that is on its way to a receiver has arisen because a leaf failed or because a payload
was raised amid a handoff, and nothing was given to a final receiver in between. Where a host
attends to one place only, `Config.Orderly` tells who may complete at a moment, so that nobody else
gives an error to anyone: `Config.Orderly.arrives`. Where it attends to other places as well, the
same is so of what it does for one place. `Config.Behaves.arose` says so of every run that keeps the
rules.
-/

namespace Handoff

open Machine

namespace Config

open Layer (Seats)

variable {x : Sender} {o r : Receiver} {p : Int} {s : Site} {n : Nat} {c c' d d' : Config}
  {f : Failure}

/-! ### Where a host attends to one place only -/

/-- What is so at every moment of a run at a place if a host attends to that only: at most one
completion is still to be given, and whoever may give it comes from an operation of the place. -/
structure Orderly (x : Sender) (o : Receiver) (p : Int) (c : Config) : Prop where
  exists_thread : ∃ n ≤ 1, Thread o (.place p) n c
  wired : c.Wired x o (.place p)
  seated : c.Seated x o (.place p)

lemma orderly_connect {w : World} (hx : x.Lawful) (hl : w.layers (.place p) = [])
    (hq : ∀ t ∈ w.queue, ∃ j, t = .job j) :
    Orderly x o p ⟨w, .connect x o (.place p) 0, []⟩ :=
  ⟨⟨1, Nat.le_refl 1, thread_connect hx hl hq⟩, wired_of_connect hl, seated_of_jobs rfl hq⟩

lemma Orderly.move (hc : c.Orderly x o p) (ho : o.Calm) (hc₀ : c.Attended (.place p))
    (hm : c.Moves c') : c'.Orderly x o p := by
  obtain ⟨⟨n, hn, ht⟩, hwired, hseated⟩ := hc
  obtain ⟨n', ht', hle, -⟩ := ht.move hn ho hm
  refine ⟨⟨n', by omega, ht'⟩, (hwired.move hm hc₀.not_renews).1, ?_⟩
  exact hseated.move ht hn hwired hm

lemma Orderly.next {z : Call} (hc : c.Orderly x o p) (hf : c.IsFinal) (hz : z.Attends (.place p)) :
    Orderly x o p ⟨c.world, .call z, []⟩ := by
  obtain ⟨⟨n, hn, ht⟩, hwired, hseated⟩ := hc
  exact ⟨⟨n, hn, ht.next hf hz⟩, .of_layers hwired.layers rfl, hseated.next z⟩

end Config

open Config

variable {x : Sender} {o r : Receiver} {p : Int} {s : Site} {n : Nat} {c c' : Config}
  {v : Completion Value Failure}

/-- A handle that is completed leads into an operation of the site. -/
lemma Thread.site_of_complete (ht : Thread o s n c) (hn : n ≤ 1) (ho : o.isChild = false)
    (hc : c.control = .complete r v) (hr : r.isChild = true) : r.site = some s := by
  cases ht with
  | loose hw hfit hK hb =>
    subst hc
    obtain ⟨-, -, -, hopen⟩ := hb.single hn
    cases r with
    | child role s' i =>
      obtain ⟨rfl, -⟩ := hopen.split ho
      exact rfl
    | _ => cases hr
  | _ => cases hc

lemma Thread.ne_deliver {y : Script} {s' : Site} {h : Nat} (ht : Thread o s n c)
    (hc : c.control = .connect (.script y) r s' h) (d : Delivery) (m : Option Payload) :
    y.connecting ≠ .deliver d m := by
  cases ht with
  | loose hw hfit =>
    subst hc
    exact hfit.elim
  | connecting hw hf hl ho hq hx =>
    obtain ⟨rfl, -⟩ := Control.connect.inj hc
    exact hx.connecting_ne d m
  | _ => cases hc

namespace Config

open Layer (Seats)

variable {d d' : Config} {f : Failure} {w : World} {ks : Sources} {path : List Role} {e : Failure}
  {ps : List Parcel} {ok : Config → Prop} {c₀ : Config}

/-- An error arises: a leaf fails, or a payload is raised amid a handoff. -/
inductive Begets (x : Sender) (o : Receiver) (s : Site) : List Role → Failure → Config → Prop where
  | leaf {path : List Role} {e : Failure} {c : Config} (h : c.Fails x o s path e) :
      Begets x o s path e c
  | handoff {path : List Role} {m : Payload} {c : Config} (h : c.Breaks x o s path m) :
      Begets x o s path (.panicked m) c

/-- Why a receiver of a site is about to be given an error, after a move. -/
inductive Arrives (x : Sender) (o : Receiver) (s : Site) (c c' : Config) : Prop where
  | now {path : List Role} {e : Failure} (h : c'.Begets x o s path e) : Arrives x o s c c'
  | before {path : List Role} {e : Failure} (h : c.Begets x o s path e) (hg : c.given = []) :
      Arrives x o s c c'
  | passed {q : Receiver} {e : Failure} (hc : c.control = .complete q (.error e))
      (hq : q.isChild = true) (hs : q.site = some s) : Arrives x o s c c'

lemma given_of_isChild (hc : c.control = .complete r v) (hr : r.isChild = true) :
    c.given = [] := by
  simp [given, hc, hr]

/-- What stood among the operations of a place and stands there still has failed. -/
lemma arrives_of_seats {path : List Role} {y : Sender}
    (hy : Seats x o s (c'.world.layers s) path y r) (hgives : y.Gives (.error f))
    (hc' : c'.control = .complete r (.error f)) : c.Arrives x o s c' := by
  obtain ⟨w, control, K⟩ := c'
  obtain rfl : control = .complete r (.error f) := hc'
  exact .now (.leaf (.mk hy hgives))

/-- Each error that a receiver is about to be given has arisen just now, or came from a child. -/
theorem Orderly.arrives (hc : c.Orderly x o p) (ho : o.isChild = false) (hm : c.Moves c')
    (hc' : c'.control = .complete r (.error f)) : c.Arrives x o (.place p) c' := by
  obtain ⟨⟨n, hn, ht⟩, hwired, hseated⟩ := hc
  cases hm.sends hc' with
  | passed hq hchild => exact .passed hq hchild (ht.site_of_complete hn ho hq hchild)
  | @caught m s h hraised hK =>
    obtain ⟨rfl, -, b, K, hover⟩ := ht.exists_handsOver hK
    obtain ⟨below, inner, rfl, hl, -⟩ := hover.exists_layers
    obtain ⟨path, z, q, hline, hz⟩ := hwired.layers below (.bind b) inner hl
    have hbreaks : c.Breaks x o (.place p) path m := by
      obtain ⟨w, control, stack⟩ := c
      obtain rfl : control = .raised m := hraised
      exact .mk hl hline hz hK
    exact .before (.handoff hbreaks) (by simp [given, hraised])
  | connecting hconnect hy => exact absurd hy (ht.ne_deliver hconnect _ _)
  | @started s h l hstart hl hr hf =>
    obtain rfl := ht.site_of_start hstart
    obtain ⟨path, y, hy, hyields⟩ := hwired.layers.seats hl hr
    have hpersists := ht.persists hn (.inr ⟨h, hstart⟩) hm
    exact arrives_of_seats (hy.persists hpersists) (hf y hyields) hc'
  | @due t hmem hr hf =>
    have hmem' := List.mem_append_left c.world.queue hmem
    obtain ⟨path, y, hy, hfrom⟩ := hseated t hmem' r hr
    have hpersists := ht.persists hn (.inl ⟨t, hmem', r, hr⟩) hm
    exact arrives_of_seats (hy.persists hpersists) (hf y hfrom) hc'

/-! ### Along a run -/

/-- Each error on its way to a receiver of a site has arisen earlier in the run, and nothing was
given to a final receiver since. -/
def Traced (x : Sender) (o : Receiver) (s : Site) (ok : Config → Prop) (c₀ : Config)
    (ps : List Parcel) (c : Config) : Prop :=
  ∀ r f, c.control = .complete r (.error f) → r.site = some s →
    ∃ d path e, Since ok c₀ ps d ∧ d.Begets x o s path e ∧ d.Leads [] c

lemma Traced.move (hc : Traced x o s ok c₀ ps c) (h : Since ok c₀ ps c) (hok : ok c)
    (hm : c.Moves c')
    (harrives : ∀ r f, c'.control = .complete r (.error f) → r.site = some s →
      c.Arrives x o s c') :
    Traced x o s ok c₀ (ps ++ c.given) c' := by
  intro r f hc' hr
  cases harrives r f hc' hr with
  | now hbegets => exact ⟨c', _, _, h.move hok hm, hbegets, .refl c'⟩
  | before hbegets hg =>
    rw [hg, List.append_nil]
    exact ⟨c, _, _, h, hbegets, .quiet hm hg (.refl c')⟩
  | @passed q e hq hchild hs =>
    have hg : c.given = [] := given_of_isChild hq hchild
    obtain ⟨d, path, e, hd, hbegets, hleads⟩ := hc q e hq hs
    rw [hg, List.append_nil]
    exact ⟨d, path, e, hd, hbegets, hleads.append_quiet (.quiet hm hg (.refl c'))⟩

/-- What is so along a run tells where errors arrive from. -/
lemma Since.traced {I : Config → Prop} (h : Since ok c₀ ps c)
    (hc₀ : ∀ r v, c₀.control ≠ .complete r v) (hI₀ : I c₀)
    (hmove : ∀ d d', I d → ok d → d.Moves d' → I d')
    (hnext : ∀ d z, I d → d.IsFinal → I ⟨d.world, .call z, []⟩)
    (harrives : ∀ d d' r f, I d → ok d → d.Moves d' → d'.control = .complete r (.error f) →
      r.site = some s → d.Arrives x o s d') : Traced x o s ok c₀ ps c := by
  induction h with
  | refl => exact fun r f hc => absurd hc (hc₀ r _)
  | move h hok hm ih =>
    have hI := h.keeps hI₀ hmove hnext
    exact ih.move h hok hm fun r f hc' hr => harrives _ _ r f hI hok hm hc' hr
  | next => exact fun r f hc => nomatch hc

/-- Orderly, unless a host is about to attend to something else. -/
def Tidy (x : Sender) (o : Receiver) (p : Int) (c : Config) : Prop :=
  c.Attended (.place p) → c.Orderly x o p

lemma Tidy.move (hc : c.Tidy x o p) (ho : o.Calm) (hok : c.Attended (.place p))
    (hm : c.Moves c') : c'.Tidy x o p :=
  fun _ => (hc hok).move ho hok hm

lemma Tidy.next (hc : c.Tidy x o p) (hf : c.IsFinal) (z : Call) :
    Tidy x o p ⟨c.world, .call z, []⟩ :=
  fun hok => (hc hf.attended).next hf (hok z rfl)

lemma Since.tidy (h : Since (Attended (.place p) ·) c₀ ps c) (ho : o.Calm)
    (hc₀ : c₀.Tidy x o p) : c.Tidy x o p :=
  h.keeps hc₀ (fun _ _ hd hok hm => hd.move ho hok hm) fun _ z hd hf => hd.next hf z

/-- A host attends to one place only. -/
lemma Since.traced_alone (h : Since (Attended (.place p) ·) c₀ ps c) (ho : o.Calm)
    (hc₀ : ∀ r v, c₀.control ≠ .complete r v) (htidy : c₀.Tidy x o p) :
    Traced x o (.place p) (Attended (.place p) ·) c₀ ps c := by
  refine h.traced hc₀ htidy ?_ ?_ ?_
  · exact fun d d' hd hok hm => hd.move ho hok hm
  · exact fun d z hd hf => hd.next hf z
  · exact fun d d' r f hd hok hm hd' _ => (hd hok).arrives ho.isChild_eq hm hd'

/-! ### A place among others -/

/-- Two configurations do the same, and have the same at a site. -/
structure SameAt (s : Site) (c d : Config) : Prop where
  control_eq : c.control = d.control
  stack_eq : c.stack = d.stack
  layers_eq : c.world.layers s = d.world.layers s

/-- A receiver of a site is completed, or a payload is raised amid a handoff there. -/
inductive Engaged (s : Site) (c : Config) : Prop where
  | complete {r : Receiver} {v : Completion Value Failure} (hc : c.control = .complete r v)
      (hr : r.site = some s) : Engaged s c
  | raised {m : Payload} {h : Nat} (hc : c.control = .raised m) (hK : .handoff s h ∈ c.stack) :
      Engaged s c

lemma Engaged.of_sameAt (hc : c.Engaged s) (h : c.SameAt s d) : d.Engaged s := by
  cases hc with
  | complete hc hr => exact .complete (h.control_eq.symm.trans hc) hr
  | raised hc hK => exact .raised (h.control_eq.symm.trans hc) (h.stack_eq ▸ hK)

lemma Fails.of_sameAt (hd : d.Fails x o s path e) (h : c.SameAt s d) : c.Fails x o s path e := by
  obtain ⟨w, control, K⟩ := c
  obtain ⟨hcontrol, -, hlayers⟩ := h
  obtain ⟨hy, hgives⟩ := hd
  obtain rfl : control = _ := hcontrol
  exact .mk (hlayers ▸ hy) hgives

lemma Breaks.of_sameAt {m : Payload} (hd : d.Breaks x o s path m) (h : c.SameAt s d) :
    c.Breaks x o s path m := by
  obtain ⟨w, control, K⟩ := c
  obtain ⟨hcontrol, hstack, hlayers⟩ := h
  obtain ⟨hl, hline, hz, hK⟩ := hd
  obtain rfl : control = _ := hcontrol
  obtain rfl : K = _ := hstack
  exact .mk (hlayers.trans hl) hline hz hK

lemma Arrives.of_sameAt (hd : d.Arrives x o s d') (h : c.SameAt s d) (h' : c'.SameAt s d') :
    c.Arrives x o s c' := by
  have hbegets {c d : Config} {path : List Role} {e : Failure} (h : c.SameAt s d)
      (hd : d.Begets x o s path e) : c.Begets x o s path e := by
    cases hd with
    | leaf hd => exact .leaf (hd.of_sameAt h)
    | handoff hd => exact .handoff (hd.of_sameAt h)
  cases hd with
  | now hd' => exact .now (hbegets h' hd')
  | before hd hg => exact .before (hbegets h hd) (by simpa [given, h.control_eq] using hg)
  | passed hq hchild hs => exact .passed (h.control_eq.trans hq) hchild hs

lemma sameAt_of_only_eq {js : List Int} (heq : c.only s js = d.only s js) : c.SameAt s d := by
  obtain ⟨hworld, hcontrol, hstack⟩ := eq_of_only_eq heq
  refine ⟨hcontrol, hstack, ?_⟩
  simpa only [World.layers_only] using congrArg (World.layers · s) hworld

/-- What is done about the place is done alone as well. -/
lemma ShadowedBy.sameAt (h : c.ShadowedBy ks p d) (hc : c.Engaged (.place p)) :
    c.SameAt (.place p) d := by
  cases h with
  | here _ _ _ heq => exact sameAt_of_only_eq heq
  | @away _ _ q _ hq hstays =>
    cases hc with
    | complete hc hr =>
      have hcontrol := hstays.control
      rw [hc] at hcontrol
      have hsite : some (Site.place q) = some (.place p) := hcontrol.site_eq.symm.trans hr
      exact absurd (Site.place.inj (Option.some.inj hsite)) hq
    | raised hc hK => exact absurd (Site.place.inj (hstays.stack _ hK)).symm hq
  | asked => rcases hc with ⟨hc, -⟩ | ⟨hc, -⟩ <;> cases hc

lemma Stays.attended (hc : c.Stays ks p w) : c.Attended s := by
  intro z hz
  have hcontrol := hc.control
  rw [hz] at hcontrol
  exact hcontrol.elim

lemma ShadowedBy.arrives (h : c.ShadowedBy ks p d) (hd : d.Tidy x o p) (ho : o.isChild = false)
    (hm : c.Moves c') (hc' : c'.control = .complete r (.error f))
    (hr : r.site = some (.place p)) : c.Arrives x o (.place p) c' := by
  have hengaged : c'.Engaged (.place p) := .complete hc' hr
  cases h with
  | here hc hd' hv heq =>
    obtain ⟨d', hmoves, hshadow, -⟩ := ShadowedBy.move_here hc hd' hv heq hm
    have hsame := hshadow.sameAt hengaged
    have harrives := (hd hd'.attended).arrives ho hmoves (hsame.control_eq.symm.trans hc')
    exact harrives.of_sameAt (sameAt_of_only_eq heq) hsame
  | @away _ _ q _ hq hstays =>
    have hcontrol := (hstays.next hm).control
    rw [hc'] at hcontrol
    have hsite : some (Site.place q) = some (.place p) := hcontrol.site_eq.symm.trans hr
    exact absurd (Site.place.inj (Option.some.inj hsite)) hq
  | asked =>
    obtain rfl := Option.some.inj hm
    exact absurd hc' ne_complete_call

/-- A host attends to other places as well. -/
lemma Since.traced_among (h : Since (Heeded ks p ·) c₀ ps c) (ho : o.Calm)
    (hc₀ : ∀ r v, c₀.control ≠ .complete r v) (htidy : d.Tidy x o p)
    (hshadow : c₀.ShadowedBy ks p d) :
    Traced x o (.place p) (Heeded ks p ·) c₀ ps c := by
  refine h.traced (I := fun c => ∃ d, d.Tidy x o p ∧ c.ShadowedBy ks p d) hc₀
    ⟨d, htidy, hshadow⟩ ?_ ?_ ?_
  · rintro c c' ⟨d, hd, hshadow⟩ hok hm
    obtain ⟨d', hsince, hshadow'⟩ := hshadow.move hok hm
    exact ⟨d', hsince.tidy ho hd, hshadow'⟩
  · rintro c z ⟨d, hd, hshadow⟩ hf
    exact ⟨d, hd, hshadow.next hf z⟩
  · rintro c c' r f ⟨d, hd, hshadow⟩ - hm hc' hr
    exact hshadow.arrives hd ho.isChild_eq hm hc' hr

/-- Each error on its way to a receiver of a place has arisen earlier in a run that keeps the rules,
and nothing was given to a final receiver since. -/
theorem Behaves.arose (hc : c.Behaves x o (.place p) ps)
    (hc' : c.control = .complete r (.error f)) (hr : r.site = some (.place p)) :
    ∃ (d : Config) (path : List Role) (e : Failure),
      d.Behaves x o (.place p) ps ∧ d.Begets x o (.place p) path e ∧ d.Leads [] c := by
  cases hc with
  | @alone w hx ho hl hq h =>
    have htidy : Tidy x o p ⟨w, .connect x o (.place p) 0, []⟩ := fun _ => orderly_connect hx hl hq
    obtain ⟨d, path, e, hd, hbegets, hleads⟩ := h.traced_alone ho nofun htidy r f hc' hr
    exact ⟨d, path, e, .alone hx ho hl hq hd, hbegets, hleads⟩
  | @among ks q w hs hx ho hb hw hl hq h =>
    obtain rfl := Site.place.inj hs
    have hqueue : (w.only (.place q) (ks q)).queue = [] :=
      List.filter_eq_nil_iff.2 (by simpa using hq)
    have htidy : Tidy x o q ⟨w.only (.place q) (ks q), .connect x o (.place q) 0, []⟩ :=
      fun _ => orderly_connect hx.lawful (by simpa using hl) (by simp [hqueue])
    obtain ⟨d, path, e, hd, hbegets, hleads⟩ :=
      h.traced_among ho nofun htidy (shadowedBy_connect hw hx hb) r f hc' hr
    exact ⟨d, path, e, .among rfl hx ho hb hw hl hq hd, hbegets, hleads⟩

end Config

end Handoff
