import Handoff.Proofs.Panic.Thread
import Handoff.Proofs.Since

/-!
# A place among others

A host that makes calls on many places comes to one of them now and then. What it does there can be
done alone. `Config.ShadowedBy` relates a run to another one, in which each move on behalf of the
place is made as well, and which rests while the first run is about other places. The main statement
is `Config.Since.exists_shadow`: for each run there is one in which this place only is attended to,
and that gives the same to its receivers.
-/

namespace Handoff

open Machine

lemma World.layers_only_of_ne {s s' : Site} (hs : s' ≠ s) (ks : List Int) (w : World) :
    (w.only s ks).layers s' = [] := by
  have hfind (es : List (Site × Place)) :
      Places.find s' (es.filter fun e => e.1 = s) = none := by
    induction es with
    | nil => rfl
    | cons e rest ih =>
      by_cases he : e.1 = s
      · simp [Places.find, he, hs.symm, ih]
      · simp [he, ih]
  have hget : (w.only s ks).places.get? s' = none := hfind _
  simp [layers, place, hget]

/-- What one place has in a divided world. -/
lemma World.Divided.lone_only {ks : Sources} {w : World} (hw : w.Divided ks) (p : Int) :
    (w.only (.place p) (ks p)).Lone ks p where
  divided := by
    constructor
    · intro q l hl
      by_cases hq : q = p
      · subst hq
        rw [layers_only] at hl
        exact hw.layers q l hl
      · rw [layers_only_of_ne (by simpa using hq)] at hl
        cases hl
    · intro t ht
      exact hw.queue t (List.mem_of_mem_filter ht)
  queue t ht := by simpa using List.of_mem_filter ht

namespace Config

/-- What is called leaves in its place what was connected at a site. -/
def Attended (s : Site) (c : Config) : Prop := ∀ z, c.control = .call z → z.Attends s

/-- What is called is about one place, and does not connect or clear the place of a number. -/
def Heeded (ks : Sources) (p : Int) (c : Config) : Prop :=
  ∀ z, c.control = .call z → z.Heeds ks ∧ (∀ y r, z ≠ .connect p y r) ∧ z ≠ .clear p

/-- A run may be about other places as well, and a second one does the same as it does for one
place. -/
inductive ShadowedBy (ks : Sources) (p : Int) : Config → Config → Prop where
  /-- Both are about the place. -/
  | here {c d : Config} {w v : World} (hc : c.Stays ks p w) (hd : d.Stays ks p v)
      (hv : v.Lone ks p) (heq : c.only (.place p) (ks p) = d.only (.place p) (ks p)) :
      ShadowedBy ks p c d
  /-- One is about another place, and the other one rests. -/
  | away {c d : Config} {q : Int} {w : World} (hq : q ≠ p) (hc : c.Stays ks q w)
      (hd : d.IsFinal) (hv : d.world.Lone ks p)
      (heq : w.only (.place p) (ks p) = d.world.only (.place p) (ks p)) : ShadowedBy ks p c d
  /-- A host makes a call, and it is open what that is about. -/
  | asked {w : World} {x : Call} {d : Config} (hw : w.Divided ks) (hd : d.IsFinal)
      (hv : d.world.Lone ks p)
      (heq : w.only (.place p) (ks p) = d.world.only (.place p) (ks p)) :
      ShadowedBy ks p ⟨w, .call x, []⟩ d

variable {ks : Sources} {p q : Int} {c c' d d' : Config} {w v : World} {x : Call}
  {ps : List Parcel} {y : Sender} {o : Receiver} {h : Nat}

/-- What is given to the receivers of a place. -/
def givenAt (p : Int) (ps : List Parcel) : List Parcel :=
  ps.filter fun g => g.1.site = some (.place p)

lemma Stays.site_of_mem_given (hc : c.Stays ks q w) (hm : c.Moves c') {g : Parcel}
    (hg : g ∈ c.given) : g.1.site = some (.place q) := by
  have hgifts : g ∈ c.gifts 1 := by simpa [gifts, show c.next = some c' from hm] using hg
  exact hc.site_of_mem_gifts hgifts

lemma Stays.givenAt_self (hc : c.Stays ks p w) (hm : c.Moves c') :
    givenAt p c.given = c.given := by
  refine List.filter_eq_self.2 ?_
  intro g hg
  simp [hc.site_of_mem_given hm hg]

lemma Stays.givenAt_of_ne (hc : c.Stays ks q w) (hm : c.Moves c') (hq : q ≠ p) :
    givenAt p c.given = [] := by
  refine List.filter_eq_nil_iff.2 ?_
  intro g hg
  simpa [hc.site_of_mem_given hm hg] using hq

/-- A move on behalf of the place is made in both runs. -/
lemma ShadowedBy.move_here (hc : c.Stays ks p w) (hd : d.Stays ks p v) (hv : v.Lone ks p)
    (heq : c.only (.place p) (ks p) = d.only (.place p) (ks p)) (hm : c.Moves c') :
    ∃ d', d.Moves d' ∧ c'.ShadowedBy ks p d' ∧ d.given = c.given := by
  have hnext : d.next.map (Config.only (.place p) (ks p)) = some (c'.only (.place p) (ks p)) := by
    rw [← hd.next_only, ← heq, hc.next_only, show c.next = some c' from hm, Option.map_some]
  obtain ⟨d', hd', heq'⟩ := Option.map_eq_some_iff.1 hnext
  obtain ⟨-, hcontrol, -⟩ := eq_of_only_eq heq
  exact ⟨d', hd', .here (hc.next hm) (hd.next hd') hv heq'.symm, by simp [given, hcontrol]⟩

/-- A call is made in both runs if it concerns the place, and else in one of them. -/
lemma ShadowedBy.move_asked (hw : w.Divided ks) (hd : d.IsFinal) (hv : d.world.Lone ks p)
    (heq : w.only (.place p) (ks p) = d.world.only (.place p) (ks p)) (hx : x.Heeds ks) :
    (call w x []).ShadowedBy ks p (call d.world x []) ∧ x.concerns ks p d.world = true ∨
      (call w x []).ShadowedBy ks p d := by
  cases hconcerns : x.concerns ks p w with
  | true =>
    have hconcerns' := hv.concerns heq hconcerns
    have heq' : (call w x []).only (.place p) (ks p) =
        (call d.world x []).only (.place p) (ks p) := by
      rw [← call_only hconcerns, heq, call_only hconcerns']
    refine .inl ⟨?_, hconcerns'⟩
    by_cases hrequest : ∃ k, x = .request k
    · obtain ⟨k, rfl⟩ := hrequest
      have hlone : (d.world.request k).1.Lone ks p := by
        refine ⟨divided_request hv.divided k, ?_⟩
        rw [(places_request d.world k).2]
        exact hv.queue
      exact .here ⟨.refl (divided_request hw k), trivial, by simp [call]⟩
        ⟨.refl hlone.divided, trivial, by simp [call]⟩ hlone heq'
    · have hrequest : ∀ k, x ≠ .request k := fun k hk => hrequest ⟨k, hk⟩
      exact .here (stays_call hw hx hconcerns hrequest)
        (stays_call hv.divided hx hconcerns' hrequest) hv heq'
  | false =>
    have hother : p + 1 ≠ p := by omega
    refine .inr ?_
    rcases exists_stays_call hw hx with ⟨k, rfl⟩ | ⟨rfl, hq⟩ | ⟨q, hq, hstays⟩
    · have hk : k ∉ ks p := by simpa [Call.concerns] using hconcerns
      refine .away hother ⟨.refl (divided_request hw k), trivial, by simp [call]⟩ hd hv ?_
      exact (only_request_of_notMem hk).trans heq
    · have htick : call w .tick [] = ⟨w, .done (.flag false), []⟩ := by simp [call, hq]
      rw [htick]
      exact .away hother ⟨.refl hw, trivial, by simp⟩ hd hv heq
    · refine .away ?_ hstays hd hv heq
      rintro rfl
      rw [hq] at hconcerns
      cases hconcerns

lemma attends_of_concerns (hx : x.Heeds ks) (hconnect : ∀ y r, x ≠ .connect p y r)
    (hclear : x ≠ .clear p) (hconcerns : x.concerns ks p w = true) : x.Attends (.place p) := by
  cases x with
  | connect q y r =>
    obtain rfl : q = p := by simpa [Call.concerns] using hconcerns
    exact absurd rfl (hconnect y r)
  | clear q =>
    obtain rfl : q = p := by simpa [Call.concerns] using hconcerns
    exact absurd rfl hclear
  | start q =>
    obtain rfl : q = p := by simpa [Call.concerns] using hconcerns
    rfl
  | tick => trivial
  | request k => trivial
  | _ => exact hx.1.elim

/-- After each move of one run, the other one can go on so that it does the same for the place. -/
lemma ShadowedBy.move (h : c.ShadowedBy ks p d) (hok : c.Heeded ks p) (hm : c.Moves c') :
    ∃ d', Since (Attended (.place p)) d (givenAt p c.given) d' ∧ c'.ShadowedBy ks p d' := by
  cases h with
  | here hc hd hv heq =>
    obtain ⟨d', hd', hshadow, hgiven⟩ := move_here hc hd hv heq hm
    have hattended : d.Attended (.place p) := by
      intro z hz
      have hcontrol := hd.control
      rw [hz] at hcontrol
      exact hcontrol.elim
    refine ⟨d', ?_, hshadow⟩
    rw [hc.givenAt_self hm, ← hgiven]
    exact (Since.refl d).move hattended hd'
  | away hq hc hd hv heq =>
    refine ⟨d, ?_, .away hq (hc.next hm) hd hv heq⟩
    rw [hc.givenAt_of_ne hm hq]
    exact .refl d
  | @asked w x _ hw hd hv heq =>
    obtain rfl : call w x [] = c' := Option.some.inj hm
    obtain ⟨hx, hconnect, hclear⟩ := hok x rfl
    rcases move_asked hw hd hv heq hx with ⟨hshadow, hconcerns⟩ | hshadow
    · have hattended : Attended (.place p) ⟨d.world, .call x, []⟩ := by
        rintro z (hz : Control.call x = .call z)
        obtain rfl := Control.call.inj hz
        exact attends_of_concerns hx hconnect hclear hconcerns
      exact ⟨_, ((Since.refl d).next hd x).move hattended rfl, hshadow⟩
    · exact ⟨d, .refl d, hshadow⟩

/-- When a host makes its next call, the other run has come to an end as well. -/
lemma ShadowedBy.next (h : c.ShadowedBy ks p d) (hf : c.IsFinal) (x : Call) :
    ShadowedBy ks p ⟨c.world, .call x, []⟩ d := by
  cases h with
  | here hc hd hv heq =>
    have hfinal : d.IsFinal := by
      have hnext := hd.next_only
      rw [← heq, hc.next_only, show c.next = none from hf] at hnext
      exact Option.map_eq_none_iff.1 hnext.symm
    exact .asked hc.minds.divided hfinal (hv.of_minds hd.minds) (eq_of_only_eq heq).1
  | away hq hc hd hv heq =>
    exact .asked hc.minds.divided hd hv ((hc.minds.elsewhere p hq.symm _).trans heq)
  | asked => cases hf

/-- A sender is connected in a place among others, and alone. -/
lemma shadowedBy_connect (hw : w.Divided ks) (hy : y.Scriptless) (ho : o.Belongs ks p) :
    ShadowedBy ks p ⟨w, .connect y o (.place p) h, []⟩
      ⟨w.only (.place p) (ks p), .connect y o (.place p) h, []⟩ := by
  have hlone := hw.lone_only p
  refine .here ⟨.refl hw, ⟨hy, ho, rfl⟩, by simp⟩ ⟨.refl hlone.divided, ⟨hy, ho, rfl⟩, by simp⟩
    hlone ?_
  simp

/-- What is started in the place is started in both runs. -/
lemma ShadowedBy.of_start (hshadow : c.ShadowedBy ks p d) (hc : c.control = .start (.place p) h) :
    d.control = .start (.place p) h ∧
      d.world.layers (.place p) = c.world.layers (.place p) := by
  cases hshadow with
  | here _ _ _ heq =>
    obtain ⟨hworld, hcontrol, -⟩ := eq_of_only_eq heq
    have hlayers := congrArg (World.layers · (.place p)) hworld
    simp only [World.layers_only] at hlayers
    exact ⟨hcontrol.symm.trans hc, hlayers.symm⟩
  | @away _ _ q _ hq hstays =>
    have hcontrol := hstays.control
    rw [hc] at hcontrol
    obtain rfl : p = q := Site.place.inj hcontrol
    exact absurd rfl hq
  | asked => cases hc

/-- What is done for a place in a run can be done alone. -/
lemma Since.exists_shadow (h : Since (Heeded ks p) c ps c') (hc : c.ShadowedBy ks p d) :
    ∃ d', Since (Attended (.place p)) d (givenAt p ps) d' ∧ c'.ShadowedBy ks p d' := by
  induction h with
  | refl => exact ⟨d, .refl d, hc⟩
  | move _ hok hm ih =>
    obtain ⟨d₁, hbefore, hshadow⟩ := ih
    obtain ⟨d', hrest, hshadow'⟩ := hshadow.move hok hm
    refine ⟨d', ?_, hshadow'⟩
    rw [givenAt, List.filter_append]
    exact hbefore.trans hrest
  | next _ hf x ih =>
    obtain ⟨d', hbefore, hshadow⟩ := ih
    exact ⟨d', hbefore, hshadow.next hf x⟩

end Config

end Handoff
