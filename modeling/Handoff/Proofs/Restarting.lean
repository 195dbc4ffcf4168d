import Handoff.Proofs.Chain.Playing
import Handoff.Proofs.Connecting.Failure
import Handoff.Proofs.Recounting.Serving
import Handoff.Proofs.Since
import Handoff.Proofs.Touching
import Mathlib.Tactic.IntervalCases

/-!
# Starting again

A start is passed on inwards, past alternatives and past binding operations whose predecessor is
still there, to one that refuses it: a leaf that has let go of its receiver, or a binding operation
that has begun its handoff, which is what `Layer.Started` says. The first start of a place
leaves such operations behind, and nothing that happens later undoes this, until the place is
cleared: what is laid down after the first start stands inside a binding operation that refuses.
The main statement is that a start after the first one raises a payload and changes nothing, and
that what a host does later does not depend on it, `Config.restart_changes_nothing`.
-/

namespace Handoff

open Machine

namespace Layer

variable {base outer inner rest ls ls' : List Layer} {l l' : Layer} {b b' : Binding}

@[simp] lemma started_nil : Started [] := trivial

/-- A refused start logs where it passes, and a leaf that it comes to may journal it. -/
lemma exists_refusal_eq (ls : List Layer) :
    ∃ (ks : List Nat) (label : Option String),
      (refusal ls).acts = ks.map (Act.logged · .starting) ++ label.toList.map Act.started := by
  induction ls with
  | nil => exact ⟨[], none, rfl⟩
  | cons l rest ih =>
    cases l with
    | ready k held => exact ⟨[], none, rfl⟩
    | leaf k l held => exact ⟨[], some l.label, rfl⟩
    | script k x held => exact ⟨[], some x.label, rfl⟩
    | either k which => exact ih
    | bind b =>
      by_cases hs : b.storage = .predecessor
      · obtain ⟨ks, label, hks⟩ := ih
        exact ⟨b.serial :: ks, label, by simp [refusal, hs, hks]⟩
      · exact ⟨[b.serial], none, by simp [refusal, hs]⟩

/-! ### What keeps operations refusing -/

lemma started_map_bare (ls : List Layer) : Started (ls.map bare) ↔ Started ls := by
  induction ls with
  | nil => rfl
  | cons l rest ih => cases l <;> simp [bare, Started, ih]

lemma Started.of_bare (h : Started ls) (hls : ls'.map bare = ls.map bare) : Started ls' := by
  rwa [← started_map_bare, hls, started_map_bare]

lemma started_append_of_descends (ho : ∀ l ∈ outer, l.descends = true) :
    Started (outer ++ inner) ↔ Started inner := by
  induction outer with
  | nil => rfl
  | cons l outer ih =>
    obtain ⟨hl, houter⟩ := List.forall_mem_cons.1 ho
    cases l with
    | either k which => exact ih houter
    | bind b =>
      have hs : b.storage = .predecessor := by simpa [descends] using hl
      simpa [Started, hs] using ih houter
    | _ => simp [descends] at hl

lemma Started.take (h : Started ls) (n : Nat) : Started (ls.take n) := by
  induction ls generalizing n with
  | nil => simp
  | cons l rest ih =>
    cases n with
    | zero => exact started_nil
    | succ n =>
      cases l with
      | either k which => exact ih h n
      | bind b => exact fun hs => ih (h hs) n
      | _ => exact h

/-- Another operation at a height is started as well, with all inside it, if it is by itself as soon
as the one before was. -/
lemma Started.replace (h : Started (base ++ ls)) (hls : Started ls → Started ls') :
    Started (base ++ ls') := by
  induction base with
  | nil => exact hls h
  | cons l base ih =>
    cases l with
    | either k which => exact ih h
    | bind b => exact fun hs => ih (h hs)
    | _ => exact h

lemma Releases.started (h : l.Releases l') (rest : List Layer) : Started (l' :: rest) := by
  cases h <;> rfl

lemma Started.rebind (h : Started (base ++ .bind b :: rest)) (hs : b'.storage = b.storage) :
    Started (base ++ .bind b' :: rest) :=
  h.replace fun hb hs' => hb (hs ▸ hs')

/-- A binding operation that has begun its handoff refuses whatever is inside it. -/
lemma Started.seal (h : Started (base ++ ls)) (hs : b.storage ≠ .predecessor)
    (more : List Layer) : Started (base ++ .bind b :: more) :=
  h.replace fun _ hs' => absurd hs' hs

end Layer

open Layer (Started refusal)

/-! ### Once a place has been started -/

namespace Config

/-- A place is not about to be cleared. -/
def Spared (p : Int) (c : Config) : Prop := c.control ≠ .call (.clear p)

/-- A place holds operations, and no guard is to take them all down. -/
structure Occupied (p : Int) (c : Config) : Prop where
  layers_ne : c.world.layers (.place p) ≠ []
  unguarded : .guard (.place p) 0 ∉ c.stack

/-- The operations of a place refuse to be started, whatever is about to be laid down among them. -/
structure Barred (p : Int) (c : Config) : Prop where
  started : Started (c.world.layers (.place p))
  connecting {x : Sender} {r : Receiver} {h : Nat} (hc : c.control = .connect x r (.place p) h)
    (hh : (c.world.layers (.place p)).length ≤ h) (more : List Layer) :
    Started (c.world.layers (.place p) ++ more)

/-- The first start of a place is being passed on inwards. -/
def PassesOn (p : Int) (c : Config) : Prop :=
  ∃ outer inner, c.control = .start (.place p) outer.length ∧ outer ≠ [] ∧
    c.world.layers (.place p) = outer ++ inner ∧ ∀ l ∈ outer, l.descends = true

variable {p : Int} {c c' d e : Config} {w w' : World} {K : List Frame} {s : Site}
  {outer inner : List Layer}

lemma Barred.of_started (h : Started (c.world.layers (.place p)))
    (hc : c.control.fills (.place p) = false) : c.Barred p := by
  refine ⟨h, ?_⟩
  intro x r h' hc'
  simp [hc', fills_connect] at hc

/-- A place stays occupied until it is cleared. -/
lemma Occupied.move (h : c.Occupied p) (hm : c.Moves c') (hclear : c.Spared p) :
    c'.Occupied p := by
  have hidles (hi : c.Idles (.place p) c') : .guard (.place p) 0 ∉ c'.stack := fun hmem =>
    h.unguarded (hi.minded hmem (by simp [Frame.minds]))
  cases hm.touches (.place p) with
  | like hc hw hi => exact ⟨hw.layers_ne h.layers_ne, hidles hi⟩
  | asked hc hs hw hc' hK => exact ⟨hw.layers_ne h.layers_ne, hK ▸ h.unguarded⟩
  | released hc hl hl' hn hr hi => exact ⟨by simp [hl'], hidles hi⟩
  | spent hl hl' hn hr hc hc' hi => exact ⟨by simp [hl'], hidles hi⟩
  | settled hc hK hl hl' hn hc' hi => exact ⟨by simp [hl'], hidles hi⟩
  | accepted hc hb hl hl' hn hc' hK => exact ⟨by simp [hl'], by simpa [hK] using h.unguarded⟩
  | called hc hl hl' hn hc' hK =>
    refine ⟨fun hnil => ?_, hK ▸ h.unguarded⟩
    simp [hnil] at hl'
  | missed hc hb hw hi => exact ⟨hw.layers_ne h.layers_ne, hidles hi⟩
  | built hc hl hf hl' hn hc' hK =>
    refine ⟨fun hnil => ?_, hK ▸ h.unguarded⟩
    simp [hnil] at hl'
  | filled hc hh hx hl' hn hc' hK => exact ⟨by simp [hl'], hK ▸ h.unguarded⟩
  | @nested x y r r' height l hc hh hx hy hl' hn hc' hK =>
    refine ⟨by simp [hl'], fun hmem => ?_⟩
    rw [hK, List.mem_cons] at hmem
    rcases hmem with heq | hmem
    · obtain rfl : 0 = height := by simpa using heq
      exact h.layers_ne (List.length_eq_zero_iff.1 (Nat.le_zero.1 hh))
    · exact h.unguarded hmem
  | refused hc hw hc' hK => exact ⟨hw.layers_ne h.layers_ne, hK ▸ h.unguarded⟩
  | delivered hc hx hw hc' hi => exact ⟨hw.layers_ne h.layers_ne, hidles hi⟩
  | @cut height hl' hn hc hi =>
    refine ⟨?_, hidles hi⟩
    cases hc with
    | guard _ hguard =>
      have hpos : height ≠ 0 := by
        rintro rfl
        exact h.unguarded hguard
      rw [hl', ne_eq, List.take_eq_nil_iff]
      exact not_or.2 ⟨hpos, h.layers_ne⟩
    | clear hcall hs =>
      obtain rfl := Site.place.inj hs
      exact absurd hcall hclear
    | unblocked _ hs => cases hs
  | blocked hc hs => cases hs

/-- What refuses to be started again goes on to do so. -/
lemma Barred.move (h : c.Barred p) (ho : c.Occupied p) (hm : c.Moves c') : c'.Barred p := by
  have hraised (hc' : ∃ m, c'.control = .raised m) :
      c'.control.fills (.place p) = false := by
    obtain ⟨m, hm⟩ := hc'
    rw [hm]
    rfl
  cases hm.touches (.place p) with
  | like hc hw hi => exact .of_started (h.started.of_bare hw.layers_eq) hi.fills_eq
  | asked hc hs hw hc' hK =>
    -- the place is occupied, so that nothing will be laid down at its bottom
    refine ⟨h.started.of_bare hw.layers_eq, fun {y r' height} hc'' hh => ?_⟩
    rw [hc', Control.connect.injEq] at hc''
    rw [← hc''.2.2.2, Nat.le_zero, List.length_eq_zero_iff] at hh
    exact absurd hh (hw.layers_ne ho.layers_ne)
  | released hc hl hl' hn hr hi =>
    refine .of_started ?_ hi.fills_eq
    rw [hl']
    exact (hl ▸ h.started).replace fun _ => hr.started _
  | spent hl hl' hn hr hc hc' hi =>
    refine .of_started ?_ hi.fills_eq
    rw [hl']
    exact (hl ▸ h.started).rebind (Binding.storage_spend _)
  | settled hc hK hl hl' hn hc' hi =>
    refine .of_started ?_ hi.fills_eq
    rw [hl']
    exact (hl ▸ h.started).rebind (Binding.storage_settle _)
  | accepted hc hb hl hl' hn hc' hK =>
    refine ⟨?_, fun hc'' => ?_⟩
    · rw [hl']
      exact (hl ▸ h.started).seal (by simp) []
    · rcases hc' with hc' | ⟨m, hc'⟩ <;> simp [hc'] at hc''
  | called hc hl hl' hn hc' hK =>
    refine .of_started (Started.of_bare ?_ hl') (hraised hc')
    exact (hl ▸ h.started).rebind (Binding.storage_call _)
  | missed hc hb hw hi => exact .of_started (h.started.of_bare hw.layers_eq) hi.fills_eq
  | @built base rest b f next env hc hl hf hl' hn hc' hK =>
    have hseal (more : List Layer) : Started (base ++ .bind b.call.emplace :: more) :=
      (hl ▸ h.started).seal (by simp) more
    refine ⟨(hseal rest).of_bare hl', fun _ _ more => (hseal (rest ++ more)).of_bare ?_⟩
    rw [List.map_append, hl', ← List.map_append, List.append_assoc, List.cons_append]
  | filled hc hh hx hl' hn hc' hK =>
    refine .of_started (hl' ▸ h.connecting hc hh _) ?_
    rcases hc' with ⟨a, hc'⟩ | ⟨m, hc'⟩ <;> simp [hc', Control.fills]
  | nested hc hh hx hy hl' hn hc' hK =>
    refine ⟨hl' ▸ h.connecting hc hh _, fun _ _ more => ?_⟩
    rw [hl', List.append_assoc]
    exact h.connecting hc hh _
  | refused hc hw hc' hK => exact .of_started (h.started.of_bare hw.layers_eq) (hraised hc')
  | delivered hc hx hw hc' hi => exact .of_started (h.started.of_bare hw.layers_eq) hi.fills_eq
  | cut hl' hn hc hi => exact .of_started (hl' ▸ h.started.take _) hi.fills_eq
  | blocked hc hs => cases hs

/-! ### The first start -/

/-- A leaf that lets go of its receiver refuses to be started again. -/
lemma started_release {l l' : Layer} (hl : w.layers s = outer ++ l :: inner)
    (ho : ∀ l ∈ outer, l.descends = true) (hr : l.Releases l') (acts : List Act)
    (hp : w'.places = ((w.note s acts).setLayer s outer.length l').places) :
    Started (w'.layers s) := by
  have hl₁ : (w.note s acts).layers s = outer ++ l :: inner := hl
  have hl' : w'.layers s = outer ++ l' :: inner := by
    rw [← World.layers_setLayer hl₁ l', World.layers, World.place, hp]
    rfl
  rw [hl', Layer.started_append_of_descends ho]
  exact hr.started inner

/-- A start is passed on inwards, or leaves operations behind that refuse another. -/
lemma start_cases (hl : w.layers s = outer ++ inner) (ho : ∀ l ∈ outer, l.descends = true) :
    (Started ((start w s outer.length K).world.layers s) ∧
      (start w s outer.length K).control.fills s = false) ∨
    ∃ l inner', inner = l :: inner' ∧ l.descends = true ∧
      (start w s outer.length K).control = .start s (outer.length + 1) ∧
      (start w s outer.length K).world.layers s = w.layers s := by
  have hstarted (h : Started inner) : Started (w.layers s) := by
    rwa [hl, Layer.started_append_of_descends ho]
  cases inner with
  | nil =>
    have hget : (w.layers s)[outer.length]? = none := by simp [hl]
    simp only [start, hget]
    exact .inl ⟨hstarted trivial, rfl⟩
  | cons l inner =>
    have hget : (w.layers s)[outer.length]? = some l := by simp [hl]
    cases l with
    | ready k held =>
      cases held with
      | none =>
        simp only [start, hget]
        exact .inl ⟨hstarted rfl, rfl⟩
      | some held =>
        simp only [start, hget]
        refine .inl ⟨started_release hl ho (.ready k held) [] ?_, rfl⟩
        rw [World.note_nil]
    | leaf k y held =>
      cases held with
      | none =>
        simp only [start, hget]
        exact .inl ⟨hstarted rfl, rfl⟩
      | some r =>
        simp only [start, hget]
        have hidles := idles_startLeaf s w
          ((w.note s [.started y.label]).setLayer s outer.length (.leaf k y none)) (.start s 0) K
          y r s
        refine .inl ⟨?_, hidles.1.fills_eq⟩
        exact started_release hl ho (.leaf k y r) [.started y.label] hidles.2
    | script k x held =>
      cases held with
      | none =>
        simp only [start, hget]
        exact .inl ⟨hstarted rfl, rfl⟩
      | some r =>
        simp only [start, hget]
        exact .inl ⟨started_release hl ho (.script k x r) [.started x.label] rfl, rfl⟩
    | either k which =>
      have hstart : start w s outer.length K = ⟨w, .start s (outer.length + 1), K⟩ := by
        simp [start, hget]
      rw [hstart]
      exact .inr ⟨_, inner, rfl, rfl, rfl, rfl⟩
    | bind b =>
      by_cases hs : b.storage = .predecessor
      · have hstart : start w s outer.length K =
            ⟨w.note s [.logged b.serial .starting], .start s (outer.length + 1), K⟩ := by
          simp [start, hget, hs]
        rw [hstart]
        exact .inr ⟨_, inner, rfl, by simpa [Layer.descends] using hs, rfl, rfl⟩
      · simp only [start, hget, hs, if_false]
        exact .inl ⟨hstarted fun hs' => absurd hs' hs, rfl⟩

/-- One step of the first start. -/
lemma barred_or_passesOn (hc : c.control = .start (.place p) outer.length)
    (hl : c.world.layers (.place p) = outer ++ inner) (ho : ∀ l ∈ outer, l.descends = true)
    (hm : c.Moves c') : c'.Barred p ∨ c'.PassesOn p := by
  obtain ⟨w, control, K⟩ := c
  obtain rfl : control = .start (.place p) outer.length := hc
  obtain rfl : start w (.place p) outer.length K = c' := Option.some.inj hm
  have hl : w.layers (.place p) = outer ++ inner := hl
  rcases start_cases (K := K) hl ho with ⟨hstarted, hconnects⟩ |
    ⟨l, inner', rfl, hdesc, hcontrol, hlayers⟩
  · exact .inl (.of_started hstarted hconnects)
  · refine .inr ⟨outer ++ [l], inner', by simp [hcontrol], by simp, by simp [hlayers, hl], ?_⟩
    intro x hx
    rcases List.mem_append.1 hx with hx | hx
    · exact ho x hx
    · rwa [List.mem_singleton.1 hx]

/-- What is so from the first start of a place on, until it is cleared. -/
lemma Since.barred {ps : List Parcel} (hd : d.Occupied p) (hd' : d.Barred p ∨ d.PassesOn p)
    (h : Since (Spared p) d ps e) :
    e.Occupied p ∧ (e.Barred p ∨ e.PassesOn p) := by
  refine h.keeps (I := fun c => c.Occupied p ∧ (c.Barred p ∨ c.PassesOn p)) ⟨hd, hd'⟩ ?_ ?_
  · rintro c c' ⟨ho, hb | ⟨outer, inner, hc, -, hl, hdesc⟩⟩ hclear hm
    · exact ⟨ho.move hm hclear, .inl (hb.move ho hm)⟩
    · exact ⟨ho.move hm hclear, barred_or_passesOn hc hl hdesc hm⟩
  · rintro c x ⟨ho, hb⟩ hf
    refine ⟨⟨ho.layers_ne, by simp⟩, .inl ?_⟩
    rcases hb with hb | ⟨outer, inner, hc, -⟩
    · exact .of_started hb.started rfl
    · obtain ⟨w, control, K⟩ := c
      obtain rfl : control = .start (.place p) outer.length := hc
      cases hf

/-! ### A start that is refused -/

/-- A start that is refused is recorded and raises a payload, and does nothing else. -/
lemma leads_start_refused (hl : w.layers (.place p) ≠ []) (h : Started (w.layers (.place p)))
    (K : List Frame) :
    Leads ⟨w, .call (.start p), K⟩ []
      ⟨w.note (.place p) (refusal (w.layers (.place p))).acts,
        .raised (refusal (w.layers (.place p))).fault.payload, K⟩ := by
  obtain ⟨n, hw⟩ := World.exists_holds_of_layers_ne hl
  have hrestart := @leads_restart (.place p) _ h w [] n [] K
  rw [List.nil_append, World.after_self hw] at hrestart
  have hnote (acts : List Act) :
      w.note (.place p) acts = w.after (.place p) (w.layers (.place p)) n acts := by
    conv_lhs => rw [← World.after_self hw, World.note_after, List.nil_append]
  rw [hnote]
  exact (World.Rests.leads_call_start hw K).append_quiet hrestart

end Config

namespace World

variable {w : World} {s : Site} {x : Call} {acts : List Act} {m : Payload} {n : Nat}

/-- A call that only adds to the record does so each time that it is made. -/
lemma serve_replicate (hcall : w.call n x = (w.note s acts, .raised m))
    (hgifts : Config.gifts n ⟨w, .call x, []⟩ = []) (k : Nat) :
    w.episodes n (List.replicate k x) = List.replicate k ⟨x, .raised m, []⟩ ∧
      w.serve n (List.replicate k x) =
        w.telling (w.events ++ (List.replicate k acts).flatten.map (Event.mk (some s))) := by
  induction k with
  | zero => simp [episodes, serve, telling]
  | succ k ih =>
    have hnote : w.note s acts = w.telling (w.events ++ acts.map (Event.mk (some s))) := rfl
    obtain ⟨hepisodes, es, hevents, hserve⟩ :=
      exists_serve_telling w (w.events ++ acts.map (Event.mk (some s))) n (List.replicate k x)
    obtain rfl : es = (List.replicate k acts).flatten.map (Event.mk (some s)) := by
      rw [ih.2] at hevents
      exact List.append_cancel_left hevents.symm
    constructor
    · rw [List.replicate_succ, List.replicate_succ, episodes, episode, hcall, hgifts, hnote,
        hepisodes, ih.1]
    · rw [List.replicate_succ, serve, hcall, hnote, hserve, ih.2]
      simp [telling, List.replicate_succ]

end World

/-! ### A connect that succeeds -/

namespace Config

/-- A patient sender is being connected in a place, or has been, or that has failed. -/
inductive Settles (p : Int) : Config → Prop where
  | connecting {w : World} {x : Sender} {r : Receiver} {h : Nat} {K : List Frame}
      (hx : x.Patient) (hK : ∀ f ∈ K, ∃ j, f = .guard (.place p) j) :
      Settles p ⟨w, .connect x r (.place p) h, K⟩
  | connected {w : World} {a : Reply} {K : List Frame} (hl : w.layers (.place p) ≠ [])
      (hK : ∀ f ∈ K, ∃ j, f = .guard (.place p) j) : Settles p ⟨w, .done a, K⟩
  | failed {w : World} {m : Payload} {K : List Frame}
      (hK : ∀ f ∈ K, ∃ j, f = .guard (.place p) j) : Settles p ⟨w, .raised m, K⟩

variable {p : Int} {c c' d e : Config} {w w₀ : World}

lemma Settles.move (h : c.Settles p) (hm : c.Moves c') : c'.Settles p := by
  cases h with
  | @connecting w x r h K hx hK =>
    obtain ⟨w', control', K'⟩ := c'
    have hfail (hc' : ∃ m, control' = .raised m) (hK' : K' = K) :
        Settles p ⟨w', control', K'⟩ := by
      obtain ⟨m, rfl⟩ := hc'
      subst hK'
      exact .failed hK
    cases hm.touches (.place p) with
    | filled hc hh hx hl' hn hc' hK' =>
      rcases hc' with ⟨a, rfl⟩ | hc'
      · obtain rfl : K' = K := hK'
        refine .connected ?_ hK
        simp [show w'.layers (.place p) = _ from hl']
      · exact hfail hc' hK'
    | nested hc hh hx' hy hl' hn hc' hK' =>
      obtain ⟨rfl, rfl, -, rfl⟩ := Control.connect.inj hc
      obtain rfl : control' = _ := hc'
      obtain rfl : K' = _ := hK'
      exact .connecting (hy.patient hx) (List.forall_mem_cons.2 ⟨⟨_, rfl⟩, hK⟩)
    | refused hc hw hc' hK' => exact hfail hc' hK'
    | delivered hc hx' hw hc' hi =>
      obtain ⟨rfl, -⟩ := Control.connect.inj hc
      exact absurd hx' (hx _ _)
    | like hc hw hi => simp [fills_connect] at hc
    | spent hl hl' hn hr hc hc' hi => simp at hc
    | settled hc hK' hl hl' hn hc' hi => simp at hc
    | cut hl' hn hc hi =>
      have hfills := hc.fills_eq
      simp [fills_connect] at hfills
    | _ => contradiction
  | @connected w a K hl hK =>
    cases K with
    | nil => cases hm
    | cons f K =>
      obtain ⟨⟨j, rfl⟩, hrest⟩ := List.forall_mem_cons.1 hK
      obtain rfl := Option.some.inj hm
      exact .connected hl hrest
  | @failed w m K hK =>
    cases K with
    | nil => cases hm
    | cons f K =>
      obtain ⟨⟨j, rfl⟩, hrest⟩ := List.forall_mem_cons.1 hK
      obtain rfl := Option.some.inj hm
      exact .failed hrest

/-- A connect that succeeds leaves its place occupied. -/
lemma layers_ne_of_connect {x : Sender} {r : Receiver} {ps : List Parcel} {K : List Frame}
    (hx : x.Patient)
    (h : Leads ⟨w, .call (.connect p x r), []⟩ ps ⟨w₀, .done .nothing, K⟩) :
    w₀.layers (.place p) ≠ [] := by
  have hsettles {c : Config} {ps : List Parcel} (h : Leads c ps ⟨w₀, .done .nothing, K⟩)
      (hc : c.Settles p) : w₀.layers (.place p) ≠ [] := by
    generalize hd : (⟨w₀, .done .nothing, K⟩ : Config) = d at h
    induction h with
    | refl =>
      subst hd
      cases hc with
      | connected hl => exact hl
    | step hm _ ih => exact ih (hc.move hm) hd
  have hrefused {w' : World} {why : String} {ps : List Parcel}
      (h : Leads ⟨w', .done (.refused why), []⟩ ps ⟨w₀, .done .nothing, K⟩) :
      w₀.layers (.place p) ≠ [] := by
    cases h with
    | step hm _ => cases hm
  cases h with
  | step hm h =>
    obtain rfl := Option.some.inj hm
    simp only [call, connectPlace] at h
    split at h
    · exact hsettles h (.connecting hx (by simp))
    · split_ifs at h
      · exact hsettles h (.connecting hx (by simp))
      · exact hrefused h

/-- A sender has been connected in a place, and then that was started for the first time, be it by a
host or by a final receiver that makes calls. At any moment after that, until the place is cleared
and unless a start is just being passed on, starting it again raises a payload and does nothing else
than to add to the record, where it only logs its way and journals at most one more start of a leaf.
However often a host makes such a start, this is all that comes of it, and its later calls go as
they would have gone without. -/
theorem restart_changes_nothing {x : Sender} {r : Receiver} {ps₀ ps₁ ps₂ : List Parcel}
    {K : List Frame} (hx : x.Patient)
    (hconnect : Leads ⟨w, .call (.connect p x r), []⟩ ps₀ ⟨w₀, .done .nothing, []⟩)
    (hK : .guard (.place p) 0 ∉ K)
    (hbefore : Since (Spared p) ⟨w₀, .done .nothing, K⟩ ps₁ c)
    (hc : c.control = .start (.place p) 0) (hm : c.Moves d)
    (hafter : Since (Spared p) d ps₂ e)
    (he : ∀ h, e.control ≠ .start (.place p) (h + 1)) :
    ∃ (ks : List Nat) (label : Option String) (f : Fault),
      let acts := ks.map (Act.logged · .starting) ++ label.toList.map Act.started
      (∀ K, Leads ⟨e.world, .call (.start p), K⟩ []
        ⟨e.world.note (.place p) acts, .raised f.payload, K⟩) ∧
      ∃ n₀, ∀ n, n₀ ≤ n → ∀ k,
        let again := List.replicate k (Call.start p)
        let es := e.world.events ++
          (List.replicate k acts).flatten.map (Event.mk (some (.place p)))
        e.world.episodes n again = List.replicate k ⟨.start p, .raised f.payload, []⟩ ∧
        e.world.serve n again = e.world.telling es ∧
        ∀ m cs, (e.world.serve n again).episodes m cs = e.world.episodes m cs ∧
          ∃ es', (e.world.serve m cs).events = e.world.events ++ es' ∧
            (e.world.serve n again).serve m cs = (e.world.serve m cs).telling (es ++ es') := by
  have hoccupied : c.Occupied p := by
    refine hbefore.keeps ⟨layers_ne_of_connect hx hconnect, hK⟩ ?_ ?_
    · intro c c' ho hclear hm
      exact ho.move hm hclear
    · intro c x ho _
      exact ⟨ho.layers_ne, by simp⟩
  have hfirst : d.Barred p ∨ d.PassesOn p :=
    @barred_or_passesOn p c d [] _ hc rfl (by simp) hm
  obtain ⟨ho, hbarred | ⟨outer, inner, hpassed, hne, -⟩⟩ :=
    Since.barred (hoccupied.move hm (by simp [Spared, hc])) hfirst hafter
  · obtain ⟨ks, label, hacts⟩ := Layer.exists_refusal_eq (e.world.layers (.place p))
    refine ⟨ks, label, (refusal (e.world.layers (.place p))).fault, ?_⟩
    rw [← hacts]
    have hleads := leads_start_refused ho.layers_ne hbarred.started
    obtain ⟨n₀, hend⟩ := (hleads []).eventually rfl
    refine ⟨hleads, n₀, fun n hn k => ?_⟩
    obtain ⟨hrun, hgifts⟩ := hend n hn
    have hcall : e.world.call n (.start p) =
        (e.world.note (.place p) (refusal (e.world.layers (.place p))).acts,
          .raised (refusal (e.world.layers (.place p))).fault.payload) := by
      rw [World.call, hrun]
      rfl
    obtain ⟨hepisodes, hserve⟩ := World.serve_replicate hcall hgifts k
    refine ⟨hepisodes, hserve, fun m cs => ?_⟩
    rw [hserve]
    exact World.exists_serve_telling e.world _ m cs
  · obtain ⟨h, hlen⟩ := Nat.exists_eq_succ_of_ne_zero
      (fun hnil => hne (List.length_eq_zero_iff.1 hnil))
    rw [hlen] at hpassed
    exact absurd hpassed (he h)

/-- A binding of a leaf that completes from a task, and a final receiver for it. -/
def deferredOnce : Sender × Receiver :=
  (.bind (.leaf { label := "pred", completion := .value { n := 1 }, deferred := true })
    { label := some "f", call := fun env => { env } } fun _ => .ready .done,
    .recorder (.place 0) none)

/-- The binding is connected. -/
def deferredConnect : Config :=
  .run 4 ⟨{}, .call (.connect 0 deferredOnce.1 deferredOnce.2), []⟩

/-- The binding is started. -/
def deferredStart (n : Nat) : Config := .run n ⟨deferredConnect.world, .call (.start 0), []⟩

/-- The leaf completes, and the successor is started and completes. -/
def deferredTick (n : Nat) : Config := .run n ⟨(deferredStart 3).world, .call .tick, []⟩

theorem restart_changes_nothing_handed_over :
    ∃ (ks : List Nat) (label : Option String) (f : Fault),
      let w := (deferredTick 10).world
      let acts := ks.map (Act.logged · .starting) ++ label.toList.map Act.started
      (∀ K, Leads ⟨w, .call (.start 0), K⟩ [] ⟨w.note (.place 0) acts, .raised f.payload, K⟩) ∧
      ∃ n₀, ∀ n, n₀ ≤ n → ∀ k,
        let again := List.replicate k (Call.start 0)
        let es := w.events ++ (List.replicate k acts).flatten.map (Event.mk (some (.place 0)))
        w.episodes n again = List.replicate k ⟨.start 0, .raised f.payload, []⟩ ∧
        w.serve n again = w.telling es ∧
        ∀ m cs, (w.serve n again).episodes m cs = w.episodes m cs ∧
          ∃ es', (w.serve m cs).events = w.events ++ es' ∧
            (w.serve n again).serve m cs = (w.serve m cs).telling (es ++ es') := by
  have hstart (k : Nat) (hk : k < 3) : (deferredStart k).Spared 0 := by
    interval_cases k <;> exact nofun
  have htick (k : Nat) (hk : k < 10) : (deferredTick k).Spared 0 := by
    interval_cases k <;> exact nofun
  have hdone : (Config.mk deferredConnect.world (.done .nothing) []).IsFinal := rfl
  have hbefore : Since (Spared 0)
      ⟨deferredConnect.world, .done .nothing, []⟩ _ (deferredStart 1) :=
    ((Since.refl _).next hdone (.start 0)).move (hstart 0 (by omega)) rfl
  have hrest : Since (Spared 0) (deferredStart 2) _ (deferredStart 3) :=
    (Since.refl _).move (hstart 2 (by omega)) rfl
  have hlast : Since (Spared 0) (deferredTick 0) _ (deferredTick 10) := since_run 10 _ htick
  have hafter : Since (Spared 0) (deferredStart 2) _ (deferredTick 10) :=
    (hrest.next (by rfl) .tick).trans hlast
  have hpatient : deferredOnce.1.Patient := ⟨trivial, fun _ => trivial⟩
  have hconnect : Leads ⟨{}, .call (.connect 0 deferredOnce.1 deferredOnce.2), []⟩ _
      ⟨deferredConnect.world, .done .nothing, []⟩ := leads_run 4 _
  exact restart_changes_nothing hpatient hconnect (by simp) hbefore rfl rfl hafter
    (by exact nofun)

end Config

end Handoff
