import Handoff.Machine
import Handoff.Proofs.Separation.Belonging

/-!
# Moves on behalf of one place

While a call of one place is carried out, each move of the machine minds that place only, and what
is under way goes on to belong to it: `Config.stays_next`. Nor does a move see anything but that
place: made in the world restricted to the place, it comes to the same (`Config.only_next`). Both
are put together from one lemma for each function of the machine.
-/

namespace Handoff

section Belongs

variable (ks : Sources) (p : Int)

/-- What is done next belongs to a place. -/
def Control.Belongs : Control → Prop
  | connect x r s _ => x.Scriptless ∧ r.Belongs ks p ∧ s = .place p
  | start s _ => s = .place p
  | complete r _ => r.Belongs ks p
  | build s _ => s = .place p
  | react home _ actions => home = .place p ∧ ∀ a ∈ actions, a.isStep = false
  | follow _ _ => False
  | call _ => False
  | task t => t.Belongs ks p
  | done _ => True
  | raised _ => True

/-- What is done later belongs to a place. -/
def Frame.Belongs : Frame → Prop
  | guard s _ => s = .place p
  | handoff s _ => s = .place p
  | discard s _ => s = .place p
  | settle home _ _ => home = .place p
  | thenRaise _ => True
  | answer _ => True
  | _ => False

/-- A configuration that a move on behalf of a place may lead to from a world. -/
structure Config.Stays (w : World) (c : Config) : Prop where
  minds : w.Minds ks p c.world
  control : c.control.Belongs ks p
  stack : ∀ f ∈ c.stack, f.Belongs p

end Belongs

/-- The configuration with the world restricted to a site. -/
def Config.only (s : Site) (ks : List Int) (c : Config) : Config :=
  { c with world := c.world.only s ks }

@[simp] lemma Config.only_mk (s : Site) (ks : List Int) (w : World) (x : Control)
    (K : List Frame) : Config.only s ks ⟨w, x, K⟩ = ⟨w.only s ks, x, K⟩ := rfl

@[simp] lemma Config.only_only (s : Site) (ks : List Int) (c : Config) :
    (c.only s ks).only s ks = c.only s ks := by
  simp [only]

namespace Machine

open World (Minds)

/-! ### A move stays with its place -/

section Stays

variable {ks : Sources} {p : Int} {w w' : World} {h : Nat} {r : Receiver} {K : List Frame}

lemma stays_cons {f : Frame} (hf : f.Belongs p) (hK : ∀ f ∈ K, f.Belongs p) :
    ∀ f' ∈ f :: K, f'.Belongs p :=
  List.forall_mem_cons.2 ⟨hf, hK⟩

variable (hK : ∀ f ∈ K, f.Belongs p)

include hK

lemma stays_finishOr (hm : Minds ks p w w') (raised : Option Payload) :
    (finishOr w' raised K).Stays ks p w := by
  cases raised <;> exact ⟨hm, trivial, hK⟩

lemma stays_connectLeaf (hm : Minds ks p w w') {make : Nat → Layer}
    (hmake : ∀ k, (make k).Belongs ks p) (after : Option Payload) :
    (connectLeaf w' (.place p) h make after K).Stays ks p w := by
  have hfill := hm.fill h hmake
  revert hfill
  unfold connectLeaf
  rcases w'.fill (.place p) h make with ⟨w'', _ | _⟩
  · exact fun hfill => ⟨hfill, trivial, hK⟩
  · exact fun hfill => stays_finishOr hK hfill after

lemma stays_connect (hw : w.Divided ks) {x : Sender} (hx : x.Scriptless)
    (hr : r.Belongs ks p) : (connect w x r (.place p) h K).Stays ks p w := by
  have hm : Minds ks p w w := .refl hw
  cases x with
  | ready c =>
    refine stays_connectLeaf hK hm (fun k => ⟨by simp [Layer.kind], ?_, by simp⟩) none
    simpa [Layer.receiver?] using hr
  | leaf l =>
    refine stays_connectLeaf hK (hm.note _) (fun k => ⟨by simp [Layer.kind], ?_, by simp⟩) none
    simpa [Layer.receiver?] using hr
  | exploding built =>
    cases built with
    | none => exact ⟨hm.note _, trivial, hK⟩
    | some label =>
      refine stays_connectLeaf hK (hm.note _) (fun k => ⟨by simp [Layer.kind], ?_, by simp⟩) _
      simpa [Layer.receiver?] using hr
  | script s => exact hx.elim
  | either which x =>
    have hmake (k : Nat) : (Layer.either k which).Belongs ks p :=
      ⟨by simp [Layer.kind], by simp [Layer.receiver?], by simp⟩
    have hfill := hm.fill h hmake
    revert hfill
    simp only [connect]
    rcases w.fill (.place p) h (.either · which) with ⟨w', _ | _⟩
    · exact fun hfill => ⟨hfill.note _, trivial, hK⟩
    · exact fun hfill => ⟨hfill, ⟨hx, hr, rfl⟩, stays_cons rfl hK⟩
  | bind x f next =>
    have hmake (k : Nat) : (newBinding f next r k).Belongs ks p := by
      refine ⟨by simp [newBinding, Layer.kind], ?_, ?_⟩
      · simpa [newBinding, Layer.receiver?] using hr
      · rintro b ⟨rfl⟩ f' next' ⟨rfl⟩
        exact hx.2
    have hfill := (hm.note [.logged (w.nextSerial (.place p)) .connecting]).fill h hmake
    revert hfill
    simp only [connect]
    rcases World.fill _ (.place p) h (newBinding f next r) with ⟨w', _ | _⟩
    · exact fun hfill => ⟨hfill.note _, trivial, hK⟩
    · exact fun hfill => ⟨hfill, ⟨hx.1, .child _ _, rfl⟩, stays_cons rfl hK⟩

lemma stays_startLeaf (hm : Minds ks p w w') (hr : r.Belongs ks p) (l : Leaf) :
    (startLeaf w' l r (.place p) K).Stays ks p w := by
  simp only [startLeaf]
  generalize (if l.inspecting then _ else _ : List Act) = acts
  split_ifs
  · exact ⟨(hm.note _).note _, hr, stays_cons rfl hK⟩
  · exact ⟨(hm.note _).schedule hr, trivial, hK⟩
  · exact ⟨hm.note _, hr, hK⟩

lemma stays_start (hw : w.Divided ks) : (start w (.place p) h K).Stays ks p w := by
  have hm : Minds ks p w w := .refl hw
  unfold start
  split
  · exact ⟨hm, trivial, hK⟩
  · exact ⟨hm, trivial, hK⟩
  · next k c r hl =>
    have hl := hw.layers p _ (List.mem_of_getElem? hl)
    refine ⟨hm.setLayer h ⟨by simp [Layer.kind], by simp [Layer.receiver?], by simp⟩, ?_, hK⟩
    exact hl.receiver r rfl
  · exact ⟨hm.note _, trivial, hK⟩
  · next k l r hl =>
    have hl := hw.layers p _ (List.mem_of_getElem? hl)
    refine stays_startLeaf hK ((hm.note _).setLayer h ?_) (hl.receiver r rfl) l
    exact ⟨by simp [Layer.kind], by simp [Layer.receiver?], by simp⟩
  · exact ⟨hm.note _, trivial, hK⟩
  · next hl => exact absurd rfl (hw.layers p _ (List.mem_of_getElem? hl)).kind_ne
  · exact ⟨hm, rfl, hK⟩
  · split
    · exact ⟨hm.note _, rfl, hK⟩
    · exact ⟨hm.note _, trivial, hK⟩

lemma stays_pass (hm : Minds ks p w w') {b : Binding} (hb : (Layer.bind b).Belongs ks p)
    (c : Completion Value Failure) : (pass w' (.place p) h b c K).Stays ks p w := by
  unfold pass
  split
  · next r hr =>
    exact ⟨hm.setBinding h (hb.of_bind (by simp) (by simp)), hb.receiver r hr, hK⟩
  · exact ⟨hm.note _, trivial, hK⟩

lemma stays_accept (hm : Minds ks p w w') {b : Binding} (hb : (Layer.bind b).Belongs ks p)
    (v : Value) : (accept w' (.place p) h b v K).Stays ks p w := by
  have hstored : (Layer.bind (b.store v)).Belongs ks p := hb.of_bind (by simp) (by simp)
  refine ⟨?_, ?_, stays_cons rfl hK⟩
  · exact ((hm.setBinding h hstored).dropAbove _ _).setBinding h
      (hstored.of_bind (by simp) (by simp))
  · simp only [accept]
    cases (World.dropAbove _ _ _ _).2
    · rfl
    · trivial

lemma stays_receive (hm : Minds ks p w w') {b : Binding} (hb : (Layer.bind b).Belongs ks p)
    (role : Role) (c : Completion Value Failure) :
    (receive w' role (.place p) h b c K).Stays ks p w := by
  cases role with
  | predecessor =>
    cases c with
    | value v => exact stays_accept hK (hm.note _) hb v
    | error e => exact stays_pass hK (hm.note _) hb _
    | done => exact stays_pass hK (hm.note _) hb _
  | successor => exact stays_pass hK hm hb _

lemma stays_build (hw : w.Divided ks) : (build w (.place p) h K).Stays ks p w := by
  have hm : Minds ks p w w := .refl hw
  unfold build
  split
  · exact ⟨hm, trivial, hK⟩
  · next b hb =>
    have hb := hw.binding hb
    have hcalled : (Layer.bind b.call).Belongs ks p := hb.of_bind (by simp) (by simp)
    split
    · exact ⟨hm.setBinding h hcalled, trivial, hK⟩
    · next f next hf =>
      have hrestored (env : Env) : (Layer.bind (b.call.restore env)).Belongs ks p :=
        hcalled.of_bind (by simp) (by simp)
      simp only
      split
      · exact ⟨((hm.note _).setScope h _).setBinding h (hrestored _), trivial, hK⟩
      · refine ⟨(((hm.note _).setScope h _).note _).setBinding h ?_, ?_, hK⟩
        · exact (hrestored (f.call (b.stored ++ w.scope (.place p) h)).env).of_bind
            (by simp) (by simp)
        · exact ⟨hb.factory b rfl f next hf _, .child _ _, rfl⟩

lemma stays_complete (hw : w.Divided ks) (hr : r.Belongs ks p)
    (c : Completion Value Failure) : (complete w r c K).Stays ks p w := by
  have hm : Minds ks p w w := .refl hw
  cases r with
  | child role s i =>
    obtain rfl : s = .place p := by simpa [Receiver.site] using hr.site_eq
    simp only [complete]
    split
    · exact ⟨hm.note _, trivial, hK⟩
    · next b hb =>
      split_ifs
      · exact stays_receive hK hm (hw.binding hb) role c
      · exact ⟨hm.note _, trivial, hK⟩
  | observer home o =>
    obtain rfl : home = .place p := by simpa [Receiver.site] using hr.site_eq
    exact ⟨hm.note _, ⟨rfl, hr.calm rfl⟩, stays_cons rfl hK⟩
  | recorder home k => exact ⟨hm.recorded _, trivial, hK⟩
  | waiter id => exact absurd hr.site_eq (by simp [Receiver.site])

lemma stays_react (hw : w.Divided ks) (label : String) {actions : List Action}
    (ha : ∀ a ∈ actions, a.isStep = false) :
    (react w (.place p) label actions K).Stays ks p w := by
  have hm : Minds ks p w w := .refl hw
  cases actions with
  | nil => exact ⟨hm, trivial, hK⟩
  | cons a rest =>
    obtain ⟨hhead, htail⟩ := List.forall_mem_cons.1 ha
    cases a with
    | step s => simp [Action.isStep] at hhead
    | raise m => exact ⟨hm, trivial, hK⟩
    | log s => exact ⟨hm.note _, ⟨rfl, htail⟩, hK⟩

lemma stays_resume (hw : w.Divided ks) (answer : Reply) {f : Frame} (hf : f.Belongs p) :
    (resume w answer f K).Stays ks p w := by
  have hm : Minds ks p w w := .refl hw
  cases f with
  | guard s i => exact ⟨hm, trivial, hK⟩
  | handoff s i =>
    obtain rfl : s = .place p := hf
    simp only [resume]
    split
    · exact ⟨hm, trivial, hK⟩
    · next b hb =>
      exact ⟨hm.setBinding i ((hw.binding hb).of_bind (by simp) (by simp)), rfl, hK⟩
  | discard s c =>
    obtain rfl : s = .place p := hf
    exact ⟨hm.note _, trivial, hK⟩
  | settle home c waiting =>
    obtain rfl : home = .place p := hf
    exact ⟨hm.note _, trivial, hK⟩
  | thenRaise m => exact stays_finishOr hK hm m
  | answer a => exact ⟨hm, trivial, hK⟩
  | _ => exact hf.elim

lemma stays_unwind (hw : w.Divided ks) (m : Payload) {f : Frame} (hf : f.Belongs p) :
    (unwind w m f K).Stays ks p w := by
  have hm : Minds ks p w w := .refl hw
  cases f with
  | guard s i =>
    obtain rfl : s = .place p := hf
    exact ⟨hm.dropAbove i true, trivial, hK⟩
  | handoff s i =>
    obtain rfl : s = .place p := hf
    simp only [unwind]
    split
    · exact ⟨hm, trivial, hK⟩
    · next b hb => exact stays_pass hK (hm.note _) (hw.binding hb) _
  | discard s c =>
    obtain rfl : s = .place p := hf
    exact ⟨hm.note _, trivial, hK⟩
  | settle home c waiting =>
    obtain rfl : home = .place p := hf
    exact ⟨hm.note _, trivial, hK⟩
  | thenRaise m => exact ⟨hm, trivial, hK⟩
  | answer a => exact ⟨hm, trivial, hK⟩
  | _ => exact hf.elim

end Stays

/-! ### A move sees its place only -/

section Only

variable {s : Site} {js : List Int} {w : World} {h : Nat} {K : List Frame}

@[simp] lemma only_finish : (finish w K).only s js = finish (w.only s js) K := rfl

@[simp] lemma only_fault (f : Fault) : (fault w f K).only s js = fault (w.only s js) f K := rfl

@[simp] lemma only_finishOr (raised : Option Payload) :
    (finishOr w raised K).only s js = finishOr (w.only s js) raised K := by
  cases raised <;> rfl

lemma connectLeaf_only (make : Nat → Layer) (after : Option Payload) :
    connectLeaf (w.only s js) s h make after K = (connectLeaf w s h make after K).only s js := by
  unfold connectLeaf
  rw [World.fill_only]
  rcases w.fill s h make with ⟨w', _ | _⟩ <;> simp

lemma connect_only {x : Sender} (hx : x.Scriptless) (r : Receiver) :
    connect (w.only s js) x r s h K = (connect w x r s h K).only s js := by
  cases x with
  | ready c => exact connectLeaf_only _ _
  | leaf l => simp only [connect, ← World.only_note, connectLeaf_only]
  | exploding built =>
    cases built with
    | none => simp [connect]
    | some label => simp only [connect, ← World.only_note, connectLeaf_only]
  | script x => exact hx.elim
  | either which x =>
    simp only [connect, World.fill_only]
    rcases w.fill s h (.either · which) with ⟨w', _ | _⟩ <;> simp
  | bind x f next =>
    simp only [connect, World.nextSerial_only, ← World.only_note, World.fill_only]
    rcases World.fill _ s h (newBinding f next r) with ⟨w', _ | _⟩ <;> simp

lemma startLeaf_only (l : Leaf) {r : Receiver} (hr : r.site = some s)
    (hk : ∀ k, w.stopOf r = some k → k ∈ js) :
    startLeaf (w.only s js) l r s K = (startLeaf w l r s K).only s js := by
  simp only [startLeaf, World.namesFrom_only hr]
  generalize (if l.inspecting then _ else _ : List Act) = acts
  have hk' : ∀ k, (w.note s acts).stopOf r = some k → k ∈ js := hk
  rw [← World.only_note, World.isStopped_only hr hk']
  split_ifs
  · simp
  · simp [World.only_schedule (t := .complete l.completion r) hr]
  · simp

lemma pass_only (b : Binding) (c : Completion Value Failure) :
    pass (w.only s js) s h b c K = (pass w s h b c K).only s js := by
  unfold pass
  split <;> simp

lemma accept_only (b : Binding) (v : Value) :
    accept (w.only s js) s h b v K = (accept w s h b v K).only s js := by
  simp [accept, ← World.only_setBinding]

lemma receive_only (role : Role) (b : Binding) (c : Completion Value Failure) :
    receive (w.only s js) role s h b c K = (receive w role s h b c K).only s js := by
  unfold receive
  split <;> simp only [← World.only_note, accept_only, pass_only]

lemma build_only : build (w.only s js) s h K = (build w s h K).only s js := by
  simp only [build, World.binding?_only, World.scope_only]
  split
  · rfl
  · split
    · simp
    · split <;> simp

lemma react_only (label : String) (actions : List Action) :
    react (w.only s js) s label actions K = (react w s label actions K).only s js := by
  unfold react
  split <;> simp

end Only

section Local

variable {ks : Sources} {p : Int} {w : World} {h : Nat} {r : Receiver} {K : List Frame}

lemma start_only (hw : w.Divided ks) :
    start (w.only (.place p) (ks p)) (.place p) h K =
      (start w (.place p) h K).only (.place p) (ks p) := by
  simp only [start, World.layers_only]
  split
  · rfl
  · rfl
  · simp
  · simp
  · next k l r hl =>
    have hr := (hw.layers p _ (List.mem_of_getElem? hl)).receiver r rfl
    rw [← World.only_note, ← World.only_setLayer]
    refine startLeaf_only l hr.site_eq ?_
    refine World.Divided.stopOf_mem ?_ hr
    exact (((World.Minds.refl hw).note _).setLayer h
      ⟨by simp [Layer.kind], by simp [Layer.receiver?], by simp⟩).divided
  · simp
  · next hl => exact absurd rfl (hw.layers p _ (List.mem_of_getElem? hl)).kind_ne
  · rfl
  · split <;> simp

lemma complete_only (hr : r.Belongs ks p) (c : Completion Value Failure) :
    (complete (w.only (.place p) (ks p)) r c K).only (.place p) (ks p) =
      (complete w r c K).only (.place p) (ks p) := by
  cases r with
  | child role s i =>
    obtain rfl : s = .place p := by simpa [Receiver.site] using hr.site_eq
    simp only [complete, World.binding?_only]
    split
    · simp
    · split_ifs
      · rw [receive_only, Config.only_only]
      · simp
  | observer home o =>
    obtain rfl : home = .place p := by simpa [Receiver.site] using hr.site_eq
    simp [complete]
  | recorder home k => simp [complete, finish, World.only]
  | waiter id => exact absurd hr.site_eq (by simp [Receiver.site])

lemma resume_only (answer : Reply) {f : Frame} (hf : f.Belongs p) :
    resume (w.only (.place p) (ks p)) answer f K =
      (resume w answer f K).only (.place p) (ks p) := by
  cases f with
  | guard s i => rfl
  | handoff s i =>
    obtain rfl : s = .place p := hf
    simp only [resume, World.binding?_only]
    split <;> simp
  | discard s c =>
    obtain rfl : s = .place p := hf
    simp [resume]
  | settle home c waiting =>
    obtain rfl : home = .place p := hf
    simp [resume]
  | thenRaise m => simp [resume]
  | answer a => rfl
  | _ => exact hf.elim

lemma unwind_only (m : Payload) {f : Frame} (hf : f.Belongs p) :
    unwind (w.only (.place p) (ks p)) m f K =
      (unwind w m f K).only (.place p) (ks p) := by
  cases f with
  | guard s i =>
    obtain rfl : s = .place p := hf
    simp [unwind]
  | handoff s i =>
    obtain rfl : s = .place p := hf
    simp only [unwind, World.binding?_only]
    split
    · rfl
    · rw [← World.only_note, pass_only]
  | discard s c =>
    obtain rfl : s = .place p := hf
    simp [unwind]
  | settle home c waiting =>
    obtain rfl : home = .place p := hf
    simp [unwind]
  | thenRaise m => rfl
  | answer a => rfl
  | _ => exact hf.elim

end Local

end Machine

namespace Config

open Machine

variable {ks : Sources} {p : Int} {w : World} {c c' : Config}

/-- What belongs to a place leads to what belongs to it. -/
theorem Stays.next (h : c.Stays ks p w) (hm : c.Moves c') : c'.Stays ks p w := by
  suffices hnext : c'.Stays ks p c.world from
    ⟨h.minds.trans hnext.minds, hnext.control, hnext.stack⟩
  have hw := h.minds.divided
  obtain ⟨w', control, K⟩ := c
  have hcontrol : control.Belongs ks p := h.control
  have hK : ∀ f ∈ K, f.Belongs p := h.stack
  cases control with
  | connect x r s i =>
    obtain ⟨hx, hr, rfl⟩ := hcontrol
    obtain rfl : _ = c' := Option.some.inj hm
    exact stays_connect hK hw hx hr
  | start s i =>
    obtain rfl : s = .place p := hcontrol
    obtain rfl : _ = c' := Option.some.inj hm
    exact stays_start hK hw
  | complete r v =>
    obtain rfl : _ = c' := Option.some.inj hm
    exact stays_complete hK hw hcontrol v
  | build s i =>
    obtain rfl : s = .place p := hcontrol
    obtain rfl : _ = c' := Option.some.inj hm
    exact stays_build hK hw
  | react home label actions =>
    obtain ⟨rfl, ha⟩ := hcontrol
    obtain rfl : _ = c' := Option.some.inj hm
    exact stays_react hK hw label ha
  | task t =>
    cases t with
    | complete v r =>
      obtain rfl : _ = c' := Option.some.inj hm
      exact ⟨.refl hw, hcontrol, hK⟩
    | resume r steps => exact hcontrol.elim
    | job j => exact hcontrol.elim
  | done answer =>
    cases K with
    | nil => simp [Moves, Config.next] at hm
    | cons f K =>
      obtain ⟨hf, hK⟩ := List.forall_mem_cons.1 hK
      obtain rfl : _ = c' := Option.some.inj hm
      exact stays_resume hK hw answer hf
  | raised m =>
    cases K with
    | nil => simp [Moves, Config.next] at hm
    | cons f K =>
      obtain ⟨hf, hK⟩ := List.forall_mem_cons.1 hK
      obtain rfl : _ = c' := Option.some.inj hm
      exact stays_unwind hK hw m hf
  | follow r steps => exact hcontrol.elim
  | call x => exact hcontrol.elim

/-- A move on behalf of a place comes to the same in the world restricted to that place. -/
theorem Stays.next_only (h : c.Stays ks p w) :
    (c.only (.place p) (ks p)).next.map (Config.only (.place p) (ks p)) =
      c.next.map (Config.only (.place p) (ks p)) := by
  have hw := h.minds.divided
  obtain ⟨w', control, K⟩ := c
  have hcontrol : control.Belongs ks p := h.control
  have hK : ∀ f ∈ K, f.Belongs p := h.stack
  cases control with
  | connect x r s i =>
    obtain ⟨hx, hr, rfl⟩ := hcontrol
    simp [Config.next, connect_only hx]
  | start s i =>
    obtain rfl : s = .place p := hcontrol
    simp [Config.next, start_only hw]
  | complete r v => simp [Config.next, complete_only hcontrol]
  | build s i =>
    obtain rfl : s = .place p := hcontrol
    simp [Config.next, build_only]
  | react home label actions =>
    obtain ⟨rfl, ha⟩ := hcontrol
    simp [Config.next, react_only]
  | task t =>
    cases t with
    | complete v r => simp [Config.next, runTask]
    | resume r steps => exact hcontrol.elim
    | job j => exact hcontrol.elim
  | done answer =>
    cases K with
    | nil => rfl
    | cons f K =>
      obtain ⟨hf, hK⟩ := List.forall_mem_cons.1 hK
      simp [Config.next, resume_only answer hf]
  | raised m =>
    cases K with
    | nil => rfl
    | cons f K =>
      obtain ⟨hf, hK⟩ := List.forall_mem_cons.1 hK
      simp [Config.next, unwind_only m hf]
  | follow r steps => exact hcontrol.elim
  | call x => exact hcontrol.elim

end Config

end Handoff
