import Handoff.Proofs.Holding.Handover
import Handoff.Proofs.Lifetime.Moves

/-!
# Strides

Amid a connect or a handoff the operations of a site do not fit together, and there is no need to
say what they are like: such a stretch of moves always ends. `Config.Poised` are the configurations
outside of them, and a stride leads from one of these to the next. Besides keeping the world orderly
a stride leaves alone what is live, unless it gives a completion to the final receiver or clears the
place (`Config.Attends`). Both are proved together, for one function of the machine after another.
-/

namespace Handoff

open Machine
open Layer (Fitting Whole Conveys)

/-! ### Poised configurations -/

/-- What stands at a height of a site is no half-built child. -/
def World.Startable (w : World) (s : Site) (h : Nat) : Prop :=
  ∀ base l rest, w.layers s = base ++ l :: rest → base.length = h → Whole base

/-- What is done next is neither amid a connect nor amid a handoff, and no script comes of it. -/
def Control.Poised (w : World) : Control → Prop
  | connect _ _ _ _ => False
  | start s h => w.Startable s h
  | complete r _ => r.Unscripted
  | build _ _ => False
  | react _ _ actions => Action.UnscriptedAll actions
  | follow _ _ => False
  | call c => c.Unscripted
  | task t => t.Unscripted
  | done _ => True
  | raised _ => True

/-- What is done later is neither the end of a connect nor of a handoff, and no script comes of
it. -/
def Frame.Poised : Frame → Prop
  | guard _ _ => False
  | handoff _ _ => False
  | script _ _ => False
  | attempt _ _ => False
  | acting _ _ _ rest => Action.UnscriptedAll rest
  | _ => True

namespace Config

/-- An orderly world, outside of connects and handoffs. -/
structure Poised (c : Config) : Prop where
  world : c.world.Orderly
  control : c.control.Poised c.world
  stack : ∀ f ∈ c.stack, f.Poised

end Config

/-- The receiver that is completed next. -/
def Control.due : Control → Option Receiver
  | complete r _ => some r
  | task (.complete _ r) => some r
  | _ => none

namespace Config

/-- All that stands at a site is live, or its next completion is under way to the final receiver. -/
def Attends (s : Site) (o : Receiver) (c : Config) : Prop :=
  c.world.Live s o ∨ ∃ r, c.control.due = some r ∧ c.world.Through s o r

/-- Where no receiver is about to be completed, what is attended to is live. -/
lemma Attends.live {c : Config} {s : Site} {o : Receiver} (h : c.Attends s o)
    (hdue : c.control.due = none) : c.world.Live s o := by
  obtain h | ⟨r, hr, -⟩ := h
  · exact h
  · simp [hdue] at hr

/-- A numbered place that was attended to still is. The frame of a blocked caller is none: a caller
that blocks within another overwrites it. -/
def Retains (c c' : Config) : Prop :=
  ∀ p o, c.Attends (.place p) o → c'.Attends (.place p) o

/-- Once the machine has moved from a configuration to another, it gets to a poised one. In the
meantime a numbered place has gone on as it was, if it was not to be cleared, or its final receiver
was given a completion. -/
def Strides (c d : Config) : Prop :=
  ∃ ps c', d.Leads ps c' ∧ c'.Poised ∧ ∀ p o, c.control ≠ .call (.clear p) →
    c.Attends (.place p) o → c'.Attends (.place p) o ∨ ∃ g ∈ c.given ++ ps, g.1 = o

variable {c d : Config}

lemma strides_of_poised (hd : d.Poised) (h : c.Retains d) : c.Strides d :=
  ⟨[], d, .refl d, hd, fun p o _ hp => .inl (h p o hp)⟩

/-- A machine that gives nothing to final receivers until it is poised again. -/
lemma strides_of_leads {c' : Config} (h : c.Leads [] c') (hd : c.Moves d)
    (hne : c.control ≠ c'.control) (hc' : c'.Poised) (hs : c.Retains c') : c.Strides d := by
  generalize hps : ([] : List Parcel) = ps at h
  cases h with
  | refl => exact absurd rfl hne
  | @step _ d' _ ps hd' h =>
    obtain rfl := hd.unique hd'
    exact ⟨ps, c', h, hc', fun p o _ hp => .inl (hs p o hp)⟩

end Config

/-! ### Worlds that are passed through -/

namespace World

/-- A world is orderly and has what was live at numbered places in another. -/
structure Leaves (w w' : World) : Prop where
  orderly : w'.Orderly
  live : ∀ p o, w.Live (.place p) o → w'.Live (.place p) o

variable {w w' w'' : World} {s : Site} {o : Receiver} {base rest : List Layer} {l l' : Layer}

lemma Leaves.refl (hw : w.Orderly) : w.Leaves w := ⟨hw, fun _ _ h => h⟩

lemma Leaves.trans (h : w.Leaves w') (h' : w'.Leaves w'') : w.Leaves w'' :=
  ⟨h'.orderly, fun p o hp => h'.live p o (h.live p o hp)⟩

/-- What does not touch the operations, and takes no task away. -/
lemma Leaves.of_eq (hw : w'.Orderly) (hl : ∀ s, w'.layers s = w.layers s)
    (hq : ∀ t ∈ w.queue, t ∈ w'.queue) : w.Leaves w' :=
  ⟨hw, fun p _ h => h.of_eq (hl (.place p)) hq⟩

lemma Leaves.congr (hw : w.Orderly) (hl : ∀ s, w'.layers s = w.layers s)
    (hq : w'.queue = w.queue) : w.Leaves w' :=
  .of_eq (hw.congr hl hq) hl fun _ ht => hq ▸ ht

lemma Leaves.note (hw : w.Orderly) (s : Site) (acts : List Act) : w.Leaves (w.note s acts) :=
  .congr hw (fun _ => rfl) rfl

lemma Leaves.schedule (hw : w.Orderly) {t : Task} (ht : t.Unscripted) : w.Leaves (w.schedule t) :=
  .of_eq (hw.schedule ht) (fun _ => rfl) (by simp +contextual)

lemma layers_dropAbove_of_ne {s' : Site} (hs : s' ≠ s) (h : Nat) (unwinding : Bool) :
    (w.dropAbove s h unwinding).1.layers s' = w.layers s' := by
  simp [dropAbove, layers_setLayers_of_ne hs]

/-- All operations of a site are dropped. -/
lemma Orderly.vacated (hw : w.Orderly) (s : Site) (unwinding : Bool) :
    (w.dropAbove s 0 unwinding).1.Orderly := by
  have hlayers (s' : Site) : (w.dropAbove s 0 unwinding).1.layers s' = [] ∨
      (w.dropAbove s 0 unwinding).1.layers s' = w.layers s' := by
    by_cases hs : s' = s
    · exact .inl (by simp [hs, layers_dropAbove])
    · exact .inr (layers_dropAbove_of_ne hs 0 unwinding)
  refine ⟨fun s' l hl => ?_, fun s' => ?_, hw.queue⟩
  · obtain hs | hs := hlayers s'
    · simp [hs] at hl
    · exact hw.layers s' l (hs ▸ hl)
  · obtain hs | hs := hlayers s'
    · simp [hs]
    · exact hs ▸ hw.fitting s'

/-- The frame of a blocked caller is dropped. -/
lemma Leaves.vacated (hw : w.Orderly) (unwinding : Bool) :
    w.Leaves (w.dropAbove .wait 0 unwinding).1 where
  orderly := hw.vacated .wait unwinding
  live p _ h := h.of_eq (layers_dropAbove_of_ne (by simp) 0 unwinding) fun _ ht => ht

lemma exists_layers_of_getElem? {h : Nat} (hl : (w.layers s)[h]? = some l) :
    ∃ base rest, w.layers s = base ++ l :: rest ∧ base.length = h := by
  obtain ⟨hlt, rfl⟩ := List.getElem?_eq_some_iff.1 hl
  refine ⟨(w.layers s).take h, (w.layers s).drop (h + 1), ?_, by simp; omega⟩
  rw [← List.drop_eq_getElem_cons hlt, List.take_append_drop]

lemma setLayer_eq_after (hl : w.layers s = base ++ l :: rest) (l' : Layer) :
    w.setLayer s base.length l' = w.after s (base ++ l' :: rest) (w.nextSerial s) [] := by
  simp [setLayer, setLayers_eq_after, hl]

/-- An operation is changed, but not what is inside it. -/
lemma Orderly.replaced (hw : w.Orderly) (hl : w.layers s = base ++ l :: rest) (hl' : l'.Unscripted)
    (hfits : l'.Fits rest) (hhalf : Layer.HalfBuilt (l :: rest) → Whole base) (n : Nat)
    (acts : List Act) : (w.after s (base ++ l' :: rest) n acts).Orderly := by
  have hls := hw.layers s
  have hfit := hw.fitting s
  rw [hl] at hls hfit
  exact hw.after n acts (Layer.unscripted_replace hls hl')
    (hfit.replace ⟨hfits, hfit.of_append.2⟩ hhalf)

lemma layers_after_of_ne {s' : Site} (hs : s' ≠ s) {ls : List Layer} {n : Nat} {acts : List Act} :
    (w.after s ls n acts).layers s' = w.layers s' :=
  layers_put_of_ne _ hs

lemma Live.after_of_ne {s' : Site} (h : w.Live s' o) (hs : s' ≠ s) (ls : List Layer) (n : Nat)
    (acts : List Act) : (w.after s ls n acts).Live s' o :=
  h.of_eq (layers_after_of_ne hs) fun _ ht => ht

end World

namespace Machine

open Config (Strides)
open World (Leaves)

variable {w w' : World} {control control' : Control} {K K' : List Frame} {s : Site} {h : Nat}
  {base rest : List Layer} {l l' : Layer}

/-- A move that completes no receiver, now or next. -/
lemma strides_quiet (hdue : control.due = none) (hw : w.Leaves w') (hc : control'.Poised w')
    (hK : ∀ f ∈ K', f.Poised) : Strides ⟨w, control, K⟩ ⟨w', control', K'⟩ :=
  Config.strides_of_poised ⟨hw.orderly, hc, hK⟩ fun p o hp => .inl (hw.live p o (hp.live hdue))

lemma strides_finishOr (hdue : control.due = none) (hw : w.Leaves w') (hK : ∀ f ∈ K', f.Poised)
    (m : Option Payload) : Strides ⟨w, control, K⟩ (finishOr w' m K') := by
  cases m <;> exact strides_quiet hdue hw trivial hK

lemma poised_cons {f : Frame} (hf : f.Poised) (hK : ∀ f ∈ K, f.Poised) :
    ∀ f' ∈ f :: K, f'.Poised :=
  List.forall_mem_cons.2 ⟨hf, hK⟩

lemma startable_zero (w : World) (s : Site) : w.Startable s 0 := by
  intro base l rest _ hbase
  obtain rfl : base = [] := List.length_eq_zero_iff.1 hbase
  exact Layer.whole_nil

/-! ### Returning and unwinding -/

section Stack

variable (hw : w.Orderly) (hK : ∀ f ∈ K, f.Poised)

include hw hK

lemma strides_unblock (hdue : control.due = none) : Strides ⟨w, control, K'⟩ (unblock w K) := by
  have hleft (unwinding : Bool) : w.Leaves (w.dropAbove .wait 0 unwinding).1.leave :=
    (Leaves.vacated hw unwinding).trans
      (.congr (Leaves.vacated hw unwinding).orderly (fun _ => rfl) rfl)
  unfold unblock
  split
  · exact strides_quiet hdue (hleft true) trivial hK
  · simp only [release]
    split
    next w' p hdrop =>
      obtain rfl : (w.dropAbove .wait 0 false).1 = w' := congrArg Prod.fst hdrop
      exact strides_quiet hdue (hleft false) trivial hK
    next w' hdrop =>
      obtain rfl : (w.dropAbove .wait 0 false).1 = w' := congrArg Prod.fst hdrop
      exact strides_quiet hdue ((hleft false).trans (.note (hleft false).orderly _ _)) trivial hK

lemma strides_abandon (hdue : control.due = none) : Strides ⟨w, control, K'⟩ (abandon w K) := by
  unfold abandon
  split
  · exact strides_quiet hdue (.refl hw) trivial hK
  · have hnoted := Leaves.note hw .wait [.remark "abandoned"]
    exact strides_finishOr hdue (hnoted.trans (.vacated hnoted.orderly _)) hK _

lemma strides_resume {f : Frame} (hf : f.Poised) (r : Reply) :
    Strides ⟨w, .done r, f :: K⟩ (resume w r f K) := by
  cases f with
  | guard s h => exact hf.elim
  | handoff s h => exact hf.elim
  | script x rest => exact hf.elim
  | attempt x rest => exact hf.elim
  | thenRaise p => exact strides_finishOr rfl (.refl hw) hK p
  | discard s c => exact strides_quiet rfl (.note hw _ _) trivial hK
  | settle home c waiting => exact strides_quiet rfl (.note hw _ _) trivial hK
  | acting home label step rest => exact strides_quiet rfl (.note hw _ _) hf hK
  | answer a => exact strides_quiet rfl (.refl hw) trivial hK
  | draining => exact strides_quiet rfl (.refl hw) trivial hK
  | waitConnected =>
    exact strides_quiet rfl (.refl hw) (startable_zero w .wait) (poised_cons trivial hK)
  | waitStarted => exact strides_quiet rfl (.refl hw) trivial (poised_cons trivial hK)
  | waitDrained => exact strides_abandon hw hK rfl
  | waitOver => exact strides_unblock hw hK rfl

lemma strides_unwind {f : Frame} (hf : f.Poised) (m : Payload) :
    Strides ⟨w, .raised m, f :: K⟩ (unwind w m f K) := by
  cases f with
  | guard s h => exact hf.elim
  | handoff s h => exact hf.elim
  | script x rest => exact hf.elim
  | attempt x rest => exact hf.elim
  | discard s c => exact strides_quiet rfl (.note hw _ _) trivial hK
  | settle home c waiting => exact strides_quiet rfl (.note hw _ _) trivial hK
  | waitOver =>
    have hleft := Leaves.vacated hw true
    exact strides_quiet rfl (hleft.trans (.congr hleft.orderly (fun _ => rfl) rfl)) trivial hK
  | _ => exact strides_quiet rfl (.refl hw) trivial hK

lemma strides_react (home : Site) (label : String) {actions : List Action}
    (ha : Action.UnscriptedAll actions) :
    Strides ⟨w, .react home label actions, K⟩ (react w home label actions K) := by
  cases actions with
  | nil => exact strides_quiet rfl (.refl hw) trivial hK
  | cons a rest =>
    cases a with
    | raise p => exact strides_quiet rfl (.refl hw) trivial hK
    | log text => exact strides_quiet rfl (.note hw _ _) ha.2 hK
    | step st =>
      exact strides_quiet rfl (.refl hw) (Step.unscripted_call ha.1) (poised_cons ha.2 hK)

end Stack

/-! ### Starting -/

lemma startable_succ (hl : w.layers s = base ++ l :: rest)
    (hb : ∀ b, l = .bind b → b.cleanup ≠ .values) : w.Startable s (base.length + 1) := by
  intro base' l' rest' hl' hlength pre b hpre
  have hsplit : (base ++ [l]) ++ rest = base' ++ l' :: rest' := by
    rw [← hl', hl, List.append_assoc, List.singleton_append]
  have hbase : base ++ [l] = pre ++ [.bind b] :=
    (List.append_inj_left hsplit (by simp [hlength])).trans hpre
  obtain ⟨-, hlast⟩ := List.append_inj' hbase rfl
  exact hb b (by simpa using hlast)

/-- A leaf that stands innermost in a site ends the line there. -/
lemma live_leaf {o : Receiver} (hl : w.layers s = base ++ [l]) (h : w.Live s o) :
    o.Ends s ∧ ∃ y r, Conveys o s base y r ∧ l.Owes w.queue r := by
  obtain ⟨ho, base', l', y, r, hlayers, hbase, howes⟩ := h
  obtain ⟨rfl, hlast⟩ := List.append_inj' (hlayers.symm.trans hl) rfl
  obtain rfl : l' = l := by simpa using hlast
  exact ⟨ho, y, r, hbase, howes⟩

/-- A leaf that stands innermost gives its receiver away. -/
lemma strides_given {r : Receiver} (hw : w.Orderly) (hK : ∀ f ∈ K', f.Poised)
    (hl : w.layers s = base ++ [l]) (howes : ∀ r', l.Owes w.queue r' → r' = r)
    (hr : r.Unscripted) (hl' : l'.Unscripted) (hfits : l'.Fits [])
    (hhalf : Layer.HalfBuilt [l] → Whole base) (n : Nat) (acts : List Act)
    (c : Completion Value Failure) :
    Strides ⟨w, .start s base.length, K⟩
      ⟨w.after s (base ++ [l']) n acts, .complete r c, K'⟩ := by
  refine Config.strides_of_poised ⟨hw.replaced hl hl' hfits hhalf n acts, hr, hK⟩ fun p o hp => ?_
  have hlive := hp.live rfl
  by_cases hs : .place p = s
  · subst hs
    obtain ⟨ho, y, r', hbase, hr'⟩ := live_leaf hl hlive
    obtain rfl := howes r' hr'
    exact .inr ⟨r', rfl, ho, base, [l'], y, by simp, hbase⟩
  · exact .inl (hlive.after_of_ne hs _ _ _)

/-- A leaf that stands innermost gives its receiver to a task, and ends the line as before. -/
lemma strides_deferred {k : Nat} {y : Leaf} {r : Receiver} (hw : w.Orderly)
    (hK : ∀ f ∈ K, f.Poised) (hl : w.layers s = base ++ [l])
    (howes : ∀ r', l.Owes w.queue r' → r' = r) (hr : r.Unscripted)
    (hspent : (Layer.leaf k y none).Unscripted) (hhalf : Layer.HalfBuilt [l] → Whole base) (n : Nat)
    (acts : List Act) :
    Strides ⟨w, .start s base.length, K⟩
      (finish ((w.after s (base ++ [.leaf k y none]) n acts).schedule
        (.complete y.completion r)) K) := by
  have horderly := hw.replaced hl hspent rfl hhalf n acts
  refine strides_quiet rfl ⟨horderly.schedule hr, fun p o h => ?_⟩ trivial hK
  by_cases hs : .place p = s
  · subst hs
    obtain ⟨ho, x, r', hbase, hr'⟩ := live_leaf hl h
    obtain rfl := howes r' hr'
    exact ⟨ho, base, .leaf k y none, x, r', by simp, hbase, .inr ⟨rfl, by simp⟩⟩
  · exact (h.after_of_ne hs _ n acts).of_eq rfl (by simp +contextual)

/-- A leaf is started that has its receiver. It gives the receiver away, to be completed at once or
by a task. -/
lemma strides_startLeaf (hw : w.Orderly) (hK : ∀ f ∈ K, f.Poised) {k : Nat} {y : Leaf}
    {r : Receiver} (hl : w.layers s = base ++ [.leaf k y (some r)]) (hwhole : Whole base) :
    Strides ⟨w, .start s base.length, K⟩
      (startLeaf ((w.note s [.started y.label]).setLayer s base.length (.leaf k y none)) y r s
        K) := by
  have hr : r.Unscripted :=
    (hw.layers s (.leaf k y (some r)) (by simp [hl])).receiver r rfl
  have hspent : (Layer.leaf k y none).Unscripted :=
    .of_kind_ne (by simp [Layer.kind]) (by simp [Layer.kind]) (by simp [Layer.receiver?])
  have howes : ∀ r', (Layer.leaf k y (some r)).Owes w.queue r' → r' = r := by
    rintro r' (h | ⟨h, -⟩)
    · simpa using h.symm
    · simp at h
  have hcompletes (n : Nat) (acts : List Act) (c : Completion Value Failure) {K' : List Frame}
      (hK' : ∀ f ∈ K', f.Poised) :
      Strides ⟨w, .start s base.length, K⟩
        ⟨w.after s (base ++ [.leaf k y none]) n acts, .complete r c, K'⟩ :=
    strides_given hw hK' hl howes hr hspent rfl (fun _ => hwhole) n acts c
  have hgo (n : Nat) (acts : List Act) (w' : World)
      (hw' : w' = w.after s (base ++ [.leaf k y none]) n acts) :
      Strides ⟨w, .start s base.length, K⟩
      (if w'.isStopped r then
        ⟨w'.note s [.gaveUp y.label], .complete r .done, .discard s y.completion :: K⟩
      else if y.deferred then finish (w'.schedule (.complete y.completion r)) K
      else ⟨w', .complete r y.completion, K⟩) := by
    subst hw'
    split_ifs
    · rw [World.note_after]
      exact hcompletes _ _ _ (poised_cons trivial hK)
    · exact strides_deferred hw hK hl howes hr hspent (fun _ => hwhole) n acts
    · exact hcompletes n acts _ hK
  have hset : (w.note s [.started y.label]).setLayer s base.length (.leaf k y none) =
      w.after s (base ++ [.leaf k y none]) (w.nextSerial s) [.started y.label] := by
    rw [World.setLayer_eq_after (w := w.note s [.started y.label]) hl, World.after_note]
    rfl
  rw [startLeaf, hset]
  exact hgo _ _ _ World.note_after

lemma strides_start (hw : w.Orderly) (hK : ∀ f ∈ K, f.Poised) (hstart : w.Startable s h) :
    Strides ⟨w, .start s h, K⟩ (start w s h K) := by
  unfold start
  cases hget : (w.layers s)[h]? with
  | none => exact strides_quiet rfl (.refl hw) trivial hK
  | some l =>
    obtain ⟨base, rest, hl, rfl⟩ := World.exists_layers_of_getElem? hget
    have hwhole := hstart base l rest hl rfl
    have hfits : l.Fits rest := by
      have := hw.fitting s
      rw [hl] at this
      exact this.fits
    cases l with
    | ready k held =>
      obtain rfl : rest = [] := hfits
      cases held with
      | none => exact strides_quiet rfl (.refl hw) trivial hK
      | some x =>
        obtain ⟨c, r⟩ := x
        dsimp only
        rw [World.setLayer_eq_after hl]
        have hspent : (Layer.ready k none).Unscripted :=
          .of_kind_ne (by simp [Layer.kind]) (by simp [Layer.kind]) (by simp [Layer.receiver?])
        refine strides_given hw hK hl ?_ ?_ hspent rfl ?_ _ _ c
        · rintro r' ⟨c', h⟩
          obtain ⟨-, rfl⟩ : c = c' ∧ r = r' := by simpa using h
          rfl
        · exact (hw.layers s (.ready k (some (c, r))) (by simp [hl])).receiver r rfl
        · rintro ⟨k', y, r', h⟩
          simp at h
    | leaf k y held =>
      cases held with
      | none => exact strides_quiet rfl (.note hw _ _) trivial hK
      | some r =>
        obtain rfl : rest = [] := hfits
        exact strides_startLeaf hw hK hl hwhole
    | script k y held =>
      exact absurd rfl (hw.layers s (.script k y held) (hl ▸ by simp)).kind_ne
    | either k which =>
      exact strides_quiet rfl (.refl hw) (startable_succ hl (by simp)) hK
    | bind b =>
      dsimp only
      split_ifs with hs
      · refine strides_quiet rfl (.note hw _ _) (startable_succ hl fun b' hb hc => ?_) hK
        obtain rfl : b = b' := by simpa using hb
        obtain ⟨hvacant, -⟩ | ⟨hsuccessor, -⟩ := (hfits.values hc).2.2.2
        · simp [hs] at hvacant
        · simp [hs] at hsuccessor
      · exact strides_quiet rfl (.note hw _ _) trivial hK

end Machine

end Handoff
