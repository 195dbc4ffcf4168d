import Handoff.Proofs.Lifetime.Ledger
import Handoff.Proofs.Site
import Mathlib.Data.List.Forall2

/-!
# The books of a place

The ledger of a place is read off the operations that stand there. Whatever is done to a place and
recorded is in order for that: `Place.Turns` is the relation, with one lemma for each of the things
that can be done. They rely on what is true of places at all times, `Place.Sound`: only the
innermost operation can be amid a handoff, so that nothing is lost when such an operation is
dropped, and there is no stored value before the handoff.
-/

namespace Handoff

/-! ### The ledger of a place -/

namespace Layer

/-- Whether a layer keeps a stored value. -/
def holds : Layer → Bool
  | bind b => b.value.isSome
  | _ => false

/-- What a binding operation owns at the moment. -/
def cleanup? : Layer → Option Cleanup
  | bind b => some b.cleanup
  | _ => none

/-- A layer as the record knows it. -/
def life (l : Layer) : Life := { serial := l.serial, holds := l.holds }

end Layer

/-- The ledger that the record of a place has led to. -/
def Place.ledger (q : Place) : Ledger := ⟨q.layers.map Layer.life, q.count⟩

/-- What is true of a place at all times. -/
structure Place.Sound (q : Place) : Prop where
  /-- Nothing stands inside an operation that is amid a handoff. -/
  settled : q.layers.Pairwise fun l _ => l.cleanup? ≠ some .invalid
  holds_eq : ∀ l ∈ q.layers, l.cleanup? = some .predecessor → l.holds = false
  serial_lt : ∀ l ∈ q.layers, l.serial < q.count

open Ledger (Takes)

/-- What is done to a place, and recorded, is in order. -/
def Place.Turns (q : Place) (acts : List Act) (q' : Place) : Prop :=
  q.Sound → q'.Sound ∧ Takes q.ledger acts q'.ledger

/-! ### Dropping -/

/-- Acts that do not matter to a ledger. -/
def Act.Unbooked (acts : List Act) : Prop := ∀ a ∈ acts, a.isBooked = false

namespace Act

@[simp] lemma unbooked_nil : Unbooked [] := by simp [Unbooked]

@[simp] lemma unbooked_cons (a : Act) (acts : List Act) :
    Unbooked (a :: acts) ↔ a.isBooked = false ∧ Unbooked acts := by
  simp [Unbooked]

@[simp] lemma unbooked_append (xs ys : List Act) :
    Unbooked (xs ++ ys) ↔ Unbooked xs ∧ Unbooked ys := by
  simp [Unbooked, or_imp, forall_and]

lemma unbooked_map {α : Type} (f : α → Act) (xs : List α) (h : ∀ x, (f x).isBooked = false) :
    Unbooked (xs.map f) := by
  simp [Unbooked, h]

end Act

open Act (Unbooked)

lemma unbooked_drop_value (v : Value) : Unbooked v.drop := by
  simp [Value.drop, Act.isBooked]

lemma unbooked_dropCarried (c : Completion Value Failure) : Unbooked (dropCarried c) := by
  cases c <;> simp [dropCarried, Completion.value?, unbooked_drop_value]

lemma unbooked_drop_receiver (r : Receiver) : Unbooked r.drop := by
  cases r with
  | observer home o => exact Act.unbooked_map _ _ fun _ => rfl
  | _ => exact Act.unbooked_nil

lemma unbooked_dropHeld (r : Option Receiver) : Unbooked (dropHeld r) := by
  cases r with
  | none => exact Act.unbooked_nil
  | some r => exact unbooked_drop_receiver r

lemma unbooked_drop_factory (f : Factory) : Unbooked f.drop := by
  cases hl : f.label <;> simp [Factory.drop, hl, Act.isBooked]

lemma unbooked_dropFactory (b : Binding) : Unbooked b.dropFactory := by
  cases hf : b.factory with
  | none => simp [Binding.dropFactory, hf]
  | some f => simpa [Binding.dropFactory, hf] using unbooked_drop_factory f.1

lemma unbooked_drop_sender (s : Sender) : Unbooked s.drop := by
  induction s with
  | ready c => exact unbooked_dropCarried c
  | leaf l => exact unbooked_dropCarried l.completion
  | exploding built => exact Act.unbooked_nil
  | script s => exact Act.unbooked_nil
  | either which s ih => exact ih
  | bind p f next ih _ => simp [Sender.drop, ih, unbooked_drop_factory]

/-- The drop of a layer that is no binding operation is that of its child, after something else. -/
lemma exists_drop_eq {l : Layer} (h : l.cleanup? = none) (unwinding : Bool) (env : Env)
    (child : Dropped) :
    ∃ acts, Unbooked acts ∧ (l.drop unwinding env child).acts = acts ++ child.acts := by
  cases l with
  | ready k held =>
    refine ⟨_, ?_, rfl⟩
    cases held <;> simp [unbooked_dropCarried, unbooked_drop_receiver]
  | leaf k l held =>
    refine ⟨.dropped l.label :: ((if held.isSome then dropCarried l.completion else []) ++
      dropHeld held), ?_, by simp [Layer.drop]⟩
    have : Unbooked (if held.isSome then dropCarried l.completion else []) := by
      split <;> simp [unbooked_dropCarried]
    simp [Act.isBooked, this, unbooked_dropHeld]
  | script k s held =>
    cases hp : s.peekOnDrop with
    | none =>
      exact ⟨.dropped s.label :: dropHeld held, by simp [Act.isBooked, unbooked_dropHeld],
        by simp [Layer.drop, hp]⟩
    | some d =>
      exact ⟨.droppedSeeing s.label env[d]? :: dropHeld held,
        by simp [Act.isBooked, unbooked_dropHeld], by simp [Layer.drop, hp]⟩
  | either k which => exact ⟨[], by simp, rfl⟩
  | bind b => simp [Layer.cleanup?] at h

lemma takes_dropValue (b : Binding) (below : List Life) (n : Nat) :
    Takes ⟨below ++ [{ (Layer.bind b).life with leaving := true }], n⟩ b.dropValue
      ⟨below ++ [{ (Layer.bind b).life with holds := false, leaving := true }], n⟩ := by
  cases hv : b.value with
  | none => simpa [Binding.dropValue, hv, Layer.life, Layer.holds] using Takes.nil _
  | some v =>
    have hreleased := Ledger.Posts.released below
      { (Layer.bind b).life with leaving := true } n (by simp [Layer.life, Layer.holds, hv]) rfl
    have hdrop : b.dropValue = v.drop ++ [.released b.serial] := by simp [Binding.dropValue, hv]
    rw [hdrop]
    exact (Takes.others _ (unbooked_drop_value v)).append (.single hreleased)

/-- The drop of a binding operation, from that of its child. -/
lemma takes_drop_binding (b : Binding) (below above : List Life) (n : Nat) (child : Dropped)
    (habove : b.cleanup = .invalid → above = [])
    (hchild : ∀ below, Takes ⟨below ++ above, n⟩ child.acts ⟨below, n⟩) :
    Takes ⟨below ++ (Layer.bind b).life :: above, n⟩ (b.drop child).acts
      ⟨below ++ [{ (Layer.bind b).life with holds := false, leaving := true }], n⟩ := by
  set x := (Layer.bind b).life with hx
  have hlog := Ledger.Posts.leaving below above x n b.cleanup
  have hhanded : Unbooked (b.dropFactory ++ dropHeld b.receiver) := by
    simp [unbooked_dropFactory, unbooked_dropHeld]
  have hvalue := takes_dropValue b below n
  have hinside := hchild (below ++ [{ x with leaving := true }])
  simp only [List.append_assoc, List.singleton_append] at hinside
  rw [Binding.drop]
  cases hc : b.cleanup with
  | invalid =>
    obtain rfl := habove hc
    rw [hc] at hlog
    have hmid : Act.isBooked (.logged b.serial .midHandoff) = false := rfl
    exact .cons hlog (.cons (.other _ _ hmid) ((Takes.others _ hhanded).append hvalue))
  | predecessor =>
    rw [hc] at hlog
    exact .cons hlog (hinside.append ((Takes.others _ hhanded).append hvalue))
  | values =>
    rw [hc] at hlog
    cases child.raised with
    | none => exact .cons hlog (hinside.append (hvalue.append (.others _ hhanded)))
    | some m => exact .cons hlog (hinside.append ((Takes.others _ hhanded).append hvalue))
  | successor =>
    rw [hc] at hlog
    cases child.raised with
    | none => exact .cons hlog (hinside.append (hvalue.append (.others _ hhanded)))
    | some m => exact .cons hlog (hinside.append ((Takes.others _ hhanded).append hvalue))

/-- Dropping operations closes each of them, from the inside. -/
lemma takes_dropAll {ls : List Layer}
    (hls : ls.Pairwise fun l _ => l.cleanup? ≠ some .invalid) (unwinding : Bool) (env : Env)
    (below : List Life) (n : Nat) :
    Takes ⟨below ++ ls.map Layer.life, n⟩ (Layer.dropAll unwinding env ls).acts ⟨below, n⟩ := by
  induction ls generalizing env below with
  | nil => simpa using Takes.nil _
  | cons l rest ih =>
    obtain ⟨hl, hrest⟩ := List.pairwise_cons.1 hls
    simp only [Layer.dropAll, List.map_cons]
    cases hc : l.cleanup? with
    | none =>
      obtain ⟨acts, hacts, hdrop⟩ :=
        exists_drop_eq hc unwinding env (Layer.dropAll unwinding (l.lent ++ env) rest)
      have hholds : l.life.holds = false := by
        cases l <;> simp_all [Layer.cleanup?, Layer.life, Layer.holds]
      have hinside := ih hrest (l.lent ++ env) (below ++ [l.life])
      simp only [List.append_assoc, List.singleton_append] at hinside
      rw [hdrop]
      exact ((Takes.others _ hacts).append hinside).append (.single (.closed below l.life n hholds))
    | some c =>
      cases l with
      | bind b =>
        have hinside (below : List Life) := ih hrest ((Layer.bind b).lent ++ env) below
        have habove : b.cleanup = .invalid → rest.map Layer.life = [] := by
          intro hb
          cases rest with
          | nil => rfl
          | cons l' rest => exact absurd (by rw [← hb]; rfl) (hl l' (by simp))
        exact (takes_drop_binding b below (rest.map Layer.life) n _ habove hinside).append
          (.single (.closed below _ n rfl))
      | _ => simp [Layer.cleanup?] at hc

/-! ### What can be done to a place -/

/-- A layer that is changed without a gain or a loss of a value, and not thrown into or back before
a handoff. -/
structure Layer.Alters (l l' : Layer) : Prop where
  serial_eq : l'.serial = l.serial
  holds_eq : l'.holds = l.holds
  invalid : l'.cleanup? = some .invalid → l.cleanup? = some .invalid
  predecessor : l'.cleanup? = some .predecessor → l.cleanup? = some .predecessor

lemma Layer.Alters.refl (l : Layer) : l.Alters l := ⟨rfl, rfl, id, id⟩

lemma Layer.Alters.life_eq {l l' : Layer} (h : l.Alters l') : l'.life = l.life := by
  simp [life, h.serial_eq, h.holds_eq]

lemma Layer.map_life_eq {ls ls' : List Layer} (h : List.Forall₂ Alters ls ls') :
    ls'.map life = ls.map life := by
  induction h with
  | nil => rfl
  | cons hl _ ih => simp [hl.life_eq, ih]

lemma Layer.exists_alters {ls ls' : List Layer} (h : List.Forall₂ Alters ls ls') :
    ∀ l' ∈ ls', ∃ l ∈ ls, l.Alters l' := by
  induction h with
  | nil => simp
  | cons hl _ ih =>
    simp only [List.mem_cons, forall_eq_or_imp, exists_eq_or_imp]
    exact ⟨.inl hl, fun l' hl' => .inr (ih l' hl')⟩

lemma Layer.settled_of_alters {ls ls' : List Layer} (h : List.Forall₂ Alters ls ls')
    (hls : ls.Pairwise fun l _ => l.cleanup? ≠ some .invalid) :
    ls'.Pairwise fun l _ => l.cleanup? ≠ some .invalid := by
  induction h with
  | nil => exact .nil
  | cons hl hrest ih =>
    obtain ⟨hhead, htail⟩ := List.pairwise_cons.1 hls
    refine List.pairwise_cons.2 ⟨?_, ih htail⟩
    intro l' hl' hc
    obtain ⟨l, hmem, -⟩ := exists_alters hrest l' hl'
    exact hhead l hmem (hl.invalid hc)

namespace Place

variable {q q' q'' : Place} {acts acts' : List Act}

lemma Turns.trans (h : q.Turns acts q') (h' : q'.Turns acts' q'') :
    q.Turns (acts ++ acts') q'' := by
  intro hq
  obtain ⟨hq', htakes⟩ := h hq
  obtain ⟨hq'', htakes'⟩ := h' hq'
  exact ⟨hq'', htakes.append htakes'⟩

lemma Turns.others (q : Place) (h : Unbooked acts) : q.Turns acts q :=
  fun hq => ⟨hq, .others _ h⟩

/-- An operation comes into being on top, unless what is there is amid a handoff. -/
lemma Turns.opened (q : Place) (l : Layer) (hserial : l.serial = q.count)
    (hholds : l.holds = false) (hq : ∀ l ∈ q.layers, l.cleanup? ≠ some .invalid) :
    q.Turns [.opened q.count q.layers.length] ⟨q.layers ++ [l], q.count + 1⟩ := by
  intro hsound
  refine ⟨⟨?_, ?_, ?_⟩, ?_⟩
  · exact List.pairwise_append.2 ⟨hsound.settled, by simp, fun l hl _ _ => hq l hl⟩
  · simp only [List.mem_append, List.mem_singleton]
    rintro l' (hl | rfl) hc
    · exact hsound.holds_eq l' hl hc
    · exact hholds
  · simp only [List.mem_append, List.mem_singleton]
    rintro l' (hl | rfl)
    · exact Nat.lt_succ_of_lt (hsound.serial_lt l' hl)
    · omega
  · have hopened := Ledger.Posts.opened (q.layers.map Layer.life) q.count
    simpa [ledger, Layer.life, hserial, hholds] using Takes.single hopened

lemma Turns.dropped (q : Place) (h : Nat) (unwinding : Bool) (env : Env) :
    q.Turns (Layer.dropAll unwinding env (q.layers.drop h)).acts ⟨q.layers.take h, q.count⟩ := by
  intro hsound
  have hsub : (q.layers.take h).Sublist q.layers := List.take_sublist h q.layers
  refine ⟨⟨hsound.settled.sublist hsub, ?_, ?_⟩, ?_⟩
  · exact fun l hl => hsound.holds_eq l (hsub.subset hl)
  · exact fun l hl => hsound.serial_lt l (hsub.subset hl)
  · have hdrop := takes_dropAll (hsound.settled.sublist (List.drop_sublist h q.layers)) unwinding
      env ((q.layers.take h).map Layer.life) q.count
    rwa [← List.map_append, List.take_append_drop] at hdrop

lemma Turns.altered (q : Place) {ls : List Layer} (h : List.Forall₂ Layer.Alters q.layers ls) :
    q.Turns [] ⟨ls, q.count⟩ := by
  rintro ⟨hsettled, hholds, hlt⟩
  refine ⟨⟨Layer.settled_of_alters h hsettled, ?_, ?_⟩, ?_⟩
  · intro l' hl' hc
    obtain ⟨l, hl, halters⟩ := Layer.exists_alters h l' hl'
    exact halters.holds_eq.trans (hholds l hl (halters.predecessor hc))
  · intro l' hl'
    obtain ⟨l, hl, halters⟩ := Layer.exists_alters h l' hl'
    exact halters.serial_eq ▸ hlt l hl
  · rw [ledger, ledger, Layer.map_life_eq h]
    exact .nil _

/-- A binding operation stores the value of its predecessor and drops what is inside. -/
lemma Turns.accepted {n : Nat} {below above : List Layer} {b : Binding}
    (hb : b.cleanup = .predecessor) (v : Value) (unwinding : Bool) (env : Env) :
    Turns ⟨below ++ .bind b :: above, n⟩
      ([.logged b.serial .produced, .stored b.serial] ++
        (Layer.dropAll unwinding env above).acts)
      ⟨below ++ [.bind (b.store v).vacate], n⟩ := by
  rintro ⟨hsettled, hholds, hlt⟩
  simp only at hsettled hholds hlt
  obtain ⟨hbelow, habove, hlast⟩ := List.pairwise_append.1 hsettled
  refine ⟨⟨?_, ?_, ?_⟩, ?_⟩
  · refine List.pairwise_append.2 ⟨hbelow, by simp, ?_⟩
    intro l hl _ _
    exact hlast l hl (.bind b) (by simp)
  · simp only [List.mem_append, List.mem_singleton]
    rintro l (hl | rfl) hc
    · exact hholds l (by simp [hl]) hc
    · simp [Layer.cleanup?] at hc
  · simp only [List.mem_append, List.mem_singleton]
    rintro l (hl | rfl)
    · exact hlt l (by simp [hl])
    · exact hlt (.bind b) (by simp)
  · have hfresh : (Layer.bind b).holds = false :=
      hholds (.bind b) (by simp) (by simp [Layer.cleanup?, hb])
    have hstored := Ledger.Posts.stored (below.map Layer.life) (above.map Layer.life)
      (Layer.bind b).life n hfresh rfl
    have hdrop := takes_dropAll (List.pairwise_cons.1 habove).2 unwinding env
      (below.map Layer.life ++ [{ (Layer.bind b).life with holds := true }]) n
    have hlog : Act.isBooked (.logged b.serial .produced) = false := rfl
    simp only [List.append_assoc, List.singleton_append] at hdrop
    simp only [ledger, List.map_append, List.map_cons, List.map_nil]
    exact .cons (.other _ _ hlog) (.cons hstored hdrop)

/-- A binding operation with nothing inside calls its factory or is about to connect its
successor. -/
lemma Turns.onTop {n : Nat} {below : List Layer} {b : Binding}
    (h : ∀ a ∈ acts, a.isBooked = false ∨ a.topmost? = some b.serial) :
    Turns ⟨below ++ [.bind b], n⟩ acts ⟨below ++ [.bind b], n⟩ := by
  refine fun hq => ⟨hq, ?_⟩
  simp only [ledger, List.map_append, List.map_cons, List.map_nil]
  induction acts with
  | nil => exact .nil _
  | cons a acts ih =>
    obtain ⟨ha, hacts⟩ := List.forall_mem_cons.1 h
    refine .cons ?_ (ih hacts)
    rcases ha with ha | ha
    · exact .other _ a ha
    · exact .onTop _ _ n a ha

/-- An operation that its slot refuses is dropped without having come into being. -/
lemma Turns.refused (q : Place) {l : Layer} (hserial : l.serial = q.count)
    (hholds : l.holds = false) (unwinding : Bool) (env : Env) :
    q.Turns (l.drop unwinding env {}).acts q := by
  intro hq
  refine ⟨hq, ?_⟩
  cases hc : l.cleanup? with
  | none =>
    obtain ⟨acts, hacts, hdrop⟩ := exists_drop_eq hc unwinding env {}
    rw [hdrop]
    simpa using Takes.others _ hacts
  | some c =>
    cases l with
    | bind b =>
      have hvalue : b.dropValue = [] := by
        have : b.value = none := by simpa [Layer.holds] using hholds
        simp [Binding.dropValue, this]
      have hserial : b.serial = q.count := hserial
      have hlog := Ledger.Posts.refused (q.layers.map Layer.life) b.serial q.count b.cleanup
        (by simpa [Layer.life, hserial] using fun l hl => Nat.ne_of_lt (hq.serial_lt l hl))
      have hrest : Unbooked ((b.drop {}).acts.drop 1) := by
        rw [Binding.drop]
        cases b.cleanup <;>
          simp [hvalue, Act.isBooked, unbooked_dropFactory, unbooked_dropHeld]
      have hdrop : (b.drop {}).acts =
          .logged b.serial (.tearingDown b.cleanup) :: (b.drop {}).acts.drop 1 := by
        rw [Binding.drop]
        cases b.cleanup <;> rfl
      simp only [Layer.drop]
      rw [hdrop]
      exact .cons hlog (.others _ hrest)
    | _ => simp [Layer.cleanup?] at hc

end Place

end Handoff
