import Handoff.Proofs.Agreement.Twin
import Handoff.Proofs.Lifetime.Destruction

/-!
# The record of a blocked caller

What is built and stored in the frame of a blocked caller goes as what is built and stored at the
twin place: each operation and each value once. A place is accounted for when it is vacant again
(`Config.Accounted`), and counting what twins record carries this over to the frame, whether its
operation is dropped as that of the place was (`World.Twin.echoes`) or while a payload is on its way
out (`World.Twin.echoes_unwound`).
-/

namespace Handoff

/-! ### Going once -/

namespace Act

/-- Each operation that was built has gone, and so has each value that was stored; neither has gone
more than once. -/
def EachOnce (acts : List Act) : Prop :=
  (∀ k, acts.count (.closed k) = acts.countP (opens k) ∧ acts.countP (opens k) ≤ 1) ∧
  ∀ k, acts.count (.released k) = acts.count (.stored k) ∧ acts.count (.stored k) ≤ 1

variable {v : World} {p : Int} {acts acts' : List Act}

lemma EachOnce.of_append (h : EachOnce acts) (h' : EachOnce (acts ++ acts')) : EachOnce acts' := by
  obtain ⟨hclosed, hreleased⟩ := h
  obtain ⟨hclosed', hreleased'⟩ := h'
  simp only [List.count_append, List.countP_append] at hclosed' hreleased'
  constructor <;> intro k
  · have := hclosed k
    have := hclosed' k
    omega
  · have := hreleased k
    have := hreleased' k
    omega

lemma EachOnce.append_plain (h : EachOnce acts) (hplain : ∀ a ∈ acts', a.isPlain = true) :
    EachOnce (acts ++ acts') := by
  have hnone {P : Act → Bool} (hP : ∀ a, a.isPlain = true → P a = false) :
      acts'.countP P = 0 :=
    List.countP_eq_zero.2 fun a ha => by simp [hP a (hplain a ha)]
  have hopens (k : Nat) : acts'.countP (opens k) = 0 :=
    hnone fun a ha => by cases a <;> simp_all [isPlain, isBooked, opens]
  have hcount (a : Act) (ha : a.isPlain = false) : acts'.count a = 0 :=
    List.count_eq_zero.2 fun hmem => by simp [hplain a hmem] at ha
  have hclosed (k : Nat) : acts'.count (.closed k) = 0 := hcount _ rfl
  have hreleased (k : Nat) : acts'.count (.released k) = 0 := hcount _ rfl
  have hstored (k : Nat) : acts'.count (.stored k) = 0 := hcount _ rfl
  simpa [EachOnce, List.count_append, List.countP_append, hopens, hclosed, hreleased, hstored]
    using h

lemma countP_of_twins (h : Twins v p acts acts') {P Q : Act → Bool}
    (hPQ : ∀ a a', a.Twin v p a' → Q a' = P a) : acts'.countP Q = acts.countP P := by
  induction h with
  | nil => rfl
  | cons ha _ ih => simp [List.countP_cons, ih, hPQ _ _ ha]

lemma Twin.eq_iff {a a' : Act} (h : a.Twin v p a') {k k' : Nat} (hk : Paired v p k k') :
    (a' = .closed k' ↔ a = .closed k) ∧ (a' = .stored k' ↔ a = .stored k) ∧
      (a' = .released k' ↔ a = .released k) ∧ opens k' a' = opens k a := by
  cases h with
  | plain ha => cases a <;> simp_all [isPlain, isBooked, opens]
  | remark => simp [opens]
  | walked => simp [opens]
  | _ hi => simp [opens, hi.eq_iff hk]

lemma Twin.exists_paired {a a' : Act} (h : a.Twin v p a') {k' : Nat}
    (ha : a' = .closed k' ∨ a' = .stored k' ∨ a' = .released k' ∨ opens k' a' = true) :
    ∃ k, Paired v p k k' := by
  cases h with
  | opened hi | closed hi | stored hi | released hi =>
    obtain rfl : _ = k' := by simpa [opens] using ha
    exact ⟨_, hi⟩
  | plain hplain => cases a <;> simp_all [isPlain, isBooked, opens]
  | _ => simp [opens] at ha

/-- What goes once goes once at the other site as well. -/
lemma EachOnce.of_twins (h : EachOnce acts) (ht : Twins v p acts acts') : EachOnce acts' := by
  suffices hk : ∀ k', (acts'.count (.closed k') = acts'.countP (opens k') ∧
      acts'.countP (opens k') ≤ 1) ∧
      acts'.count (.released k') = acts'.count (.stored k') ∧ acts'.count (.stored k') ≤ 1 from
    ⟨fun k' => (hk k').1, fun k' => (hk k').2⟩
  intro k'
  by_cases hk : ∃ k, Paired v p k k'
  · obtain ⟨k, hk⟩ := hk
    have hclosed : acts'.count (.closed k') = acts.count (.closed k) :=
      countP_of_twins ht fun a a' ha => by simp [(ha.eq_iff hk).1]
    have hstored : acts'.count (.stored k') = acts.count (.stored k) :=
      countP_of_twins ht fun a a' ha => by simp [(ha.eq_iff hk).2.1]
    have hreleased : acts'.count (.released k') = acts.count (.released k) :=
      countP_of_twins ht fun a a' ha => by simp [(ha.eq_iff hk).2.2.1]
    have hopens : acts'.countP (opens k') = acts.countP (opens k) :=
      countP_of_twins ht fun a a' ha => (ha.eq_iff hk).2.2.2
    rw [hclosed, hstored, hreleased, hopens]
    exact ⟨h.1 k, h.2 k⟩
  · -- a number without a pair does not come up at the other site
    have hnone {Q : Act → Bool} (hQ : ∀ a', Q a' = true → a' = .closed k' ∨ a' = .stored k' ∨
        a' = .released k' ∨ opens k' a' = true) : acts'.countP Q = 0 := by
      rw [countP_of_twins ht (P := fun _ => false)]
      · simp
      · exact fun a a' ha => Bool.eq_false_iff.2 fun hq => hk (ha.exists_paired (hQ a' hq))
    have hclosed : acts'.count (.closed k') = 0 := hnone fun a' ha => .inl (by simpa using ha)
    have hstored : acts'.count (.stored k') = 0 :=
      hnone fun a' ha => .inr (.inl (by simpa using ha))
    have hreleased : acts'.count (.released k') = 0 :=
      hnone fun a' ha => .inr (.inr (.inl (by simpa using ha)))
    have hopens : acts'.countP (opens k') = 0 := hnone fun a' ha => .inr (.inr (.inr ha))
    simp [hclosed, hstored, hreleased, hopens]

end Act

/-! ### The record of a frame -/

/-- The record of a blocked caller's frame since a world, compared with that of a place where a
sender was connected: what happened at the place happened in the frame, and then there was more.
What was built and what was stored in the frame has all gone, once. -/
inductive World.Echoes (p : Int) (w w₁ w' : World) (more : List Act) : Prop
  | intro (acts acts' : List Act) (hplace : w₁.actsAt (.place p) = w.actsAt (.place p) ++ acts)
      (hwait : w'.actsAt .wait = w.actsAt .wait ++ .waitStarted :: (acts' ++ more))
      (htwins : Act.Twins w p acts acts') (honce : Act.EachOnce (acts' ++ more))

namespace World

variable {w w₁ u : World} {p : Int} {g : Option (Completion Value Failure)}

lemma isPlain_dropCarried (c : Completion Value Failure) :
    ∀ a ∈ dropCarried c, a.isPlain = true := by
  cases c <;> simp [dropCarried, Completion.value?, Value.drop, Act.isPlain, Act.isBooked]

/-- What is recorded since a time when all was accounted for goes once, if all is once more. -/
lemma eachOnce_of_accounted {acts : List Act} (hbefore : Config.Accounted w p)
    (hafter : Config.Accounted w₁ p)
    (hacts : w₁.actsAt (.place p) = w.actsAt (.place p) ++ acts) : Act.EachOnce acts := by
  have honce : Act.EachOnce (w.actsAt (.place p)) := ⟨hbefore.1, hbefore.2.1⟩
  have honce' : Act.EachOnce (w₁.actsAt (.place p)) := ⟨hafter.1, hafter.2.1⟩
  exact honce.of_append (hacts ▸ honce')

/-- The record of a frame whose operation was dropped as that of the place was. -/
lemma Twin.echoes (hw : Twin w p g w₁ u) (hbefore : Config.Accounted w p)
    (hafter : Config.Accounted w₁ p) {more : List Act} (hmore : ∀ a ∈ more, a.isPlain = true) :
    w.Echoes p w₁ (u.leave.note .wait more) more := by
  obtain ⟨acts, acts', hplace, hwait, htwins⟩ := hw.acts
  have honce := eachOnce_of_accounted hbefore hafter hplace
  refine .intro acts acts' hplace ?_ htwins ((honce.of_twins htwins).append_plain hmore)
  have hleave : u.leave.actsAt .wait = u.actsAt .wait := rfl
  simp [hleave, hwait]

lemma actsAt_dropAbove (w : World) (s : Site) (h : Nat) (unwinding : Bool) :
    (w.dropAbove s h unwinding).1.actsAt s = w.actsAt s ++
      (Layer.dropAll unwinding (w.scope s h) ((w.layers s).drop h)).acts := by
  simp [dropAbove, setLayers]

/-- What is left when a payload is raised to the blocked caller. -/
def unwound (u : World) : World :=
  (u.dropAbove .wait 0 true).1.leave.note .wait (u.given.elim [] dropCarried)

/-- The record of a frame that a payload has gone through, dropping the operation there. -/
lemma Twin.echoes_unwound (hw : Twin w p g w₁ u) (hbefore : Config.Accounted w p)
    (hsound : w₁.Sound) (hbooked : Config.Booked w₁) :
    ∃ more, w.Echoes p w₁ u.unwound more := by
  obtain ⟨acts, acts', hplace, hwait, htwins⟩ := hw.acts
  have hdrops := (hw.dropped 0 true).acts
  set drops := (Layer.dropAll true (w₁.scope (.place p) 0) ((w₁.layers (.place p)).drop 0)).acts
  set drops' := (Layer.dropAll true (u.scope .wait 0) ((u.layers .wait).drop 0)).acts
  set carried := u.given.elim [] dropCarried with hcarried
  -- all would be accounted for at the place, were its operation dropped as well
  have hafter : Config.Accounted (w₁.dropAbove (.place p) 0 true).1 p :=
    Config.accounted_of_booked
      (Config.booked_of_turns hbooked hsound (.dropAbove w₁ (.place p) 0 true))
      (by simp [layers_dropAbove])
  have honce : Act.EachOnce (acts ++ drops) :=
    eachOnce_of_accounted hbefore hafter (by rw [actsAt_dropAbove, hplace, List.append_assoc])
  have hplain : ∀ a ∈ carried, a.isPlain = true := by
    cases hg : u.given with
    | none => simp [hcarried, hg]
    | some c => simpa [hcarried, hg] using isPlain_dropCarried c
  have honce' := (honce.of_twins (List.rel_append htwins hdrops)).append_plain hplain
  refine ⟨drops' ++ carried, .intro acts acts' hplace ?_ htwins (by simpa using honce')⟩
  have hleave : (u.dropAbove .wait 0 true).1.leave.actsAt .wait =
      (u.dropAbove .wait 0 true).1.actsAt .wait := rfl
  rw [unwound, actsAt_note, hleave, actsAt_dropAbove, hwait]
  simp [drops', hcarried]

end World

end Handoff
