import Handoff.Proofs.Panic.Handing

/-!
# Unwinding

Where a raised payload goes is to be seen from the stack: past frames that catch nothing it goes on
unchanged, to whoever made the call if nothing catches it. A handoff is on the stack only while an
operation hands over, and what the payload comes to there is given to the operation's receiver.
-/

namespace Handoff

open Machine Config
open Layer (offer Open)

/-- Whether a payload that is raised goes no further than this frame. -/
def Frame.catches : Frame → Bool
  | handoff _ _ => true
  | attempt _ _ => true
  | _ => false

/-- Whether a control may be part of a handoff. -/
def Control.isHanding : Control → Bool
  | connect _ _ _ _ => true
  | build _ _ => true
  | done _ => true
  | raised _ => true
  | _ => false

variable {o : Receiver} {s s' : Site} {n i : Nat} {w w' : World} {K K' : List Frame} {m : Payload}
  {base settled inner below : List Layer} {b : Binding} {c c' : Config}

/-! ### Past frames that catch nothing -/

lemma exists_unwind {f : Frame} (hf : f.catches = false) (w : World) (m : Payload)
    (K : List Frame) : ∃ w', unwind w m f K = ⟨w', .raised m, K⟩ := by
  cases f with
  | handoff s h => simp [Frame.catches] at hf
  | attempt r rest => simp [Frame.catches] at hf
  | _ => exact ⟨_, rfl⟩

lemma leads_unwind (hK : ∀ f ∈ K, f.catches = false) (w : World) (m : Payload)
    (K' : List Frame) :
    ∃ w', Leads ⟨w, .raised m, K ++ K'⟩ [] ⟨w', .raised m, K'⟩ := by
  induction K generalizing w with
  | nil => exact ⟨w, .refl _⟩
  | cons f K ih =>
    obtain ⟨hf, hK⟩ := List.forall_mem_cons.1 hK
    obtain ⟨w₁, hunwind⟩ := exists_unwind hf w m (K ++ K')
    obtain ⟨w₂, hleads⟩ := ih hK w₁
    exact ⟨w₂, .quiet (congrArg some hunwind) rfl hleads⟩

/-- On its way past guards a payload takes down what they guard, but nothing below. -/
lemma leads_guards (hK : ∀ f ∈ K, ∃ j, f = .guard s j ∧ below.length < j)
    (hl : w.layers s = below ++ .bind b :: inner) (m : Payload) (K' : List Frame) :
    ∃ w' inner', Leads ⟨w, .raised m, K ++ K'⟩ [] ⟨w', .raised m, K'⟩ ∧
      w'.layers s = below ++ .bind b :: inner' := by
  induction K generalizing w inner with
  | nil => exact ⟨w, inner, .refl _, hl⟩
  | cons f K ih =>
    obtain ⟨⟨j, rfl, hj⟩, hrest⟩ := List.forall_mem_cons.1 hK
    obtain ⟨k, rfl⟩ : ∃ k, j = below.length + (k + 1) := ⟨j - below.length - 1, by omega⟩
    set w₁ := (w.dropAbove s (below.length + (k + 1)) true).1 with hw₁
    have hl₁ : w₁.layers s = below ++ .bind b :: inner.take k := by
      rw [hw₁, World.layers_dropAbove, hl, List.take_length_add_append, List.take_succ_cons]
    obtain ⟨w', inner', hleads, hl'⟩ := ih hrest hl₁
    exact ⟨w', inner', .quiet rfl rfl hleads, hl'⟩

/-! ### What is on the stack amid a handoff -/

lemma Frame.exists_of_mem_guards {f : Frame} (hf : f ∈ guards s i n) :
    ∃ j, f = .guard s j ∧ i ≤ j := by
  induction n with
  | zero => simp [guards] at hf
  | succ n ih =>
    rcases List.mem_cons.1 hf with rfl | hf
    · exact ⟨i + n, rfl, Nat.le_add_right _ _⟩
    · exact ih hf

lemma Frame.Idle.ne_handoff {f : Frame} (hf : f.Idle) (s : Site) (i : Nat) : f ≠ .handoff s i := by
  rintro rfl
  exact hf

/-- An operation hands over: it stands at a height of the site, its handoff is on the stack, with
guards on top of it and no other handoff below. -/
structure Config.HandsOver (o : Receiver) (s : Site) (i : Nat) (b : Binding) (c : Config)
    (K : List Frame) : Prop where
  exists_layers : ∃ below inner, below.length = i ∧ c.world.layers s = below ++ .bind b :: inner ∧
    Amid o s below b
  exists_stack : ∃ gs, c.stack = gs ++ .handoff s i :: K ∧ ∀ f ∈ gs, ∃ j, f = .guard s j ∧ i < j
  idle : ∀ f ∈ K, f.Idle
  isHanding : c.control.isHanding = true

lemma Footing.exists_handsOver (hf : Footing o s base settled K) (control : Control)
    (hl : w.layers s = base ++ inner) (hc : control.isHanding = true)
    (hmem : .handoff s' i ∈ Frame.guards s base.length n ++ K) :
    s' = s ∧ ∃ b K', HandsOver o s i b ⟨w, control, Frame.guards s base.length n ++ K⟩ K' := by
  have hK : .handoff s' i ∈ K := by
    rcases List.mem_append.1 hmem with hmem | hmem
    · obtain ⟨j, hj, -⟩ := Frame.exists_of_mem_guards hmem
      cases hj
    · exact hmem
  cases hf with
  | vacant => simp at hK
  | @handoff below b K hb hidle =>
    rcases List.mem_cons.1 hK with heq | hK
    · cases heq
      refine ⟨rfl, b, K, ⟨below, inner, rfl, by simpa using hl, hb⟩, ⟨_, rfl, ?_⟩, hidle, hc⟩
      intro f hf
      obtain ⟨j, rfl, hj⟩ := Frame.exists_of_mem_guards hf
      rw [List.length_append, List.length_singleton] at hj
      exact ⟨j, rfl, hj⟩
    · exact absurd rfl ((hidle _ hK).ne_handoff s' i)

lemma Thread.exists_handsOver (h : Thread o s n c) (hmem : .handoff s' i ∈ c.stack) :
    s' = s ∧ n = 1 ∧ ∃ b K, c.HandsOver o s i b K := by
  cases h with
  | called hw hp hl hq hx => simp at hmem
  | loose hw hc hK hb => exact absurd rfl ((hK _ hmem).ne_handoff s' i)
  | starting hw hl ho hlast hK hb => exact absurd rfl ((hK _ hmem).ne_handoff s' i)
  | @building w below b K hw hb hl hK hq =>
    rcases List.mem_cons.1 hmem with heq | hmem
    · cases heq
      exact ⟨rfl, rfl, b, K, ⟨below, [], rfl, hl, hb⟩, ⟨[], rfl, by simp⟩, hK, rfl⟩
    · exact absurd rfl ((hK _ hmem).ne_handoff s' i)
  | connecting hw hf hl ho hq hx hr =>
    obtain ⟨rfl, b, K, hover⟩ := hf.exists_handsOver (.connect _ _ _ _) hl rfl hmem
    exact ⟨rfl, rfl, b, K, hover⟩
  | connected hw hf hl hq hr =>
    obtain ⟨rfl, b, K, hover⟩ := hf.exists_handsOver (.done _) hl rfl hmem
    exact ⟨rfl, rfl, b, K, hover⟩
  | failed hw hf hl ho hq hr =>
    obtain ⟨rfl, b, K, hover⟩ := hf.exists_handsOver (.raised _) hl rfl hmem
    exact ⟨rfl, rfl, b, K, hover⟩

/-- A payload raised amid a handoff comes to the operation that hands over, and is given to its
receiver. -/
lemma Config.HandsOver.leads (h : c.HandsOver o s i b K) (hc : c.control = .raised m) :
    ∃ w' below inner r, below.length = i ∧ b.receiver = some r ∧
      c.Leads [] ⟨w', .complete r (.error (.panicked m)), K⟩ ∧
      w'.layers s = below ++ .bind b.spend :: inner := by
  obtain ⟨w, control, stack⟩ := c
  obtain rfl : control = .raised m := hc
  obtain ⟨below, inner, rfl, hl, hamid⟩ := h.exists_layers
  obtain ⟨gs, hstack, hgs⟩ := h.exists_stack
  obtain rfl : stack = gs ++ .handoff s below.length :: K := hstack
  obtain ⟨r, hr, -⟩ := hamid.exists_receiver
  obtain ⟨w₁, inner₁, hguards, hl₁⟩ := leads_guards hgs hl m (.handoff s below.length :: K)
  set acts := [Act.logged b.serial (.buildFailed m)] with hacts
  have hunwind : unwind w₁ m (.handoff s below.length) K =
      ⟨(w₁.note s acts).setBinding s below.length b.spend,
        .complete r (.error (.panicked m)), K⟩ := by
    simp [unwind, World.binding?_of_layers hl₁, Machine.pass, hr, hacts]
  have hl₂ : (w₁.note s acts).layers s = below ++ .bind b :: inner₁ := hl₁
  refine ⟨_, below, inner₁, r, rfl, hr, ?_, World.layers_setBinding hl₂ b.spend⟩
  exact hguards.append_quiet (.quiet (congrArg some hunwind) rfl (.refl _))

/-! ### What begins a handoff -/

lemma stack_finishOr (w : World) (raised : Option Payload) (K : List Frame) :
    (finishOr w raised K).stack = K := by
  cases raised <;> rfl

lemma stack_connectLeaf (w : World) (s : Site) (h : Nat) (make : Nat → Layer)
    (after : Option Payload) (K : List Frame) : (connectLeaf w s h make after K).stack = K := by
  rw [connectLeaf]
  split
  · exact stack_finishOr _ after K
  · rfl

lemma stack_pass (w : World) (s : Site) (h : Nat) (b : Binding) (v : Completion Value Failure)
    (K : List Frame) : (Machine.pass w s h b v K).stack = K := by
  rw [Machine.pass]
  cases b.receiver <;> rfl

/-- Only the value of a predecessor begins a handoff of its operation. -/
lemma handoff_mem_of_moves (hm : c.Moves c') (hmem : .handoff s i ∈ c'.stack) :
    .handoff s i ∈ c.stack ∨ ∃ v, c.control = .complete (.child .predecessor s i) (.value v) := by
  obtain ⟨w, control, K⟩ := c
  cases control with
  | complete r v =>
    obtain rfl := Option.some.inj hm
    cases r with
    | child role s' h =>
      unfold complete receive at hmem
      grind [fault, finish, stack_pass, accept]
    | waiter id =>
      unfold complete completeWaiter at hmem
      grind [finish]
    | _ => exact .inl (by simpa [complete, finish] using hmem)
  | done r =>
    cases K with
    | nil => cases hm
    | cons f K =>
      obtain rfl := Option.some.inj hm
      unfold resume at hmem
      grind [fault, finish, stack_finishOr, abandon, release, unblock]
  | raised m =>
    cases K with
    | nil => cases hm
    | cons f K =>
      obtain rfl := Option.some.inj hm
      unfold unwind at hmem
      grind [stack_pass]
  | connect x r s' h =>
    obtain rfl := Option.some.inj hm
    unfold connect connectScript at hmem
    grind [stack_connectLeaf, fault]
  | start s' h =>
    obtain rfl := Option.some.inj hm
    unfold start startLeaf at hmem
    grind [fault, finish]
  | build s' h =>
    obtain rfl := Option.some.inj hm
    unfold build at hmem
    grind [fault, finish]
  | react home label actions =>
    obtain rfl := Option.some.inj hm
    unfold react at hmem
    grind [finish]
  | follow r steps =>
    obtain rfl := Option.some.inj hm
    unfold follow instruct at hmem
    grind [fault, finish, deliver]
  | call x =>
    obtain rfl := Option.some.inj hm
    unfold call at hmem
    grind [fault, finish, stack_finishOr, withPlace, refuse, connectPlace]
  | task t =>
    obtain rfl := Option.some.inj hm
    unfold runTask at hmem
    grind [finish, stack_finishOr]

end Handoff
