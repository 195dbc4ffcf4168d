import Handoff.Proofs.Prompt.Starting
import Handoff.Proofs.Prompt.Unaided

/-!
# What wakes a blocked caller

What becomes of a caller that blocks, without the help of a machine, until a sender completes all of
whose leaves are prompt: `Sender.wakes_or_blocks`. If a completion is delivered the caller returns
it. If instead the leaf that was reached drops its receiver, all depends on what that receiver was.
Without a binding operation around the leaf it was the caller's own, and the caller raises a
payload. With one it was a handle: a binding operation still has the caller's receiver, and since
that operation stands in the caller's own frame, the caller is blocked for good.
-/

namespace Handoff

open Config Machine

/-! ### Who has the receiver of a blocked caller -/

namespace Config

variable {w w' : World} {K : List Frame} {r : Receiver}

/-- What is there apart from the operation of a blocked caller. -/
def apart (w : World) (K : List Frame) : Config := ⟨w.setLayers .wait [], .done .nothing, K⟩

lemma owns_apart_iff : (apart w K).Owns r ↔
    (∃ s ≠ .wait, ∃ l ∈ w.layers s, l.receiver? = some r) ∨
      (∃ t ∈ w.queue, t.receiver? = some r) ∨ ∃ f ∈ K, f.receiver? = some r := by
  constructor
  · rintro (@⟨s, l, hl, hr⟩ | @⟨t, ht, hr⟩ | hr | @⟨f, hf, hr⟩)
    · by_cases hs : s = .wait
      · simp [apart, hs] at hl
      · exact .inl ⟨s, hs, l, by rwa [apart, World.layers_setLayers_of_ne hs] at hl, hr⟩
    · exact .inr (.inl ⟨t, ht, hr⟩)
    · cases hr
    · exact .inr (.inr ⟨f, hf, hr⟩)
  · rintro (⟨s, hs, l, hl, hr⟩ | ⟨t, ht, hr⟩ | ⟨f, hf, hr⟩)
    · exact .layer (s := s) (by rwa [apart, World.layers_setLayers_of_ne hs]) hr
    · exact .task ht hr
    · exact .frame hf hr

/-- The receiver of a blocked caller is with the caller's operation or apart from it. -/
lemma owns_blocking_iff : (blocking w K).Owns r ↔
    (∃ l ∈ w.layers .wait, l.receiver? = some r) ∨ (apart w K).Owns r := by
  rw [owns_apart_iff]
  constructor
  · rintro (@⟨s, l, hl, hr⟩ | @⟨t, ht, hr⟩ | hr | @⟨f, hf, hr⟩)
    · by_cases hs : s = .wait
      · exact .inl ⟨l, hs ▸ hl, hr⟩
      · exact .inr (.inl ⟨s, hs, l, hl, hr⟩)
    · exact .inr (.inr (.inl ⟨t, ht, hr⟩))
    · cases hr
    · obtain rfl | rfl | hf : f = .waitStarted ∨ f = .waitOver ∨ f ∈ K := by
        simpa [blocking] using hf
      · cases hr
      · cases hr
      · exact .inr (.inr (.inr ⟨f, hf, hr⟩))
  · rintro (⟨l, hl, hr⟩ | ⟨s, -, l, hl, hr⟩ | ⟨t, ht, hr⟩ | ⟨f, hf, hr⟩)
    · exact .layer hl hr
    · exact .layer hl hr
    · exact .task ht hr
    · exact .frame (List.mem_cons_of_mem _ (List.mem_cons_of_mem _ hf)) hr

/-- Nobody but a caller itself is given a receiver by what the caller does with its operation. -/
lemma Owns.of_keeps (h : (apart w' K).Owns r) (hw : w.Keeps .wait w') : (apart w K).Owns r := by
  rw [owns_apart_iff] at h ⊢
  obtain ⟨s, hs, l, hl, hr⟩ | ⟨t, ht, hr⟩ | hK := h
  · have hmem : l.bare ∈ (w.layers s).map Layer.bare :=
      (hw.elsewhere s hs.symm).layers_eq ▸ List.mem_map_of_mem hl
    obtain ⟨l', hl', hbare⟩ := List.mem_map.1 hmem
    refine .inl ⟨s, hs, l', hl', ?_⟩
    rw [← Layer.receiver?_bare, hbare, Layer.receiver?_bare, hr]
  · exact .inr (.inl ⟨t, hw.queue_eq ▸ ht, hr⟩)
  · exact .inr (.inr hK)

end Config

namespace Sender

variable {s : Sender} {ch : Channel (Completion Value Failure)} {K : List Frame}

/-- What becomes of a caller of a number that blocks on top of a stack, where this was given to
final receivers. -/
inductive Wakes (s : Sender) (ch : Channel (Completion Value Failure)) (K : List Frame) (id : Nat)
    (w : World) : List Parcel → Prop
  /-- A completion was delivered. The caller returns it. -/
  | returned (v : Completion Value Failure) (w' : World)
      (hdrop : (w.dropAbove .wait 0 false).2 = none)
      (hgo : ∀ c, Unaided ch K (blocking w K) c ↔
        c = ⟨w', .done (.completion (v.map Value.n)), K⟩) : Wakes s ch K id w [(.waiter id, v)]
  /-- A completion was delivered, and the drop of the caller's operation raises a payload. -/
  | raised (v : Completion Value Failure) (w' : World) {m : Payload}
      (hdrop : (w.dropAbove .wait 0 false).2 = some m)
      (hgo : ∀ c, Unaided ch K (blocking w K) c ↔ c = ⟨w', .raised m, K⟩) :
      Wakes s ch K id w [(.waiter id, v)]
  /-- The leaf that was reached has dropped its receiver, and no binding operation is around it. The
  caller raises that its receiver was lost. -/
  | lost {k : Nat} {sc : Script} (hleaf : (w.layers .wait).getLast? = some (.script k sc none))
      (hsc : sc.Forgets) (hs : s.binds = false) (w' : World)
      (hgo : ∀ c, Unaided ch K (blocking w K) c ↔ c = fault w' .receiverLost K) :
      Wakes s ch K id w []
  /-- The leaf that was reached has dropped its receiver, and a binding operation around it has that
  of the caller, which nobody has apart from the caller's own operation. The caller does not go
  on. -/
  | blocked {k : Nat} {sc : Script} (hleaf : (w.layers .wait).getLast? = some (.script k sc none))
      (hsc : sc.Forgets) (hs : s.binds = true) {b : Binding} (hb : .bind b ∈ w.layers .wait)
      (hr : b.receiver = some (.waiter id)) (hapart : ¬ (apart w K).Owns (.waiter id))
      (hgo : ∀ c, ¬ Unaided ch K (blocking w K) c) : Wakes s ch K id w []

/-- The world once a caller has connected a silent sender on which it is to block. -/
def waiting (s : Sender) (w : World) : World :=
  let w₀ := { w with waiter := some { id := w.waits }, waits := w.waits + 1 }
  let y := s.lay .wait [] (.waiter w.waits) 0 (w₀.nextSerial .wait)
  w₀.after .wait y.layers y.count (.waitStarted :: y.acts)

variable (ch K) in
/-- A caller connects its sender and goes on to start it. -/
lemma unaidedLeads_waiting (hs : s.Fills) (w : World) :
    UnaidedLeads ch K ⟨w, .call (.wait s), K⟩ []
      ⟨s.waiting w, .start .wait 0, .waitStarted :: .waitOver :: K⟩ := by
  set w₀ : World := { w with waiter := some { id := w.waits }, waits := w.waits + 1 }
  have hempty : (w₀.setLayers .wait []).note .wait [.waitStarted] =
      w₀.after .wait [] (w₀.nextSerial .wait) [.waitStarted] := by
    simp [World.after, World.setLayers, World.nextSerial]
  have hconnect : Leads ⟨w₀.after .wait [] (w₀.nextSerial .wait) [.waitStarted],
      .connect s (.waiter w.waits) .wait 0, []⟩ [] (finish (s.waiting w) []) := by
    simpa [waiting, w₀, hs.flaw_eq] using leads_connect (s := .wait) hs.silent (.waiter w.waits)
      w₀ [] (w₀.nextSerial .wait) [.waitStarted] []
  have hlift : UnaidedLeads ch K
      ⟨w₀.after .wait [] (w₀.nextSerial .wait) [.waitStarted], .connect s (.waiter w.waits) .wait 0,
        .waitConnected :: .waitOver :: K⟩ []
      (finish (s.waiting w) (.waitConnected :: .waitOver :: K)) := hconnect.unaided rfl
  rw [← hempty] at hlift
  exact .step (.move (by simp [blocking]) rfl)
    (hlift.trans (.step (.move (by simp [blocking, finish]) rfl) (.refl _)))

lemma stands_waiting (hs : s.Fills) (w : World) :
    s.Stands .wait (.waiter w.waits) 0 ((s.waiting w).layers .wait) := by
  rw [waiting, World.layers_after]
  exact stands_lay hs.silent hs.flaw_eq ..

/-- Nobody has a receiver apart from the operation that a caller has connected but who had it
before. -/
lemma owns_of_apart_waiting {w : World} {r : Receiver} (h : (apart (s.waiting w) K).Owns r) :
    Owns ⟨w, .call (.wait s), K⟩ r := by
  obtain ⟨s', -, l, hl, hr⟩ | ⟨t, ht, hr⟩ | ⟨f, hf, hr⟩ :=
    owns_apart_iff.1 (h.of_keeps (World.keeps_after ..))
  · exact .layer hl hr
  · exact .task ht hr
  · exact .frame hf hr

/-- A caller that was given a completion returns it, once its operation is dropped without a
payload. -/
lemma wakes_of_given (hch : ch.OneShot) {w : World} {id : Nat} {v : Completion Value Failure}
    (hw : w.waiter = some { id, given := some v }) : s.Wakes ch K id w [(.waiter id, v)] := by
  have hgo (c : Config) : Unaided ch K (blocking w K) c ↔ c = release w (.sent v) K :=
    unaided_blocking_of_given hch hw
  simp only [release_sent] at hgo
  cases hdrop : (w.dropAbove .wait 0 false).2 with
  | none => exact .returned v _ hdrop (by simpa only [hdrop] using hgo)
  | some m => exact .raised v _ hdrop (by simpa only [hdrop] using hgo)

/-- What becomes of a caller whose sender came to a leaf that dropped its receiver, if nobody has
the receiver of the caller apart from its operation. -/
lemma Left.wakes (hch : ch.OneShot) {w : World} {id : Nat}
    (hleft : s.Left (.waiter id) (w.layers .wait)) (hw : w.waiter = some { id })
    (hapart : ¬ (apart w K).Owns (.waiter id)) : s.Wakes ch K id w [] := by
  obtain ⟨k, sc, hleaf, hsc⟩ := hleft.script
  cases hs : s.binds with
  | false =>
    have hdropped : ¬ (blocking w K).Owns (.waiter id) := by
      rw [owns_blocking_iff]
      rintro (⟨l, hl, hr⟩ | hr)
      · simp [hleft.free hs l hl] at hr
      · exact hapart hr
    exact .lost hleaf hsc hs _ fun _ => unaided_blocking_of_dropped hch hw hdropped
  | true =>
    obtain ⟨b, hb, hr⟩ := hleft.kept hs
    have hkept : (blocking w K).Owns (.waiter id) := owns_blocking_iff.2 (.inl ⟨.bind b, hb, hr⟩)
    exact .blocked hleaf hsc hs hb hr hapart fun _ => not_unaided_blocking_of_kept hch hw hkept

/-- A caller that blocks until a prompt sender completes returns what is delivered. If the leaf that
is reached drops its receiver instead, the caller raises that its receiver was lost if no binding
operation is around the leaf, and else it is blocked for good, with its receiver in its own
operation. -/
theorem wakes_or_blocks (hch : ch.OneShot) (hs : s.Prompt) (w : World)
    (hnew : ¬ Owns ⟨w, .call (.wait s), K⟩ (.waiter w.waits)) :
    ∃ w' given, UnaidedLeads ch K ⟨w, .call (.wait s), K⟩ given (blocking w' K) ∧
      s.Wakes ch K w.waits w' given := by
  have hcall := unaidedLeads_waiting ch K hs.fills w
  have hL : (Frame.waitStarted :: .waitOver :: K).length = K.length + 2 := rfl
  have hprompt : StartsPromptly .wait s := starts hs
  cases hprompt [] (.waiter w.waits) (s.waiting w) _ rfl (stands_waiting hs.fills w) with
  | completes w₁ above v fs leads winds layers_eq keeps stops =>
    have hwaiter₁ : w₁.waiter = some { id := w.waits } := keeps.waiter_eq
    set w₂ : World := { w₁ with waiter := some { id := w.waits, given := some v } }
    obtain ⟨w₃, hstays, hwind⟩ := leads_winding winds w₂
    have hgive : Leads ⟨w₁, .complete (.waiter w.waits) v, fs ++ []⟩ [(.waiter w.waits, v)]
        (finish w₂ (fs ++ [])) := by
      refine .give rfl ?_
      simpa [complete, completeWaiter, hwaiter₁] using Leads.refl _
    have hstart := ((leads []).trans hgive).append_quiet (hwind [])
    exact ⟨w₃, _, hcall.trans (hstart.unaided hL), wakes_of_given hch hstays.waiter_eq⟩
  | forgets w₁ above leads left layers_eq keeps not_inline =>
    have hwaiter₁ : w₁.waiter = some { id := w.waits } := keeps.waiter_eq
    exact ⟨w₁, _, hcall.trans ((leads []).unaided hL), (left.of_bare layers_eq).wakes hch hwaiter₁
      fun h => hnew (owns_of_apart_waiting (h.of_keeps keeps))⟩

/-- A leaf that drops its receiver when it is started. -/
def forgetting : Script :=
  { label := "pred", connecting := .fill, start := [.forget], explode := none, peekOnDrop := none }

/-- The leaf by itself. -/
def forgetful : Sender := .script forgetting

/-- The leaf as a predecessor. -/
def forgetfulPredecessor : Sender :=
  .bind forgetful { label := some "f", call := fun env => { env } } fun _ => .ready .done

/-- Nobody has the receiver of the first caller before it is made. -/
lemma not_owns_first (x : Sender) : ¬ Owns ⟨{}, .call (.wait x), []⟩ (.waiter 0) := by
  rintro (@⟨s, l, hl, hr⟩ | @⟨t, ht, hr⟩ | hr | @⟨f, hf, hr⟩)
  · cases s <;> cases hl
  · cases ht
  · cases hr
  · cases hf

lemma prompt_forgetful : forgetful.Prompt :=
  ⟨rfl, .inr (by simp [Script.Forgets, forgetting, Instr.letsGo])⟩

lemma prompt_forgetfulPredecessor : forgetfulPredecessor.Prompt :=
  ⟨prompt_forgetful, fun _ => trivial⟩

/-- A forgetful leaf by itself, and the same leaf as a predecessor. -/
theorem wakes_or_blocks_forgetful :
    (∃ w given, UnaidedLeads (.cell _) [] ⟨{}, .call (.wait forgetful), []⟩ given
        (blocking w []) ∧ forgetful.Wakes (.cell _) [] 0 w given) ∧
      ∃ w given, UnaidedLeads (.cell _) [] ⟨{}, .call (.wait forgetfulPredecessor), []⟩ given
        (blocking w []) ∧ forgetfulPredecessor.Wakes (.cell _) [] 0 w given :=
  ⟨wakes_or_blocks (Channel.oneShot_cell _) prompt_forgetful {} (not_owns_first _),
    wakes_or_blocks (Channel.oneShot_cell _) prompt_forgetfulPredecessor {} (not_owns_first _)⟩

/-- A caller may be blocked for good: the leaf has dropped its receiver, nothing is queued, and
still the caller does not go on. -/
theorem blocked_by_forgetful_predecessor :
    (Channel.cell (Completion Value Failure)).OneShot ∧ forgetfulPredecessor.Prompt ∧
      ∃ w, UnaidedLeads (.cell _) [] ⟨{}, .call (.wait forgetfulPredecessor), []⟩ []
          (blocking w []) ∧
        (∃ k sc, (w.layers .wait).getLast? = some (.script k sc none) ∧ sc.start = [.forget]) ∧
        w.queue = [] ∧ ∀ c, ¬ Unaided (.cell _) [] (blocking w []) c := by
  obtain ⟨w, hleads, hw, hq, b, hl, hr⟩ : ∃ w,
      Leads ⟨forgetfulPredecessor.waiting {}, .start .wait 0, []⟩ [] (finish w []) ∧
        w.waiter = some { id := 0 } ∧ w.queue = [] ∧
        ∃ b, w.layers .wait = [.bind b, .script 1 forgetting none] ∧
          b.receiver = some (.waiter 0) := by
    refine ⟨_, .quiet rfl rfl (.quiet rfl rfl (.quiet rfl rfl (.quiet rfl rfl (.refl _)))), ?_⟩
    exact ⟨rfl, rfl, _, rfl, rfl⟩
  have hkept : (blocking w []).Owns (.waiter 0) :=
    .layer (s := .wait) (l := .bind b) (by simp [blocking, hl]) hr
  have hcall := unaidedLeads_waiting (.cell _) [] prompt_forgetfulPredecessor.fills {}
  have hL : [Frame.waitStarted, .waitOver].length = ([] : List Frame).length + 2 := rfl
  exact ⟨Channel.oneShot_cell _, prompt_forgetfulPredecessor, w,
    hcall.trans (hleads.unaided hL), ⟨1, forgetting, by simp [hl], rfl⟩, hq,
    fun _ => not_unaided_blocking_of_kept (Channel.oneShot_cell _) hw hkept⟩

end Sender

end Handoff
