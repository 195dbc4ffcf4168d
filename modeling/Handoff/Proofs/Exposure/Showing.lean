import Handoff.Proofs.Exposure.Turns
import Handoff.Proofs.Lifetime.Moves

/-!
# Turns of the machine

Whatever the machine does, by whose script and in whose call, it does to each binding operation what
a list of turns does: `Config.Shows.move`. A configuration shows which handoff of an operation is
under way by its control and the frames of its stack, `Config.Shows`. Most moves leave an operation
alone but for its stored number, or drop it, which is `Config.Spares`.
-/

namespace Handoff

open Machine

/-- Whether a frame is that of a handoff at a height of a site. -/
def Frame.isHandoff (s : Site) (h : Nat) : Frame → Bool
  | handoff s' h' => s' = s ∧ h' = h
  | _ => false

namespace World

/-- An operation at a height of a site is gone, or still there, with its stored number changed
perhaps. -/
def Lets (s : Site) (h : Nat) (b : Binding) (w : World) : Prop :=
  w.binding? s h = none ∨ ∃ env, w.binding? s h = some (b.restore env)

variable {w w' : World} {s s' : Site} {h h' : Nat} {b b' : Binding}

lemma lets_of_binding (hb : w.binding? s h = some b) : w.Lets s h b :=
  .inr ⟨[], hb⟩

lemma Lets.of_eq (hw : w.Lets s h b) (heq : w'.binding? s h = w.binding? s h) :
    w'.Lets s h b := by
  rwa [Lets, heq]

lemma Lets.of_places (hw : w.Lets s h b) (hp : w'.places = w.places) : w'.Lets s h b :=
  hw.of_eq (by simp [binding?, layers, place, hp])

lemma Lets.note (hw : w.Lets s h b) (s' : Site) (acts : List Act) : (w.note s' acts).Lets s h b :=
  hw.of_places rfl

lemma binding?_setLayers_of_ne (hs : s ≠ s') (ls : List Layer) :
    (w.setLayers s' ls).binding? s h = w.binding? s h := by
  simp [binding?, layers_setLayers_of_ne hs]

lemma Lets.setLayers_nil (hw : w.Lets s h b) (s' : Site) : (w.setLayers s' []).Lets s h b := by
  by_cases hs : s = s'
  · subst hs
    exact .inl (by simp [binding?])
  · exact hw.of_eq (binding?_setLayers_of_ne hs [])

lemma Lets.setLayer (hw : w.Lets s h b) {l : Layer} (hl : l.kind ≠ .bind ∨ ¬(s' = s ∧ h' = h)) :
    (w.setLayer s' h' l).Lets s h b := by
  by_cases hs : s = s'
  · subst hs
    by_cases hh : h' = h
    · subst hh
      have hkind : l.kind ≠ .bind := by simpa using hl
      refine .inl ?_
      cases l with
      | bind b => simp [Layer.kind] at hkind
      | _ =>
        simp only [World.setLayer, binding?, layers_setLayers_self]
        by_cases hlt : h' < (w.layers s).length
        · simp [hlt]
        · rw [List.getElem?_eq_none (by simpa using hlt)]
    · exact hw.of_eq (by simp [World.setLayer, binding?, hh])
  · exact hw.of_eq (binding?_setLayers_of_ne hs _)

lemma Lets.setBinding (hw : w.Lets s h b) (hne : ¬(s' = s ∧ h' = h)) (b' : Binding) :
    (w.setBinding s' h' b').Lets s h b :=
  hw.setLayer (.inr hne)

/-- Writing stored numbers back changes nothing else. -/
lemma getElem?_writeBack (ns : Env) (ls : List Layer) (h : Nat) :
    (Layer.writeBack ns ls)[h]? = ls[h]? ∨ ∃ b env, ls[h]? = some (.bind b) ∧
      (Layer.writeBack ns ls)[h]? = some (.bind (b.restore env)) := by
  induction ls generalizing ns h with
  | nil => exact .inl rfl
  | cons l rest ih =>
    cases h with
    | zero =>
      simp only [Layer.writeBack]
      split
      · exact .inr ⟨_, _, rfl, rfl⟩
      · exact .inl rfl
    | succ h =>
      simp only [Layer.writeBack]
      split <;> simpa using ih _ h

lemma getElem?_setScope (w : World) (s : Site) (h' : Nat) (env : Env) (h : Nat) :
    ((w.setScope s h' env).layers s)[h]? = (w.layers s)[h]? ∨
      ∃ b env', (w.layers s)[h]? = some (.bind b) ∧
        ((w.setScope s h' env).layers s)[h]? = some (.bind (b.restore env')) := by
  simp only [World.setScope, layers_setLayers_self, List.getElem?_append, Layer.length_writeBack,
    List.length_take]
  split
  · next hlt =>
    have htake : ((w.layers s).take h')[h]? = (w.layers s)[h]? := by
      rw [List.getElem?_take]
      simp only [ite_eq_left_iff]
      omega
    simpa [htake] using getElem?_writeBack env.reverse ((w.layers s).take h') h
  · next hge =>
    refine .inl ?_
    by_cases hlen : h' ≤ (w.layers s).length
    · rw [Nat.min_eq_left hlen] at hge ⊢
      rw [List.getElem?_drop]
      congr 1
      omega
    · have hle : (w.layers s).length ≤ h' := by omega
      rw [Nat.min_eq_right hle] at hge ⊢
      rw [List.drop_eq_nil_of_le hle, List.getElem?_nil, List.getElem?_eq_none (by omega)]

lemma restore_restore (b : Binding) (env env' : Env) :
    ∃ env'', (b.restore env).restore env' = b.restore env'' := by
  cases env' with
  | nil => exact ⟨env, rfl⟩
  | cons n rest =>
    refine ⟨[n], ?_⟩
    cases env <;> simp [Binding.restore, Function.comp_def]

lemma Lets.setScope (hw : w.Lets s h b) (s' : Site) (h' : Nat) (env : Env) :
    (w.setScope s' h' env).Lets s h b := by
  by_cases hs : s = s'
  · subst hs
    rcases getElem?_setScope w s h' env h with heq | ⟨b₀, env', hb₀, heq⟩
    · exact hw.of_eq (by simp [binding?, heq])
    · rcases hw with hnone | ⟨env₀, hsome⟩
      · simp [binding?, hb₀] at hnone
      · obtain rfl : b₀ = b.restore env₀ := by simpa [binding?, hb₀] using hsome
        obtain ⟨env'', hrestore⟩ := restore_restore b env₀ env'
        exact .inr ⟨env'', by simp [binding?, heq, hrestore]⟩
  · exact hw.of_eq (binding?_setLayers_of_ne hs _)

lemma Lets.dropAbove (hw : w.Lets s h b) (s' : Site) (h' : Nat) (unwinding : Bool) :
    (w.dropAbove s' h' unwinding).1.Lets s h b := by
  by_cases hs : s = s'
  · subst hs
    by_cases hlt : h < h'
    · exact hw.of_eq (by simp [binding?, layers_dropAbove, hlt])
    · have hget : ((w.layers s).take h')[h]? = none :=
        List.getElem?_eq_none (by rw [List.length_take]; omega)
      exact .inl (by simp only [binding?, layers_dropAbove, hget])
  · exact hw.of_eq (binding?_setLayers_of_ne hs _)

/-- What is built next to an operation leaves it alone. -/
lemma lets_fill (hb : w.binding? s h = some b) (s' : Site) (h' : Nat) (make : Nat → Layer) :
    (w.fill s' h' make).1.Lets s h b := by
  by_cases hv : w.isVacant s' h' = true
  · rw [fill_of_isVacant hv]
    refine lets_of_binding ?_
    by_cases hs : s = s'
    · subst hs
      rw [binding?_eq_some_iff] at hb ⊢
      have hlt : h < (w.layers s).length := (List.getElem?_eq_some_iff.1 hb).1
      simpa [List.getElem?_append_left hlt] using hb
    · simpa [binding?, layers_put_of_ne _ hs] using hb
  · rw [fill_of_not_isVacant (by simpa using hv)]
    exact (lets_of_binding hb).note _ _

end World

/-- A configuration that a move leads to, above the frames listed, which has left an operation
alone. -/
structure Config.Spares (s : Site) (h : Nat) (b : Binding) (K : List Frame) (c : Config) :
    Prop where
  binding : c.world.Lets s h b
  control : c.control ≠ .build s h
  stack : c.stack.countP (Frame.isHandoff s h) = K.countP (Frame.isHandoff s h)

namespace Machine

section Spares

variable {w w' : World} {s s' : Site} {h h' : Nat} {b : Binding} {K : List Frame}

/-! ### Moves that have nothing to do with an operation -/

lemma spares_finishOr (hw : w.Lets s h b) (raised : Option Payload) :
    (finishOr w raised K).Spares s h b K := by
  cases raised with
  | none => exact ⟨hw, by simp [finish], rfl⟩
  | some m => exact ⟨hw, by simp, rfl⟩

lemma spares_connectLeaf (hb : w.binding? s h = some b) (make : Nat → Layer)
    (after : Option Payload) : (connectLeaf w s' h' make after K).Spares s h b K := by
  have hfill := World.lets_fill hb s' h' make
  revert hfill
  unfold connectLeaf
  rcases w.fill s' h' make with ⟨w', _ | _⟩
  · exact fun hfill => ⟨hfill, by simp [fault], rfl⟩
  · exact fun hfill => spares_finishOr hfill after

lemma spares_connectScript (hb : w.binding? s h = some b) (sc : Script) (r : Receiver) :
    (connectScript w sc r s' h' K).Spares s h b K := by
  have hb' : (w.note s' [.connected sc.label]).binding? s h = some b := hb
  unfold connectScript
  split
  · exact spares_connectLeaf hb' _ _
  · exact spares_connectLeaf hb' _ _
  · exact ⟨World.lets_of_binding hb, by simp, rfl⟩
  · exact ⟨World.lets_of_binding hb, by simp, by simp [Frame.isHandoff]⟩

lemma spares_connect (hb : w.binding? s h = some b) (x : Sender) (r : Receiver) :
    (connect w x r s' h' K).Spares s h b K := by
  cases x with
  | ready c => exact spares_connectLeaf hb _ _
  | leaf l => exact spares_connectLeaf (w := w.note s' _) hb _ _
  | exploding built =>
    cases built with
    | none => exact ⟨World.lets_of_binding hb, by simp [connect, fault], rfl⟩
    | some label => exact spares_connectLeaf (w := w.note s' _) hb _ _
  | script sc => exact spares_connectScript hb sc r
  | either which x =>
    have hfill := World.lets_fill hb s' h' (.either · which)
    revert hfill
    simp only [connect]
    rcases w.fill s' h' (.either · which) with ⟨w', _ | _⟩
    · exact fun hfill => ⟨hfill.note _ _, by simp [fault], rfl⟩
    · exact fun hfill => ⟨hfill, by simp, by simp [Frame.isHandoff]⟩
  | bind x f next =>
    have hfill := World.lets_fill (w := w.note s' [.logged (w.nextSerial s') .connecting]) hb s' h'
      (newBinding f next r)
    revert hfill
    simp only [connect]
    rcases World.fill _ s' h' (newBinding f next r) with ⟨w', _ | _⟩
    · exact fun hfill => ⟨hfill.note _ _, by simp [fault], rfl⟩
    · exact fun hfill => ⟨hfill, by simp, by simp [Frame.isHandoff]⟩

lemma spares_startLeaf (hw : w.Lets s h b) (l : Leaf) (r : Receiver) :
    (startLeaf w l r s' K).Spares s h b K := by
  simp only [startLeaf]
  generalize (if l.inspecting then _ else _ : List Act) = acts
  split_ifs
  · exact ⟨(hw.note _ _).note _ _, by simp, by simp [Frame.isHandoff]⟩
  · exact ⟨hw.of_places rfl, by simp [finish], rfl⟩
  · exact ⟨hw.note _ _, by simp, rfl⟩

lemma spares_start (hb : w.binding? s h = some b) : (start w s' h' K).Spares s h b K := by
  have hw := World.lets_of_binding hb
  unfold start
  split
  · exact ⟨hw, by simp [fault], rfl⟩
  · exact ⟨hw, by simp [fault], rfl⟩
  · exact ⟨hw.setLayer (.inl (by simp [Layer.kind])), by simp, rfl⟩
  · exact ⟨hw.note _ _, by simp [fault], rfl⟩
  · exact spares_startLeaf ((hw.note _ _).setLayer (.inl (by simp [Layer.kind]))) _ _
  · exact ⟨hw.note _ _, by simp [fault], rfl⟩
  · next k sc r _ =>
    have hset : ((w.note s' [.started sc.label]).setLayer s' h' (.script k sc none)).Lets s h b :=
      (hw.note _ _).setLayer (.inl (by simp [Layer.kind]))
    exact ⟨hset.of_places rfl, by simp, rfl⟩
  · exact ⟨hw, by simp, rfl⟩
  · split
    · exact ⟨hw.note _ _, by simp, rfl⟩
    · exact ⟨hw.note _ _, by simp [fault], rfl⟩

lemma spares_pass (hw : w.Lets s h b) (hne : ¬(s' = s ∧ h' = h)) (b' : Binding)
    (c : Completion Value Failure) : (pass w s' h' b' c K).Spares s h b K := by
  unfold pass
  split
  · exact ⟨hw.setBinding hne _, by simp, rfl⟩
  · exact ⟨hw.note _ _, by simp [fault], rfl⟩

lemma spares_receive (hw : w.Lets s h b) (hne : ¬(s' = s ∧ h' = h)) (role : Role) (b' : Binding)
    (c : Completion Value Failure) : (receive w role s' h' b' c K).Spares s h b K := by
  unfold receive
  split
  · next v =>
    refine ⟨?_, ?_, ?_⟩
    · exact (((hw.note _ _).setBinding hne _).dropAbove _ _ _).setBinding hne _
    · simp only [accept]
      cases (World.dropAbove _ _ _ _).2
      · simpa using hne
      · simp
    · have hframe : Frame.isHandoff s h (.handoff s' h') = false := by
        simpa [Frame.isHandoff] using hne
      simp [accept, hframe]
  · exact spares_pass (hw.note _ _) hne _ _
  · exact spares_pass (hw.note _ _) hne _ _
  · exact spares_pass hw hne _ _

lemma spares_complete (hb : w.binding? s h = some b) {r : Receiver}
    (hr : ∀ role, r ≠ .child role s h) (c : Completion Value Failure) :
    (complete w r c K).Spares s h b K := by
  have hw := World.lets_of_binding hb
  cases r with
  | child role s' h' =>
    have hne : ¬(s' = s ∧ h' = h) := by
      rintro ⟨rfl, rfl⟩
      exact hr role rfl
    simp only [complete]
    split
    · exact ⟨hw.note _ _, by simp [finish], rfl⟩
    · split_ifs
      · exact spares_receive hw hne _ _ _
      · exact ⟨hw.note _ _, by simp [fault], rfl⟩
  | observer home o => exact ⟨hw.note _ _, by simp [complete], by simp [complete, Frame.isHandoff]⟩
  | recorder home k => exact ⟨hw.of_places rfl, by simp [complete, finish], rfl⟩
  | waiter id =>
    simp only [complete, completeWaiter]
    split_ifs
    · exact ⟨hw.of_places rfl, by simp [finish], rfl⟩
    · exact ⟨hw.note _ _, by simp [finish], rfl⟩

lemma spares_build (hb : w.binding? s h = some b) (hne : ¬(s' = s ∧ h' = h)) :
    (build w s' h' K).Spares s h b K := by
  have hw := World.lets_of_binding hb
  unfold build
  split
  · exact ⟨hw, by simp [finish], rfl⟩
  · split
    · exact ⟨hw.setBinding hne _, by simp [fault], rfl⟩
    · simp only
      split
      · exact ⟨((hw.note _ _).setScope _ _ _).setBinding hne _, by simp, rfl⟩
      · exact ⟨(((hw.note _ _).setScope _ _ _).note _ _).setBinding hne _, by simp, rfl⟩

lemma spares_react (hb : w.binding? s h = some b) (home : Site) (label : String)
    (actions : List Action) : (react w home label actions K).Spares s h b K := by
  have hw := World.lets_of_binding hb
  unfold react
  split
  · exact ⟨hw, by simp [finish], rfl⟩
  · exact ⟨hw, by simp, rfl⟩
  · exact ⟨hw.note _ _, by simp, rfl⟩
  · exact ⟨hw, by simp, by simp [Frame.isHandoff]⟩

lemma spares_deliver (hw : w.Lets s h b) (r : Run) (d : Delivery) {frame : Run → Frame}
    (hf : ∀ r, (frame r).isHandoff s h = false) : (deliver w r d frame K).Spares s h b K := by
  unfold deliver
  split
  · exact ⟨hw.note _ _, by simp [fault], by simp [fault, hf]⟩
  · exact ⟨hw, by simp, by simp [hf]⟩

lemma spares_instruct (hb : w.binding? s h = some b) (r : Run) (i : Instr) (rest : List Instr) :
    (instruct w r i rest K).Spares s h b K := by
  have hw := World.lets_of_binding hb
  cases i with
  | complete d =>
    simp only [instruct]
    exact spares_deliver hw r d fun _ => rfl
  | attempt d =>
    simp only [instruct]
    exact spares_deliver hw r d fun _ => rfl
  | stopDone =>
    simp only [instruct]
    split_ifs
    · exact spares_deliver (hw.note _ _) r .done (by simp [Frame.isHandoff])
    · exact ⟨hw, by simp, rfl⟩
  | request k =>
    refine ⟨?_, by simp [instruct], rfl⟩
    simp only [instruct]
    refine World.Lets.note (hw.of_places ?_) _ _
    unfold World.request
    split_ifs <;> rfl
  | poke d n => exact ⟨hw.setScope _ _ _, by simp [instruct], rfl⟩
  | defer => exact ⟨hw.of_places rfl, by simp [instruct, finish], rfl⟩
  | later steps => exact ⟨hw.of_places rfl, by simp [instruct], rfl⟩
  | _ => exact ⟨hw.of_places rfl, by simp [instruct], rfl⟩

lemma spares_follow (hb : w.binding? s h = some b) (r : Run) (steps : List Instr) :
    (follow w r steps K).Spares s h b K := by
  have hw := World.lets_of_binding hb
  unfold follow
  split
  · exact ⟨hw.of_places rfl, by simp [finish], rfl⟩
  · split_ifs
    · exact spares_instruct hb _ _ _
    · split
      · exact spares_instruct hb _ _ _
      · exact spares_instruct hb _ _ _
      · exact ⟨hw, by simp, rfl⟩

lemma spares_runTask (hb : w.binding? s h = some b) (t : Task) :
    (runTask w t K).Spares s h b K := by
  have hw := World.lets_of_binding hb
  unfold runTask
  split
  · exact ⟨hw, by simp, rfl⟩
  · split_ifs
    · exact ⟨hw.note _ _, by simp, rfl⟩
    · exact ⟨hw.note _ _, by simp [finish], rfl⟩
  · have hplaces := fun ts acts => (places_foldl_schedule ts (w.record none acts)).1
    exact spares_finishOr ((hw.of_places rfl).of_places (hplaces _ _)) _

lemma spares_connectPlace (hb : w.binding? s h = some b) (x : Sender) (r : Receiver) :
    (connectPlace w s' x r K).Spares s h b K := by
  have hw := World.lets_of_binding hb
  unfold connectPlace
  split
  · exact ⟨hw.setLayers_nil s', by simp, rfl⟩
  · split_ifs
    · exact ⟨hw, by simp, rfl⟩
    · exact ⟨hw.note _ _, by simp [refuse], rfl⟩

lemma spares_withPlace (hb : w.binding? s h = some b) {c : Config} (hc : c.Spares s h b K) :
    (withPlace w s' c K).Spares s h b K := by
  unfold withPlace
  split
  · exact hc
  · exact ⟨World.lets_of_binding hb, by simp [refuse], rfl⟩

lemma spares_call (hb : w.binding? s h = some b) (x : Call) : (call w x K).Spares s h b K := by
  have hw := World.lets_of_binding hb
  cases x with
  | connect p y r => exact spares_connectPlace hb y r
  | start p => exact spares_withPlace hb ⟨hw, by simp, rfl⟩
  | clear p => exact spares_withPlace hb (spares_finishOr (hw.dropAbove _ _ _) _)
  | tick =>
    simp only [call]
    split
    · exact ⟨hw, by simp, rfl⟩
    · exact ⟨hw.of_places rfl, by simp, by simp [Frame.isHandoff]⟩
  | drain =>
    simp only [call]
    split
    · exact ⟨hw, by simp [finish], rfl⟩
    · exact ⟨hw.of_places rfl, by simp, by simp [Frame.isHandoff]⟩
  | request k =>
    refine ⟨hw.of_places ?_, by simp [call], rfl⟩
    simp only [call, World.request]
    split_ifs <;> rfl
  | wait y =>
    have hwait : ({ w with waiter := some { id := w.waits }, waits := w.waits + 1 } : World).Lets
        s h b := hw.of_places rfl
    exact ⟨(hwait.setLayers_nil .wait).note _ _, by simp [call], by simp [call, Frame.isHandoff]⟩
  | _ => exact ⟨hw.of_places rfl, by simp [call, finish], rfl⟩

lemma spares_unblock (hb : w.binding? s h = some b) : (unblock w K).Spares s h b K := by
  have hw := World.lets_of_binding hb
  unfold unblock
  split
  · exact ⟨(hw.dropAbove .wait 0 true).of_places rfl, by simp [release, fault], rfl⟩
  · next c _ =>
    have hdrop := hw.dropAbove .wait 0 false
    revert hdrop
    simp only [release]
    rcases w.dropAbove .wait 0 false with ⟨w', _ | m⟩
    · exact fun hdrop => ⟨hdrop.of_places rfl, by simp, rfl⟩
    · exact fun hdrop => ⟨hdrop.of_places rfl, by simp, rfl⟩

lemma spares_abandon (hb : w.binding? s h = some b) : (abandon w K).Spares s h b K := by
  have hw := World.lets_of_binding hb
  unfold abandon
  split
  · exact ⟨hw, by simp [finish], rfl⟩
  · exact spares_finishOr ((hw.note _ _).dropAbove _ _ _) _

lemma spares_resume (hb : w.binding? s h = some b) (answer : Reply) {f : Frame}
    (hf : f.isHandoff s h = false) : (resume w answer f K).Spares s h b K := by
  have hw := World.lets_of_binding hb
  cases f with
  | handoff s' h' =>
    have hne : ¬(s' = s ∧ h' = h) := by simpa [Frame.isHandoff] using hf
    simp only [resume]
    split
    · exact ⟨hw, by simp [finish], rfl⟩
    · exact ⟨hw.setBinding hne _, by simp, rfl⟩
  | thenRaise m => exact spares_finishOr hw m
  | waitDrained => exact spares_abandon hb
  | waitOver => exact spares_unblock hb
  | waitConnected => exact ⟨hw, by simp [resume], by simp [resume, Frame.isHandoff]⟩
  | waitStarted => exact ⟨hw, by simp [resume], by simp [resume, Frame.isHandoff]⟩
  | _ => exact ⟨hw.of_places rfl, by simp [resume, finish], rfl⟩

lemma spares_unwind (hb : w.binding? s h = some b) (m : Payload) {f : Frame}
    (hf : f.isHandoff s h = false) : (unwind w m f K).Spares s h b K := by
  have hw := World.lets_of_binding hb
  cases f with
  | guard s' h' => exact ⟨hw.dropAbove _ _ _, by simp [unwind], rfl⟩
  | handoff s' h' =>
    have hne : ¬(s' = s ∧ h' = h) := by simpa [Frame.isHandoff] using hf
    simp only [unwind]
    split
    · exact ⟨hw, by simp, rfl⟩
    · exact spares_pass (hw.note _ _) hne _ _
  | waitOver => exact ⟨(hw.dropAbove .wait 0 true).of_places rfl, by simp [unwind], rfl⟩
  | _ => exact ⟨hw.of_places rfl, by simp [unwind], rfl⟩

end Spares

end Machine

/-! ### Moves of an operation -/

/-- A move from one configuration to another shows what a turn of an operation leads to. -/
def Effect.Seen (s : Site) (h : Nat) (c c' : Config) : Effect → Prop
  | raises m => c'.control = .raised m
  | completes r v => c'.control = .complete r v
  | stores v => c.control = .complete (.child .predecessor s h) (.value v)
  | calls _ _ => c.control = .build s h
  | connects => ∃ y, c'.control = .connect y (.child .successor s h) s (h + 1)
  | starts _ => c'.control = .start s (h + 1)

/-- The handoffs whose successors are being connected, from the frames that wait for them. -/
def Frame.handoffs (s : Site) (h : Nat) (K : List Frame) : List Stage :=
  List.replicate (K.countP (isHandoff s h)) .connecting

/-- A configuration shows an operation with the handoffs under way. -/
inductive Config.Shows (s : Site) (h : Nat) : Exposed → Config → Prop where
  | resting {b : Binding} {w : World} {control : Control} {K : List Frame}
      (hb : w.binding? s h = some b) (hc : control ≠ .build s h) :
      Shows s h ⟨b, Frame.handoffs s h K⟩ ⟨w, control, K⟩
  | building {b : Binding} {w : World} {K : List Frame} (hb : w.binding? s h = some b) :
      Shows s h ⟨b, .vacated none :: Frame.handoffs s h K⟩ ⟨w, .build s h, .handoff s h :: K⟩
  | failing {b : Binding} {w : World} {K : List Frame} {m : Payload} {stage : Stage}
      (hb : w.binding? s h = some b) (hstage : stage = .vacated (some m) ∨ stage = .calling) :
      Shows s h ⟨b, stage :: Frame.handoffs s h K⟩ ⟨w, .raised m, .handoff s h :: K⟩

namespace Config

variable {s : Site} {h : Nat} {b : Binding} {w : World} {K : List Frame} {x : Exposed}
  {c c' : Config}

/-- The move that leads to a configuration was a list of turns of an operation, unless the operation
is gone. -/
def Follows (s : Site) (h : Nat) (x : Exposed) (c c' : Config) : Prop :=
  c'.world.binding? s h = none ∨
    ∃ ts, c'.Shows s h (x.run ts).1 ∧ ∀ e ∈ (x.run ts).2, e.Seen s h c c'

lemma Spares.follows (hc : c'.Spares s h b K) : Follows s h ⟨b, Frame.handoffs s h K⟩ c c' := by
  rcases hc.binding with hnone | ⟨env, hb⟩
  · exact .inl hnone
  · refine .inr ⟨[.write env], ?_, by simp [Exposed.take]⟩
    have hstack : Frame.handoffs s h K = Frame.handoffs s h c'.stack := by
      simp [Frame.handoffs, hc.stack]
    simp only [Exposed.run_singleton, Exposed.take, hstack]
    exact .resting hb hc.control

lemma Shows.of_binding {control : Control} (hb : w.binding? s h = some b)
    (hc : control ≠ .build s h) {stages : List Stage} (hK : Frame.handoffs s h K = stages) :
    Shows s h ⟨b, stages⟩ ⟨w, control, K⟩ :=
  hK ▸ .resting hb hc

@[simp] lemma handoffs_cons_self : Frame.handoffs s h (.handoff s h :: K) =
    .connecting :: Frame.handoffs s h K := by
  simp [Frame.handoffs, Frame.isHandoff, List.replicate_succ]

lemma handoffs_cons {f : Frame} (hf : f.isHandoff s h = false) :
    Frame.handoffs s h (f :: K) = Frame.handoffs s h K := by
  simp [Frame.handoffs, hf]

lemma binding?_setBinding_self (hb : w.binding? s h = some b) (b' : Binding) :
    (w.setBinding s h b').binding? s h = some b' := by
  have hlt : h < (w.layers s).length :=
    (List.getElem?_eq_some_iff.1 (World.binding?_eq_some_iff.1 hb)).1
  simp [World.binding?_eq_some_iff, World.setBinding, World.setLayer, hlt]

/-- Completing the receiver of an operation is the same in the machine. -/
lemma shows_pass (hb : w.binding? s h = some b) (v : Completion Value Failure) :
    let p := Exposed.pass ⟨b, Frame.handoffs s h K⟩ v
    (Machine.pass w s h b v K).Shows s h p.1 ∧
      ∀ e ∈ p.2.toList, e.Seen s h c (Machine.pass w s h b v K) := by
  cases hr : b.receiver with
  | none =>
    simp only [Exposed.pass, Machine.pass, hr, fault]
    exact ⟨.resting hb (by simp), by simp [Effect.Seen]⟩
  | some r =>
    simp only [Exposed.pass, Machine.pass, hr]
    exact ⟨.resting (binding?_setBinding_self hb _) (by simp), by simp [Effect.Seen]⟩

lemma follows_accept (hb : w.binding? s h = some b) (hc : b.cleanup = .predecessor) (u : Value)
    (acts : List Act) :
    Follows s h ⟨b, Frame.handoffs s h K⟩ ⟨w, .complete (.child .predecessor s h) (.value u), K⟩
      (accept (w.note s acts) s h b u K) := by
  set w₁ := (w.note s acts).setBinding s h (b.store u) with hw₁
  set d := w₁.dropAbove s (h + 1) false with hd
  have hb₁ : w₁.binding? s h = some (b.store u) :=
    binding?_setBinding_self (w := w.note s acts) hb _
  have hb₂ : d.1.binding? s h = some (b.store u) := by
    simpa [World.binding?, hd, World.layers_dropAbove] using hb₁
  have hb₃ : (d.1.setBinding s h (b.store u).vacate).binding? s h = some (b.store u).vacate :=
    binding?_setBinding_self hb₂ _
  have haccept : accept (w.note s acts) s h b u K = ⟨d.1.setBinding s h (b.store u).vacate,
      d.2.elim (.build s h) .raised, .handoff s h :: K⟩ := rfl
  have hturns : Exposed.run ⟨b, Frame.handoffs s h K⟩
      [.complete .predecessor (.value u), .goOn d.2] =
        (⟨(b.store u).vacate, .vacated d.2 :: Frame.handoffs s h K⟩, [.stores u]) := by
    simp [Exposed.run_cons, Exposed.take, Exposed.complete, hc, Role.expects, Exposed.goOn]
  refine .inr ⟨[.complete .predecessor (.value u), .goOn d.2], ?_, ?_⟩
  · rw [hturns, haccept]
    cases d.2 with
    | none => exact .building hb₃
    | some m => exact .failing hb₃ (.inl rfl)
  · rw [hturns]
    simp [Effect.Seen]

/-- A completion that reaches an operation is a turn of it. -/
lemma follows_complete (hb : w.binding? s h = some b) (role : Role)
    (v : Completion Value Failure) :
    Follows s h ⟨b, Frame.handoffs s h K⟩ ⟨w, .complete (.child role s h) v, K⟩
      (complete w (.child role s h) v K) := by
  simp only [complete, hb]
  split_ifs with hexpects
  · have hpass (acts : List Act) (hv : role = .predecessor → ∀ u, v ≠ .value u) :
        Follows s h ⟨b, Frame.handoffs s h K⟩ ⟨w, .complete (.child role s h) v, K⟩
          (Machine.pass (w.note s acts) s h b (role.tag v) K) := by
      have hturn : Exposed.take ⟨b, Frame.handoffs s h K⟩ (.complete role v) =
          Exposed.pass ⟨b, Frame.handoffs s h K⟩ (role.tag v) := by
        simp only [Exposed.take, Exposed.complete, hexpects, if_true]
        split
        · exact absurd rfl (hv rfl _)
        · rfl
      refine .inr ⟨[.complete role v], ?_⟩
      rw [Exposed.run_singleton, hturn]
      exact shows_pass (w := w.note s acts) hb _
    cases role with
    | predecessor =>
      cases v with
      | value u => exact follows_accept hb hexpects u _
      | error e => exact hpass _ (by simp)
      | done => exact hpass _ (by simp)
    | successor => simpa [receive, Role.tag] using hpass [] (by simp)
  · refine .inr ⟨[.complete role v], ?_⟩
    rw [Exposed.run_singleton]
    simp only [Exposed.take, Exposed.complete, hexpects, if_false, fault]
    exact ⟨.resting hb (by simp), by simp [Effect.Seen]⟩

/-- Starting an operation is a turn of it. -/
lemma follows_start (hb : w.binding? s h = some b) :
    Follows s h ⟨b, Frame.handoffs s h K⟩ ⟨w, .start s h, K⟩ (start w s h K) := by
  refine .inr ⟨[.start], ?_⟩
  rw [Exposed.run_singleton]
  simp only [start, World.binding?_eq_some_iff.1 hb, Exposed.take]
  split
  · exact ⟨.resting hb (by simp), by simp [Effect.Seen]⟩
  · exact ⟨.resting hb (by simp), by simp [Effect.Seen, fault]⟩

/-- The factory of an operation is called in its turn, and what it builds is connected. -/
lemma follows_build (hb : w.binding? s h = some b) :
    Follows s h ⟨b, .vacated none :: Frame.handoffs s h K⟩ ⟨w, .build s h, .handoff s h :: K⟩
      (build w s h (.handoff s h :: K)) := by
  cases hf : b.factory with
  | none =>
    refine .inr ⟨[.goOn none], ?_⟩
    simp only [Exposed.run_singleton, Exposed.take, Exposed.goOn, hf, build, hb, fault]
    exact ⟨.failing (binding?_setBinding_self hb _) (.inl rfl), by simp⟩
  | some f =>
    obtain ⟨f, next⟩ := f
    set env := (f.call (b.stored ++ w.scope s h)).env
    have hscope (acts : List Act) (env' : Env) :
        ((w.note s acts).setScope s h env').binding? s h = some b :=
      (binding?_setScope _).trans hb
    cases hm : (f.call (b.stored ++ w.scope s h)).raised with
    | some m =>
      refine .inr ⟨[.goOn none, .write env], ?_⟩
      simp only [Exposed.run_cons, Exposed.run_nil, Exposed.take, Exposed.goOn, hf, build, hb, hm]
      exact ⟨.failing (binding?_setBinding_self (hscope _ _) _) (.inr rfl), by simp [Effect.Seen]⟩
    | none =>
      refine .inr ⟨[.goOn none, .write env, .goOn none], ?_⟩
      simp only [Exposed.run_cons, Exposed.run_nil, Exposed.take, Exposed.goOn, hf, build, hb, hm]
      refine ⟨.of_binding (binding?_setBinding_self (b := b) ?_ _) (by simp) (by simp), ?_⟩
      · exact hscope _ _
      · simp [Effect.Seen]

/-- What a handoff was waiting for has returned. -/
lemma follows_resume (hb : w.binding? s h = some b) (answer : Reply) :
    Follows s h ⟨b, .connecting :: Frame.handoffs s h K⟩ ⟨w, .done answer, .handoff s h :: K⟩
      (resume w answer (.handoff s h) K) := by
  refine .inr ⟨[.goOn none], ?_⟩
  simp only [Exposed.run_singleton, Exposed.take, Exposed.goOn, resume, hb]
  exact ⟨.resting (binding?_setBinding_self hb _) (by simp), by simp [Effect.Seen]⟩

/-- What a handoff was waiting for has raised a payload. -/
lemma follows_unwind (hb : w.binding? s h = some b) (m : Payload) {stage : Stage}
    (hstage : stage = .vacated (some m) ∨ stage = .calling ∨ stage = .connecting) :
    Follows s h ⟨b, stage :: Frame.handoffs s h K⟩ ⟨w, .raised m, .handoff s h :: K⟩
      (unwind w m (.handoff s h) K) := by
  have hturn : Exposed.take ⟨b, stage :: Frame.handoffs s h K⟩ (.goOn (some m)) =
      Exposed.pass ⟨b, Frame.handoffs s h K⟩ (.error (.panicked m)) := by
    rcases hstage with rfl | rfl | rfl <;> rfl
  refine .inr ⟨[.goOn (some m)], ?_⟩
  rw [Exposed.run_singleton, hturn]
  simp only [unwind, hb]
  exact shows_pass (w := w.note s _) hb _

/-- A move of the machine is a list of turns of each operation that is still there afterwards. -/
lemma Shows.move (hx : c.Shows s h x) (hm : c.Moves c') : Follows s h x c c' := by
  cases hx with
  | building hb =>
    obtain rfl : _ = c' := Option.some.inj hm
    exact follows_build hb
  | failing hb hstage =>
    obtain rfl : _ = c' := Option.some.inj hm
    exact follows_unwind hb _ (hstage.imp_right .inl)
  | @resting b w control K hb hc =>
    cases control with
    | connect y r s' h' =>
      obtain rfl : _ = c' := Option.some.inj hm
      exact (spares_connect hb y r).follows
    | start s' h' =>
      obtain rfl : _ = c' := Option.some.inj hm
      by_cases heq : s' = s ∧ h' = h
      · obtain ⟨rfl, rfl⟩ := heq
        exact follows_start hb
      · exact (spares_start hb).follows
    | complete r v =>
      obtain rfl : _ = c' := Option.some.inj hm
      by_cases hr : ∃ role, r = .child role s h
      · obtain ⟨role, rfl⟩ := hr
        exact follows_complete hb role v
      · exact (spares_complete hb (fun role hrole => hr ⟨role, hrole⟩) v).follows
    | build s' h' =>
      obtain rfl : _ = c' := Option.some.inj hm
      exact (spares_build hb (by simpa using hc)).follows
    | react home label actions =>
      obtain rfl : _ = c' := Option.some.inj hm
      exact (spares_react hb home label actions).follows
    | follow r steps =>
      obtain rfl : _ = c' := Option.some.inj hm
      exact (spares_follow hb r steps).follows
    | call y =>
      obtain rfl : _ = c' := Option.some.inj hm
      exact (spares_call hb y).follows
    | task t =>
      obtain rfl : _ = c' := Option.some.inj hm
      exact (spares_runTask hb t).follows
    | done answer =>
      cases K with
      | nil => simp [Moves, Config.next] at hm
      | cons f K =>
        obtain rfl : _ = c' := Option.some.inj hm
        by_cases hf : f = .handoff s h
        · subst hf
          rw [handoffs_cons_self]
          exact follows_resume hb answer
        · have hf : f.isHandoff s h = false := by
            cases f <;> simp_all [Frame.isHandoff]
          rw [handoffs_cons hf]
          exact (spares_resume hb answer hf).follows
    | raised m =>
      cases K with
      | nil => simp [Moves, Config.next] at hm
      | cons f K =>
        obtain rfl : _ = c' := Option.some.inj hm
        by_cases hf : f = .handoff s h
        · subst hf
          rw [handoffs_cons_self]
          exact follows_unwind hb m (.inr (.inr rfl))
        · have hf : f.isHandoff s h = false := by
            cases f <;> simp_all [Frame.isHandoff]
          rw [handoffs_cons hf]
          exact (spares_unwind hb m hf).follows

end Config

end Handoff
