import Handoff.Machine
import Handoff.Proofs.Lifetime.Upkeep

/-!
# The machine keeps the books

Every move of the machine leaves the books of all numbered places in order, whatever is called and
by whom: `Config.keeps_next`, from one lemma for each function of the machine. A move relies on two
things that the move before has seen to, `Config.Steady`: what is connected goes on top of what
stands in its place, and a factory is called with nothing inside its operation.
-/

namespace Handoff

open Act (Unbooked)

/-- What a move relies on: the slot to connect in is ready, and there is nothing inside the binding
operation whose factory is to be called. -/
def Config.Steady (c : Config) : Prop :=
  match c.control with
  | .connect _ _ s h => s ≠ .wait → c.world.Ready s h
  | .build s h => s ≠ .wait → ∀ b, c.world.binding? s h = some b →
    (c.world.layers s).length = h + 1
  | _ => True

namespace Machine

/-- A configuration that a move may lead to from a world: the books are in order, and the next move
has what it relies on. -/
def Keeps (w : World) (c : Config) : Prop := w.Turns c.world ∧ c.Steady

variable {w w' : World} {s : Site} {h : Nat} {K : List Frame}

lemma Keeps.after {c : Config} (hw : w.Turns w') (hc : Keeps w' c) : Keeps w c :=
  ⟨hw.trans hc.1, hc.2⟩

lemma keeps_finish (hw : w.Turns w') (K : List Frame) : Keeps w (finish w' K) := ⟨hw, trivial⟩

lemma keeps_raised (hw : w.Turns w') (p : Payload) (K : List Frame) :
    Keeps w ⟨w', .raised p, K⟩ := ⟨hw, trivial⟩

lemma keeps_fault (hw : w.Turns w') (f : Fault) (K : List Frame) : Keeps w (fault w' f K) :=
  ⟨hw, trivial⟩

lemma keeps_finishOr (hw : w.Turns w') (p : Option Payload) (K : List Frame) :
    Keeps w (finishOr w' p K) := by
  cases p with
  | none => exact keeps_finish hw K
  | some p => exact keeps_raised hw p K

lemma keeps_complete (hw : w.Turns w') (r : Receiver) (c : Completion Value Failure)
    (K : List Frame) : Keeps w ⟨w', .complete r c, K⟩ := ⟨hw, trivial⟩

lemma keeps_start (hw : w.Turns w') (s : Site) (h : Nat) (K : List Frame) :
    Keeps w ⟨w', .start s h, K⟩ := ⟨hw, trivial⟩

lemma keeps_follow (hw : w.Turns w') (r : Run) (steps : List Instr) (K : List Frame) :
    Keeps w ⟨w', .follow r steps, K⟩ := ⟨hw, trivial⟩

/-! ### Connecting -/

lemma keeps_connectLeaf (hw : s ≠ .wait → w.Ready s h) (make : Nat → Layer)
    (hserial : ∀ k, (make k).serial = k) (hholds : ∀ k, (make k).holds = false)
    (after : Option Payload) (K : List Frame) : Keeps w (connectLeaf w s h make after K) := by
  have hfill := World.Turns.fill hw make hserial hholds
  rw [connectLeaf]
  split <;> rename_i w' heq <;> rw [heq] at hfill
  · exact keeps_finishOr hfill after K
  · exact keeps_fault hfill .occupiedConnect K

lemma keeps_connectScript (hw : s ≠ .wait → w.Ready s h) (sc : Script) (r : Receiver)
    (K : List Frame) : Keeps w (connectScript w sc r s h K) := by
  set w₀ := w.note s [.connected sc.label] with hw₀
  have hlog : w.Turns w₀ := .note w s (by simp [Act.isBooked])
  have hw' : s ≠ .wait → w₀.Ready s h := hw
  refine .after hlog ?_
  simp only [connectScript, ← hw₀]
  have hleaf (after : Option Payload) :
      Keeps w₀ (connectLeaf w₀ s h (.script · sc (some r)) after K) :=
    keeps_connectLeaf hw' _ (fun _ => rfl) (fun _ => rfl) after K
  cases sc.connecting with
  | fill => exact hleaf none
  | half p => exact hleaf (some p)
  | raise p => exact keeps_raised (.note w₀ s (unbooked_drop_receiver r)) p K
  | deliver d p => exact keeps_complete (.refl w₀) r _ _

lemma keeps_fill (hw : s ≠ .wait → w.Ready s h) (make : Nat → Layer)
    (hserial : ∀ k, (make k).serial = k) (hholds : ∀ k, (make k).holds = false)
    (hmake : ∀ k, (make k).cleanup? ≠ some .invalid) :
    w.Turns (w.fill s h make).1 ∧
      ((w.fill s h make).2 = true → s ≠ .wait → (w.fill s h make).1.Ready s (h + 1)) :=
  ⟨.fill hw make hserial hholds, fun hfill hs => World.ready_of_fill (hw hs) make hmake hfill⟩

lemma keeps_connect (hw : s ≠ .wait → w.Ready s h) (x : Sender) (r : Receiver) (K : List Frame) :
    Keeps w (connect w x r s h K) := by
  have hnote (acts : List Act) (ha : Unbooked acts) (make : Nat → Layer)
      (hserial : ∀ k, (make k).serial = k) (hholds : ∀ k, (make k).holds = false)
      (after : Option Payload) : Keeps w (connectLeaf (w.note s acts) s h make after K) :=
    .after (.note w s ha) (keeps_connectLeaf (w := w.note s acts) hw make hserial hholds after K)
  cases x with
  | ready c =>
    exact keeps_connectLeaf hw (.ready · (some (c, r))) (fun _ => rfl) (fun _ => rfl) none K
  | leaf l =>
    exact hnote [.connected l.label] (by simp [Act.isBooked]) (.leaf · l (some r))
      (fun _ => rfl) (fun _ => rfl) none
  | exploding built =>
    cases built with
    | none => exact keeps_fault (.note w s (unbooked_drop_receiver r)) .connectExploded K
    | some label =>
      exact hnote [.connected label] (by simp [Act.isBooked])
        (.leaf · { label, completion := .done } (some r)) (fun _ => rfl) (fun _ => rfl) _
  | script sc => exact keeps_connectScript hw sc r K
  | either which x =>
    obtain ⟨hturns, hready⟩ := keeps_fill hw (.either · which) (fun _ => rfl)
      (fun _ => rfl) (fun _ => by simp [Layer.cleanup?])
    simp only [connect]
    split
    · rename_i w' heq
      rw [heq] at hturns hready
      exact ⟨hturns, hready rfl⟩
    · rename_i w' heq
      rw [heq] at hturns
      refine keeps_fault (hturns.trans (.note w' s ?_)) .occupiedConnect K
      simp [unbooked_drop_sender, unbooked_drop_receiver]
  | bind p f next =>
    set w₀ := w.note s [.logged (w.nextSerial s) .connecting] with hw₀
    have hlog : w.Turns w₀ := .note w s (by simp [Act.isBooked])
    obtain ⟨hturns, hready⟩ := keeps_fill (w := w₀) hw (newBinding f next r)
      (fun _ => rfl) (fun _ => rfl) (fun _ => by simp [newBinding, Layer.cleanup?])
    simp only [connect, ← hw₀]
    split
    · rename_i w' heq
      rw [heq] at hturns hready
      exact ⟨hlog.trans hturns, hready rfl⟩
    · rename_i w' heq
      rw [heq] at hturns
      exact keeps_fault (hlog.trans (hturns.trans (.note w' s (unbooked_drop_sender p))))
        .occupiedConnect K

/-! ### Starting -/

lemma alters_leaf {l l' : Layer} (hserial : l'.serial = l.serial) (hl : l.cleanup? = none)
    (hl' : l'.cleanup? = none) : l.Alters l' := by
  refine ⟨hserial, ?_, by simp [hl'], by simp [hl']⟩
  cases l <;> cases l' <;> simp_all [Layer.holds, Layer.cleanup?]

lemma keeps_startLeaf (w : World) (l : Leaf) (r : Receiver) (s : Site) (K : List Frame) :
    Keeps w (startLeaf w l r s K) := by
  set acts : List Act := if l.inspecting then
    [.remark ("chain " ++ l.label ++ ": " ++ " > ".intercalate (w.namesFrom r))] else [] with hacts
  have hwalk : w.Turns (w.note s acts) := by
    refine .note w s ?_
    rw [hacts]
    split_ifs <;> simp [Act.isBooked]
  refine .after hwalk ?_
  simp only [startLeaf, ← hacts]
  split_ifs
  · exact keeps_complete (.note _ s (by simp [Act.isBooked])) r .done _
  · exact keeps_finish (.of_eq rfl rfl) K
  · exact keeps_complete (.refl _) r l.completion K

lemma keeps_startSlot (w : World) (s : Site) (h : Nat) (K : List Frame) :
    Keeps w (start w s h K) := by
  have hnote (a : Act) (ha : a.isBooked = false) : w.Turns (w.note s [a]) :=
    .note w s (by simp [ha])
  cases hl : (w.layers s)[h]? with
  | none => simpa [start, hl] using keeps_fault (.refl w) .vacantStart K
  | some l =>
    cases l with
    | ready k held =>
      cases held with
      | none => simpa [start, hl] using keeps_fault (.refl w) .readyRestarted K
      | some held =>
        have hset : w.Turns (w.setLayer s h (.ready k none)) :=
          .setLayer hl (alters_leaf rfl rfl rfl)
        simpa [start, hl] using keeps_complete hset held.2 held.1 K
    | leaf k l held =>
      cases held with
      | none =>
        simpa [start, hl] using keeps_fault (hnote (.started l.label) rfl) .leafRestarted K
      | some r =>
        have hset : (w.note s [.started l.label]).Turns
            ((w.note s [.started l.label]).setLayer s h (.leaf k l none)) :=
          .setLayer hl (alters_leaf rfl rfl rfl)
        simpa [start, hl] using
          Keeps.after (hnote (.started l.label) rfl) (.after hset (keeps_startLeaf _ l r s K))
    | script k sc held =>
      cases held with
      | none =>
        simpa [start, hl] using keeps_fault (hnote (.started sc.label) rfl) .scriptRestarted K
      | some r =>
        set w' := (w.note s [.started sc.label]).setLayer s h (.script k sc none)
        have hset : w.Turns w' :=
          (hnote (.started sc.label) rfl).trans (.setLayer hl (alters_leaf rfl rfl rfl))
        have hrun : w'.Turns { w' with runs := w'.runs + 1 } := .of_eq rfl rfl
        simpa [start, hl] using
          keeps_follow (hset.trans hrun) (firstRun w sc r s h k) sc.start K
    | either k which => simpa [start, hl] using keeps_start (.refl w) s (h + 1) K
    | bind b =>
      have hlog := hnote (.logged b.serial .starting) rfl
      simp only [start, hl]
      split_ifs
      · exact keeps_start hlog s (h + 1) K
      · exact keeps_fault hlog .bindRestarted K

/-! ### Completing -/

/-- A binding operation that keeps what it keeps and is past the handoff. -/
lemma alters_bind {b b' : Binding} (hserial : b'.serial = b.serial)
    (hvalue : b'.value.isSome = b.value.isSome)
    (hcleanup : b'.cleanup = b.cleanup ∨ b'.cleanup = .values ∨ b'.cleanup = .successor) :
    (Layer.bind b).Alters (.bind b') := by
  refine ⟨hserial, hvalue, ?_, ?_⟩ <;> rcases hcleanup with h | h | h <;>
    simp [Layer.cleanup?, h]

lemma keeps_pass {b : Binding} (hb : w.binding? s h = some b) (c : Completion Value Failure)
    (K : List Frame) : Keeps w (pass w s h b c K) := by
  have hset : w.Turns (w.setBinding s h b.spend) := .setBinding hb (alters_bind rfl rfl (.inl rfl))
  rw [pass]
  cases b.receiver with
  | none => exact keeps_fault (.note w s (unbooked_dropCarried c)) .bindCompleted K
  | some r => exact keeps_complete hset r c K

lemma exists_holds {b : Binding} (hb : w.binding? s h = some b) :
    ∃ below above n, below.length = h ∧ w.Holds s (below ++ .bind b :: above) n := by
  have hget := World.binding?_eq_some_iff.1 hb
  obtain ⟨hlt, hval⟩ := List.getElem?_eq_some_iff.1 hget
  refine ⟨(w.layers s).take h, (w.layers s).drop (h + 1), w.nextSerial s, by simp; omega, ?_⟩
  rw [← hval, ← List.drop_eq_getElem_cons hlt, List.take_append_drop]
  cases hq : w.places.get? s with
  | none => simp [World.layers, World.place, hq] at hlt
  | some q => simp [World.Holds, World.layers, World.nextSerial, World.place, hq]

lemma keeps_accept {b : Binding} (hb : w.binding? s h = some b) (hc : b.cleanup = .predecessor)
    (v : Value) (K : List Frame) :
    Keeps w (accept (w.note s [.logged b.serial .produced, .stored b.serial]) s h b v K) := by
  obtain ⟨below, above, n, rfl, hw⟩ := exists_holds hb
  set w' := w.after s (below ++ [.bind (b.store v).vacate]) n
    ([.logged b.serial .produced, .stored b.serial] ++
      (Layer.dropAll false (Layer.scope (below ++ [.bind (b.store v)])) above).acts) with hw'
  have hturns : w.Turns w' := by
    refine .after w ?_
    intro _
    have hplace : w.place s = ⟨below ++ .bind b :: above, n⟩ := by
      simp [World.place, show w.places.get? s = _ from hw]
    rw [hplace]
    exact .accepted hc v false _
  have haccept : accept (w.note s [.logged b.serial .produced, .stored b.serial]) s below.length
      b v K = ⟨w', (Layer.dropAll false (Layer.scope (below ++ [.bind (b.store v)]))
        above).raised.elim (.build s below.length) .raised, .handoff s below.length :: K⟩ := by
    rw [← World.after_self hw]
    simp [accept, World.take_top, hw']
  rw [haccept]
  refine ⟨hturns, ?_⟩
  cases (Layer.dropAll false (Layer.scope (below ++ [.bind (b.store v)])) above).raised with
  | none =>
    intro _ _ _
    simp [hw']
  | some m => trivial

lemma keeps_receive {b : Binding} (hb : w.binding? s h = some b) {role : Role}
    (hc : b.cleanup = role.expects) (c : Completion Value Failure) (K : List Frame) :
    Keeps w (receive w role s h b c K) := by
  have hlog (r : Record) (hr : Act.isBooked (.logged b.serial r) = false)
      (c : Completion Value Failure) :
      Keeps w (pass (w.note s [.logged b.serial r]) s h b c K) := by
    have hturns : w.Turns (w.note s [.logged b.serial r]) := .note w s (by simp [hr])
    exact .after hturns (keeps_pass (w := w.note s [.logged b.serial r]) hb c K)
  cases role with
  | predecessor =>
    cases c with
    | value v => exact keeps_accept hb hc v K
    | error e => exact hlog .failed rfl (.error (.predecessor e))
    | done => exact hlog .stopped rfl .done
  | successor => exact keeps_pass hb (c.mapError .successor) K

lemma keeps_completeWaiter (w : World) (id : Nat) (c : Completion Value Failure)
    (K : List Frame) : Keeps w (completeWaiter w id c K) := by
  rw [completeWaiter]
  split_ifs
  · exact keeps_finish (.of_eq rfl rfl) K
  · exact keeps_finish (.note w .wait (by simp [Act.isBooked, unbooked_dropCarried])) K

lemma keeps_completeReceiver (w : World) (r : Receiver) (c : Completion Value Failure)
    (K : List Frame) : Keeps w (complete w r c K) := by
  cases r with
  | child role s h =>
    cases hb : w.binding? s h with
    | none => simpa [complete, hb] using keeps_finish (.note w s (unbooked_dropCarried c)) K
    | some b =>
      simp only [complete, hb]
      split_ifs with hc
      · exact keeps_receive hb hc c K
      · exact keeps_fault (.note w s (unbooked_dropCarried c)) _ K
  | observer home o => exact ⟨.note w home (by simp [Act.isBooked]), trivial⟩
  | recorder home k => exact keeps_finish (.of_eq rfl rfl) K
  | waiter id => exact keeps_completeWaiter w id c K

lemma keeps_react (w : World) (home : Site) (label : String) (actions : List Action)
    (K : List Frame) : Keeps w (react w home label actions K) := by
  cases actions with
  | nil => exact keeps_finish (.refl w) K
  | cons a rest =>
    cases a with
    | raise p => exact keeps_raised (.refl w) p K
    | log text => exact ⟨.note w home (by simp [Act.isBooked]), trivial⟩
    | step x => exact ⟨.refl w, trivial⟩

/-! ### Building -/

/-- The layers from a height on are not among those in whose scope it is. -/
lemma binding?_setScope (env : Env) : (w.setScope s h env).binding? s h = w.binding? s h := by
  have hget : ((w.setScope s h env).layers s)[h]? = (w.layers s)[h]? := by
    simp only [World.setScope, World.layers_setLayers_self]
    by_cases hlt : h ≤ (w.layers s).length
    · have hlen : (Layer.writeBack env.reverse ((w.layers s).take h)).length = h := by
        simpa using Nat.min_eq_left hlt
      rw [List.getElem?_append_right (Nat.le_of_eq hlen), hlen, Nat.sub_self, List.getElem?_drop,
        Nat.add_zero]
    · have hlen : (w.layers s).length ≤ h := by omega
      rw [List.getElem?_eq_none (by simp; omega), List.getElem?_eq_none hlen]
  simp only [World.binding?, hget]

/-- A binding operation with nothing inside records what it may record only then. -/
lemma turns_note_onTop {b : Binding} (hb : w.binding? s h = some b)
    (hlen : s ≠ .wait → (w.layers s).length = h + 1) {acts : List Act}
    (ha : ∀ a ∈ acts, a.isBooked = false ∨ a.topmost? = some b.serial) :
    w.Turns (w.note s acts) := by
  obtain ⟨below, above, n, rfl, hw⟩ := exists_holds hb
  have hafter : w.note s acts = w.after s (below ++ .bind b :: above) n acts := by
    rw [← World.after_self hw]
    simp
  rw [hafter]
  refine .after w ?_
  intro hs
  have hlen := hlen hs
  rw [hw.layers_eq] at hlen
  obtain rfl : above = [] := by simpa using hlen
  have hplace : w.place s = ⟨below ++ [.bind b], n⟩ := by
    simp [World.place, show w.places.get? s = _ from hw]
  rw [hplace]
  exact .onTop ha

/-- What stands at a place is not amid a handoff, if the innermost operation is not. -/
lemma valid_of_last {ls : List Layer} {l : Layer}
    (hls : ls.Pairwise fun l _ => l.cleanup? ≠ some .invalid) (hl : ls[h]? = some l)
    (hlen : ls.length = h + 1) (hvalid : l.cleanup? ≠ some .invalid) :
    ∀ l' ∈ ls, l'.cleanup? ≠ some .invalid := by
  intro l' hl'
  obtain ⟨i, hi, rfl⟩ := List.getElem_of_mem hl'
  obtain ⟨hh, rfl⟩ := List.getElem?_eq_some_iff.1 hl
  rcases Nat.lt_or_ge i h with hlt | hge
  · exact List.pairwise_iff_getElem.1 hls i h hi hh hlt
  · obtain rfl : i = h := by omega
    exact hvalid

lemma keeps_build (hw : w.Sound)
    (hsteady : s ≠ .wait → ∀ b, w.binding? s h = some b → (w.layers s).length = h + 1)
    (K : List Frame) : Keeps w (build w s h K) := by
  cases hb : w.binding? s h with
  | none => simpa [build, hb] using keeps_finish (.refl w) K
  | some b =>
    cases hf : b.factory with
    | none =>
      have hset : w.Turns (w.setBinding s h b.call) :=
        .setBinding hb (alters_bind rfl rfl (.inr (.inl rfl)))
      simpa [build, hb, hf] using keeps_fault hset .factoryConsumed K
    | some f =>
      obtain ⟨f, next⟩ := f
      simp only [build, hb, hf]
      set c := f.call (b.stored ++ w.scope s h)
      set acts : List Act := b.stored.map (.called b.serial f.label) ++ c.remarks.map .remark
        with hacts
      set w₁ := (w.note s acts).setScope s h (c.env.drop b.stored.length) with hw₁
      have hlen (hs : s ≠ .wait) : (w.layers s).length = h + 1 := hsteady hs b hb
      have hcalled : w.Turns w₁ := by
        refine World.Turns.trans (turns_note_onTop hb hlen ?_) (.setScope (w.note s acts) s h _)
        intro a ha
        rcases List.mem_append.1 ha with ha | ha
        · obtain ⟨m, -, rfl⟩ := List.mem_map.1 ha
          exact .inr rfl
        · obtain ⟨m, -, rfl⟩ := List.mem_map.1 ha
          exact .inl rfl
      have hb₁ : w₁.binding? s h = some b := (binding?_setScope _).trans hb
      have hlen₁ (hs : s ≠ .wait) : (w₁.layers s).length = h + 1 := by
        simp [hw₁, World.setScope, hlen hs]
      cases c.raised with
      | some p =>
        have hset : w₁.Turns (w₁.setBinding s h (b.call.restore c.env)) :=
          .setBinding hb₁ (alters_bind (by simp) (by simp) (by simp))
        exact ⟨hcalled.trans hset, trivial⟩
      | none =>
        set w₂ := w₁.note s [.logged (b.call.restore c.env).serial .connectingSuccessor] with hw₂
        have hlog : w₁.Turns w₂ :=
          turns_note_onTop hb₁ hlen₁ (by simp [Act.topmost?])
        have hset : w₂.Turns (w₂.setBinding s h (b.call.restore c.env).emplace) :=
          .setBinding hb₁ (alters_bind (by simp) (by simp) (by simp))
        have hturns : w.Turns (w₂.setBinding s h (b.call.restore c.env).emplace) :=
          (hcalled.trans hlog).trans hset
        refine ⟨hturns, ?_⟩
        intro hs _
        have hget : ((w₂.setBinding s h (b.call.restore c.env).emplace).layers s)[h]? =
            some (.bind (b.call.restore c.env).emplace) := by
          simp [World.setBinding, World.setLayer, hw₂, hlen₁ hs]
        have hlen₃ : ((w₂.setBinding s h (b.call.restore c.env).emplace).layers s).length =
            h + 1 := by
          simp [World.setBinding, World.setLayer, hw₂, hlen₁ hs]
        cases s with
        | wait => exact absurd rfl hs
        | place p =>
          exact ⟨hlen₃, valid_of_last (hturns.sound hw p).settled hget hlen₃ (by
            simp [Layer.cleanup?])⟩

/-! ### Following -/

lemma keeps_deliver (w : World) (r : Run) (d : Delivery) (frame : Run → Frame) (K : List Frame) :
    Keeps w (deliver w r d frame K) := by
  rw [deliver]
  cases r.receiver with
  | none => exact keeps_fault (.note w r.site (unbooked_dropCarried _)) .receiverConsumed _
  | some receiver => exact keeps_complete (.refl w) receiver _ _

lemma turns_request (w : World) (k : Int) : w.Turns (w.request k).1 := by
  rw [World.request]
  split_ifs <;> exact .of_eq rfl rfl

lemma keeps_instruct (w : World) (r : Run) (i : Instr) (rest : List Instr) (K : List Frame) :
    Keeps w (instruct w r i rest K) := by
  have hnote (a : Act) (ha : a.isBooked = false) : w.Turns (w.note r.site [a]) :=
    .note w r.site (by simp [ha])
  have hdrop : w.Turns (dropReceiver w r) := .note w r.site (unbooked_dropHeld r.receiver)
  cases i with
  | complete d => exact keeps_deliver w r d _ K
  | attempt d => exact keeps_deliver w r d _ K
  | askStop => exact keeps_follow (.note w r.site (by simp [Act.isBooked])) r rest K
  | stopDone =>
    simp only [instruct]
    split_ifs
    · exact .after (hnote (.gaveUp r.label) rfl) (keeps_deliver _ r .done _ K)
    · exact keeps_follow (.refl w) r rest K
  | chain => exact keeps_follow (.note w r.site (by simp [Act.isBooked])) r rest K
  | info => exact keeps_follow (hnote _ rfl) r rest K
  | request k =>
    have hnote := World.Turns.note (w.request k).1 r.site
      (show Unbooked [.remark (r.label ++ " request_stop " ++ Text.truth (w.request k).2)] by
        simp [Act.isBooked])
    exact keeps_follow ((turns_request w k).trans hnote) r rest K
  | log text => exact keeps_follow (hnote _ rfl) r rest K
  | peek d => exact keeps_follow (hnote _ rfl) r rest K
  | poke d n => exact keeps_follow (.setScope w r.site r.reach _) r rest K
  | raise p => exact keeps_raised hdrop p K
  | forget => exact keeps_follow hdrop _ rest K
  | defer => exact keeps_finish (.of_eq rfl rfl) K
  | later steps => exact keeps_follow (.of_eq rfl rfl) _ rest K

lemma keeps_followRun (w : World) (r : Run) (steps : List Instr) (K : List Frame) :
    Keeps w (follow w r steps K) := by
  cases steps with
  | nil => exact keeps_finish (.note w r.site (unbooked_dropHeld r.receiver)) K
  | cons i rest =>
    unfold follow
    split_ifs
    · exact keeps_instruct w r i rest K
    · cases i with
      | log text => exact keeps_instruct w r (.log text) rest K
      | raise p => exact keeps_instruct w r (.raise p) rest K
      | _ => exact keeps_follow (.refl w) r rest K

/-! ### Calls and tasks -/

lemma places_foldl_schedule (ts : List Task) (w : World) :
    (ts.foldl World.schedule w).places = w.places ∧
      (ts.foldl World.schedule w).events = w.events := by
  induction ts generalizing w with
  | nil => exact ⟨rfl, rfl⟩
  | cons t rest ih => exact ih (w.schedule t)

lemma keeps_runTask (w : World) (t : Task) (K : List Frame) : Keeps w (runTask w t K) := by
  cases t with
  | complete c r => exact keeps_complete (.refl w) r c K
  | resume r steps =>
    simp only [runTask]
    split_ifs
    · exact keeps_follow (.note w r.site (by simp [Act.isBooked])) r steps K
    · exact keeps_finish (.note w r.site (by simp [Act.isBooked, unbooked_dropHeld])) K
  | job j =>
    obtain ⟨label, spawned, raised⟩ := j
    obtain ⟨hplaces, hevents⟩ :=
      places_foldl_schedule (spawned.map .job) (w.record none [.remark label])
    exact keeps_finishOr ((World.Turns.record w none (by simp [Act.isBooked])).trans
      (.of_eq hplaces hevents)) raised K

lemma keeps_connectPlace (w : World) (s : Site) (x : Sender) (r : Receiver) (K : List Frame) :
    Keeps w (connectPlace w s x r K) := by
  cases hl : w.layers s with
  | nil =>
    simp only [connectPlace, hl]
    refine ⟨.setLayers w s (by simp [hl]), ?_⟩
    intro _ _
    simp
  | cons l rest =>
    simp only [connectPlace, hl]
    split_ifs
    · exact ⟨.refl w, fun _ hlen => by simp [hl] at hlen⟩
    · exact ⟨.note w s (unbooked_drop_sender x), trivial⟩

lemma keeps_withPlace (w : World) (s : Site) {go : Config} (hgo : Keeps w go) (K : List Frame) :
    Keeps w (withPlace w s go K) := by
  rw [withPlace]
  cases w.places.get? s with
  | none => exact ⟨.refl w, trivial⟩
  | some q => exact hgo

lemma keeps_call (w : World) (c : Call) (K : List Frame) : Keeps w (call w c K) := by
  cases c with
  | connect p x r => exact keeps_connectPlace w (.place p) x r K
  | start p => exact keeps_withPlace w (.place p) (keeps_start (.refl w) (.place p) 0 K) K
  | clear p =>
    exact keeps_withPlace w (.place p)
      (keeps_finishOr (.dropAbove w (.place p) 0 false) _ K) K
  | vacant p => exact ⟨.refl w, trivial⟩
  | pending => exact ⟨.refl w, trivial⟩
  | tick =>
    rw [call]
    cases w.queue with
    | nil => exact ⟨.refl w, trivial⟩
    | cons t rest => exact ⟨.of_eq rfl rfl, trivial⟩
  | drain =>
    rw [call]
    cases w.queue with
    | nil => exact keeps_finish (.refl w) K
    | cons t rest => exact ⟨.of_eq rfl rfl, trivial⟩
  | request k => exact ⟨turns_request w k, trivial⟩
  | stopped k => exact ⟨.refl w, trivial⟩
  | schedule j => exact keeps_finish (.of_eq rfl rfl) K
  | wait x =>
    set w' : World := { w with waiter := some { id := w.waits }, waits := w.waits + 1 } with hw'
    have hcount : w.Turns w' := .of_eq rfl rfl
    have hclear : w'.Turns (w'.setLayers .wait []) := by
      rw [World.setLayers_eq_after]
      exact .after w' fun hs => absurd rfl hs
    exact ⟨(hcount.trans hclear).trans (.note _ .wait (by simp [Act.isBooked])),
      fun hs => absurd rfl hs⟩

/-! ### Returning and unwinding -/

lemma unbooked_settled (c : Completion Value Failure) (waiting : List Observer) :
    Unbooked (settled c waiting) := by
  exact (Act.unbooked_append _ _).2 ⟨unbooked_dropCarried c, Act.unbooked_map _ _ fun _ => rfl⟩

lemma keeps_unblock (w : World) (K : List Frame) : Keeps w (unblock w K) := by
  rw [unblock]
  cases w.given with
  | none =>
    have hdrop := World.Turns.dropAbove w .wait 0 true
    exact keeps_fault (hdrop.trans (.of_eq rfl rfl)) .receiverLost K
  | some c =>
    have hdrop := World.Turns.dropAbove w .wait 0 false
    simp only [release]
    split
    · rename_i w' p heq
      rw [heq] at hdrop
      exact keeps_raised (hdrop.trans (.of_eq rfl rfl)) p K
    · rename_i w' heq
      rw [heq] at hdrop
      have hleave : w'.Turns w'.leave := .of_eq rfl rfl
      exact ⟨(hdrop.trans hleave).trans (.note _ .wait (unbooked_dropCarried c)), trivial⟩

lemma keeps_abandon (w : World) (K : List Frame) : Keeps w (abandon w K) := by
  rw [abandon]
  cases w.given with
  | none =>
    exact keeps_finishOr ((World.Turns.note w .wait (by simp [Act.isBooked])).trans
      (.dropAbove _ .wait 0 false)) _ K
  | some c => exact keeps_finish (.refl w) K

lemma keeps_resume (w : World) (r : Reply) (f : Frame) (K : List Frame) :
    Keeps w (resume w r f K) := by
  cases f with
  | guard s h => exact keeps_finish (.refl w) K
  | handoff s h =>
    cases hb : w.binding? s h with
    | none => simpa [resume, hb] using keeps_finish (.refl w) K
    | some b =>
      have hset : w.Turns (w.setBinding s h b.settle) :=
        .setBinding hb (alters_bind rfl rfl (.inr (.inr rfl)))
      simpa [resume, hb] using keeps_start hset s (h + 1) K
  | script run rest => exact keeps_follow (.refl w) run rest K
  | attempt run rest => exact keeps_follow (.refl w) run rest K
  | thenRaise p => exact keeps_finishOr (.refl w) p K
  | discard s c => exact keeps_finish (.note w s (unbooked_dropCarried c)) K
  | settle home c waiting => exact keeps_finish (.note w home (unbooked_settled c waiting)) K
  | acting home label step rest => exact ⟨.note w home (by simp [Act.isBooked]), trivial⟩
  | answer a => exact ⟨.refl w, trivial⟩
  | draining => exact ⟨.refl w, trivial⟩
  | waitConnected => exact keeps_start (.refl w) .wait 0 _
  | waitStarted => exact ⟨.refl w, trivial⟩
  | waitDrained => exact keeps_abandon w K
  | waitOver => exact keeps_unblock w K

lemma keeps_unwind (w : World) (p : Payload) (f : Frame) (K : List Frame) :
    Keeps w (unwind w p f K) := by
  cases f with
  | guard s h => exact keeps_raised (.dropAbove w s h true) p K
  | handoff s h =>
    cases hb : w.binding? s h with
    | none => simpa [unwind, hb] using keeps_raised (.refl w) p K
    | some b =>
      have hlog : w.Turns (w.note s [.logged b.serial (.buildFailed p)]) :=
        .note w s (by simp [Act.isBooked])
      simpa [unwind, hb] using Keeps.after hlog
        (keeps_pass (w := w.note s [.logged b.serial (.buildFailed p)]) hb (.error (.panicked p)) K)
  | script run rest => exact keeps_raised (.note w run.site (unbooked_dropHeld run.receiver)) p K
  | attempt run rest => exact keeps_follow (.note w run.site (by simp [Act.isBooked])) run rest K
  | discard s c => exact keeps_raised (.note w s (unbooked_dropCarried c)) p K
  | settle home c waiting => exact keeps_raised (.note w home (unbooked_settled c waiting)) p K
  | waitOver =>
    have hgiven : Unbooked (w.given.elim [] dropCarried) := by
      cases w.given with
      | none => exact Act.unbooked_nil
      | some c => exact unbooked_dropCarried c
    have hleave : w.Turns (w.dropAbove .wait 0 true).1.leave :=
      (World.Turns.dropAbove w .wait 0 true).trans (.of_eq rfl rfl)
    exact keeps_raised (hleave.trans (.note _ .wait hgiven)) p K
  | _ => exact keeps_raised (.refl w) p K

end Machine

/-- Every move leaves the books in order, and sees to what the next one relies on. -/
theorem Config.keeps_next {c c' : Config} (hc : c.Moves c') (hw : c.world.Sound)
    (hsteady : c.Steady) : Machine.Keeps c.world c' := by
  obtain ⟨w, control, K⟩ := c
  have hc : Config.next ⟨w, control, K⟩ = some c' := hc
  cases control with
  | done r =>
    cases K with
    | nil => simp [next] at hc
    | cons f K =>
      obtain rfl := Option.some.inj hc
      exact Machine.keeps_resume w r f K
  | raised p =>
    cases K with
    | nil => simp [next] at hc
    | cons f K =>
      obtain rfl := Option.some.inj hc
      exact Machine.keeps_unwind w p f K
  | connect x r s h =>
    obtain rfl := Option.some.inj hc
    exact Machine.keeps_connect hsteady x r K
  | start s h =>
    obtain rfl := Option.some.inj hc
    exact Machine.keeps_startSlot w s h K
  | complete r v =>
    obtain rfl := Option.some.inj hc
    exact Machine.keeps_completeReceiver w r v K
  | build s h =>
    obtain rfl := Option.some.inj hc
    exact Machine.keeps_build hw hsteady K
  | react home label actions =>
    obtain rfl := Option.some.inj hc
    exact Machine.keeps_react w home label actions K
  | follow r steps =>
    obtain rfl := Option.some.inj hc
    exact Machine.keeps_followRun w r steps K
  | call x =>
    obtain rfl := Option.some.inj hc
    exact Machine.keeps_call w x K
  | task t =>
    obtain rfl := Option.some.inj hc
    exact Machine.keeps_runTask w t K

end Handoff
