import Handoff.Proofs.Connecting.Waste
import Handoff.Proofs.Recounting.Serving

/-!
# Connecting into an occupied slot

A sender that is connected offers its slot an operation. An occupied slot refuses it: what was built
is dropped, what was not is dropped too, and the resident operation is not touched. A host that goes
on after the refusal finds all as if it had not made the attempt, `World.connect_refused`.
-/

namespace Handoff

/-! ### What is offered and disposed of -/

/-- Connecting a sender starts with offering an operation to the slot. -/
def Sender.Offers : Sender → Prop
  | exploding built => built.isSome = true
  | script x => x.connecting = .fill ∨ ∃ m, x.connecting = .half m
  | _ => True

namespace Act

/-- Whether an act is the drop of the operation of a leaf of that label. -/
def dropsLeaf (label : String) : Act → Bool
  | dropped l => l = label
  | droppedSeeing l _ => l = label
  | _ => false

/-- Whether an act is the drop of the binding operation of that number. -/
def tearsDown (k : Nat) : Act → Bool
  | logged j (.tearingDown _) => j = k
  | _ => false

end Act

/-- Acts that dispose of a sender and its receiver: all that they own is dropped, each thing once,
what was built of them is dropped as often as it was built, and nothing else happens. -/
structure Disposes (x : Sender) (r : Receiver) (acts : List Act) : Prop where
  waste : (acts.filter Act.isWaste).Perm (x.drop ++ r.drop)
  leaves : ∀ label, acts.countP (Act.dropsLeaf label) = acts.count (.connected label) ∧
    acts.count (.connected label) ≤ 1
  bindings : ∀ k, acts.countP (Act.tearsDown k) = acts.count (.logged k .connecting) ∧
    acts.count (.logged k .connecting) ≤ 1
  idle : ∀ a ∈ acts, a.isIdle = true

section Disposes

open Act (isWaste isIdle)

/-- What was built comes first, and is dropped; all else goes unused. -/
lemma disposes_append {x : Sender} {r : Receiver} {built waste : List Act}
    (hp : waste.Perm (x.drop ++ r.drop))
    (hidle : ∀ a ∈ built, a.isIdle = true ∧ a.isWaste = false)
    (hleaves : ∀ label, built.countP (Act.dropsLeaf label) = built.count (.connected label) ∧
      built.count (.connected label) ≤ 1)
    (hbindings : ∀ k, built.countP (Act.tearsDown k) = built.count (.logged k .connecting) ∧
      built.count (.logged k .connecting) ≤ 1) :
    Disposes x r (built ++ waste) := by
  have hwaste : ∀ a ∈ waste, isWaste a = true := by
    intro a ha
    obtain ha | ha := List.mem_append.1 (hp.mem_iff.1 ha)
    · exact isWaste_drop_sender x a ha
    · exact isWaste_drop_receiver r a ha
  -- What goes unused is counted as nothing that was built.
  have hnone {f : Act → Bool} (hf : ∀ a, isWaste a = true → f a = false) :
      waste.countP f = 0 := by
    rw [List.countP_eq_zero]
    intro a ha
    simp [hf a (hwaste a ha)]
  have hnot (b : Act) (hb : isWaste b = false) : waste.count b = 0 := by
    rw [List.count_eq_zero]
    intro hmem
    simp [hwaste b hmem] at hb
  refine ⟨?_, fun label => ?_, fun k => ?_, fun a ha => ?_⟩
  · have hbuilt : built.filter isWaste = [] :=
      List.filter_eq_nil_iff.2 fun a ha => by simp [(hidle a ha).2]
    rwa [List.filter_append, hbuilt, List.nil_append, List.filter_eq_self.2 hwaste]
  · have hdrops := hnone (f := Act.dropsLeaf label) fun a ha => by
      cases a <;> first | rfl | simp [isWaste] at ha
    simpa [hdrops, hnot (.connected label) rfl] using hleaves label
  · have htears := hnone (f := Act.tearsDown k) fun a ha => by
      cases a <;> first | rfl | simp [isWaste] at ha
    simpa [htears, hnot (.logged k .connecting) rfl] using hbindings k
  · obtain ha | ha := List.mem_append.1 ha
    · exact (hidle a ha).1
    · exact Act.isIdle_of_isWaste (hwaste a ha)

/-- A leaf is connected and its operation dropped. -/
lemma disposes_leaf {x : Sender} {r : Receiver} {waste : List Act} {label : String} {seen : Act}
    (hseen : seen.dropsLeaf label = true) (hp : waste.Perm (x.drop ++ r.drop)) :
    Disposes x r ([.connected label, seen] ++ waste) := by
  refine disposes_append hp ?_ (fun label' => ?_) (fun k => ?_)
  · cases seen <;> simp_all [Act.dropsLeaf, isIdle, isWaste]
  · cases seen <;> simp_all [Act.dropsLeaf, List.count_cons, List.countP_cons]
    all_goals split_ifs <;> simp
  · cases seen <;> simp_all [Act.dropsLeaf, Act.tearsDown]

/-- A binding operation is built and dropped again. -/
lemma disposes_bind {x : Sender} {r : Receiver} {waste : List Act} (k : Nat) (c : Cleanup)
    (hp : waste.Perm (x.drop ++ r.drop)) :
    Disposes x r ([.logged k .connecting, .logged k (.tearingDown c)] ++ waste) := by
  refine disposes_append hp ?_ (fun label => ?_) (fun j => ?_)
  · simp [isIdle, isWaste]
  · simp [Act.dropsLeaf]
  · by_cases hj : k = j <;> simp [Act.tearsDown, hj]

end Disposes

/-! ### The refusal -/

section Refused

open Machine

variable {w : World} {x : Sender} {r : Receiver} {s : Site} {h : Nat} {K : List Frame}

lemma connectLeaf_of_occupied (hv : w.isVacant s h = false) (make : Nat → Layer)
    (m : Option Payload) :
    connectLeaf w s h make m K =
      fault (w.note s ((make (w.nextSerial s)).drop true (w.scope s h) {}).acts) .occupiedConnect
        K := by
  rw [connectLeaf, World.fill_of_not_isVacant hv]

lemma connect_script_of_occupied (hv : w.isVacant s h = false) (y : Script)
    (hx : y.connecting = .fill ∨ ∃ m, y.connecting = .half m) :
    ∃ seen, Act.dropsLeaf y.label seen = true ∧
      connectScript w y r s h K =
        fault (w.note s ([.connected y.label, seen] ++ r.drop)) .occupiedConnect K := by
  have hv' : (w.note s [.connected y.label]).isVacant s h = false := hv
  have hscript (m : Option Payload) : ∃ seen, Act.dropsLeaf y.label seen = true ∧
      connectLeaf (w.note s [.connected y.label]) s h (.script · y (some r)) m K =
        fault (w.note s ([.connected y.label, seen] ++ r.drop)) .occupiedConnect K := by
    rw [connectLeaf_of_occupied hv', World.note_note]
    cases hp : y.peekOnDrop with
    | none => exact ⟨.dropped y.label, by simp [Act.dropsLeaf], by simp [Layer.drop, hp, dropHeld]⟩
    | some d =>
      refine ⟨.droppedSeeing y.label (w.scope s h)[d]?, by simp [Act.dropsLeaf], ?_⟩
      have hscope : (w.note s [.connected y.label]).scope s h = w.scope s h := rfl
      simp [Layer.drop, hp, dropHeld, hscope]
  obtain hx | ⟨m, hx⟩ := hx
  · simpa [connectScript, hx] using hscript none
  · simpa [connectScript, hx] using hscript (some m)

/-- An occupied slot at any depth refuses what is connected into it. -/
lemma Config.next_connect_of_occupied (hv : w.isVacant s h = false) (hx : x.Offers) :
    ∃ acts, Disposes x r acts ∧
      Config.next ⟨w, .connect x r s h, K⟩ =
        some (fault (w.note s acts) .occupiedConnect K) := by
  simp only [Config.next, Option.some.injEq]
  cases x with
  | ready c =>
    refine ⟨[] ++ (dropCarried c ++ r.drop),
      disposes_append (.refl _) (by simp) (by simp) (by simp), ?_⟩
    simp [connect, connectLeaf_of_occupied hv, Layer.drop]
  | leaf l =>
    have hv' : (w.note s [.connected l.label]).isVacant s h = false := hv
    refine ⟨[.connected l.label, .dropped l.label] ++ (dropCarried l.completion ++ r.drop),
      disposes_leaf (by simp [Act.dropsLeaf]) (.refl _), ?_⟩
    simp [connect, connectLeaf_of_occupied hv', World.note_note, Layer.drop, dropHeld]
  | exploding built =>
    obtain ⟨label, rfl⟩ := Option.isSome_iff_exists.1 hx
    have hv' : (w.note s [.connected label]).isVacant s h = false := hv
    refine ⟨[.connected label, .dropped label] ++ r.drop,
      disposes_leaf (by simp [Act.dropsLeaf]) (.refl _), ?_⟩
    simp [connect, connectLeaf_of_occupied hv', World.note_note, Layer.drop, dropHeld, dropCarried,
      Completion.value?]
  | script y =>
    obtain ⟨seen, hseen, hnext⟩ := connect_script_of_occupied (r := r) (K := K) hv y hx
    exact ⟨_, disposes_leaf hseen (.refl _), hnext⟩
  | either which x =>
    refine ⟨[] ++ (x.drop ++ r.drop), disposes_append (.refl _) (by simp) (by simp) (by simp), ?_⟩
    simp [connect, World.fill_of_not_isVacant hv, Layer.drop]
  | bind p f next =>
    have hv' : (w.note s [.logged (w.nextSerial s) .connecting]).isVacant s h = false := hv
    have hserial : (w.note s [.logged (w.nextSerial s) .connecting]).nextSerial s =
        w.nextSerial s := rfl
    refine ⟨[.logged (w.nextSerial s) .connecting,
      .logged (w.nextSerial s) (.tearingDown .predecessor)] ++ (f.drop ++ r.drop ++ p.drop),
      disposes_bind _ _ ?_, ?_⟩
    · rw [Sender.drop, List.append_assoc p.drop]
      exact List.perm_append_comm
    · simp [connect, World.fill_of_not_isVacant hv', hserial, World.note_note, Layer.drop,
        newBinding, Binding.drop, Binding.dropFactory, Binding.dropValue, dropHeld]

/-- A place that holds an operation of the sender's kind refuses the sender in two moves. -/
lemma Config.run_connect_refused {p : Int} {l : Layer} {rest : List Layer}
    (hl : w.layers (.place p) = l :: rest) (hk : l.kind = x.kind) (hx : x.Offers) :
    ∃ acts, Disposes x r acts ∧ ∀ n, 2 ≤ n →
      Config.run n ⟨w, .call (.connect p x r), []⟩ =
          fault (w.note (.place p) acts) .occupiedConnect [] ∧
        Config.gifts n ⟨w, .call (.connect p x r), []⟩ = [] := by
  have hv : w.isVacant (.place p) 0 = false := by simp [World.isVacant, hl]
  obtain ⟨acts, hacts, hnext⟩ := next_connect_of_occupied (r := r) (K := []) hv hx
  refine ⟨acts, hacts, fun n hn => ?_⟩
  obtain ⟨n, rfl⟩ := Nat.exists_eq_add_of_le' hn
  have hcall : Config.next ⟨w, .call (.connect p x r), []⟩ =
      some ⟨w, .connect x r (.place p) 0, []⟩ := by
    simp [Config.next, call, connectPlace, hl, hk]
  have hfinal : (fault (w.note (.place p) acts) .occupiedConnect []).IsFinal := rfl
  have hgifts : (fault (w.note (.place p) acts) .occupiedConnect []).gifts n = [] := by
    cases n <;> rfl
  refine ⟨?_, ?_⟩
  · rw [run_succ_of_moves _ hcall, run_succ_of_moves _ hnext, run_of_isFinal hfinal]
  · simp [gifts, hcall, hnext, hgifts, Config.given]

end Refused

namespace World

/-- A host connects a sender at a place that holds an operation, at whatever stage that is. The call
raises a payload and gives nothing to any final receiver; what was built of the sender is dropped,
with all that it owned, and nothing else happens. Whatever calls the host makes afterwards, each
ends as if it had not made this one, gives the same completions to final receivers, has the same
recorded and leaves the world as it would have been, but for the record of the refusal. -/
theorem connect_refused {w : World} {p : Int} {x : Sender} {r : Receiver} {l : Layer}
    {rest : List Layer} (hl : w.layers (.place p) = l :: rest) (hk : l.kind = x.kind)
    (hx : x.Offers) :
    ∃ w' acts, w' = w.note (.place p) acts ∧ Disposes x r acts ∧
      (∀ n, 2 ≤ n →
        w.call n (.connect p x r) = (w', .raised (.text "connected into an occupied slot")) ∧
        Config.gifts n ⟨w, .call (.connect p x r), []⟩ = []) ∧
      ∀ n cs, w'.episodes n cs = w.episodes n cs ∧
        ∃ es, (w.serve n cs).events = w.events ++ es ∧
          w'.serve n cs = (w.serve n cs).telling (w'.events ++ es) := by
  obtain ⟨acts, hacts, hrun⟩ := Config.run_connect_refused (r := r) hl hk hx
  refine ⟨_, acts, rfl, hacts, fun n hn => ?_, fun n cs => ?_⟩
  · obtain ⟨hrun, hgifts⟩ := hrun n hn
    refine ⟨?_, hgifts⟩
    rw [call, hrun]
    rfl
  · exact exists_serve_telling w (w.events ++ acts.map (Event.mk (some (.place p)))) n cs

/-- A binding of a leaf that completes from a task. -/
def latecomer : Sender :=
  .bind (.leaf { label := "pred", completion := .value { n := 1 }, deferred := true })
    { label := some "f", call := fun env => { env } } fun _ => .ready .done

/-- The world in which such a binding was connected and started, and its leaf is still to be
completed. -/
def occupied : World :=
  let c := Config.run 10 ⟨{}, .call (.connect 0 latecomer (.recorder (.place 0) none)), []⟩
  (Config.run 20 ⟨c.world, .call (.start 0), []⟩).world

theorem connect_refused_pending :
    occupied.queue.length = 1 ∧
    ∃ w' acts, w' = occupied.note (.place 0) acts ∧
      Disposes latecomer (.recorder (.place 0) none) acts ∧
      (∀ n, 2 ≤ n →
        occupied.call n (.connect 0 latecomer (.recorder (.place 0) none)) =
          (w', .raised (.text "connected into an occupied slot")) ∧
        Config.gifts n ⟨occupied, .call (.connect 0 latecomer (.recorder (.place 0) none)), []⟩ =
          []) ∧
      ∀ n cs, w'.episodes n cs = occupied.episodes n cs ∧
        ∃ es, (occupied.serve n cs).events = occupied.events ++ es ∧
          w'.serve n cs = (occupied.serve n cs).telling (w'.events ++ es) :=
  ⟨rfl, connect_refused (w := occupied) rfl rfl trivial⟩

end World

end Handoff
