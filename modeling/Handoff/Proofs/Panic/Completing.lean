import Handoff.Proofs.Panic.Thread

/-!
# Starting and completing

Starting leads inwards to the receiver on offer, if there is one. A completion moves outwards until
it begins a handoff or reaches the final receiver, and every operation that it comes to has its own
receiver still.
-/

namespace Handoff

open Machine
open Layer (offer Open)

variable {o r : Receiver} {s : Site} {n : Nat} {w w' : World} {K : List Frame}
  {outer inner below above : List Layer} {l l' : Layer} {b b' : Binding}

/-! ### One operation is changed -/

lemma World.layers_setLayer (hl : w.layers s = outer ++ l :: inner) (l' : Layer) :
    (w.setLayer s outer.length l').layers s = outer ++ l' :: inner := by
  simp [setLayer, hl]

@[simp] lemma World.nextSerial_setLayer (h : Nat) (l : Layer) :
    (w.setLayer s h l).nextSerial s = w.nextSerial s := by
  simp [setLayer, setLayers, nextSerial]

@[simp] lemma World.nextSerial_setBinding (h : Nat) (b : Binding) :
    (w.setBinding s h b).nextSerial s = w.nextSerial s := nextSerial_setLayer h _

@[simp] lemma World.nextSerial_note (s' : Site) (acts : List Act) :
    (w.note s' acts).nextSerial s = w.nextSerial s := rfl

lemma World.Lawful.replaced (hw : w.Lawful s) (hl : w.layers s = outer ++ l :: inner)
    (hl' : w'.layers s = outer ++ l' :: inner) (hlaw : l.Lawful → l'.Lawful)
    (hq : w'.queue = w.queue) : w'.Lawful s := by
  refine hw.of_layers ?_ hq
  intro x hx
  rw [hl', List.mem_append, List.mem_cons] at hx
  rw [hl, List.mem_append, List.mem_cons]
  rcases hx with hx | rfl | hx
  · exact .inl (.inl hx)
  · exact .inr (hlaw (hw.layers (by simp [hl])))
  · exact .inl (.inr (.inr hx))

/-! ### Starting -/

/-- A leaf that is started lets go of its receiver, which is now the only one to complete. -/
lemma bears_released (hw : w.Lawful s) (hl : w.layers s = outer ++ l :: inner)
    (ho : offer outer = none) (hb : w.Bears o s n (offer (l :: inner)).toList)
    (hl' : w'.layers s = outer ++ l' :: inner) (hcount : w'.nextSerial s = w.nextSerial s)
    (hq : w'.queue = w.queue) (hleaf : l.cleanup? = none) (hleaf' : l'.cleanup? = none)
    (hlaw : l.Lawful → l'.Lawful) (hspent : offer (l' :: inner) = none) :
    w'.Lawful s ∧ w.Ages s w' ∧
      w'.Bears o s n ((offer (l :: inner)).toList ++ (offer (w'.layers s)).toList) := by
  have hnone : offer (w'.layers s) = none := by
    rw [hl']
    rcases Layer.offer_append outer (l' :: inner) with h | ⟨-, h⟩
    · exact h.trans ho
    · exact h.trans hspent
  have hspare : w'.spare = w.spare := World.spare_eq_of_queue hq
  refine ⟨hw.replaced hl hl' hlaw hq, .replaced hl hl' hcount fun b hb => ?_, ?_⟩
  · simp [hb, Layer.cleanup?] at hleaf'
  · rw [hnone, Option.toList_none, List.append_nil]
    constructor
    · rw [hspare]
      exact hb.length_le
    · intro r hr
      rw [hspare] at hr
      have hopen := hb.isOpen hr
      rw [hl] at hopen
      rw [hl']
      exact hopen.replace hleaf l'

/-- What is started turns out to have nothing to complete. -/
lemma onward_refused (hw : w.Lawful s) (hl : w.layers s = outer ++ inner)
    (ho : offer outer = none) (hK : ∀ f ∈ K, f.Idle) (hb : w.Bears o s n (offer inner).toList)
    (hnone : offer inner = none) (acts : List Act) (f : Fault) :
    Onward o s n w (fault (w.note s acts) f K) := by
  have hall : offer (w.layers s) = none := by
    rw [hl]
    rcases Layer.offer_append outer inner with h | ⟨-, h⟩
    · exact h.trans ho
    · exact h.trans hnone
  have hb' : w.Bears o s n ([] ++ (offer (w.layers s)).toList) := by
    rw [hall]
    rwa [hnone] at hb
  exact .like hw hb' (.of_places rfl) rfl (.refl _) trivial hK

lemma thread_descend (hw : w.Lawful s) (hl : w.layers s = outer ++ l :: inner)
    (ho : offer outer = none) (hK : ∀ f ∈ K, f.Idle)
    (hb : w.Bears o s n (offer (l :: inner)).toList) (hdesc : l.descends = true) :
    Thread o s n ⟨w, .start s (outer.length + 1), K⟩ := by
  have hsingle : ∀ x ∈ [l], x.descends = true := by simpa using hdesc
  have houter : offer (outer ++ [l]) = none := by
    rcases Layer.offer_append outer [l] with h | ⟨-, h⟩
    · exact h.trans ho
    · exact h.trans (Layer.offer_append_of_descends hsingle [])
  have hinner : offer (l :: inner) = offer inner := Layer.offer_append_of_descends hsingle inner
  have hlen : outer.length + 1 = (outer ++ [l]).length := by simp
  rw [hlen]
  refine .starting hw (by simpa using hl) houter ?_ hK (hinner ▸ hb)
  intro b hlast
  obtain rfl : l = .bind b := by simpa using hlast
  exact .inl (by simpa [Layer.descends] using hdesc)

lemma onward_startLeaf (hw : w.Lawful s) (hK : ∀ f ∈ K, f.Idle)
    (hb : w.Bears o s n ([r] ++ (offer (w.layers s)).toList)) (l : Leaf) (s' : Site) :
    Onward o s n w (startLeaf w l r s' K) := by
  simp only [startLeaf]
  generalize (if l.inspecting then _ else _ : List Act) = acts
  split_ifs
  · exact .like hw hb (.of_places rfl) rfl (.refl _) trivial (idle_cons trivial hK)
  · exact .scheduled hw hb rfl rfl trivial (Nat.le_refl _) (fun _ hr => hr) trivial hK
  · exact .like hw hb (.of_places rfl) rfl (.refl _) trivial hK

lemma onward_start (hw : w.Lawful s) (hl : w.layers s = outer ++ inner)
    (ho : offer outer = none) (hK : ∀ f ∈ K, f.Idle) (hb : w.Bears o s n (offer inner).toList) :
    Onward o s n w (start w s outer.length K) := by
  cases inner with
  | nil =>
    have hget : (w.layers s)[outer.length]? = none := by simp [hl]
    simpa [start, hget] using onward_refused hw hl ho hK hb rfl [] .vacantStart
  | cons l inner =>
    have hget : (w.layers s)[outer.length]? = some l := by simp [hl]
    cases l with
    | ready k held =>
      cases held with
      | none => simpa [start, hget] using onward_refused hw hl ho hK hb rfl [] .readyRestarted
      | some held =>
        obtain ⟨hw', hages, hb'⟩ := bears_released hw hl ho hb
          (World.layers_setLayer hl (.ready k none)) (by simp) rfl rfl rfl id rfl
        have honward : Onward o s n (w.setLayer s outer.length (.ready k none))
            ⟨w.setLayer s outer.length (.ready k none), .complete held.2 held.1, K⟩ :=
          .like hw' hb' (.refl _ _) rfl (.refl _) trivial hK
        simpa [start, hget] using honward.after hages
    | leaf k x held =>
      cases held with
      | none =>
        simpa [start, hget] using
          onward_refused hw hl ho hK hb rfl [.started x.label] .leafRestarted
      | some r =>
        have hl₁ : (w.note s [.started x.label]).layers s =
            outer ++ .leaf k x (some r) :: inner := hl
        obtain ⟨hw', hages, hb'⟩ := bears_released hw hl ho hb
          (World.layers_setLayer hl₁ (.leaf k x none)) (by simp) rfl rfl rfl id rfl
        simpa [start, hget] using (onward_startLeaf hw' hK hb' x s).after hages
    | script k x held =>
      cases held with
      | none =>
        have hnone : offer (.script k x none :: inner) = none := by simp [offer]
        simpa [start, hget] using
          onward_refused hw hl ho hK hb hnone [.started x.label] .scriptRestarted
      | some r =>
        set w₁ := (w.note s [.started x.label]).setLayer s outer.length (.script k x none) with hw₁
        have hl₁ : (w.note s [.started x.label]).layers s =
            outer ++ .script k x (some r) :: inner := hl
        have hspent : offer (.script k x none :: inner) = none := by simp [offer]
        obtain ⟨hw', hages, hb'⟩ := bears_released hw hl ho hb
          (World.layers_setLayer hl₁ (.script k x none)) (by simp) rfl rfl rfl id hspent
        have hmem : Layer.script k x (some r) ∈ w.layers s := by simp [hl]
        have hlaw : x.Lawful := hw.layers hmem
        have hrun : Onward o s n w₁ ⟨{ w₁ with runs := w₁.runs + 1 },
            .follow (firstRun w x r s outer.length k) x.start, K⟩ := by
          refine .like hw' hb' (.of_places rfl) rfl ?_ hlaw.spendsAll_le hK
          simp only [Control.rights, Run.right, offer, firstRun]
          exact .refl _
        simpa [start, hget] using hrun.after hages
    | either k which => simpa [start, hget] using ⟨thread_descend hw hl ho hK hb rfl, .refl s w⟩
    | bind b =>
      simp only [start, hget]
      split_ifs with hs
      · have hlike : w.Like s (w.note s [.logged b.serial .starting]) := .of_places rfl
        exact ⟨thread_descend (w := w.note s _) (hw.of_like hlike rfl) hl ho hK
          (hb.of_like hlike (Nat.le_refl _) fun r hr => hr) (by simpa [Layer.descends] using hs),
          hlike.ages⟩
      · exact onward_refused hw hl ho hK hb (by simp [offer, hs]) [.logged b.serial .starting]
          .bindRestarted

/-! ### Completing -/

lemma Layer.offer_bind_congr (h : b'.storage = b.storage) (xs ys : List Layer) :
    offer (xs ++ .bind b' :: ys) = offer (xs ++ .bind b :: ys) := by
  induction xs with
  | nil => simp [offer, h]
  | cons l xs ih => cases l <;> simp [offer, ih]

lemma World.layers_setBinding (hl : w.layers s = below ++ l :: above) (b : Binding) :
    (w.setBinding s below.length b).layers s = below ++ .bind b :: above := layers_setLayer hl _

lemma World.binding?_of_layers (hl : w.layers s = below ++ .bind b :: above) :
    w.binding? s below.length = some b := by
  rw [binding?_eq_some_iff, hl]
  simp

/-- An operation gives away its receiver, which is now the only one to complete. -/
lemma onward_pass (hw : w.Lawful s) (hl : w.layers s = below ++ .bind b :: above)
    (hr : b.receiver = some r) (hopen : Open o s below r) (hnone : offer (w.layers s) = none)
    (hq : w.spare = []) (hK : ∀ f ∈ K, f.Idle) (c : Completion Value Failure) :
    Onward o s 1 w (Machine.pass w s below.length b c K) := by
  simp only [Machine.pass, hr]
  have hl' := World.layers_setBinding hl b.spend
  have hnone' : offer ((w.setBinding s below.length b.spend).layers s) = none := by
    rw [hl', Layer.offer_bind_congr b.storage_spend, ← hl]
    exact hnone
  refine ⟨.loose (hw.replaced hl hl' id rfl) trivial hK ⟨?_, fun {r'} hr' => ?_⟩, ?_⟩
  · have hspare : (w.setBinding s below.length b.spend).spare = [] := hq
    simp [Control.rights, hnone', hspare]
  · have hspare : (w.setBinding s below.length b.spend).spare = [] := hq
    obtain rfl : r' = r := by simpa [Control.rights, hnone', hspare] using hr'
    rw [hl']
    exact hopen.append _
  · exact .rebound hl hl' (by simp) hr rfl

lemma Amid.failed (hb : Amid o s below b) (hw : w.Lawful s) (hl : w.layers s = below ++ [.bind b])
    (hK : ∀ f ∈ K, f.Idle) (hq : w.spare = []) (m : Payload) :
    Thread o s 1 ⟨w, .raised m, .handoff s below.length :: K⟩ :=
  @Thread.failed o s w m _ _ [] [] _ hw (.handoff hb hK) (by simpa using hl) (by simp) hq
    (by simp [offer])

/-- The value of a predecessor begins a handoff. What the drop of the predecessor raises, if
anything, is raised amid the handoff. -/
lemma onward_accept (hw : w.Lawful s) (hl : w.layers s = below ++ .bind b :: above)
    (hr : b.receiver = some r) (hopen : Open o s below r) (hnone : offer (w.layers s) = none)
    (hq : w.spare = []) (hK : ∀ f ∈ K, f.Idle) (v : Value) :
    Onward o s 1 w (accept w s below.length b v K) := by
  set w₁ := w.setBinding s below.length (b.store v) with hw₁
  set d := w₁.dropAbove s (below.length + 1) false with hd
  set w₂ := d.1.setBinding s below.length (b.store v).vacate with hw₂
  have hl₁ : w₁.layers s = below ++ .bind (b.store v) :: above := World.layers_setBinding hl _
  have hl₂ : d.1.layers s = below ++ [.bind (b.store v)] := by
    rw [hd, World.layers_dropAbove, hl₁, World.take_top]
  have hl₃ : w₂.layers s = below ++ [.bind (b.store v).vacate] := World.layers_setBinding hl₂ _
  have hcount : d.1.nextSerial s = w₁.nextSerial s := by
    simp [hd, World.dropAbove, World.setLayers, World.nextSerial]
  have hstore : w.Ages s w₁ := .rebound hl hl₁ (by simp [hw₁]) hr rfl
  have hdrop : w₁.Ages s d.1 := .taken (by simpa using hl₁) hl₂ hcount
  have hvacate : d.1.Ages s w₂ := .rebound hl₂ hl₃ (by simp [hw₂]) hr rfl
  have hamid : Amid o s below (b.store v).vacate := by
    refine ⟨⟨r, hr, hopen⟩, .inl rfl, by simp, ?_⟩
    rw [hl] at hnone
    exact Layer.offer_eq_none_of_append hnone rfl
  have hlaw : w₂.Lawful s := by
    refine hw.of_layers ?_ rfl
    intro l hmem
    rw [hl₃, List.mem_append, List.mem_singleton] at hmem
    rcases hmem with hmem | rfl
    · exact .inl (hl ▸ List.mem_append_left _ hmem)
    · have hb : (Layer.bind b).Lawful := hw.layers (hl ▸ by simp)
      exact .inr hb
  have hages : w.Ages s w₂ := (hstore.trans hdrop).trans hvacate
  have haccept : accept w s below.length b v K =
      ⟨w₂, d.2.elim (.build s below.length) .raised, .handoff s below.length :: K⟩ := rfl
  rw [haccept]
  cases d.2 with
  | none => exact ⟨.building hlaw hamid hl₃ hK hq, hages⟩
  | some m => exact ⟨hamid.failed hlaw hl₃ hK hq m, hages⟩

lemma onward_receive {role : Role} (hw : w.Lawful s) (hl : w.layers s = below ++ .bind b :: above)
    (hr : b.receiver = some r) (hopen : Open o s below r) (hnone : offer (w.layers s) = none)
    (hq : w.spare = []) (hK : ∀ f ∈ K, f.Idle) (c : Completion Value Failure) :
    Onward o s 1 w (receive w role s below.length b c K) := by
  have hlaw (acts : List Act) : (w.note s acts).Lawful s :=
    hw.of_like (.of_places rfl) rfl
  have hages (acts : List Act) : w.Ages s (w.note s acts) := World.Like.ages (.of_places rfl)
  cases role with
  | predecessor =>
    cases c with
    | value v => exact (onward_accept (hlaw _) hl hr hopen hnone hq hK v).after (hages _)
    | error e => exact (onward_pass (hlaw _) hl hr hopen hnone hq hK _).after (hages _)
    | done => exact (onward_pass (hlaw _) hl hr hopen hnone hq hK _).after (hages _)
  | successor => exact onward_pass hw hl hr hopen hnone hq hK _

/-- A completion that gets through to the final receiver gets on. -/
lemma onward_child {role : Role} {s' : Site} {h : Nat} (hw : w.Lawful s) (ho : o.isChild = false)
    (hopen : Open o s (w.layers s) (.child role s' h)) (hnone : offer (w.layers s) = none)
    (hq : w.spare = []) (hK : ∀ f ∈ K, f.Idle) (c : Completion Value Failure) :
    Onward o s 1 w (complete w (.child role s' h) c K) := by
  obtain ⟨rfl, below, b, above, r, hl, rfl, hc, hr, hrest⟩ := hopen.split ho
  have hcomplete : complete w (.child role s' below.length) c K =
      receive w role s' below.length b c K := by
    simp [complete, World.binding?_of_layers hl, hc]
  rw [hcomplete]
  exact onward_receive hw hl hr hrest hnone hq hK c

/-- The final receiver is given a completion. Nothing is left to be completed. -/
lemma onward_final (hw : w.Lawful s) (ho : o.Calm) (hnone : offer (w.layers s) = none)
    (hq : w.spare = []) (hK : ∀ f ∈ K, f.Idle) (c : Completion Value Failure) :
    Onward o s 0 w (complete w o c K) := by
  have hb : w.Bears o s 0 ([] ++ (offer (w.layers s)).toList) := .of_nil (by simp [hnone]) hq 0
  cases o with
  | child role s' h => exact ho.elim
  | observer home x => exact .like hw hb (.of_places rfl) rfl (.refl _) ho (idle_cons trivial hK)
  | recorder home k => exact .like hw hb (.of_places rfl) rfl (.refl _) trivial hK
  | waiter id =>
    simp only [complete, completeWaiter]
    split_ifs
    · exact .like hw hb (.of_places rfl) rfl (.refl _) trivial hK
    · exact .like hw hb (.of_places rfl) rfl (.refl _) trivial hK

end Handoff
