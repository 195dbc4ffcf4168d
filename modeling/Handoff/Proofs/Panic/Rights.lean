import Handoff.Proofs.Lifetime.Upkeep
import Handoff.Proofs.Panic.Lawful

/-!
# Who may still complete

Lawful senders give away each receiver at most once, so that at any moment there is at most one
receiver that somebody may still complete: a leaf that can be started, a run, or a task holds it.
`Layer.Open` says that this receiver leads to the final one through operations that have not used
up theirs and are in the state that their children expect. `World.Bears` collects the receivers that
may still be completed. How operations change in the meantime is `World.Ages`: one that has used up
its receiver stays as it is.
-/

namespace Handoff

/-! ### Operations without their values -/

namespace Layer

/-- A layer without its stored value. -/
def bare : Layer → Layer
  | bind b => bind { b with value := none }
  | l => l

variable {ls ls' : List Layer}

lemma bare_eq_bind {l : Layer} {b : Binding} (h : l.bare = (bind b).bare) :
    ∃ b', l = bind b' ∧ b'.serial = b.serial ∧ b'.factory = b.factory ∧
      b'.receiver = b.receiver ∧ b'.storage = b.storage ∧ b'.cleanup = b.cleanup := by
  cases l with
  | bind b' =>
    simp only [bare, bind.injEq, Binding.mk.injEq] at h
    obtain ⟨hserial, hfactory, hreceiver, -, hstorage, hcleanup⟩ := h
    exact ⟨b', rfl, hserial, hfactory, hreceiver, hstorage, hcleanup⟩
  | _ => simp [bare] at h

lemma exists_bind_of_bare (h : ls.map bare = ls'.map bare) {i : Nat} {b : Binding}
    (hb : ls'[i]? = some (bind b)) :
    ∃ b', ls[i]? = some (bind b') ∧ b'.serial = b.serial ∧ b'.factory = b.factory ∧
      b'.receiver = b.receiver ∧ b'.storage = b.storage ∧ b'.cleanup = b.cleanup := by
  have hget : (ls.map bare)[i]? = some (bind b).bare := by
    rw [h, List.getElem?_map, hb]
    rfl
  rw [List.getElem?_map, Option.map_eq_some_iff] at hget
  obtain ⟨l, hl, hbare⟩ := hget
  obtain ⟨b', rfl, hfields⟩ := bare_eq_bind hbare
  exact ⟨b', hl, hfields⟩

@[simp] lemma receiver?_bare (l : Layer) : l.bare.receiver? = l.receiver? := by
  cases l <;> rfl

@[simp] lemma offer_map_bare (ls : List Layer) : offer (ls.map bare) = offer ls := by
  induction ls with
  | nil => rfl
  | cons l rest ih => cases l <;> simp [bare, offer, ih]

lemma offer_eq_of_bare (h : ls.map bare = ls'.map bare) : offer ls = offer ls' := by
  rw [← offer_map_bare ls, h, offer_map_bare]

@[simp] lemma map_bare_writeBack (ns : Env) (ls : List Layer) :
    (writeBack ns ls).map bare = ls.map bare := by
  induction ls generalizing ns with
  | nil => rfl
  | cons l rest ih =>
    simp only [writeBack]
    split <;> simp [ih, bare, Binding.restore]

lemma lawful_of_bare (h : ls.map bare = ls'.map bare) (hls : ∀ l ∈ ls', l.Lawful) :
    ∀ l ∈ ls, l.Lawful := by
  intro l hl
  have hbare : l.bare ∈ ls'.map bare := h ▸ List.mem_map_of_mem hl
  obtain ⟨l', hl', heq⟩ := List.mem_map.1 hbare
  have hlaw := hls l' hl'
  cases l with
  | bind b =>
    obtain ⟨b', rfl, -, hfactory, -⟩ := bare_eq_bind heq
    intro f next hf
    exact hlaw f next (hfactory.trans hf)
  | script k s held =>
    cases l' with
    | script k' s' held' =>
      simp only [bare, script.injEq] at heq
      obtain ⟨-, rfl, -⟩ := heq
      exact hlaw
    | _ => simp [bare] at heq
  | _ => trivial

/-! ### The way of a completion -/

/-- At a site a completion of a receiver will get through to the final receiver `o`: each operation
on the way is in the state that its child's role expects, and has not used up its own receiver. -/
inductive Open (o : Receiver) (s : Site) : List Layer → Receiver → Prop where
  | final (ls : List Layer) : Open o s ls o
  | child {ls : List Layer} {role : Role} {h : Nat} {b : Binding} {r : Receiver}
      (hb : ls[h]? = some (.bind b)) (hc : b.cleanup = role.expects) (hr : b.receiver = some r)
      (hrest : Open o s (ls.take h) r) : Open o s ls (.child role s h)

section Open

variable {o r : Receiver} {s : Site} {b : Binding} {role : Role} {l l' : Layer}
  {xs ys more : List Layer}

lemma Open.append (h : Open o s ls r) (more : List Layer) : Open o s (ls ++ more) r := by
  cases h with
  | final => exact .final _
  | @child _ role h b r hb hc hr hrest =>
    have hlt : h < ls.length := (List.getElem?_eq_some_iff.1 hb).1
    refine .child ?_ hc hr ?_
    · rwa [List.getElem?_append_left hlt]
    · rwa [List.take_append_of_le_length (Nat.le_of_lt hlt)]

lemma Open.top (h : Open o s ls r) (hr : b.receiver = some r) (hc : b.cleanup = role.expects) :
    Open o s (ls ++ [.bind b]) (.child role s ls.length) := by
  refine .child ?_ hc hr ?_
  · simp
  · simpa using h

lemma Open.of_bare (h : Open o s ls' r) (hls : ls.map bare = ls'.map bare) : Open o s ls r := by
  induction h generalizing ls with
  | final => exact .final _
  | @child ls' role h b r hb hc hr _ ih =>
    obtain ⟨b', hb', -, -, hreceiver, -, hcleanup⟩ := exists_bind_of_bare hls hb
    refine .child hb' (hcleanup.trans hc) (hreceiver.trans hr) (ih ?_)
    rw [List.map_take, List.map_take, hls]

lemma getElem?_replace (l l' : Layer) (xs ys : List Layer) {h : Nat} (hne : h ≠ xs.length) :
    (xs ++ l' :: ys)[h]? = (xs ++ l :: ys)[h]? := by
  have hset : (xs ++ l :: ys).set xs.length l' = xs ++ l' :: ys := by simp
  rw [← hset, List.getElem?_set_ne (Ne.symm hne)]

/-- A layer that is no binding operation is not on the way of a completion. -/
lemma Open.replace (h : Open o s (xs ++ l :: ys) r) (hl : l.cleanup? = none) (l' : Layer) :
    Open o s (xs ++ l' :: ys) r := by
  generalize hls : xs ++ l :: ys = ls at h
  induction h generalizing xs ys with
  | final => exact .final _
  | @child ls role h b r hb hc hr hrest ih =>
    subst hls
    have hne : h ≠ xs.length := by
      rintro rfl
      obtain rfl : l = .bind b := by simpa using hb
      simp [Layer.cleanup?] at hl
    refine .child ((getElem?_replace l l' xs ys hne).trans hb) hc hr ?_
    rcases Nat.lt_or_gt_of_ne hne with hlt | hgt
    · rw [List.take_append_of_le_length (Nat.le_of_lt hlt)] at hrest ⊢
      exact hrest
    · obtain ⟨i, rfl⟩ : ∃ i, h = xs.length + (i + 1) := ⟨h - xs.length - 1, by omega⟩
      rw [List.take_length_add_append, List.take_succ_cons]
      exact ih (by rw [List.take_length_add_append, List.take_succ_cons])

/-- The operation that a completion reaches through a handle, and those below it. -/
lemma Open.split {role : Role} {s' : Site} {h : Nat} (hopen : Open o s ls (.child role s' h))
    (ho : o.isChild = false) :
    s' = s ∧ ∃ below b above r, ls = below ++ .bind b :: above ∧ below.length = h ∧
      b.cleanup = role.expects ∧ b.receiver = some r ∧ Open o s below r := by
  cases hopen with
  | final => simp [Receiver.isChild] at ho
  | @child _ _ _ b r hb hc hr hrest =>
    obtain ⟨hlt, hval⟩ := List.getElem?_eq_some_iff.1 hb
    refine ⟨rfl, ls.take h, b, ls.drop (h + 1), r, ?_, ?_, hc, hr, hrest⟩
    · rw [← hval, ← List.drop_eq_getElem_cons hlt, List.take_append_drop]
    · exact List.length_take_of_le (Nat.le_of_lt hlt)

lemma Open.eq_of_isChild (h : Open o s ls r) (hr : r.isChild = false) : r = o := by
  cases h with
  | final => rfl
  | child => simp [Receiver.isChild] at hr

end Open

end Layer

/-! ### Operations in the course of time -/

/-- A binding operation later on. Once its receiver is used up nothing changes that matters to what
it may do. -/
structure Binding.Ages (b b' : Binding) : Prop where
  serial_eq : b'.serial = b.serial
  of_spent (h : b.receiver = none) :
    b'.receiver = none ∧ b'.storage = b.storage ∧ b'.cleanup = b.cleanup

namespace Binding

variable {b b' b'' : Binding}

lemma Ages.refl (b : Binding) : b.Ages b := ⟨rfl, fun h => ⟨h, rfl, rfl⟩⟩

lemma Ages.trans (h : b.Ages b') (h' : b'.Ages b'') : b.Ages b'' := by
  constructor
  · rw [h'.serial_eq, h.serial_eq]
  · intro hb
    obtain ⟨hr, hs, hc⟩ := h.of_spent hb
    obtain ⟨hr', hs', hc'⟩ := h'.of_spent hr
    exact ⟨hr', hs'.trans hs, hc'.trans hc⟩

lemma Ages.of_receiver {r : Receiver} (hr : b.receiver = some r) (hs : b'.serial = b.serial) :
    b.Ages b' := ⟨hs, fun h => by simp [h] at hr⟩

end Binding

namespace World

/-- The operations of a site later on: each binding operation has aged, or was not there yet. -/
structure Ages (s : Site) (w w' : World) : Prop where
  count_le : w.nextSerial s ≤ w'.nextSerial s
  binding {h : Nat} {b' : Binding} (hb : (w'.layers s)[h]? = some (.bind b')) :
    w.nextSerial s ≤ b'.serial ∨ ∃ b, (w.layers s)[h]? = some (.bind b) ∧ b.Ages b'

variable {s s' : Site} {w w' w'' : World}

lemma Ages.trans (h : w.Ages s w') (h' : w'.Ages s w'') : w.Ages s w'' := by
  constructor
  · exact Nat.le_trans h.count_le h'.count_le
  · intro i b'' hb
    rcases h'.binding hb with hnew | ⟨b', hb', hages'⟩
    · exact .inl (Nat.le_trans h.count_le hnew)
    · rcases h.binding hb' with hnew | ⟨b, hb, hages⟩
      · rw [hages'.serial_eq]
        exact .inl hnew
      · exact .inr ⟨b, hb, hages.trans hages'⟩

/-- The operations of a site have not changed, but for stored values. -/
structure Like (s : Site) (w w' : World) : Prop where
  layers_eq : (w'.layers s).map Layer.bare = (w.layers s).map Layer.bare
  count_eq : w'.nextSerial s = w.nextSerial s

lemma Like.of_places (hp : w'.places = w.places) : w.Like s w' := by
  constructor <;> simp [layers, nextSerial, place, hp]

lemma Like.refl (s : Site) (w : World) : w.Like s w := .of_places rfl

lemma Like.trans (h : w.Like s w') (h' : w'.Like s w'') : w.Like s w'' :=
  ⟨h'.layers_eq.trans h.layers_eq, h'.count_eq.trans h.count_eq⟩

lemma Like.put_of_ne (hs : s' ≠ s) (q : Place) : w.Like s (w.put s' q) := by
  have hplace : (w.put s' q).place s = w.place s := place_put_of_ne q hs.symm
  constructor
  · simp [layers, hplace]
  · simp [nextSerial, hplace]

lemma Like.setLayer_of_ne (hs : s' ≠ s) (h : Nat) (l : Layer) : w.Like s (w.setLayer s' h l) :=
  .put_of_ne hs _

lemma Like.setBinding_of_ne (hs : s' ≠ s) (h : Nat) (b : Binding) :
    w.Like s (w.setBinding s' h b) :=
  .put_of_ne hs _

lemma Like.setScope (w : World) (s s' : Site) (h : Nat) (env : Env) :
    w.Like s (w.setScope s' h env) := by
  by_cases hs : s = s'
  · subst hs
    constructor
    · simp only [World.setScope, layers_setLayers_self, List.map_append, Layer.map_bare_writeBack]
      rw [← List.map_append, List.take_append_drop]
    · simp [World.setScope, setLayers, nextSerial]
  · exact .put_of_ne (Ne.symm hs) _

lemma Like.ages (h : w.Like s w') : w.Ages s w' := by
  constructor
  · exact Nat.le_of_eq h.count_eq.symm
  · intro i b' hb
    obtain ⟨b, hb, hserial, -, hreceiver, hstorage, hcleanup⟩ :=
      Layer.exists_bind_of_bare h.layers_eq.symm hb
    refine .inr ⟨b, hb, hserial.symm, ?_⟩
    intro hnone
    rw [← hreceiver]
    exact ⟨hnone, hstorage.symm, hcleanup.symm⟩

lemma Ages.refl (s : Site) (w : World) : w.Ages s w := (Like.refl s w).ages

lemma Ages.replaced {xs ys : List Layer} {l l' : Layer} (hw : w.layers s = xs ++ l :: ys)
    (hw' : w'.layers s = xs ++ l' :: ys) (hn : w'.nextSerial s = w.nextSerial s)
    (hl : ∀ b', l' = .bind b' → ∃ b, l = .bind b ∧ b.Ages b') : w.Ages s w' := by
  constructor
  · exact Nat.le_of_eq hn.symm
  · intro h b' hb
    rw [hw'] at hb
    rw [hw]
    by_cases hh : h = xs.length
    · subst hh
      obtain ⟨b, rfl, hages⟩ := hl b' (by simpa using hb)
      exact .inr ⟨b, by simp, hages⟩
    · rw [Layer.getElem?_replace l l' xs ys hh] at hb
      exact .inr ⟨b', hb, .refl b'⟩

lemma Ages.rebound {below above : List Layer} {b b' : Binding} {r : Receiver}
    (hw : w.layers s = below ++ .bind b :: above) (hw' : w'.layers s = below ++ .bind b' :: above)
    (hn : w'.nextSerial s = w.nextSerial s) (hr : b.receiver = some r)
    (hserial : b'.serial = b.serial) : w.Ages s w' := by
  refine .replaced hw hw' hn ?_
  rintro x ⟨⟩
  exact ⟨b, rfl, .of_receiver hr hserial⟩

lemma Ages.taken {xs ys : List Layer} (hw : w.layers s = xs ++ ys) (hw' : w'.layers s = xs)
    (hn : w'.nextSerial s = w.nextSerial s) : w.Ages s w' := by
  constructor
  · exact Nat.le_of_eq hn.symm
  · intro h b' hb
    rw [hw'] at hb
    rw [hw, List.getElem?_append_left (List.getElem?_eq_some_iff.1 hb).1]
    exact .inr ⟨b', hb, .refl b'⟩

lemma Ages.filled {l : Layer} (hw' : w'.layers s = w.layers s ++ [l])
    (hn : w'.nextSerial s = w.nextSerial s + 1) (hl : l.serial = w.nextSerial s) :
    w.Ages s w' := by
  constructor
  · omega
  · intro h b' hb
    rw [hw'] at hb
    by_cases hlt : h < (w.layers s).length
    · rw [List.getElem?_append_left hlt] at hb
      exact .inr ⟨b', hb, .refl b'⟩
    · rw [List.getElem?_append_right (Nat.le_of_not_lt hlt), List.getElem?_singleton] at hb
      split_ifs at hb with hi
      obtain rfl : l = .bind b' := by simpa using hb
      exact .inl (Nat.le_of_eq hl.symm)

/-! ### Receivers that may be completed -/

/-- The operations of a site and the tasks come from lawful senders. -/
structure Lawful (s : Site) (w : World) : Prop where
  layers {l : Layer} (hl : l ∈ w.layers s) : l.Lawful
  queue {t : Task} (ht : t ∈ w.queue) : t.Lawful

lemma Lawful.of_mem (h : w.Lawful s) (hw : w.Like s w')
    (hq : ∀ t ∈ w'.queue, t ∈ w.queue ∨ t.Lawful) : w'.Lawful s := by
  constructor
  · intro l hl
    exact Layer.lawful_of_bare hw.layers_eq (fun _ => h.layers) l hl
  · intro t ht
    rcases hq t ht with ht | ht
    · exact h.queue ht
    · exact ht

lemma Lawful.of_like (h : w.Lawful s) (hw : w.Like s w') (hq : w'.queue = w.queue) :
    w'.Lawful s := by
  refine h.of_mem hw ?_
  intro t ht
  exact .inl (hq ▸ ht)

lemma Lawful.of_layers (h : w.Lawful s) (hl : ∀ l ∈ w'.layers s, l ∈ w.layers s ∨ l.Lawful)
    (hq : w'.queue = w.queue) : w'.Lawful s := by
  constructor
  · intro l hmem
    rcases hl l hmem with hmem | hlaw
    · exact h.layers hmem
    · exact hlaw
  · intro t ht
    exact h.queue (hq ▸ ht)

/-- The receivers that tasks complete. -/
def spare (w : World) : List Receiver := w.queue.filterMap Task.right

lemma spare_eq_of_queue (h : w'.queue = w.queue) : w'.spare = w.spare := by
  rw [spare, h, spare]

@[simp] lemma spare_schedule (t : Task) : (w.schedule t).spare = w.spare ++ t.right.toList := by
  cases ht : t.right <;> simp [spare, ht]

/-- There are at most so many receivers to complete, those listed and those that tasks complete.
Each leads to the final receiver. -/
structure Bears (o : Receiver) (s : Site) (n : Nat) (w : World) (rs : List Receiver) : Prop where
  length_le : (rs ++ w.spare).length ≤ n
  isOpen {r : Receiver} (hr : r ∈ rs ++ w.spare) : Layer.Open o s (w.layers s) r

variable {o : Receiver} {n : Nat} {rs rs' : List Receiver}

lemma Bears.of_like (h : w.Bears o s n rs) (hw : w.Like s w')
    (hlen : (rs' ++ w'.spare).length ≤ (rs ++ w.spare).length)
    (hmem : ∀ r ∈ rs' ++ w'.spare, r ∈ rs ++ w.spare) : w'.Bears o s n rs' :=
  ⟨Nat.le_trans hlen h.length_le, fun hr => (h.isOpen (hmem _ hr)).of_bare hw.layers_eq⟩

/-- If there is one to complete, there is no other. -/
lemma Bears.single {r : Receiver} (h : w.Bears o s n (r :: rs)) (hn : n ≤ 1) :
    n = 1 ∧ rs = [] ∧ w.spare = [] ∧ Layer.Open o s (w.layers s) r := by
  have hlen := h.length_le
  simp only [List.cons_append, List.length_cons, List.length_append] at hlen
  refine ⟨by omega, ?_, ?_, h.isOpen (by simp)⟩
  · exact List.eq_nil_of_length_eq_zero (by omega)
  · exact List.eq_nil_of_length_eq_zero (by omega)

lemma Bears.of_nil (hn : rs = []) (hq : w.spare = []) (n : Nat) : w.Bears o s n rs := by
  constructor
  · simp [hn, hq]
  · intro r hr
    simp [hn, hq] at hr

end World

end Handoff
