import Handoff.Proofs.Holding.Unscripted

/-!
# Live operations

As long as nothing has got through to the final receiver of a site, the operations there form one
line that ends in a leaf. `Layer.Conveys` is a line through which a completion gets to the final
receiver, each operation with its own receiver and in the state that the next one inside expects,
and `World.Live` says that all operations of a site are on such a line, but for the leaf, which is
still to complete.
-/

namespace Handoff

namespace Layer

open Sender (Yields Part)

/-- Operations on a line through which a completion gets to the final receiver `o`. What stands next
inside them stems from the sender `y`, and it was connected to the receiver given. -/
structure Conveys (o : Receiver) (s : Site) (base : List Layer) (y : Sender) (r : Receiver) :
    Prop where
  line : ∃ x path, Line x o s base path y r
  rests : ∀ l ∈ base, l.Rests

/-- A leaf that was not started and has its receiver still, or whose completion is queued. -/
def Owes (queue : List Task) : Layer → Receiver → Prop
  | ready _ held, r => ∃ c, held = some (c, r)
  | leaf _ l held, r => held = some r ∨ held = none ∧ .complete l.completion r ∈ queue
  | _, _ => False

variable {o r r' : Receiver} {s : Site} {base base' pre post : List Layer} {b b' : Binding}
  {role : Role} {l l' : Layer} {queue queue' : List Task} {y z : Sender}

lemma Owes.mono (h : l.Owes queue r) (hq : ∀ t ∈ queue, t ∈ queue') : l.Owes queue' r := by
  cases l with
  | leaf k l held => exact h.imp_right fun ⟨hheld, hmem⟩ => ⟨hheld, hq _ hmem⟩
  | _ => exact h

lemma conveys_nil (o : Receiver) (s : Site) (x : Sender) : Conveys o s [] x o :=
  ⟨⟨x, [], .nil⟩, by simp⟩

lemma Conveys.either {k : Nat} {which : Arm} (h : Conveys o s base (.either which y) r) :
    Conveys o s (base ++ [.either k which]) y r where
  line := by
    obtain ⟨x, path, hline⟩ := h.line
    exact ⟨x, path, .either hline⟩
  rests := List.forall_mem_append.2 ⟨h.rests, by simp [Rests]⟩

lemma Conveys.bind (h : Conveys o s base z r) (hb : z.Yields r (.bind b))
    (hr : b.receiver ≠ none) (hs : b.storage = role.storage) (hc : b.cleanup = role.expects)
    (hy : z.Part role y) : Conveys o s (base ++ [.bind b]) y (.child role s base.length) where
  line := by
    obtain ⟨x, path, hline⟩ := h.line
    exact ⟨x, role :: path, .bind hline hb hs hy⟩
  rests := List.forall_mem_append.2 ⟨h.rests, by simpa using ⟨hr, role, hs, hc⟩⟩

/-- A completion of the receiver that a line conveys to finds the operation it goes to as it should
be, and the rest of the line leads on from there. -/
lemma Conveys.of_child {s' : Site} {h : Nat} (ho : o.isChild = false)
    (hc : Conveys o s base y (.child role s' h)) :
    ∃ pre b post z r, base = pre ++ .bind b :: post ∧ s' = s ∧ h = pre.length ∧
      b.cleanup = role.expects ∧ b.receiver = some r ∧ z.Yields r (.bind b) ∧
      Conveys o s pre z r := by
  obtain ⟨⟨x, path, hline⟩, hrests⟩ := hc
  cases path with
  | nil =>
    rw [← hline.eq_of_nil] at ho
    cases ho
  | cons role' path =>
    obtain ⟨pre, b, post, z, r, rfl, hchild, hpre, hz, hs⟩ := hline.exists_outer
    obtain ⟨rfl, rfl, rfl⟩ := Receiver.child.inj hchild
    have hb : (Layer.bind b).Rests := hrests _ (by simp)
    exact ⟨pre, b, post, z, r, rfl, rfl, rfl, hb.cleanup_eq hs, hb.receiver_eq hz, hz,
      ⟨x, path, hpre⟩, fun l hl => hrests l (by simp [hl])⟩

/-- A line conveys to each of the binding operations on it. -/
lemma Conveys.of_append (h : Conveys o s (pre ++ .bind b :: post) y r) :
    ∃ role y', b.cleanup = role.expects ∧
      Conveys o s (pre ++ [.bind b]) y' (.child role s pre.length) := by
  obtain ⟨⟨x, path, hline⟩, hrests⟩ := h
  obtain ⟨path', role, z, q, y', hpre, hz, hs, hy⟩ := hline.exists_part rfl
  have hb : (Layer.bind b).Rests := hrests _ (by simp)
  have hconveys : Conveys o s pre z q := ⟨⟨x, path', hpre⟩, fun l hl => hrests l (by simp [hl])⟩
  exact ⟨role, y', hb.cleanup_eq hs, hconveys.bind hz hb.1 hs (hb.cleanup_eq hs) hy⟩

lemma Conveys.eq_of_isChild (h : Conveys o s base y r) (hr : r.isChild = false) : r = o := by
  obtain ⟨x, path, hline⟩ := h.line
  by_contra hne
  obtain ⟨_, _, _, _, -, rfl, -⟩ := hline.split hne
  cases hr

lemma Conveys.site_eq (h : Conveys o s base y r) (ho : o.Ends s) : r.site = some s := by
  obtain ⟨x, path, hline⟩ := h.line
  exact hline.site_eq ho

lemma Restored.persists (h : Restored l l') : l.Persists l' := by
  obtain rfl | ⟨b, env, rfl, rfl⟩ := h
  · exact .refl _
  · exact .bind (by simp) (.inr (by simp)) (.inr (by simp)) (by simp)

lemma Restored.rests (h : Restored l l') (hl : l.Rests) : l'.Rests := by
  obtain rfl | ⟨b, env, rfl, rfl⟩ := h
  · exact hl
  · simpa [Rests] using hl

/-- A line goes on to convey when stored numbers are written back. -/
lemma Conveys.restored (h : Conveys o s base y r) (hb : List.Forall₂ Restored base base') :
    Conveys o s base' y r where
  line := by
    obtain ⟨x, path, hline⟩ := h.line
    exact ⟨x, path, hline.persists (hb.imp fun _ _ hl => hl.persists)⟩
  rests l' hl' := by
    obtain ⟨i, hi, rfl⟩ := List.getElem_of_mem hl'
    have hi' : i < base.length := hb.length_eq ▸ hi
    exact (hb.get hi' hi).rests (h.rests _ (List.getElem_mem hi'))

end Layer

namespace World

open Layer (Conveys)

/-- The operations of a site form a line to a final receiver of it, and the leaf that ends it is
still to complete. -/
def Live (s : Site) (o : Receiver) (w : World) : Prop :=
  o.Ends s ∧ ∃ base l y r, w.layers s = base ++ [l] ∧ Conveys o s base y r ∧ l.Owes w.queue r

/-- A completion of a receiver gets through to a final receiver of a site, whatever stands inside of
the operations that it goes through. -/
def Through (s : Site) (o : Receiver) (w : World) (r : Receiver) : Prop :=
  o.Ends s ∧ ∃ base rest y, w.layers s = base ++ rest ∧ Conveys o s base y r

variable {w w' : World} {s s' : Site} {o r : Receiver} {role : Role} {h : Nat} {b : Binding}
  {pre post : List Layer}

lemma Live.of_eq (h : w.Live s o) (hl : w'.layers s = w.layers s)
    (hq : ∀ t ∈ w.queue, t ∈ w'.queue) : w'.Live s o := by
  obtain ⟨ho, base, l, y, r, hlayers, hbase, howes⟩ := h
  exact ⟨ho, base, l, y, r, hl.trans hlayers, hbase, howes.mono hq⟩

lemma Live.ne_nil (h : w.Live s o) : w.layers s ≠ [] := by
  obtain ⟨-, base, l, y, r, hl, -, -⟩ := h
  simp [hl]

lemma Through.site_eq (h : w.Through s o r) : r.site = some s := by
  obtain ⟨ho, base, rest, y, -, hbase⟩ := h
  exact hbase.site_eq ho

/-- Where all is live, a completion of a handle gets through as soon as the operation that it points
into expects it. -/
lemma Live.through (hlive : w.Live s o) (hl : w.layers s = pre ++ .bind b :: post)
    (hc : b.cleanup = role.expects) : w.Through s o (.child role s pre.length) := by
  obtain ⟨ho, base, l, y, r, hlayers, hbase, howes⟩ := hlive
  obtain rfl | ⟨post, l', rfl⟩ := post.eq_nil_or_concat'
  · obtain ⟨rfl, hlast⟩ := List.append_inj' (hlayers.symm.trans hl) rfl
    obtain rfl : l = .bind b := by simpa using hlast
    exact howes.elim
  · have hsplit : base ++ [l] = (pre ++ .bind b :: post) ++ [l'] := by
      rw [← hlayers, hl, List.append_assoc, List.cons_append]
    obtain rfl := List.append_inj_left' hsplit rfl
    obtain ⟨role', y', hc', hpre⟩ := hbase.of_append
    obtain rfl : role = role' := by
      cases role <;> cases role' <;> simp_all [Role.expects]
    exact ⟨ho, _, post ++ [l'], y', by simpa using hl, hpre⟩

/-- The operation that a completion goes to which gets through, and what it is passed on to. -/
lemma Through.of_child (ht : w.Through s o (.child role s' h)) :
    ∃ pre b post z r, w.layers s = pre ++ .bind b :: post ∧ s' = s ∧ h = pre.length ∧
      b.cleanup = role.expects ∧ b.receiver = some r ∧ z.Yields r (.bind b) ∧
      Conveys o s pre z r := by
  obtain ⟨ho, base, rest, y, hlayers, hbase⟩ := ht
  obtain ⟨pre, b, post, z, r, rfl, hs, hh, hc, hr, hz, hpre⟩ := hbase.of_child ho.isChild_eq
  exact ⟨pre, b, post ++ rest, z, r, by simpa using hlayers, hs, hh, hc, hr, hz, hpre⟩

/-- What a completion is given to that gets through and goes to no handle is the final receiver. -/
lemma Through.eq_of_isChild (ht : w.Through s o r) (hr : r.isChild = false) : r = o := by
  obtain ⟨-, base, rest, y, -, hbase⟩ := ht
  exact hbase.eq_of_isChild hr

end World

end Handoff
