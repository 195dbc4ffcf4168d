import Handoff.Proofs.Site

/-!
# Who waits behind a receiver

A handle leads to the receiver of the binding operation that it points into, and so on outwards to
a final receiver. `Layer.Awaits` says that every operation on this way still has its receiver, and
lists those that wait. What is looked up through a handle is then a function of that list, whatever
else is built on top of the operations it leads through.
-/

namespace Handoff

namespace Layer

/-- From a receiver outwards, the operations below still have the receivers listed; the last of
them is final. -/
inductive Awaits (s : Site) : List Layer → Receiver → List Receiver → Prop where
  | final {ls : List Layer} {r : Receiver} (hr : r.isChild = false) : Awaits s ls r []
  | child {ls : List Layer} {role : Role} {h : Nat} {b : Binding} {r : Receiver}
      {rest : List Receiver} (hb : ls[h]? = some (.bind b)) (hr : b.receiver = some r)
      (hrest : Awaits s (ls.take h) r rest) : Awaits s ls (.child role s h) (r :: rest)

variable {s : Site} {ls more : List Layer} {r : Receiver} {rest : List Receiver}

lemma trail_of_isChild_eq_false (ls : List Layer) (n : Nat) (hr : r.isChild = false) :
    trail ls n r = [r] := by
  cases r with
  | child role site h => simp [Receiver.isChild] at hr
  | _ => cases n <;> rfl

lemma Awaits.append (h : Awaits s ls r rest) (more : List Layer) :
    Awaits s (ls ++ more) r rest := by
  cases h with
  | final hr => exact .final hr
  | @child _ role h b r rest hb hr hrest =>
    have hlt : h < ls.length := (List.getElem?_eq_some_iff.1 hb).1
    refine .child ?_ hr ?_
    · rwa [List.getElem?_append_left hlt]
    · rwa [List.take_append_of_le_length (Nat.le_of_lt hlt)]

/-- A handle into an operation on top of those through which its receiver leads. -/
lemma Awaits.top (h : Awaits s ls r rest) (role : Role) {b : Binding} (hb : b.receiver = some r) :
    Awaits s (ls ++ [.bind b]) (.child role s ls.length) (r :: rest) := by
  refine .child ?_ hb ?_
  · simp
  · simpa using h

lemma Awaits.length_le (h : Awaits s ls r rest) : rest.length ≤ ls.length := by
  induction h with
  | final => simp
  | @child ls role h b r rest hb _ _ ih =>
    have hlt : h < ls.length := (List.getElem?_eq_some_iff.1 hb).1
    simp only [List.length_take] at ih
    simp only [List.length_cons]
    omega

lemma Awaits.trail_eq (h : Awaits s ls r rest) (more : List Layer) {n : Nat}
    (hn : rest.length ≤ n) : trail (ls ++ more) n r = r :: rest := by
  induction h generalizing more n with
  | final hr => exact trail_of_isChild_eq_false _ n hr
  | @child ls role h b r rest hb hr _ ih =>
    obtain ⟨m, rfl⟩ : ∃ m, n = m + 1 := ⟨n - 1, by simp at hn; omega⟩
    have hlt : h < ls.length := (List.getElem?_eq_some_iff.1 hb).1
    have hb' : (ls ++ more)[h]? = some (.bind b) := by rwa [List.getElem?_append_left hlt]
    have hrest : trail (ls.take h ++ (ls.drop h ++ more)) m r = r :: rest :=
      ih (ls.drop h ++ more) (by simpa using hn)
    rw [← List.append_assoc, List.take_append_drop] at hrest
    simp [trail, hb', hr, hrest]

end Layer

namespace World

variable {w : World} {s : Site} {base more : List Layer} {r : Receiver} {rest : List Receiver}

lemma trail_eq_of_awaits (h : Layer.Awaits s base r rest) (hw : w.layers s = base ++ more) :
    w.trail r = r :: rest := by
  cases h with
  | final hr => simp [trail, Layer.trail_of_isChild_eq_false _ _ hr]
  | @child _ role h b r rest hb hr hrest =>
    have h : Layer.Awaits s base (.child role s h) (r :: rest) := .child hb hr hrest
    simp only [trail, Receiver.site, Option.elim_some, hw]
    refine h.trail_eq more ?_
    have := h.length_le
    simp only [List.length_append]
    omega

/-- The source from which stop requests come for the first of those who wait. -/
def stopFrom (rs : List Receiver) : Option Int := rs.getLast?.bind Receiver.ownStop

/-- Whether a stop was requested of a source, if there is one. -/
def stops (w : World) (k : Option Int) : Bool := k.elim false w.isRequested

@[simp] lemma stopFrom_cons_cons (r r' : Receiver) (rs : List Receiver) :
    stopFrom (r :: r' :: rs) = stopFrom (r' :: rs) := by
  simp [stopFrom]

@[simp] lemma stops_note (s : Site) (acts : List Act) (k : Option Int) :
    (w.note s acts).stops k = w.stops k := rfl

@[simp] lemma stops_after (s : Site) (ls : List Layer) (n : Nat) (acts : List Act)
    (k : Option Int) : (w.after s ls n acts).stops k = w.stops k := rfl

lemma isStopped_eq_of_awaits (h : Layer.Awaits s base r rest) (hw : w.layers s = base ++ more) :
    w.isStopped r = w.stops (stopFrom (r :: rest)) := by
  simp [isStopped, stopOf, trail_eq_of_awaits h hw, stops, stopFrom]

lemma namesFrom_eq_of_awaits (h : Layer.Awaits s base r rest)
    (hw : w.layers s = base ++ more) :
    w.namesFrom r = (r :: rest).flatMap Receiver.ownNames := by
  simp [namesFrom, trail_eq_of_awaits h hw]

end World

end Handoff
