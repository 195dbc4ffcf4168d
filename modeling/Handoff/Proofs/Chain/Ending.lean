import Handoff.Proofs.Chain.Course

/-!
# How a course ends

A course that is pending goes on from a task. If no stop is ever requested, it makes no difference
to what it comes to in the end whether and how often it was pending on the way: `Course.ending` puts
the pieces together, and `Chain.ending` is what starting a chain comes to in the end. The equations
of this section say how the ending of a chain is made from the endings of its parts.
-/

namespace Handoff

/-- What an operation comes to in the end: its receiver is completed, and once that is through,
what stopped leaves carried is dropped. -/
structure Ending where
  stretch : Stretch
  completion : Completion Value Failure
  late : List (Completion Value Failure)

namespace Ending

/-- An ending before which something was recorded. -/
def record (acts : List Act) (e : Ending) : Ending :=
  { e with stretch := { e.stretch with acts := acts ++ e.stretch.acts } }

@[simp] lemma record_record (acts acts' : List Act) (e : Ending) :
    (e.record acts').record acts = e.record (acts ++ acts') := by
  simp [record]

end Ending

namespace Course

/-- What a course comes to in the end, if no stop is requested. -/
def ending : Course → Ending
  | finished st v late => ⟨st, v, late⟩
  | pending st _ _ resume => (resume false).ending.record st.acts

@[simp] lemma ending_record (acts : List Act) (x : Course) :
    (x.record acts).ending = x.ending.record acts := by
  cases x with
  | finished st v late => rfl
  | pending st r v resume => simp [record, ending]

/-- What an operation makes of the ending of the one inside it does not look at what was recorded
before. -/
def Additive
    (go : Bool → Stretch → Completion Value Failure → List (Completion Value Failure) → Course) :
    Prop :=
  ∀ (acts : List Act) (st : Stretch) (v : Completion Value Failure)
    (late : List (Completion Value Failure)),
    (go false { st with acts := acts ++ st.acts } v late).ending =
      (go false st v late).ending.record acts

lemma ending_within {l : Layer}
    {go : Bool → Stretch → Completion Value Failure → List (Completion Value Failure) → Course}
    (hgo : Additive go) (x : Course) :
    (x.within l go false).ending =
      (go false x.ending.stretch x.ending.completion x.ending.late).ending := by
  induction x with
  | finished st v late => rfl
  | pending st r v resume ih =>
    simp only [within, ending, ih false]
    exact (hgo st.acts _ _ _).symm

end Course

namespace Chain

variable {s : Site}

/-- What starting a connected chain comes to in the end, if no stop is requested. -/
def ending (s : Site) (c : Chain) (r : Receiver) (rest : List Receiver) (h k : Nat) : Ending :=
  (c.course s r rest h k false).ending

lemma ending_leaf (l : Leaf) (r : Receiver) (rest : List Receiver) (h k : Nat) :
    (leaf l).ending s r rest h k =
      ⟨⟨[.leaf k l.leaf none], startActs l ((r :: rest).flatMap Receiver.ownNames), k + 1⟩,
        l.leaf.completion, []⟩ := by
  cases hd : l.deferred <;> simp [ending, course, hd, Course.ending, Ending.record]

lemma ending_either (which : Arm) (c : Chain) (other : Signature) (r : Receiver)
    (rest : List Receiver) (h k : Nat) :
    (either which c other).ending s r rest h k =
      let e := c.ending s r rest (h + 1) (k + 1)
      { e with stretch := { e.stretch with layers := .either k which :: e.stretch.layers } } := by
  simp only [ending, course]
  rw [Course.ending_within]
  · rfl
  · intro acts st v late
    rfl

/-! ### The ending of a binding -/

/-- What a handoff comes to does not depend on what was recorded before. -/
lemma hand_append (h : Nat) (b : Binding) (raises : Int64 → Option Payload) (next : Int64 → Chain)
    (acts : List Act) (st : Stretch) (v : Value) :
    hand s h b raises next { st with acts := acts ++ st.acts } v =
      let x := hand s h b raises next st v
      { x with laid := { x.laid with acts := acts ++ x.laid.acts } } := by
  simp only [hand]
  split
  · simp
  · split <;> simp

variable (s) in
/-- The ending of a binding operation, from that of its predecessor and those of its successors. -/
def bindEnding (h : Nat) (b : Binding) (raises : Int64 → Option Payload) (next : Int64 → Chain)
    (successor : Int64 → Nat → Ending) (e : Ending) : Ending :=
  match e.completion with
  | .error f => ⟨⟨.bind b.spend :: e.stretch.layers, e.stretch.acts ++ [.logged b.serial .failed],
      e.stretch.count⟩, .error (.predecessor f), e.late⟩
  | .done => ⟨⟨.bind b.spend :: e.stretch.layers, e.stretch.acts ++ [.logged b.serial .stopped],
      e.stretch.count⟩, .done, e.late⟩
  | .value v =>
    let x := hand s h b raises next e.stretch v
    match x.laid.raised with
    | some m => ⟨⟨.bind x.binding.spend :: x.laid.layers,
        x.laid.acts ++ [.logged b.serial (.buildFailed m)], x.laid.count⟩,
        .error (.panicked m), e.late⟩
    | none =>
      let f := successor v.n e.stretch.count
      ⟨⟨.bind x.binding.settle.spend :: f.stretch.layers, x.laid.acts ++ f.stretch.acts,
        f.stretch.count⟩, f.completion.mapError .successor, f.late ++ e.late⟩

lemma ending_takeover (h : Nat) (b : Binding) (raises : Int64 → Option Payload)
    (next : Int64 → Chain) (successor : Bool → Int64 → Nat → Course) (st : Stretch)
    (v : Completion Value Failure) (late : List (Completion Value Failure)) :
    (takeover s h b raises next successor false st v late).ending =
      bindEnding s h b raises next (fun m n => (successor false m n).ending) ⟨st, v, late⟩ := by
  cases v with
  | error e => rfl
  | done => rfl
  | value v =>
    simp only [takeover, handover, bindEnding]
    cases (hand s h b raises next st v).laid.raised with
    | some m => rfl
    | none =>
      simp only
      rw [Course.ending_within]
      · simp [Course.pass, Course.ending, Ending.record]
      · intro acts st' v' late'
        simp [Course.pass, Course.ending, Ending.record]

lemma bindEnding_record (h : Nat) (b : Binding) (raises : Int64 → Option Payload)
    (next : Int64 → Chain) (successor : Int64 → Nat → Ending) (acts : List Act) (e : Ending) :
    bindEnding s h b raises next successor (e.record acts) =
      (bindEnding s h b raises next successor e).record acts := by
  obtain ⟨st, v, late⟩ := e
  cases v with
  | error f => simp [bindEnding, Ending.record]
  | done => simp [bindEnding, Ending.record]
  | value v =>
    simp only [bindEnding, Ending.record, hand_append]
    cases (hand s h b raises next st v).laid.raised <;> simp

/-- The ending of a binding comes from those of its predecessor and its successors. -/
lemma ending_bind (p : Chain) (raises : Int64 → Option Payload) (next : Int64 → Chain)
    (promised : Signature) (r : Receiver) (rest : List Receiver) (h k : Nat) :
    (bind p raises next promised).ending s r rest h k =
      bindEnding s h (binding raises next r k) raises next
        (fun m n => (next m).ending s (.child .successor s h) (r :: rest) (h + 1) n)
        ((p.ending s (.child .predecessor s h) (r :: rest) (h + 1) (k + 1)).record
          [.logged k .starting]) := by
  simp only [ending, course]
  rw [Course.ending_within, ending_takeover, Course.ending_record]
  intro acts st v late
  rw [ending_takeover, ending_takeover]
  exact bindEnding_record h _ raises next _ acts ⟨st, v, late⟩

end Chain

end Handoff
