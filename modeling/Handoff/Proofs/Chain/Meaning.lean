import Handoff.Proofs.Chain.Ending
import Handoff.Proofs.Chain.Realization
import Handoff.Proofs.Hearing
import Handoff.Proofs.Parting

/-!
# The meaning of a chain

`Chain.meaning` evaluates a chain without places, operations or receivers: it says what the chain
completes with, with which numbers factories are called on the way, and what dropping its operation
raises afterwards. The main statement is that the machine, which runs the same chain by callbacks
into operations that are dropped while they execute, gives just this completion to the final
receiver.
-/

namespace Handoff

namespace Chain

/-- The leaf reached through active alternatives and predecessors. -/
def head : Chain → Chain
  | either _ c _ => c.head
  | bind p _ _ _ => p.head
  | c => c

/-- Whether a chain is a leaf that cannot be connected. -/
def isExploding : Chain → Bool
  | exploding _ => true
  | _ => false

/-- No leaf puts its completion off, neither in the chain nor in what its factories build. -/
def Inline : Chain → Prop
  | ready _ => True
  | leaf l => l.deferred = false
  | exploding _ => True
  | either _ c _ => c.Inline
  | bind p _ next _ => p.Inline ∧ ∀ n, (next n).Inline

/-- What a chain comes to. -/
structure Meaning where
  completion : Completion Value Failure
  /-- The stored numbers that factories are called with, in order. -/
  calls : List Int64 := []
  /-- What dropping the operation raises once it has completed. -/
  parting : Option Payload := none

/-- What a binding comes to, from what its predecessor comes to, from what building the successor
raises for a stored number and from what the successor comes to. -/
def Meaning.bind (x : Meaning) (raises : Int64 → Option Payload) (successor : Int64 → Meaning) :
    Meaning :=
  match x.completion with
  | .done => { x with completion := .done }
  | .error e => { x with completion := .error (.predecessor e) }
  | .value v =>
    match x.parting with
    | some m => { completion := .error (.panicked m), calls := x.calls }
    | none =>
      match raises v.n with
      | some m => { completion := .error (.panicked m), calls := x.calls ++ [v.n] }
      | none =>
        let y := successor v.n
        { completion := y.completion.mapError .successor
          calls := x.calls ++ v.n :: y.calls
          parting := y.parting }

/-- The meaning of a chain whose connect raises nothing. What cannot be connected has none: `done`
stands for it. -/
def meaning : Chain → Meaning
  | ready c => { completion := deliver none c }
  | leaf l =>
    { completion := deliver l.tracked l.completion
      parting := if l.explodes then some Fault.leafExploded.payload else none }
  | exploding _ => { completion := .done }
  | either _ c _ => c.meaning
  | bind p raises next _ =>
    p.meaning.bind (fun n => (raises n).or (next n).connectRaises) fun n => (next n).meaning

/-- Connecting raises just if the head of the chain cannot be connected. -/
lemma connectRaises_eq_none_iff (c : Chain) :
    c.connectRaises = none ↔ c.head.isExploding = false := by
  induction c with
  | ready c => simp [connectRaises, head, isExploding]
  | leaf l => simp [connectRaises, head, isExploding]
  | exploding built => simp [connectRaises, head, isExploding]
  | either which c other ih => exact ih
  | bind p raises next promised ih => exact ih

end Chain

/-! ### Calls of factories -/

/-- The number that a factory is called with. -/
def Act.call? : Act → Option Int64
  | called _ _ n => some n
  | _ => none

namespace Act

/-- The numbers that factories are called with, in order. -/
def calls (acts : List Act) : List Int64 := acts.filterMap call?

@[simp] lemma calls_nil : calls [] = [] := rfl

@[simp] lemma calls_called (k : Nat) (label : Option String) (n : Int64) (acts : List Act) :
    calls (called k label n :: acts) = n :: calls acts := rfl

@[simp] lemma calls_logged (k : Nat) (r : Record) (acts : List Act) :
    calls (logged k r :: acts) = calls acts := rfl

@[simp] lemma calls_stored (k : Nat) (acts : List Act) :
    calls (stored k :: acts) = calls acts := rfl

@[simp] lemma calls_append (xs ys : List Act) : calls (xs ++ ys) = calls xs ++ calls ys := by
  simp [calls]

/-- Factories are not called. -/
def Uncalling (acts : List Act) : Prop := calls acts = []

@[simp] lemma uncalling_nil : Uncalling [] := rfl

@[simp] lemma uncalling_cons (a : Act) (acts : List Act) :
    Uncalling (a :: acts) ↔ a.call? = none ∧ Uncalling acts := by
  simp only [Uncalling, calls, List.filterMap_cons]
  cases a.call? <;> simp

@[simp] lemma uncalling_append (xs ys : List Act) :
    Uncalling (xs ++ ys) ↔ Uncalling xs ∧ Uncalling ys := by
  simp [Uncalling]

end Act

open Act (Uncalling)

/-- The numbers that factories were called with so far, in order. -/
def World.calls (w : World) : List Int64 := Act.calls (w.events.map Event.act)

@[simp] lemma World.calls_note (w : World) (s : Site) (acts : List Act) :
    (w.note s acts).calls = w.calls ++ Act.calls acts := by
  simp [calls, Function.comp_def]

lemma World.calls_after (w : World) (s : Site) (ls : List Layer) (n : Nat) (acts : List Act) :
    (w.after s ls n acts).calls = w.calls ++ Act.calls acts :=
  calls_note (w.put s ⟨ls, n⟩) s acts

/-- Factories are not called while operations are dropped. -/
lemma Act.Partings.uncalling {acts : List Act} (h : Act.Partings acts) : Uncalling acts := by
  refine List.filterMap_eq_nil_iff.2 fun a ha => ?_
  have hparting := h a ha
  cases a with
  | called k label n => simp [isParting] at hparting
  | _ => rfl

lemma uncalling_dropAll (unwinding : Bool) (env : Env) (ls : List Layer) :
    Uncalling (Layer.dropAll unwinding env ls).acts :=
  (Layer.partings_dropAll unwinding env ls).uncalling

namespace Chain

variable {s : Site}

lemma uncalling_lay (c : Chain) (r : Receiver) (h k : Nat) : Uncalling (c.lay s r h k).acts := by
  have hinside {l : Layer} {acts : List Act} {x : Laid} (ha : Uncalling acts)
      (hx : Uncalling x.acts) : Uncalling (x.inside [] l acts).acts := by
    rw [Laid.inside]
    split <;> simp [ha, hx, uncalling_dropAll]
  induction c generalizing r h k with
  | ready c => simp [lay, sender, Sender.lay, Act.call?]
  | leaf l => simp [lay, sender, Sender.lay, Act.call?]
  | exploding built =>
    cases built <;>
      simp [lay, sender, Sender.lay, Act.call?, (partings_drop_receiver r).uncalling]
  | either which c other ih => exact hinside (by simp [Act.call?]) (ih _ _ _)
  | bind p raises next promised ih => exact hinside (by simp [Act.call?]) (ih _ _ _)

lemma uncalling_startActs (l : Leaf) (names : List String) : Uncalling (startActs l names) := by
  cases hi : l.inspecting <;> simp [startActs, hi, Act.call?]

/-- What a failed connect leaves behind in its slot explodes no more. -/
lemma raised_dropAll_lay {c : Chain} {m : Payload} (hc : c.connectRaises = some m) (r : Receiver)
    (h k : Nat) : (Layer.dropAll false [] (c.lay s r h k).layers).raised = none := by
  have hinside {l : Layer} {acts : List Act} {x : Laid} (hx : x.raised = some m) :
      (Layer.dropAll false [] (x.inside [] l acts).layers).raised = none := by
    simp [Laid.inside, hx]
  cases c with
  | ready c => simp [connectRaises] at hc
  | leaf l => simp [connectRaises] at hc
  | exploding built => cases built <;> rfl
  | either which c other => exact hinside ((raised_lay ..).trans hc)
  | bind p raises next promised => exact hinside ((raised_lay ..).trans hc)

lemma raised_dropAll_env (unwinding : Bool) (env : Env) (ls : List Layer) :
    (Layer.dropAll unwinding env ls).raised = (Layer.dropAll unwinding [] ls).raised := by
  have hdrop (env : Env) (l : Layer) {child child' : Dropped}
      (hc : child.raised = child'.raised) :
      (l.drop unwinding env child).raised = (l.drop unwinding [] child').raised := by
    cases l with
    | bind b =>
      simp only [Layer.drop, Binding.drop, hc]
      cases b.cleanup <;> cases child'.raised <;> simp_all
    | _ => simp [Layer.drop, hc]
  induction ls generalizing env with
  | nil => rfl
  | cons l rest ih => exact hdrop env l ((ih _).trans (ih _).symm)

/-! ### The ending of a chain is its meaning -/

/-- An ending comes to what a meaning says. -/
structure Meaning.Fits (m : Meaning) (e : Ending) : Prop where
  completion_eq : e.completion = m.completion
  calls_eq : Act.calls e.stretch.acts = m.calls
  parting_eq : (Layer.dropAll false [] e.stretch.layers).raised = m.parting
  late_eq : e.late = []

lemma Meaning.Fits.record {m : Meaning} {e : Ending} (h : m.Fits e) {acts : List Act}
    (ha : Uncalling acts) : m.Fits (e.record acts) := by
  refine ⟨h.completion_eq, ?_, h.parting_eq, h.late_eq⟩
  simp [Ending.record, h.calls_eq, show Act.calls acts = [] from ha]

/-- What dropping a binding operation raises comes from its child, unless the operation is amid a
handoff. -/
lemma raised_dropAll_bind (b : Binding) (ls : List Layer) :
    (Layer.dropAll false [] (.bind b :: ls)).raised =
      if b.cleanup = .invalid then none else (Layer.dropAll false [] ls).raised := by
  simp only [Layer.dropAll, Layer.drop, Binding.drop]
  rw [← raised_dropAll_env false (Layer.bind b).lent ls]
  cases b.cleanup with
  | invalid => rfl
  | predecessor => simp
  | values => cases hr : (Layer.dropAll false ((Layer.bind b).lent ++ []) ls).raised <;> simp_all
  | successor => cases hr : (Layer.dropAll false ((Layer.bind b).lent ++ []) ls).raised <;> simp_all

lemma raised_bind_eq_none {ls : List Layer} (b : Binding)
    (h : (Layer.dropAll false [] ls).raised = none) :
    (Layer.dropAll false [] (.bind b :: ls)).raised = none := by
  rw [raised_dropAll_bind, h, ite_self]

lemma raised_leaf_eq_none {l : Leaf} (hl : l.explodes = false) (k : Nat) :
    (Layer.dropAll false [] [.leaf k l.leaf none]).raised = none := by
  have hexplodes : l.leaf.explodes = false := hl
  simp [Layer.dropAll, Layer.drop, hexplodes]

/-- A handoff calls the factory unless the drop of the predecessor operation raises, and raises what
the drop, the factory and connecting the successor raise first. -/
lemma calls_hand (h : Nat) (b : Binding) (raises : Int64 → Option Payload) (next : Int64 → Chain)
    (st : Stretch) (v : Value) :
    let x := hand s h b raises next st v
    let d := (Layer.dropAll false [] st.layers).raised
    Act.calls x.laid.acts = Act.calls st.acts ++ (if d.isSome then [] else [v.n]) ∧
      x.laid.raised = d.or ((raises v.n).or (next v.n).connectRaises) := by
  have hdrop : Act.calls (Layer.dropAll false [] st.layers).acts = [] :=
    uncalling_dropAll ..
  have hlay (r : Receiver) (h k : Nat) : Act.calls ((next v.n).lay s r h k).acts = [] :=
    uncalling_lay ..
  simp only [hand]
  cases hd : (Layer.dropAll false [] st.layers).raised with
  | some m => simp [hdrop]
  | none =>
    cases hr : raises v.n with
    | some m => simp [hdrop]
    | none => simp [hdrop, hlay]

lemma parting_hand {h : Nat} {b : Binding} {raises : Int64 → Option Payload} {next : Int64 → Chain}
    {st : Stretch} {v : Value} {m : Payload}
    (hx : (hand s h b raises next st v).laid.raised = some m) :
    (Layer.dropAll false [] (hand s h b raises next st v).laid.layers).raised = none := by
  simp only [hand] at hx ⊢
  split
  · rfl
  · split
    · rfl
    · simp_all [raised_dropAll_lay]

lemma Meaning.Fits.bind {x : Meaning} {e : Ending} (he : x.Fits e) {h : Nat} {b : Binding}
    (hb : b.cleanup = .predecessor) {raises : Int64 → Option Payload} {next : Int64 → Chain}
    {successor : Int64 → Nat → Ending}
    (hnext : ∀ n k, (next n).connectRaises = none → (next n).meaning.Fits (successor n k)) :
    (x.bind (fun n => (raises n).or (next n).connectRaises) fun n => (next n).meaning).Fits
      (bindEnding s h b raises next successor e) := by
  obtain ⟨st, c, late⟩ := e
  obtain ⟨hcompletion, hcalls, hparting, rfl⟩ := he
  simp only at hcompletion hcalls hparting
  have hspend (b' : Binding) (ls : List Layer) :
      (Layer.dropAll false [] (.bind b'.spend :: ls)).raised =
        if b'.cleanup = .invalid then none else (Layer.dropAll false [] ls).raised :=
    raised_dropAll_bind b'.spend ls
  simp only [Meaning.bind, ← hcompletion, bindEnding]
  cases c with
  | error f =>
    exact ⟨rfl, by simp [hcalls], by simp [hspend, hb, hparting], rfl⟩
  | done => exact ⟨rfl, by simp [hcalls], by simp [hspend, hb, hparting], rfl⟩
  | value v =>
    obtain ⟨hacts, hraised⟩ := calls_hand (s := s) h b raises next st v
    rw [hparting] at hacts hraised
    simp only
    cases hr : (hand s h b raises next st v).laid.raised with
    | some m =>
      rw [hr] at hraised
      cases hp : x.parting with
      | some m' =>
        obtain rfl : m' = m := by simpa [hp] using hraised.symm
        simp only [hp, Option.isSome_some, if_true, List.append_nil] at hacts
        exact ⟨rfl, by simp [hacts, hcalls], by simp [hspend, parting_hand hr], rfl⟩
      | none =>
        have hraises : (raises v.n).or (next v.n).connectRaises = some m := by
          simpa [hp] using hraised.symm
        simp only [hp, Option.isSome_none, Bool.false_eq_true, if_false] at hacts
        simp only [hraises]
        exact ⟨rfl, by simp [hacts, hcalls], by simp [hspend, parting_hand hr], rfl⟩
    | none =>
      obtain ⟨hp, hraises⟩ :
          x.parting = none ∧ (raises v.n).or (next v.n).connectRaises = none := by
        simpa [hr] using hraised.symm
      obtain ⟨hcompletion', hcalls', hparting', hlate⟩ := hnext v.n st.count (by simp_all)
      simp only [hp, Option.isSome_none, Bool.false_eq_true, if_false] at hacts
      simp only [hp, hraises]
      refine ⟨by rw [← hcompletion'], ?_, ?_, by simp [hlate]⟩
      · simp [hacts, hcalls, hcalls']
      · simp [hspend, hparting']

/-- The ending of a chain is what its meaning says. -/
theorem fits_ending (c : Chain) (hc : c.connectRaises = none) (r : Receiver)
    (rest : List Receiver) (h k : Nat) : c.meaning.Fits (c.ending s r rest h k) := by
  induction c generalizing r rest h k with
  | ready c => exact ⟨rfl, rfl, rfl, rfl⟩
  | leaf l =>
    rw [ending_leaf]
    refine ⟨rfl, uncalling_startActs .., ?_, rfl⟩
    simp [Layer.dropAll, Layer.drop, Leaf.leaf, meaning]
  | exploding built => simp [connectRaises] at hc
  | either which c other ih =>
    obtain ⟨hcompletion, hcalls, hparting, hlate⟩ := ih hc r rest (h + 1) (k + 1)
    rw [ending_either]
    exact ⟨hcompletion, hcalls, hparting, hlate⟩
  | bind p raises next promised ihp ih =>
    rw [ending_bind]
    have hp := ihp hc (.child .predecessor s h) (r :: rest) (h + 1) (k + 1)
    exact (hp.record (by simp [Act.call?])).bind rfl fun n k hn => ih n hn ..

lemma course_eq_finished {c : Chain} (hc : c.Inline) (r : Receiver) (rest : List Receiver)
    (h k : Nat) (stopped : Bool) :
    ∃ st v late, c.course s r rest h k stopped = .finished st v late := by
  induction c generalizing r rest h k stopped with
  | ready c => exact ⟨_, _, _, rfl⟩
  | leaf l =>
    have hd : l.deferred = false := hc
    cases stopped <;> simp [course, hd]
  | exploding built => exact ⟨_, _, _, rfl⟩
  | either which c other ih =>
    obtain ⟨st, v, late, hcourse⟩ := ih hc r rest (h + 1) (k + 1) stopped
    simp [course, hcourse, Course.within]
  | bind p raises next promised ihp ih =>
    obtain ⟨st, v, late, hp⟩ :=
      ihp hc.1 (.child .predecessor s h) (r :: rest) (h + 1) (k + 1) stopped
    simp only [course, hp, Course.record, Course.within]
    cases v with
    | error e => exact ⟨_, _, _, rfl⟩
    | done => exact ⟨_, _, _, rfl⟩
    | value v =>
      simp only [takeover, handover]
      cases (hand s h (binding raises next r k) raises next _ v).laid.raised with
      | some m => exact ⟨_, _, _, rfl⟩
      | none =>
        obtain ⟨st', v', late', hnext⟩ :=
          ih v.n (hc.2 v.n) (.child .successor s h) (r :: rest) (h + 1) st.count stopped
        simp [hnext, Course.record, Course.within, Course.pass]

open Config Machine

/-- Connecting a chain in a vacant place raises a payload just if its head cannot be connected.
Otherwise starting it gives the completion that the chain means to the final receiver, with the
stack that the call started out with, and calls the factories that the meaning calls. A receiver
that makes no calls of its own has been given this completion and no other when the call ends. -/
theorem run_eq_meaning (c : Chain) (hc : c.Inline) (w : World) (p : Int) (r : Receiver)
    (hr : r.isChild = false) (hv : w.layers (.place p) = []) (hs : w.isStopped r = false) :
    (c.head.isExploding = true → ∃ (w₁ : World) (m : Payload), ∀ K,
      Leads ⟨w, .call (.connect p c.sender r), K⟩ [] ⟨w₁, .raised m, K⟩) ∧
    (c.head.isExploding = false → ∃ w₁ w₂ : World,
      (∀ K, Leads ⟨w, .call (.connect p c.sender r), K⟩ [] (finish w₁ K)) ∧
      (∀ K, Leads ⟨w₁, .call (.start p), K⟩ [] ⟨w₂, .complete r c.meaning.completion, K⟩) ∧
      w₂.calls = w.calls ++ c.meaning.calls ∧
      (r.Calm → Leads ⟨w₁, .call (.start p), []⟩ [(r, c.meaning.completion)]
        (finishOr (w₂.hear r c.meaning.completion) r.raises []))) := by
  have hconnect := leads_call_connect c w p r hv
  constructor
  · intro hhead
    cases hraises : c.connectRaises with
    | none => simp [(connectRaises_eq_none_iff c).1 hraises] at hhead
    | some m => exact ⟨c.connected w p r, m, by simpa [hraises] using hconnect⟩
  · intro hhead
    have hraises := (connectRaises_eq_none_iff c).2 hhead
    simp only [hraises, finishOr_none] at hconnect
    obtain ⟨st, v, late, hcourse⟩ :=
      course_eq_finished (s := .place p) hc r [] 0 (w.nextSerial (.place p)) false
    have hfits := fits_ending (s := .place p) c hraises r [] 0 (w.nextSerial (.place p))
    simp only [ending, hcourse, Course.ending] at hfits
    obtain ⟨hcompletion, hcalls, -, hlate⟩ := hfits
    simp only at hcompletion hcalls hlate
    have hstart := realizes_call_start c w p hr hraises
    rw [hs, hcourse, hcompletion, hlate] at hstart
    obtain ⟨-, -, hstart⟩ := hstart
    refine ⟨c.connected w p r, _, hconnect, hstart, ?_, fun hcalm => ?_⟩
    · have hlay : Act.calls (c.lay (.place p) r 0 (w.nextSerial (.place p))).acts = [] :=
        uncalling_lay ..
      simp [World.calls_after, connected, hcalls, hlay]
    · exact (hstart []).trans (leads_hear hcalm _ _ [])

/-- A chain in which a factory is not called, since the operation of its predecessor explodes. -/
def sample : Chain :=
  .bind
    (.bind (.leaf { label := "a", completion := .value 1 }) (fun _ => none)
      (fun n => .either .left
        (.leaf { label := "b", completion := .value (n + 1), explodes := true }) .unspecified)
      .unspecified)
    (fun _ => none) (fun n => .ready (.value n)) .ready

theorem run_sample_eq_meaning :
    let r := Receiver.recorder (.place 0) none
    ∃ w₁ w₂ : World,
      (∀ K, Leads ⟨{}, .call (.connect 0 sample.sender r), K⟩ [] (finish w₁ K)) ∧
      (∀ K, Leads ⟨w₁, .call (.start 0), K⟩ []
        ⟨w₂, .complete r (.error (.panicked Fault.leafExploded.payload)), K⟩) ∧
      w₂.calls = [1] ∧
      Leads ⟨w₁, .call (.start 0), []⟩ [(r, .error (.panicked Fault.leafExploded.payload))]
        (finishOr (w₂.hear r (.error (.panicked Fault.leafExploded.payload))) r.raises []) := by
  intro r
  have hinline : sample.Inline := ⟨⟨rfl, fun _ => rfl⟩, fun _ => trivial⟩
  obtain ⟨w₁, w₂, hconnect, hstart, hcalls, hcalm⟩ :=
    (run_eq_meaning sample hinline {} 0 r rfl rfl rfl).2 rfl
  exact ⟨w₁, w₂, hconnect, hstart, hcalls, hcalm trivial⟩

end Chain

end Handoff
