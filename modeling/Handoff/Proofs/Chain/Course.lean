import Handoff.Proofs.Chain.Laying
import Handoff.Proofs.Handover

/-!
# The course of a chain

`Chain.course` says what starting a connected chain comes to: either its receiver is completed, or
a leaf has put its completion off and the course is pending until that task runs. What a leaf does
depends on whether a stop was requested by then, so a pending course goes on for either answer. The
course of a binding goes through that of its predecessor, `Chain.hand`, and that of its successor.
-/

namespace Handoff

/-- What a site comes to above some height: the layers there, what was recorded on the way, and how
many operations the site has built by then. -/
structure Stretch where
  layers : List Layer
  acts : List Act
  count : Nat

/-- What starting an operation comes to. -/
inductive Course where
  /-- The receiver is completed. Once it is through, what stopped leaves carried is dropped. -/
  | finished (st : Stretch) (v : Completion Value Failure) (late : List (Completion Value Failure))
  /-- The completion of a leaf was put off to a task. It goes on by whether a stop is requested
  when that runs. -/
  | pending (st : Stretch) (r : Receiver) (v : Completion Value Failure) (resume : Bool → Course)

namespace Course

/-- A course before which something was recorded. -/
def record (acts : List Act) : Course → Course
  | finished st v late => finished { st with acts := acts ++ st.acts } v late
  | pending st r v resume => pending { st with acts := acts ++ st.acts } r v resume

/-- The course of an operation from that of the one inside it: the operation stands around it as
the given layer as long as it is pending, and goes on as given when it is finished. -/
def within (l : Layer)
    (go : Bool → Stretch → Completion Value Failure → List (Completion Value Failure) → Course)
    (stopped : Bool) : Course → Course
  | finished st v late => go stopped st v late
  | pending st r v resume =>
    pending { st with layers := l :: st.layers } r v fun b => within l go b (resume b)

/-- The receiver of a binding operation is completed. -/
def pass (b : Binding) (st : Stretch) (acts : List Act) (v : Completion Value Failure)
    (late : List (Completion Value Failure)) : Course :=
  finished ⟨.bind b.spend :: st.layers, st.acts ++ acts, st.count⟩ v late

end Course

namespace Chain

/-- The handoff of a chain's binding operation at a height of a site: the value is stored, the
predecessor operation dropped, the factory called and the sender that it builds connected. -/
def hand (s : Site) (h : Nat) (b : Binding) (raises : Int64 → Option Payload)
    (next : Int64 → Chain) (st : Stretch) (v : Value) : Handed :=
  let d := Layer.dropAll false [] st.layers
  let stored := st.acts ++ [.logged b.serial .produced, .stored b.serial] ++ d.acts
  let called := stored ++ [.called b.serial none v.n]
  match d.raised with
  | some m => ⟨(b.store v).vacate, [], stored, st.count, some m⟩
  | none =>
    match raises v.n with
    | some m => ⟨(b.store v).vacate.call, [], called, st.count, some m⟩
    | none =>
      let x := (next v.n).lay s (.child .successor s h) (h + 1) st.count
      ⟨(b.store v).vacate.call.emplace,
        { x with acts := called ++ .logged b.serial .connectingSuccessor :: x.acts }⟩

/-- What a binding operation does with the value of its predecessor, given the course of each
successor: its receiver is given what the handoff raised, or else what the successor completes
with. -/
def handover (s : Site) (h : Nat) (b : Binding) (raises : Int64 → Option Payload)
    (next : Int64 → Chain) (successor : Int64 → Nat → Course) (stopped : Bool) (st : Stretch)
    (v : Value) (late : List (Completion Value Failure)) : Course :=
  let x := hand s h b raises next st v
  match x.laid.raised with
  | some m =>
    .pass x.binding ⟨x.laid.layers, x.laid.acts, x.laid.count⟩ [.logged b.serial (.buildFailed m)]
      (.error (.panicked m)) late
  | none =>
    ((successor v.n st.count).record x.laid.acts).within (.bind x.binding.settle)
      (fun _ st v late' => .pass x.binding.settle st [] (v.mapError .successor) (late' ++ late))
      stopped

/-- What a binding operation does with the completion of its predecessor. -/
def takeover (s : Site) (h : Nat) (b : Binding) (raises : Int64 → Option Payload)
    (next : Int64 → Chain) (successor : Bool → Int64 → Nat → Course) (stopped : Bool)
    (st : Stretch) (v : Completion Value Failure) (late : List (Completion Value Failure)) :
    Course :=
  match v with
  | .error e => .pass b st [.logged b.serial .failed] (.error (.predecessor e)) late
  | .done => .pass b st [.logged b.serial .stopped] .done late
  | .value v => handover s h b raises next (successor stopped) stopped st v late

/-- What a journalled leaf records when it is started. -/
def startActs (l : Leaf) (names : List String) : List Act :=
  .started l.label ::
    if l.inspecting then [.remark ("chain " ++ l.label ++ ": " ++ " > ".intercalate names)]
    else []

/-- The course of a chain that was connected to a receiver behind which others wait, at a height of
a site that had built so many operations before, from its start or while it is not stopped. -/
def course (s : Site) : Chain → Receiver → List Receiver → Nat → Nat → Bool → Course
  | ready c, _, _, _, k, _ => .finished ⟨[.ready k none], [], k + 1⟩ (deliver none c) []
  | exploding _, _, _, _, k, _ => .finished ⟨[], [], k⟩ .done []
  | leaf l, r, rest, _, k, stopped =>
    let ls := [Layer.leaf k l.leaf none]
    let acts := startActs l ((r :: rest).flatMap Receiver.ownNames)
    if stopped then .finished ⟨ls, acts ++ [.gaveUp l.label], k + 1⟩ .done [l.leaf.completion]
    else if l.deferred then
      .pending ⟨ls, acts, k + 1⟩ r l.leaf.completion fun _ =>
        .finished ⟨ls, [], k + 1⟩ l.leaf.completion []
    else .finished ⟨ls, acts, k + 1⟩ l.leaf.completion []
  | either which c _, r, rest, h, k, stopped =>
    (c.course s r rest (h + 1) (k + 1) stopped).within (.either k which)
      (fun _ st v late => .finished { st with layers := .either k which :: st.layers } v late)
      stopped
  | bind p raises next _, r, rest, h, k, stopped =>
    let b := binding raises next r k
    ((p.course s (.child .predecessor s h) (r :: rest) (h + 1) (k + 1) stopped).record
        [.logged k .starting]).within (.bind b)
      (takeover s h b raises next fun stopped m n =>
        (next m).course s (.child .successor s h) (r :: rest) (h + 1) n stopped)
      stopped

end Chain

end Handoff
