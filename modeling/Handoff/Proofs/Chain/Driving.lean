import Handoff.Proofs.Chain.Meaning

/-!
# Driving a chain

A host drives a chain that was connected in a place by calls of three kinds: it starts the place,
runs the first task of the queue or requests a stop. A `Beat` is what one such call comes to: how it
ends, what final receivers are given, and which sights are recorded on the way, that is to say which
leaves are started, which of them see a stop request, and which factories are called. `Scene.play`
lists the beats of a list of calls, in whatever order, from the course of the chain alone. A chain
that was started before refuses to be started again, for `Chain.started_course`.
-/

namespace Handoff

open Config Machine

/-! ### Sights -/

/-- Whether the driver of a chain goes by this. -/
def Act.isSight : Act → Bool
  | started _ => true
  | gaveUp _ => true
  | called _ _ _ => true
  | _ => false

namespace Act

/-- What the driver of a chain goes by. -/
def sights (acts : List Act) : List Act := acts.filter isSight

@[simp] lemma sights_nil : sights [] = [] := rfl

@[simp] lemma sights_append (xs ys : List Act) : sights (xs ++ ys) = sights xs ++ sights ys :=
  List.filter_append xs ys

@[simp] lemma sights_cons (a : Act) (acts : List Act) :
    sights (a :: acts) = if a.isSight then a :: sights acts else sights acts :=
  List.filter_cons

lemma Partings.sights_eq_nil {acts : List Act} (h : Partings acts) : sights acts = [] := by
  refine List.filter_eq_nil_iff.2 fun a ha => ?_
  have hparting := h a ha
  cases a <;> simp_all [isParting, isSight]

end Act

namespace World

/-- From one world to a later one these sights were recorded. -/
def Sees (w w' : World) (seen : List Act) : Prop :=
  ∃ es, w'.events = w.events ++ es ∧ Act.sights (es.map Event.act) = seen

variable {w w' w'' : World} {seen seen' : List Act}

lemma sees_of_events_eq (h : w'.events = w.events) : w.Sees w' [] := ⟨[], by simp [h], rfl⟩

lemma Sees.trans (h : w.Sees w' seen) (h' : w'.Sees w'' seen') : w.Sees w'' (seen ++ seen') := by
  obtain ⟨es, hes, rfl⟩ := h
  obtain ⟨es', hes', rfl⟩ := h'
  exact ⟨es ++ es', by simp [hes, hes'], by simp⟩

lemma sees_record (o : Option Site) (acts : List Act) :
    w.Sees (w.record o acts) (Act.sights acts) :=
  ⟨acts.map (Event.mk o), rfl, by simp [Function.comp_def]⟩

lemma sees_note (s : Site) (acts : List Act) : w.Sees (w.note s acts) (Act.sights acts) :=
  sees_record _ _

lemma sees_after (s : Site) (ls : List Layer) (n : Nat) (acts : List Act) :
    w.Sees (w.after s ls n acts) (Act.sights acts) :=
  sees_note (w := w.put s ⟨ls, n⟩) s acts

lemma sights_settled (v : Completion Value Failure) (waiting : List Observer) :
    Act.sights (settled v waiting) = [] := by
  refine Act.Partings.sights_eq_nil ?_
  simp [settled, partings_dropCarried, partings_receiverDropped]

lemma sights_remarks (label : String) (actions : List Action) :
    Act.sights (Action.remarks label actions) = [] := by
  induction actions with
  | nil => rfl
  | cons a rest ih => cases a <;> simp [Action.remarks, Act.isSight, ih]

/-- A calm receiver does nothing that the driver of a chain goes by. -/
lemma sees_hear (r : Receiver) (v : Completion Value Failure) : w.Sees (w.hear r v) [] := by
  cases r with
  | child role s h => exact sees_of_events_eq rfl
  | observer home o =>
    have h := sees_note (w := w) home (.completed o.label (v.map Value.n) ::
      (Action.remarks o.label o.reaction ++ settled v o.waiting))
    simpa [hear, Act.isSight, sights_remarks, sights_settled] using h
  | recorder home k => exact sees_of_events_eq rfl
  | waiter id =>
    by_cases h : w.waiter = some { id }
    · exact sees_of_events_eq (by simp [hear, h])
    · have hnote := sees_note (w := w) .wait (.waiterGone :: dropCarried v)
      simpa [hear, h, Act.isSight, (partings_dropCarried v).sights_eq_nil] using hnote

end World

/-! ### Calls and what they come to -/

/-- A call of the driver of a chain. -/
inductive Drive where
  | start
  /-- Run the first task of the queue. -/
  | task
  | request (source : Int)
  deriving DecidableEq, Repr

/-- The call on the place of the chain. -/
def Drive.call (p : Int) : Drive → Call
  | start => .start p
  | task => .tick
  | request k => .request k

/-- What a call comes to. -/
structure Beat where
  outcome : Outcome
  /-- What final receivers are given. -/
  given : List Parcel := []
  /-- The sights that are recorded. -/
  seen : List Act := []

/-- A machine comes to its end with a beat, in a world. -/
def Config.Comes (c : Config) (b : Beat) (w : World) : Prop :=
  ∃ final : Config, c.Leads b.given final ∧ final.IsFinal ∧ final.outcome = b.outcome ∧
    final.world = w ∧ c.world.Sees w b.seen

/-- A host makes calls one after another, and each comes to a beat. -/
inductive World.Plays : World → List Call → List Beat → World → Prop where
  | nil (w : World) : Plays w [] [] w
  | cons {w w' w'' : World} {c : Call} {cs : List Call} {b : Beat} {bs : List Beat}
      (h : Config.Comes ⟨w, .call c, []⟩ b w') (h' : Plays w' cs bs w'') :
      Plays w (c :: cs) (b :: bs) w''

lemma World.Plays.append {w w' w'' : World} {cs cs' : List Call} {bs bs' : List Beat}
    (h : w.Plays cs bs w') (h' : w'.Plays cs' bs' w'') : w.Plays (cs ++ cs') (bs ++ bs') w'' := by
  induction h with
  | nil => exact h'
  | cons h _ ih => exact .cons h (ih h')

/-! ### Starting again -/

/-- What starting an operation again comes to: what is recorded, and the fault raised. -/
structure Refusal where
  acts : List Act
  fault : Fault

namespace Layer

/-- What starting operations again comes to. -/
def refusal : List Layer → Refusal
  | [] => ⟨[], .vacantStart⟩
  | ready _ _ :: _ => ⟨[], .readyRestarted⟩
  | leaf _ l _ :: _ => ⟨[.started l.label], .leafRestarted⟩
  | script _ s _ :: _ => ⟨[.started s.label], .scriptRestarted⟩
  | either _ _ :: rest => refusal rest
  | bind b :: rest =>
    if b.storage = .predecessor then
      { refusal rest with acts := .logged b.serial .starting :: (refusal rest).acts }
    else ⟨[.logged b.serial .starting], .bindRestarted⟩

/-- What a start of these operations reaches was started before. -/
def Started : List Layer → Prop
  | [] => True
  | ready _ held :: _ => held = none
  | leaf _ _ held :: _ => held = none
  | script _ _ held :: _ => held = none
  | either _ _ :: rest => Started rest
  | bind b :: rest => b.storage = .predecessor → Started rest

end Layer

lemma leads_restart {s : Site} {ls : List Layer} (h : Layer.Started ls) (w : World)
    (base : List Layer) (n : Nat) (acts : List Act) (K : List Frame) :
    Leads ⟨w.after s (base ++ ls) n acts, .start s base.length, K⟩ []
      (fault (w.after s (base ++ ls) n (acts ++ (Layer.refusal ls).acts)) (Layer.refusal ls).fault
        K) := by
  induction ls generalizing base acts with
  | nil => exact .quiet rfl rfl (by simpa [start, Layer.refusal] using Leads.refl _)
  | cons l rest ih =>
    refine .quiet rfl rfl ?_
    cases l with
    | ready k held =>
      obtain rfl : held = none := h
      simpa [start, Layer.refusal] using Leads.refl _
    | leaf k l held =>
      obtain rfl : held = none := h
      simpa [start, Layer.refusal] using Leads.refl _
    | script k sc held =>
      obtain rfl : held = none := h
      simpa [start, Layer.refusal] using Leads.refl _
    | either k which =>
      have hrest := ih h (base ++ [.either k which]) acts
      simp only [List.append_assoc, List.length_append, List.length_singleton] at hrest
      simpa [start, Layer.refusal] using hrest
    | bind b =>
      by_cases hb : b.storage = .predecessor
      · have hrest := ih (h hb) (base ++ [.bind b]) (acts ++ [.logged b.serial .starting])
        simp only [List.append_assoc, List.length_append, List.length_singleton] at hrest
        simpa [start, Layer.refusal, hb] using hrest
      · simpa [start, Layer.refusal, hb] using Leads.refl _

namespace Course

/-- Whenever the course is pending or over, what a start reaches was started before. -/
def Started : Course → Prop
  | finished st _ _ => Layer.Started st.layers
  | pending st _ _ resume => Layer.Started st.layers ∧ ∀ b, (resume b).Started

lemma Started.record {x : Course} (h : x.Started) (acts : List Act) : (x.record acts).Started := by
  cases x with
  | finished st v late => exact h
  | pending st r v resume => exact h

lemma Started.within {l : Layer}
    {go : Bool → Stretch → Completion Value Failure → List (Completion Value Failure) → Course}
    (hl : ∀ ls, Layer.Started ls → Layer.Started (l :: ls))
    (hgo : ∀ b st v late, Layer.Started st.layers → (go b st v late).Started) {x : Course}
    (h : x.Started) {stopped : Bool} : (x.within l go stopped).Started := by
  induction x generalizing stopped with
  | finished st v late => exact hgo _ _ _ _ h
  | pending st r v resume ih => exact ⟨hl _ h.1, fun b => ih b (h.2 b)⟩

end Course

namespace Chain

variable {s : Site}

/-- Connecting does nothing that the driver of a chain goes by. -/
lemma sights_lay (c : Chain) (r : Receiver) (h k : Nat) :
    Act.sights (c.lay s r h k).acts = [] := by
  have hinside {l : Layer} {acts : List Act} {x : Laid} (ha : Act.sights acts = [])
      (hx : Act.sights x.acts = []) : Act.sights (x.inside [] l acts).acts = [] := by
    rw [Laid.inside]
    split <;> simp [ha, hx, (Layer.partings_dropAll _ _ _).sights_eq_nil]
  induction c generalizing r h k with
  | ready c => simp [lay, sender, Sender.lay, Act.isSight]
  | leaf l => simp [lay, sender, Sender.lay, Act.isSight]
  | exploding built =>
    cases built <;>
      simp [lay, sender, Sender.lay, Act.isSight, (partings_drop_receiver r).sights_eq_nil]
  | either which c other ih => exact hinside (by simp [Act.isSight]) (ih _ _ _)
  | bind p raises next promised ih => exact hinside (by simp [Act.isSight]) (ih _ _ _)

lemma sights_startActs (l : Leaf) (names : List String) :
    Act.sights (startActs l names) = [.started l.label] := by
  cases hi : l.inspecting <;> simp [startActs, hi, Act.isSight]

/-- A handoff that raises nothing calls the factory. -/
lemma sights_hand {h : Nat} {b : Binding} {raises : Int64 → Option Payload}
    {next : Int64 → Chain} {st : Stretch} {v : Value}
    (hd : (Layer.dropAll false [] st.layers).raised = none) (hr : raises v.n = none) :
    Act.sights (hand s h b raises next st v).laid.acts =
      Act.sights st.acts ++ [.called b.serial none v.n] := by
  have hdrop := (Layer.partings_dropAll false [] st.layers).sights_eq_nil
  simp [hand, hd, hr, hdrop, sights_lay, Act.isSight]

/-- Once a handoff has begun, the storage is no longer the predecessor's. -/
lemma storage_hand_ne (h : Nat) (b : Binding) (raises : Int64 → Option Payload)
    (next : Int64 → Chain) (st : Stretch) (v : Value) :
    (hand s h b raises next st v).binding.storage ≠ .predecessor := by
  simp only [hand]
  split
  · simp
  · split <;> simp

lemma started_course (c : Chain) (r : Receiver) (rest : List Receiver) (h k : Nat)
    (stopped : Bool) : (c.course s r rest h k stopped).Started := by
  induction c generalizing r rest h k stopped with
  | ready c => rfl
  | exploding built => trivial
  | leaf l =>
    simp only [course]
    split_ifs
    · rfl
    · exact ⟨rfl, fun _ => rfl⟩
    · rfl
  | either which c other ih =>
    rw [course]
    refine .within ?_ ?_ (ih ..)
    · exact fun _ hls => hls
    · exact fun _ _ _ _ hst => hst
  | bind p raises next promised ihp ih =>
    rw [course]
    refine .within ?_ ?_ ((ihp ..).record _)
    · exact fun _ hls _ => hls
    intro stopped st v late hst
    cases v with
    | error e => exact fun _ => hst
    | done => exact fun _ => hst
    | value v =>
      have hstorage := storage_hand_ne (s := s) h (binding raises next r k) raises next st v
      simp only [takeover, handover]
      cases (hand s h (binding raises next r k) raises next st v).laid.raised with
      | some m => exact fun hs => absurd hs hstorage
      | none =>
        refine .within ?_ ?_ ((ih ..).record _)
        · exact fun _ _ hs => absurd hs hstorage
        · exact fun _ _ _ _ _ hs => absurd hs hstorage

end Chain

/-! ### Scenes -/

namespace Course

/-- What the site has come to where the course is pending or over. -/
def stretch : Course → Stretch
  | finished st _ _ => st
  | pending st _ _ _ => st

/-- What a call comes to that takes a course, up to where it is pending or over, and answers. -/
def beat (r : Receiver) (reply : Reply) : Course → Beat
  | finished st v _ => ⟨r.raises.elim (.answered reply) .raised, [(r, v)], Act.sights st.acts⟩
  | pending st _ _ _ => ⟨.answered reply, [], Act.sights st.acts⟩

end Course

/-- How far a driven chain has come. -/
inductive Phase where
  /-- It takes one of two courses when it is started, by whether a stop is requested then. -/
  | fresh (begin : Bool → Course)
  /-- It was started, and has taken its course up to where that is pending or over. -/
  | begun (x : Course)

/-- A driven chain among stop sources. -/
structure Scene where
  phase : Phase
  /-- The stop sources of which a stop was requested. -/
  requested : List Int

namespace Scene

/-- Whether a stop was requested that reaches a final receiver. -/
def stops (x : Scene) (r : Receiver) : Bool := r.ownStop.elim false x.requested.contains

/-- What starting comes to. -/
def start (r : Receiver) (x : Scene) : Beat × Scene :=
  match x.phase with
  | .fresh begin =>
    ((begin (x.stops r)).beat r .nothing, { x with phase := .begun (begin (x.stops r)) })
  | .begun y =>
    let q := Layer.refusal y.stretch.layers
    ({ outcome := .raised q.fault.payload, seen := Act.sights q.acts }, x)

/-- What running the first task of the queue comes to. -/
def task (r : Receiver) (x : Scene) : Beat × Scene :=
  match x.phase with
  | .begun (.pending _ _ _ resume) =>
    ((resume (x.stops r)).beat r (.flag true), { x with phase := .begun (resume (x.stops r)) })
  | _ => ({ outcome := .answered (.flag false) }, x)

/-- What requesting a stop comes to. -/
def request (k : Int) (x : Scene) : Beat × Scene :=
  ({ outcome := .answered (.flag !x.requested.contains k) },
    { x with requested := if x.requested.contains k then x.requested else k :: x.requested })

/-- What a call comes to. -/
def next (r : Receiver) (x : Scene) : Drive → Beat × Scene
  | .start => x.start r
  | .task => x.task r
  | .request k => x.request k

/-- What a list of calls comes to. -/
def play (r : Receiver) (x : Scene) : List Drive → List Beat × Scene
  | [] => ([], x)
  | d :: ds => ((x.next r d).1 :: (play r (x.next r d).2 ds).1, (play r (x.next r d).2 ds).2)

end Scene

end Handoff
