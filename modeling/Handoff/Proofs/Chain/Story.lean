import Handoff.Proofs.Chain.Driving

/-!
# The story of a chain

A course says what stands at a site at every turn. The driver of a chain sees less of it: a `Story`
keeps the sights, how many operations were built, what starting again comes to, and what is
completed. `Chain.story` tells it from the chain alone, wherever the chain is and whoever waits
behind its receiver. The main statement is `Chain.tells_course`: if no leaf explodes when it is
dropped, the story is that of the course.
-/

namespace Handoff

/-- What the driver of a chain sees of a site that has come so far. -/
structure Page where
  seen : List Act
  count : Nat
  /-- What is seen if the site is started again. -/
  refusal : Refusal

/-- What the driver of a chain sees of a course. -/
inductive Story where
  | finished (x : Page) (v : Completion Value Failure)
  | pending (x : Page) (v : Completion Value Failure) (resume : Bool → Story)

namespace Page

/-- A page before which something was seen. -/
def record (acts : List Act) (x : Page) : Page := { x with seen := acts ++ x.seen }

/-- A page of a binding operation whose handoff has begun. -/
def refuse (x : Page) : Page := { x with refusal := ⟨[], .bindRestarted⟩ }

end Page

namespace Story

/-- Change all pages and the completion. -/
def map (f : Page → Page) (g : Completion Value Failure → Completion Value Failure) :
    Story → Story
  | finished x v => finished (f x) (g v)
  | pending x v resume => pending (f x) v fun b => (resume b).map f g

/-- A story before which something was seen. -/
def record (acts : List Act) : Story → Story
  | finished x v => finished (x.record acts) v
  | pending x v resume => pending (x.record acts) v resume

/-- The story of an operation from that of the one inside it, which goes on as given when that is
finished. -/
def within (go : Bool → Page → Completion Value Failure → Story) (stopped : Bool) : Story → Story
  | finished x v => go stopped x v
  | pending x v resume => pending x v fun b => within go b (resume b)

end Story

namespace Chain

/-- How many operations connecting a chain builds. -/
def built : Chain → Nat
  | ready _ => 1
  | leaf _ => 1
  | exploding built => if built.isSome then 1 else 0
  | either _ c _ => c.built + 1
  | bind p _ _ _ => p.built + 1

/-- No leaf raises when it is dropped, neither in the chain nor in what its factories build. -/
def Sturdy : Chain → Prop
  | ready _ => True
  | leaf l => l.explodes = false
  | exploding _ => True
  | either _ c _ => c.Sturdy
  | bind p _ next _ => p.Sturdy ∧ ∀ n, (next n).Sturdy

/-- What a binding operation does with the value of its predecessor, given the story of each
successor. -/
def tellHandover (k : Nat) (raises : Int64 → Option Payload) (next : Int64 → Chain)
    (successor : Int64 → Nat → Story) (x : Page) (n : Int64) : Story :=
  let y := { x.refuse with seen := x.seen ++ [.called k none n] }
  match raises n with
  | some m => .finished y (.error (.panicked m))
  | none =>
    match (next n).connectRaises with
    | some m => .finished { y with count := x.count + (next n).built } (.error (.panicked m))
    | none => ((successor n x.count).record y.seen).map Page.refuse (·.mapError .successor)

/-- What a binding operation does with the completion of its predecessor. -/
def tellTakeover (k : Nat) (raises : Int64 → Option Payload) (next : Int64 → Chain)
    (successor : Bool → Int64 → Nat → Story) (stopped : Bool) (x : Page) :
    Completion Value Failure → Story
  | .error e => .finished x (.error (.predecessor e))
  | .done => .finished x .done
  | .value v => tellHandover k raises next (successor stopped) x v.n

/-- The story of a chain whose first operation is that of the given number. -/
def story : Chain → Nat → Bool → Story
  | ready c, k, _ => .finished ⟨[], k + 1, ⟨[], .readyRestarted⟩⟩ (deliver none c)
  | exploding _, k, _ => .finished ⟨[], k, ⟨[], .vacantStart⟩⟩ .done
  | leaf l, k, stopped =>
    let x : Page := ⟨[.started l.label], k + 1, ⟨[.started l.label], .leafRestarted⟩⟩
    if stopped then .finished { x with seen := [.started l.label, .gaveUp l.label] } .done
    else if l.deferred then
      .pending x l.leaf.completion fun _ => .finished { x with seen := [] } l.leaf.completion
    else .finished x l.leaf.completion
  | either _ c _, k, stopped => c.story (k + 1) stopped
  | bind p raises next _, k, stopped =>
    (p.story (k + 1) stopped).within
      (tellTakeover k raises next fun stopped n k => (next n).story k stopped) stopped

end Chain

/-! ### The story of a course -/

/-- What the driver of a chain sees of a site. -/
def Stretch.page (st : Stretch) : Page where
  seen := Act.sights st.acts
  count := st.count
  refusal := { Layer.refusal st.layers with acts := Act.sights (Layer.refusal st.layers).acts }

namespace Course

/-- A story is that of a course, all of whose operations can be dropped without a payload. -/
inductive Tells : Course → Story → Prop where
  | finished {st : Stretch} {v : Completion Value Failure} {late : List (Completion Value Failure)}
      {x : Page} (hx : st.page = x) (hd : (Layer.dropAll false [] st.layers).raised = none) :
      Tells (.finished st v late) (.finished x v)
  | pending {st : Stretch} {r : Receiver} {v : Completion Value Failure} {resume : Bool → Course}
      {x : Page} {resume' : Bool → Story} (hx : st.page = x)
      (h : ∀ b, Tells (resume b) (resume' b)) :
      Tells (.pending st r v resume) (.pending x v resume')

variable {x : Course} {y : Story}

lemma page_record (acts : List Act) (st : Stretch) :
    ({ st with acts := acts ++ st.acts } : Stretch).page = st.page.record (Act.sights acts) := by
  simp [Stretch.page, Page.record]

lemma Tells.of_finished {z : Page} {v : Completion Value Failure} (h : x.Tells (.finished z v)) :
    ∃ st late, x = Course.finished st v late ∧ st.page = z := by
  cases h with
  | finished hx hd => exact ⟨_, _, rfl, hx⟩

lemma Tells.of_pending {z : Page} {v : Completion Value Failure} {resume' : Bool → Story}
    (h : x.Tells (.pending z v resume')) :
    ∃ st r resume, x = Course.pending st r v resume ∧ st.page = z ∧
      ∀ b, (resume b).Tells (resume' b) := by
  cases h with
  | pending hx h => exact ⟨_, _, _, rfl, hx, h⟩

lemma Tells.record (h : x.Tells y) {acts seen : List Act} (ha : Act.sights acts = seen) :
    (x.record acts).Tells (y.record seen) := by
  subst ha
  cases h with
  | @finished st v late x hx hd =>
    subst hx
    exact .finished (page_record acts st) hd
  | @pending st r v resume x resume' hx h =>
    subst hx
    exact .pending (page_record acts st) h

/-- A binding operation or an alternative whose child is that of a story, as long as it is started
again like that child. -/
lemma Tells.within {l : Layer}
    {go : Bool → Stretch → Completion Value Failure → List (Completion Value Failure) → Course}
    {go' : Bool → Page → Completion Value Failure → Story}
    (hl : ∀ st : Stretch, ({ st with layers := l :: st.layers } : Stretch).page = st.page)
    (hgo : ∀ b st v late, (Layer.dropAll false [] st.layers).raised = none →
      (go b st v late).Tells (go' b st.page v)) (h : x.Tells y) (stopped : Bool) :
    (x.within l go stopped).Tells (y.within go' stopped) := by
  induction h generalizing stopped with
  | finished hx hd =>
    subst hx
    exact hgo _ _ _ _ hd
  | pending hx _ ih =>
    subst hx
    exact .pending (hl _) fun b => ih b b

/-- A binding operation with a successor of which a story is told. -/
lemma Tells.map {l : Layer} {f : Page → Page}
    {go : Bool → Stretch → Completion Value Failure → List (Completion Value Failure) → Course}
    {g : Completion Value Failure → Completion Value Failure}
    (hl : ∀ st : Stretch, ({ st with layers := l :: st.layers } : Stretch).page = f st.page)
    (hgo : ∀ b st v late, (Layer.dropAll false [] st.layers).raised = none →
      (go b st v late).Tells (.finished (f st.page) (g v))) (h : x.Tells y) (stopped : Bool) :
    (x.within l go stopped).Tells (y.map f g) := by
  induction h generalizing stopped with
  | finished hx hd =>
    subst hx
    exact hgo _ _ _ _ hd
  | pending hx _ ih =>
    subst hx
    exact .pending (hl _) fun b => ih b b

end Course

lemma Story.record_nil (y : Story) : y.record [] = y := by
  cases y <;> rfl

lemma Story.map_id (y : Story) : y.map id id = y := by
  induction y with
  | finished x v => rfl
  | pending x v resume ih => simp [map, ih]

namespace Chain

variable {s : Site}

lemma count_lay (c : Chain) (r : Receiver) (h k : Nat) :
    (c.lay s r h k).count = k + c.built := by
  induction c generalizing r h k with
  | ready c => rfl
  | leaf l => rfl
  | exploding built => cases built <;> rfl
  | either which c other ih => rw [lay_either, Laid.count_inside, ih, built]; omega
  | bind p raises next promised ih => rw [lay_bind, Laid.count_inside, ih, built]; omega

lemma page_predecessor {b : Binding} (hb : b.storage = .predecessor) (st : Stretch)
    (acts : List Act) (ha : Act.sights acts = []) :
    (⟨.bind b :: st.layers, st.acts ++ acts, st.count⟩ : Stretch).page = st.page := by
  simp [Stretch.page, Layer.refusal, hb, Act.isSight, ha]

lemma page_later {b : Binding} (hb : b.storage ≠ .predecessor) (ls : List Layer)
    (acts : List Act) (n : Nat) :
    (⟨.bind b :: ls, acts, n⟩ : Stretch).page =
      ⟨Act.sights acts, n, ⟨[], .bindRestarted⟩⟩ := by
  simp [Stretch.page, Layer.refusal, hb, Act.isSight]

lemma tells_pass {b : Binding} {st : Stretch} {acts : List Act} {v : Completion Value Failure}
    {late : List (Completion Value Failure)} {x : Page}
    (hx : (⟨.bind b.spend :: st.layers, st.acts ++ acts, st.count⟩ : Stretch).page = x)
    (hd : (Layer.dropAll false [] st.layers).raised = none) :
    (Course.pass b st acts v late).Tells (.finished x v) :=
  .finished hx (raised_bind_eq_none _ hd)

/-- The handoff of a binding operation is told by its story. -/
lemma tells_handover {k h : Nat} {b : Binding} (hb : b.serial = k)
    {raises : Int64 → Option Payload} {next : Int64 → Chain} {successor : Int64 → Nat → Course}
    {successor' : Int64 → Nat → Story} {st : Stretch} {v : Value}
    {late : List (Completion Value Failure)}
    (hnext : ∀ n k, (next n).connectRaises = none → (successor n k).Tells (successor' n k))
    (hd : (Layer.dropAll false [] st.layers).raised = none) (stopped : Bool) :
    (handover s h b raises next successor stopped st v late).Tells
      (tellHandover k raises next successor' st.page v.n) := by
  have hdrop : Act.sights (Layer.dropAll false [] st.layers).acts = [] :=
    (Layer.partings_dropAll _ _ _).sights_eq_nil
  cases hraises : raises v.n with
  | some m =>
    simp only [handover, hand, tellHandover, hd, hraises]
    refine tells_pass ?_ rfl
    rw [page_later (by simp)]
    simp [hdrop, Act.isSight, hb, Stretch.page, Page.refuse]
  | none =>
    cases hc : (next v.n).connectRaises with
    | some m =>
      simp only [handover, hand, tellHandover, hd, hraises, raised_lay, hc]
      refine tells_pass ?_ (raised_dropAll_lay hc ..)
      rw [page_later (by simp)]
      simp [hdrop, Act.isSight, hb, Stretch.page, Page.refuse, sights_lay, count_lay]
    | none =>
      simp only [handover, hand, tellHandover, hd, hraises, raised_lay, hc]
      refine .map ?_ ?_ ((hnext v.n st.count hc).record ?_) stopped
      · exact fun st => page_later (by simp) _ _ _
      · intro _ st v late' hd
        refine tells_pass ?_ hd
        rw [page_later (by simp), List.append_nil]
        rfl
      · simp [hdrop, sights_lay, Act.isSight, hb, Stretch.page]

/-- The course of a chain of which no leaf explodes is told by its story. -/
theorem tells_course {c : Chain} (hc : c.Sturdy) (hconnect : c.connectRaises = none)
    (r : Receiver) (rest : List Receiver) (h k : Nat) (stopped : Bool) :
    (c.course s r rest h k stopped).Tells (c.story k stopped) := by
  induction c generalizing r rest h k stopped with
  | ready c => exact .finished rfl rfl
  | exploding built => simp [connectRaises] at hconnect
  | leaf l =>
    have hd := raised_leaf_eq_none hc k
    have hpage (acts : List Act) : (⟨[.leaf k l.leaf none], acts, k + 1⟩ : Stretch).page =
        ⟨Act.sights acts, k + 1, ⟨[.started l.label], .leafRestarted⟩⟩ := by
      simp [Stretch.page, Layer.refusal, Act.isSight, Leaf.leaf]
    simp only [course, story]
    split_ifs
    · exact .finished (by simp [hpage, sights_startActs, Act.isSight]) hd
    · exact .pending (by rw [hpage, sights_startActs]) fun _ => .finished (hpage []) hd
    · exact .finished (by rw [hpage, sights_startActs]) hd
  | either which c other ih =>
    rw [course, story, ← Story.map_id (c.story (k + 1) stopped)]
    refine .map ?_ ?_ (ih hc hconnect ..) stopped
    · exact fun st => rfl
    · exact fun b st v late hd => .finished rfl hd
  | bind p raises next promised ihp ih =>
    rw [course, story, ← Story.record_nil (p.story (k + 1) stopped)]
    refine .within ?_ ?_ ((ihp hc.1 hconnect ..).record rfl) stopped
    · intro st
      simpa using page_predecessor (b := binding raises next r k) rfl st [] rfl
    intro stopped st v late hd
    cases v with
    | error e => exact tells_pass (page_predecessor rfl _ _ rfl) hd
    | done => exact tells_pass (page_predecessor rfl _ _ rfl) hd
    | value v => exact tells_handover rfl (fun n k hn => ih n (hc.2 n) hn ..) hd stopped

end Chain

end Handoff
