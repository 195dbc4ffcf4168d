import Handoff.Proofs.Chain.Playing

/-!
# Stop requests reach the whole chain

Every operation of a chain forwards the stop requests of the final receiver, so a leaf that is
started after a stop was requested gives up, and done is passed on by all operations around it. What
remains is the completion of a leaf that was pending when the stop was requested: `Layer.Aftermath`
says what it leads to, from the operations that stand around that leaf. The main statement is
`Chain.stop_reaches_chain`, on stop requests at any moment between other calls.
-/

namespace Handoff

namespace Layer

/-- The innermost binding operation that waits for its predecessor. -/
def awaiting : List Layer → Option Binding
  | [] => none
  | bind b :: rest => (awaiting rest).or (if b.storage = .predecessor then some b else none)
  | _ :: rest => awaiting rest

/-- The tag under which an operation passes an error on. -/
def tag : Layer → Completion Value Failure → Completion Value Failure
  | bind b, v =>
    match b.storage with
    | .vacant => v
    | .predecessor => v.mapError .predecessor
    | .successor => v.mapError .successor
  | _, v => v

/-- A completion with the tags that it gets on its way through operations. -/
def tagAll (ls : List Layer) (v : Completion Value Failure) : Completion Value Failure :=
  ls.foldr tag v

/-- What the completion of the leaf inside operations leads to once a stop was requested: what is
seen, and what the final receiver is given. -/
inductive Aftermath (ls : List Layer) :
    Completion Value Failure → List Act → Completion Value Failure → Prop where
  /-- One more factory is called, and the first leaf of the sender that it builds gives up. -/
  | called {b : Binding} {u : Value} {raises : Int64 → Option Payload} {next : Int64 → Chain}
      {l : Chain.Leaf} (hb : awaiting ls = some b)
      (hf : b.factory = some (Chain.factory raises, Chain.successor next))
      (hl : (next u.n).head = .leaf l) :
      Aftermath ls (.value u)
        [.called b.serial none u.n, .started l.label, .gaveUp l.label] .done
  /-- No factory is called. -/
  | passed {v : Completion Value Failure} (hv : ∀ u, v = .value u → awaiting ls = none) :
      Aftermath ls v [] (tagAll ls v)

variable {ls : List Layer} {b : Binding}

@[simp] lemma tagAll_cons (l : Layer) (v : Completion Value Failure) :
    tagAll (l :: ls) v = l.tag (tagAll ls v) := rfl

/-- Tags change errors only. -/
lemma exists_tagAll (ls : List Layer) (v : Completion Value Failure) :
    ∃ f, tagAll ls v = v.mapError f := by
  induction ls with
  | nil => exact ⟨id, by cases v <;> rfl⟩
  | cons l rest ih =>
    obtain ⟨f, hf⟩ := ih
    have hcomp (g : Failure → Failure) : (v.mapError f).mapError g = v.mapError (g ∘ f) := by
      cases v <;> rfl
    rw [tagAll_cons, hf]
    cases l with
    | bind b =>
      cases hb : b.storage with
      | vacant => exact ⟨f, by simp [tag, hb]⟩
      | predecessor => exact ⟨_, by simpa [tag, hb] using hcomp _⟩
      | successor => exact ⟨_, by simpa [tag, hb] using hcomp _⟩
    | _ => exact ⟨f, rfl⟩

/-- A value comes through if no binding operation waits for it. -/
lemma Aftermath.of_value {v : Completion Value Failure} {seen : List Act} {u : Value}
    (h : Aftermath ls v seen (.value u)) : v = .value u ∧ awaiting ls = none ∧ seen = [] := by
  generalize hout : Completion.value u = out at h
  cases h with
  | called hb hf hl => cases hout
  | passed hv =>
    have hvalue : v = .value u := by
      obtain ⟨f, hf⟩ := exists_tagAll ls v
      rw [hf] at hout
      cases v with
      | value u' => exact hout.symm
      | error e => cases hout
      | done => cases hout
    exact ⟨hvalue.trans hout, hv u hvalue, rfl⟩

/-- Alternatives pass on what the operation inside them completes with. -/
lemma Aftermath.either {v out : Completion Value Failure} {seen : List Act}
    (h : Aftermath ls v seen out) (k : Nat) (which : Arm) :
    Aftermath (.either k which :: ls) v seen out := by
  cases h with
  | called hb hf hl => exact .called hb hf hl
  | passed hv =>
    show Aftermath (.either k which :: ls) v [] (tagAll (.either k which :: ls) v)
    exact .passed hv

end Layer

/-! ### Courses that are stopped on the way -/

namespace Course

/-- Wherever the course is pending, it is so because of a leaf, and if it is stopped there it is
over with the next task, as the operations around that leaf say. No operation raises when it is
dropped in the end. -/
def Obeys : Course → Prop
  | finished st _ _ => (Layer.dropAll false [] st.layers).raised = none
  | pending st _ v resume =>
    (∃ base n, ∃ l : Chain.Leaf,
        st.layers = base ++ [.leaf n l.leaf none] ∧ v = l.leaf.completion) ∧
      (∃ st' out late, resume true = finished st' out late ∧
        Layer.Aftermath st.layers v (Act.sights st'.acts) out) ∧
      ∀ b, (resume b).Obeys

variable {x : Course}

lemma Obeys.record (h : x.Obeys) (acts : List Act) : (x.record acts).Obeys := by
  cases x with
  | finished st v late => exact h
  | pending st r v resume => exact h

/-- An operation obeys if the one inside it does. -/
lemma Obeys.within {l : Layer}
    {go : Bool → Stretch → Completion Value Failure → List (Completion Value Failure) → Course}
    (hgo : ∀ b st v late, (Layer.dropAll false [] st.layers).raised = none →
      (go b st v late).Obeys)
    (hstop : ∀ ls v st out late, (Layer.dropAll false [] st.layers).raised = none →
      Layer.Aftermath ls v (Act.sights st.acts) out →
      ∃ st' out' late', go true st out late = finished st' out' late' ∧
        Layer.Aftermath (l :: ls) v (Act.sights st'.acts) out')
    (h : x.Obeys) (stopped : Bool) : (x.within l go stopped).Obeys := by
  -- The premise on stopped courses is about one turn, so only `hresume` needs the induction.
  induction x generalizing stopped with
  | finished st v late => exact hgo _ _ _ _ h
  | pending st r v resume ih =>
    obtain ⟨⟨base, n, lf, hbase, hv⟩, ⟨st', out, late, htrue, hafter⟩, hresume⟩ := h
    have hdrop := hresume true
    rw [htrue] at hdrop
    obtain ⟨st'', out', late', hgo', hafter'⟩ := hstop st.layers v st' out late hdrop hafter
    refine ⟨⟨l :: base, n, lf, by simp [hbase], hv⟩, ⟨st'', out', late', ?_, hafter'⟩,
      fun b => ih b (hresume b) b⟩
    simp only [htrue, Course.within, hgo']

end Course

namespace Chain

/-- All leaves are journalled, none explodes when it is dropped, and no factory raises, neither in
the chain nor in what its factories build. -/
def Tame : Chain → Prop
  | ready _ => False
  | leaf l => l.explodes = false
  | exploding _ => False
  | either _ c _ => c.Tame
  | bind p raises next _ => p.Tame ∧ (∀ n, raises n = none) ∧ ∀ n, (next n).Tame

variable {c : Chain} {s : Site}

lemma Tame.connectRaises_eq (hc : c.Tame) : c.connectRaises = none := by
  induction c with
  | ready c => rfl
  | leaf l => rfl
  | exploding built => exact hc.elim
  | either which c other ih => exact ih hc
  | bind p raises next promised ih => exact ih hc.1

/-- A chain that is started after a stop was requested is over at once: its first leaf gives up. -/
lemma course_stopped (hc : c.Tame) (r : Receiver) (rest : List Receiver) (h k : Nat) :
    ∃ st late l, c.course s r rest h k true = .finished st .done late ∧ c.head = leaf l ∧
      Act.sights st.acts = [.started l.label, .gaveUp l.label] ∧
      (Layer.dropAll false [] st.layers).raised = none := by
  induction c generalizing r rest h k with
  | ready c => exact hc.elim
  | exploding built => exact hc.elim
  | leaf l =>
    exact ⟨_, _, l, rfl, rfl, by simp [sights_startActs, Act.isSight], raised_leaf_eq_none hc k⟩
  | either which c other ih =>
    obtain ⟨st, late, l, hcourse, hhead, hseen, hdrop⟩ := ih hc r rest (h + 1) (k + 1)
    rw [course, hcourse]
    exact ⟨_, _, l, rfl, hhead, hseen, hdrop⟩
  | bind p raises next promised ihp ih =>
    obtain ⟨st, late, l, hcourse, hhead, hseen, hdrop⟩ :=
      ihp hc.1 (.child .predecessor s h) (r :: rest) (h + 1) (k + 1)
    rw [course, hcourse]
    refine ⟨_, _, l, rfl, hhead, ?_, raised_bind_eq_none _ hdrop⟩
    simpa [Act.isSight] using hseen

/-- What a binding operation around others makes of the aftermath of a stop, as long as it passes on
what the one inside it completes with. -/
lemma aftermath_bind {ls : List Layer} {b : Binding} {v out : Completion Value Failure}
    {seen : List Act} (hafter : Layer.Aftermath ls v seen out)
    (hb : b.storage = .predecessor → ∀ u, out ≠ .value u) :
    Layer.Aftermath (.bind b :: ls) v seen ((Layer.bind b).tag out) := by
  cases hafter with
  | @called b' u raises next l hb' hf hl =>
    have hdone : (Layer.bind b).tag .done = .done := by
      cases hs : b.storage <;> simp [Layer.tag, hs, Completion.mapError]
    rw [hdone]
    exact .called (by simp [Layer.awaiting, hb']) hf hl
  | passed hv =>
    refine .passed fun u hu => ?_
    have hne : b.storage ≠ .predecessor := by
      intro hs
      obtain ⟨f, hf⟩ := Layer.exists_tagAll ls v
      exact hb hs u (by rw [hf, hu]; rfl)
    simp [Layer.awaiting, hv u hu, hne]

section Handover

/-- The course of each sender that a factory builds. -/
abbrev nextCourse (s : Site) (next : Int64 → Chain) (r : Receiver) (rest : List Receiver) (h : Nat)
    (stopped : Bool) (m : Int64) (n : Nat) : Course :=
  (next m).course s (.child .successor s h) (r :: rest) (h + 1) n stopped

variable {b : Binding} {raises : Int64 → Option Payload} {next : Int64 → Chain} {h : Nat}
  {st : Stretch} {u : Value} (hraises : ∀ n, raises n = none) (hnext : ∀ n, (next n).Tame)
  (hd : (Layer.dropAll false [] st.layers).raised = none)

include hraises hnext hd

lemma raised_hand_eq_none : (hand s h b raises next st u).laid.raised = none := by
  rw [(calls_hand h b raises next st u).2, hd, hraises, (hnext u.n).connectRaises_eq]
  rfl

lemma obeys_handover (r : Receiver) (rest : List Receiver)
    (hobeys : ∀ n k stopped, (nextCourse s next r rest h stopped n k).Obeys) (stopped : Bool)
    (late : List (Completion Value Failure)) :
    (handover s h b raises next (nextCourse s next r rest h stopped) stopped st u late).Obeys := by
  have hx := raised_hand_eq_none (s := s) (h := h) (b := b) (u := u) hraises hnext hd
  obtain ⟨-, hbinding, -, -⟩ := hand_eq_of_raised_eq_none hx
  simp only [handover, hx]
  refine .within ?_ ?_ ((hobeys ..).record _) stopped
  · intro _ st v late' hd
    exact raised_bind_eq_none _ hd
  · intro ls v st' out late' _ hafter
    have hstorage : (hand s h b raises next st u).binding.settle.storage = .successor := by
      rw [hbinding]
      rfl
    have hbind := aftermath_bind hafter fun hs => absurd (hs.symm.trans hstorage) (by simp)
    simp only [Layer.tag, hstorage] at hbind
    exact ⟨_, _, _, rfl, by simpa using hbind⟩

/-- A handoff after a stop was requested calls the factory, and the first leaf of the successor
gives up. -/
lemma handover_stopped (r : Receiver) (rest : List Receiver)
    (late : List (Completion Value Failure)) :
    ∃ st' late' l,
      handover s h b raises next (nextCourse s next r rest h true) true st u late =
        .finished st' .done late' ∧ (next u.n).head = leaf l ∧
      Act.sights st'.acts = Act.sights st.acts ++
        [.called b.serial none u.n, .started l.label, .gaveUp l.label] := by
  have hx := raised_hand_eq_none (s := s) (h := h) (b := b) (u := u) hraises hnext hd
  obtain ⟨st', late', l, hcourse, hhead, hseen, -⟩ :=
    course_stopped (s := s) (hnext u.n) (.child .successor s h) (r :: rest) (h + 1) st.count
  simp only [handover, hx, nextCourse, hcourse]
  refine ⟨_, _, l, rfl, hhead, ?_⟩
  simp [sights_hand hd (hraises u.n), hseen]

end Handover

/-- A tame chain obeys stop requests. -/
theorem obeys_course (hc : c.Tame) (r : Receiver) (rest : List Receiver) (h k : Nat)
    (stopped : Bool) : (c.course s r rest h k stopped).Obeys := by
  induction c generalizing r rest h k stopped with
  | ready c => exact hc.elim
  | exploding built => exact hc.elim
  | leaf l =>
    have hd := raised_leaf_eq_none hc k
    rw [course]
    split_ifs
    · exact hd
    · refine ⟨⟨[], k, l, rfl, rfl⟩, ⟨_, _, _, rfl, ?_⟩, fun _ => hd⟩
      show Layer.Aftermath [.leaf k l.leaf none] _ [] (Layer.tagAll [.leaf k l.leaf none] _)
      exact .passed fun u _ => rfl
    · exact hd
  | either which c other ih =>
    rw [course]
    refine .within ?_ ?_ (ih hc ..) stopped
    · exact fun _ _ _ _ hd => hd
    · intro ls v st out late _ hafter
      exact ⟨_, _, _, rfl, hafter.either k which⟩
  | bind p raises next promised ihp ih =>
    obtain ⟨hp, hraises, hnext⟩ := hc
    rw [course]
    refine .within ?_ ?_ ((ihp hp ..).record _) stopped
    · intro stopped st v late hd
      cases v with
      | error e => exact raised_bind_eq_none _ hd
      | done => exact raised_bind_eq_none _ hd
      | value v =>
        exact obeys_handover hraises hnext hd _ _ (fun n k b => ih n (hnext n) ..) stopped late
    · intro ls v st out late hd hafter
      have hpass (hout : ∀ u, out ≠ .value u) :
          Layer.Aftermath (.bind (binding raises next r k) :: ls) v (Act.sights st.acts)
            (out.mapError .predecessor) := aftermath_bind hafter fun _ => hout
      cases out with
      | error e =>
        exact ⟨_, _, _, rfl, by simpa [Act.isSight, Completion.mapError] using hpass (by simp)⟩
      | done =>
        exact ⟨_, _, _, rfl, by simpa [Act.isSight, Completion.mapError] using hpass (by simp)⟩
      | value u =>
        -- Only a value that no binding inside the predecessor waits for comes this far.
        obtain ⟨rfl, hawaiting, hseen⟩ := hafter.of_value
        obtain ⟨st', late', l, hcourse, hhead, hseen'⟩ :=
          handover_stopped (s := s) (h := h) (b := binding raises next r k) (u := u) hraises hnext
            hd r rest late
        refine ⟨st', .done, late', hcourse, ?_⟩
        rw [hseen', hseen]
        exact .called (by simp [Layer.awaiting, hawaiting, binding]) rfl hhead

end Chain

/-! ### Calls around a stop request -/

namespace World

/-- A host makes calls one after another; all along, this is seen and final receivers are given
this. -/
def Yields (w : World) (cs : List Call) (seen : List Act) (given : List Parcel) (w' : World) :
    Prop :=
  ∃ bs, w.Plays cs bs w' ∧ bs.flatMap Beat.seen = seen ∧ bs.flatMap Beat.given = given

/-- Whatever calls are made, a start excepted, nothing more is seen, nobody is given anything and
nothing is queued. -/
def Quiet (p : Int) (w : World) : Prop :=
  ∀ ds : List Drive, .start ∉ ds → ∃ w', w.Yields (ds.map (Drive.call p)) [] [] w' ∧ w'.queue = []

variable {w w' w'' : World} {cs cs' : List Call} {seen seen' : List Act}
  {given given' : List Parcel}

lemma Yields.append (h : w.Yields cs seen given w') (h' : w'.Yields cs' seen' given' w'') :
    w.Yields (cs ++ cs') (seen ++ seen') (given ++ given') w'' := by
  obtain ⟨bs, hplays, rfl, rfl⟩ := h
  obtain ⟨bs', hplays', rfl, rfl⟩ := h'
  exact ⟨bs ++ bs', hplays.append hplays', List.flatMap_append, List.flatMap_append⟩

end World

/-- What a final receiver is given where a course is pending or over. -/
def Course.given (r : Receiver) : Course → List Parcel
  | finished _ v _ => [(r, v)]
  | pending _ _ _ _ => []

lemma Course.beat_eq (r : Receiver) (reply : Reply) (x : Course) :
    (x.beat r reply).given = x.given r ∧ (x.beat r reply).seen = Act.sights x.stretch.acts := by
  cases x <;> exact ⟨rfl, rfl⟩

/-- There is nothing for a task to go on with. -/
def Phase.Idle : Phase → Prop
  | .fresh _ => True
  | .begun (.finished _ _ _) => True
  | .begun (.pending _ _ _ _) => False

namespace Scene

variable {x : Scene} {r : Receiver} {k : Int} {ds : List Drive}

lemma task_idle (hx : x.phase.Idle) :
    x.task r = ({ outcome := .answered (.flag false) }, x) := by
  obtain ⟨phase, requested⟩ := x
  cases phase with
  | fresh begin => rfl
  | begun y =>
    cases y with
    | finished st v late => rfl
    | pending st r' v resume => exact hx.elim

/-- Without a start, nothing happens unless there is something for a task to go on with. -/
lemma play_quiet (hds : .start ∉ ds) (h : x.phase.Idle ∨ .task ∉ ds) :
    (x.play r ds).2.phase = x.phase ∧ (x.play r ds).1.flatMap Beat.seen = [] ∧
      (x.play r ds).1.flatMap Beat.given = [] := by
  induction ds generalizing x with
  | nil => exact ⟨rfl, rfl, rfl⟩
  | cons d ds ih =>
    have hrest : .start ∉ ds := fun hmem => hds (List.mem_cons_of_mem d hmem)
    have htasks : x.phase.Idle ∨ .task ∉ ds :=
      h.imp_right fun ht hmem => ht (List.mem_cons_of_mem d hmem)
    cases d with
    | start => exact absurd List.mem_cons_self hds
    | request j => exact ih (x := (x.request j).2) hrest htasks
    | task =>
      simp only [play, next, task_idle (h.resolve_right fun ht => ht List.mem_cons_self)]
      exact ih hrest htasks

/-- Stop requests are not taken back. -/
lemma mem_requested_play (hk : k ∈ x.requested) : k ∈ (x.play r ds).2.requested := by
  induction ds generalizing x with
  | nil => exact hk
  | cons d ds ih =>
    refine ih (x := (x.next r d).2) ?_
    cases d with
    | start =>
      rw [next, start]
      split <;> exact hk
    | task =>
      rw [next, task]
      split <;> exact hk
    | request j =>
      simp only [next, request]
      split_ifs
      · exact hk
      · exact List.mem_cons_of_mem j hk

lemma mem_requested_of_mem (hk : .request k ∈ ds) : k ∈ (x.play r ds).2.requested := by
  induction ds generalizing x with
  | nil => simp at hk
  | cons d ds ih =>
    rcases List.mem_cons.1 hk with rfl | hk
    · refine mem_requested_play (x := (x.request k).2) ?_
      rw [request]
      split_ifs with h
      · simpa using h
      · exact List.mem_cons_self
    · exact ih hk

lemma stops_of_mem (hk : r.ownStop = some k) (hmem : k ∈ x.requested) : x.stops r = true := by
  simpa [stops, hk] using hmem

/-- Whatever the calls after its start, a course that obeys goes on to obey, and the receiver is
given the completion by the time it is over. -/
lemma play_obeys {y : Course} (requested : List Int) (hy : y.Obeys) (hds : .start ∉ ds) :
    ∃ y' : Course, (play r ⟨.begun y, requested⟩ ds).2.phase = .begun y' ∧ y'.Obeys ∧
      y.given r ++ (play r ⟨.begun y, requested⟩ ds).1.flatMap Beat.given = y'.given r := by
  induction ds generalizing y requested with
  | nil => exact ⟨y, rfl, hy, List.append_nil _⟩
  | cons d ds ih =>
    have hrest : .start ∉ ds := fun hmem => hds (List.mem_cons_of_mem d hmem)
    cases d with
    | start => exact absurd List.mem_cons_self hds
    | request j => exact ih _ hy hrest
    | task =>
      cases y with
      | finished st v late => exact ih _ hy hrest
      | pending st r' v resume =>
        set b := stops ⟨.begun (.pending st r' v resume), requested⟩ r with hb
        obtain ⟨y', hphase, hy', hgiven⟩ := ih requested (hy.2.2 b) hrest
        refine ⟨y', hphase, hy', ?_⟩
        simpa only [play, next, task, ← hb, Course.given, (Course.beat_eq ..).1, List.nil_append,
          List.flatMap_cons] using hgiven

end Scene

namespace World.Rests

variable {p k : Int} {r : Receiver} {w : World} {x : Scene} {ds : List Drive} {requested : List Int}
  {φ : Phase} {begin : Bool → Course} {y : Course}

lemma queue_of_idle (h : w.Rests p r x) (hx : x.phase.Idle) : w.queue = [] := by
  cases h with
  | fresh hw hq hbegin hgo => exact hq
  | finished hw hq hst => exact hq
  | pending hw hq hx' hgo => exact hx.elim

lemma of_phase (h : w.Rests p r x) (hx : x.phase = φ) : w.Rests p r ⟨φ, x.requested⟩ := by
  subst hx
  exact h

lemma yields (h : w.Rests p r x) (hr : r.Calm) (ds : List Drive) :
    ∃ w', w.Yields (ds.map (Drive.call p)) ((x.play r ds).1.flatMap Beat.seen)
      ((x.play r ds).1.flatMap Beat.given) w' ∧ w'.Rests p r (x.play r ds).2 := by
  obtain ⟨w', hplays, hrests⟩ := h.plays hr ds
  exact ⟨w', ⟨_, hplays, rfl, rfl⟩, hrests⟩

lemma yields_nothing (h : w.Rests p r ⟨φ, requested⟩) (hr : r.Calm) (ds : List Drive)
    (hds : .start ∉ ds) (hφ : φ.Idle ∨ .task ∉ ds) :
    ∃ w' requested', w.Yields (ds.map (Drive.call p)) [] [] w' ∧ w'.Rests p r ⟨φ, requested'⟩ ∧
      ∀ k, .request k ∈ ds → k ∈ requested' := by
  obtain ⟨w', hyields, hrests⟩ := h.yields hr ds
  obtain ⟨hphase, hseen, hgiven⟩ := Scene.play_quiet (r := r) (x := ⟨φ, requested⟩) hds hφ
  rw [hseen, hgiven] at hyields
  exact ⟨w', _, hyields, hrests.of_phase hphase, fun _ hk => Scene.mem_requested_of_mem hk⟩

lemma quiet (h : w.Rests p r ⟨φ, requested⟩) (hr : r.Calm) (hφ : φ.Idle) : w.Quiet p := by
  intro ds hds
  obtain ⟨w', requested', hyields, hrests, -⟩ := h.yields_nothing hr ds hds (.inl hφ)
  exact ⟨w', hyields, hrests.queue_of_idle hφ⟩

/-- Starting takes the course for a stop request or that for none. -/
lemma yields_start (h : w.Rests p r ⟨.fresh begin, requested⟩) (hr : r.Calm) {b : Bool}
    (hb : Scene.stops ⟨.fresh begin, requested⟩ r = b) :
    ∃ w', w.Yields [.start p] (Act.sights (begin b).stretch.acts) ((begin b).given r) w' ∧
      w'.Rests p r ⟨.begun (begin b), requested⟩ := by
  subst hb
  obtain ⟨w', hyields, hrests⟩ := h.yields hr [.start]
  refine ⟨w', ?_, hrests⟩
  simpa only [Scene.play, Scene.next, Scene.start, List.flatMap_cons, List.flatMap_nil,
    List.append_nil, List.map_cons, List.map_nil, Drive.call, (Course.beat_eq ..).1,
    (Course.beat_eq ..).2] using hyields

/-- The next task takes the course on from where it is pending. -/
lemma yields_task {st : Stretch} {r' : Receiver} {v : Completion Value Failure}
    {resume : Bool → Course} (h : w.Rests p r ⟨.begun (.pending st r' v resume), requested⟩)
    (hr : r.Calm) {b : Bool}
    (hb : Scene.stops ⟨.begun (.pending st r' v resume), requested⟩ r = b) :
    ∃ w', w.Yields [.tick] (Act.sights (resume b).stretch.acts) ((resume b).given r) w' ∧
      w'.Rests p r ⟨.begun (resume b), requested⟩ := by
  subst hb
  obtain ⟨w', hyields, hrests⟩ := h.yields hr [.task]
  refine ⟨w', ?_, hrests⟩
  simpa only [Scene.play, Scene.next, Scene.task, List.flatMap_cons, List.flatMap_nil,
    List.append_nil, List.map_cons, List.map_nil, Drive.call, (Course.beat_eq ..).1,
    (Course.beat_eq ..).2] using hyields

/-- A course that obeys goes on to obey. -/
lemma yields_obeys (h : w.Rests p r ⟨.begun y, requested⟩) (hr : r.Calm) (hy : y.Obeys)
    (hds : .start ∉ ds) :
    ∃ w' seen given requested' y', w.Yields (ds.map (Drive.call p)) seen given w' ∧ y'.Obeys ∧
      y.given r ++ given = y'.given r ∧ w'.Rests p r ⟨.begun y', requested'⟩ := by
  obtain ⟨w', hyields, hrests⟩ := h.yields hr ds
  obtain ⟨y', hphase, hy', hgiven⟩ := Scene.play_obeys (r := r) requested hy hds
  exact ⟨w', _, _, _, y', hyields, hy', hgiven, hrests.of_phase hphase⟩

/-- What stands in the place and in the queue where a course that obeys is pending, and what a stop
request leads to there. -/
lemma stopped_while_pending {st : Stretch} {r' : Receiver} {v : Completion Value Failure}
    {resume : Bool → Course} (h : w.Rests p r ⟨.begun (.pending st r' v resume), requested⟩)
    (hr : r.Calm) (hy : (Course.pending st r' v resume).Obeys) (hk : r.ownStop = some k) :
    ∃ base n, ∃ l : Chain.Leaf, w.layers (.place p) = base ++ [.leaf n l.leaf none] ∧
      w.queue = [.complete l.leaf.completion r'] ∧
      ∀ between : List Drive, .start ∉ between → .task ∉ between → ∃ w₁ w₂ seen out,
        w.Yields ((.request k :: between).map (Drive.call p)) [] [] w₁ ∧
          w₁.Yields [.tick] seen [(r, out)] w₂ ∧
          Layer.Aftermath (w.layers (.place p)) l.leaf.completion seen out ∧ w₂.Quiet p := by
  obtain ⟨⟨base, n, l, hst, rfl⟩, ⟨st', out, late, htrue, hafter⟩, -⟩ := hy
  obtain ⟨hlayers, hq⟩ : w.layers (.place p) = st.layers ∧
      w.queue = [.complete l.leaf.completion r'] := by
    cases h with
    | pending hw hq hx hgo => exact ⟨hw.layers_eq, hq⟩
  refine ⟨base, n, l, hlayers.trans hst, hq, fun between hbetween hwait => ?_⟩
  obtain ⟨w₁, requested₁, hyields, hrests, hmem⟩ := h.yields_nothing hr (.request k :: between)
    (by simpa using hbetween) (.inr (by simpa using hwait))
  obtain ⟨w₂, htick, hrests₂⟩ := hrests.yields_task hr
    (Scene.stops_of_mem hk (hmem k List.mem_cons_self))
  rw [htrue] at htick hrests₂
  exact ⟨w₁, w₂, _, out, hyields, htick, hlayers ▸ hafter, hrests₂.quiet hr trivial⟩

end World.Rests

namespace Chain

/-- A stop request reaches a whole tame chain that is connected in a vacant place, to a receiver of
which it is a stop source, at whatever moment it is made. If it is made before the chain is started,
no factory is called, the first leaf gives up and the receiver is given done. If it is made later,
then either the receiver was given a completion before, or a leaf is pending, and the next task ends
the chain, with what `Layer.Aftermath` says about its operations at that moment. The receiver is
given one completion in all. -/
theorem stop_reaches_chain (c : Chain) (hc : c.Tame) (w : World) (p : Int) (r : Receiver)
    (hr : r.Calm) {k : Int} (hk : r.ownStop = some k) (hq : w.queue = [])
    (hv : w.layers (.place p) = []) :
    ∃ w₀, w.Plays [.connect p c.sender r] [{ outcome := .answered .nothing }] w₀ ∧
      (∀ before between : List Drive, .start ∉ before → .start ∉ between →
        ∃ w₁ w₂ l,
          w₀.Yields ((before ++ .request k :: between).map (Drive.call p)) [] [] w₁ ∧
            c.head = leaf l ∧
            w₁.Yields [.start p] [.started l.label, .gaveUp l.label] [(r, .done)] w₂ ∧
            w₂.Quiet p) ∧
      ∀ before between : List Drive, .start ∉ before → .start ∉ between →
        ∃ w₁ seen given,
          w₀.Yields ((before ++ .start :: between).map (Drive.call p)) seen given w₁ ∧
            ((∃ v, given = [(r, v)] ∧ w₁.Quiet p) ∨
              given = [] ∧ ∃ base n r', ∃ l : Leaf,
                w₁.layers (.place p) = base ++ [.leaf n l.leaf none] ∧
                w₁.queue = [.complete l.leaf.completion r'] ∧
                ∀ waiting : List Drive, .start ∉ waiting → .task ∉ waiting →
                  ∃ w₂ w₃ seen' out,
                    w₁.Yields ((.request k :: waiting).map (Drive.call p)) [] [] w₂ ∧
                    w₂.Yields [.tick] seen' [(r, out)] w₃ ∧
                    Layer.Aftermath (w₁.layers (.place p)) l.leaf.completion seen' out ∧
                    w₃.Quiet p) := by
  have hraises := hc.connectRaises_eq
  have hconnect := comes_connect c w p r hv
  rw [hraises] at hconnect
  have hrests := rests_connected c hraises w p hr.isChild_eq hq
  refine ⟨c.connected w p r, .cons hconnect (.nil _), ?_, ?_⟩
  · intro before between hbefore hbetween
    obtain ⟨w₁, requested, hyields, hrests₁, hmem⟩ := hrests.yields_nothing hr
      (before ++ .request k :: between) (by simp [hbefore, hbetween]) (.inl trivial)
    obtain ⟨w₂, hstart, hrests₂⟩ := hrests₁.yields_start hr
      (Scene.stops_of_mem hk (hmem k (by simp)))
    obtain ⟨st, late, l, hcourse, hhead, hseen, -⟩ :=
      course_stopped (s := .place p) hc r [] 0 (w.nextSerial (.place p))
    rw [hcourse] at hstart hrests₂
    refine ⟨w₁, w₂, l, hyields, hhead, ?_, hrests₂.quiet hr trivial⟩
    rw [← hseen]
    exact hstart
  · intro before between hbefore hbetween
    obtain ⟨w₁, requested, hyields₁, hrests₁, -⟩ :=
      hrests.yields_nothing hr before hbefore (.inl trivial)
    obtain ⟨w₂, hyields₂, hrests₂⟩ := hrests₁.yields_start hr rfl
    obtain ⟨w₃, seen, given, requested', y, hyields₃, hy, hgiven, hrests₃⟩ :=
      hrests₂.yields_obeys hr (obeys_course hc ..) hbetween
    obtain ⟨seen', hall⟩ : ∃ seen', (c.connected w p r).Yields
        ((before ++ .start :: between).map (Drive.call p)) seen' (y.given r) w₃ := by
      have hall := hyields₁.append (hyields₂.append hyields₃)
      rw [hgiven] at hall
      exact ⟨_, by simpa [Drive.call] using hall⟩
    refine ⟨w₃, seen', y.given r, hall, ?_⟩
    cases y with
    | finished st v late => exact .inl ⟨v, rfl, hrests₃.quiet hr trivial⟩
    | pending st r' v resume =>
      obtain ⟨base, n, l, hlayers, hqueue, hstop⟩ := hrests₃.stopped_while_pending hr hy hk
      exact .inr ⟨rfl, base, n, r', l, hlayers, hqueue, hstop⟩

/-- A deferred leaf that a factory follows, and a stop request before it is started. -/
theorem stop_reaches_chain_deferred :
    let a : Leaf := { label := "a", completion := .value 1, deferred := true }
    let b (n : Int64) : Leaf := { label := "b", completion := .value (n + 1), deferred := true }
    let c := bind (leaf a) (fun _ => none) (fun n => leaf (b n)) .unspecified
    let r := Receiver.recorder (.place 0) (some 7)
    ∃ w₀ w₁ w₂, ({} : World).Plays [.connect 0 c.sender r] [{ outcome := .answered .nothing }] w₀ ∧
      w₀.Yields [.request 7] [] [] w₁ ∧
      w₁.Yields [.start 0] [.started "a", .gaveUp "a"] [(r, .done)] w₂ ∧ w₂.Quiet 0 := by
  intro a b c r
  have hc : c.Tame := ⟨rfl, fun _ => rfl, fun _ => rfl⟩
  obtain ⟨w₀, hconnect, hearly, -⟩ := stop_reaches_chain c hc {} 0 r trivial rfl rfl rfl
  obtain ⟨w₁, w₂, l, hrequest, hhead, hstart, hquiet⟩ := hearly [] [] (by simp) (by simp)
  obtain rfl : a = l := by simpa [c, head] using hhead
  exact ⟨w₀, w₁, w₂, hconnect, hrequest, hstart, hquiet⟩

end Chain

end Handoff
