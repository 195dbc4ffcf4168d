import Handoff.Proofs.Queue.Forest
import Handoff.Proofs.Queue.Waiting

/-!
# Draining the queue

Whatever a machine does, tasks are taken off the queue in the order in which they came into it
(`Config.Serves.exists_queue_append`). If tasks unfold into a forest (`World.Unfolds`), a call that
drains the queue comes to an end. It runs the forest in breadth-first order, up to the first errand
that raises a payload, and what is left in the queue goes on in that order (`World.Drains`). A host
that drains the queue again after each payload so runs each errand once (`World.Empties`).
-/

namespace Handoff

open Machine

namespace Config

/-- Any number of moves leads from a configuration to another, and on the way the tasks listed are
taken off the queue, in order. -/
inductive Serves : Config → List Task → Config → Prop where
  | refl (c : Config) : Serves c [] c
  | step {c c' c'' : Config} {ts : List Task} (h : c.Moves c') (h' : Serves c' ts c'') :
      Serves c (c.taken ++ ts) c''

variable {c c' c'' : Config} {ts ts' : List Task}

lemma Serves.trans (h : c.Serves ts c') (h' : c'.Serves ts' c'') : c.Serves (ts ++ ts') c'' := by
  induction h with
  | refl => exact h'
  | step h _ ih =>
    rw [List.append_assoc]
    exact .step h (ih h')

/-- A move that takes nothing off the queue. -/
lemma Serves.quiet {d : Config} (h : c.next = some d) (ht : c.taken = []) (h' : d.Serves ts c') :
    c.Serves ts c' := by
  have := Serves.step h h'
  rwa [ht] at this

/-- First come, first served: the tasks that wait, and after them those that are scheduled on the
way, are those that are taken, and after them those that wait in the end. -/
theorem Serves.exists_queue_append (h : c.Serves ts c') :
    ∃ scheduled, c.world.queue ++ scheduled = ts ++ c'.world.queue := by
  induction h with
  | refl => exact ⟨[], List.append_nil _⟩
  | @step c d c'' ts hm _ ih =>
    obtain ⟨new, hnew⟩ := hm.forwards.queue
    obtain ⟨later, hlater⟩ := ih
    refine ⟨new ++ later, ?_⟩
    calc c.world.queue ++ (new ++ later)
        = c.taken ++ (d.world.queue ++ later) := by
          rw [← List.append_assoc, hnew, List.append_assoc]
      _ = (c.taken ++ ts) ++ c''.world.queue := by rw [hlater, List.append_assoc]

end Config

open Errand (allOf breadthFirst breadthFirst_cons breadthFirst_perm)

namespace World

/-- The tasks in the queue unfold into a forest: whatever calls the first of them when its turn
comes, it takes no other task, schedules what the forest says and raises what that says, and the
tasks that wait then unfold likewise. -/
inductive Unfolds : World → List Errand → Prop where
  | nil {w : World} (hq : w.queue = []) : Unfolds w []
  | cons {w w' : World} {e : Errand} {es : List Errand} (hq : w.queue = (e :: es).map Errand.task)
      (hrun : ∀ K, Config.Serves ⟨{ w with queue := es.map Errand.task }, .task e.task, K⟩ []
        (finishOr w' e.raised K))
      (h : Unfolds w' (es ++ e.spawned)) : Unfolds w (e :: es)

/-- One call drains the queue of a forest, but for what a payload leaves. -/
structure Drains (w : World) (es served left : List Errand) (raised : Option Payload)
    (w' : World) : Prop where
  /-- The call takes these tasks off the queue, and returns or raises. -/
  serves (K : List Frame) : Config.Serves ⟨w, .call .drain, K⟩ (served.map Errand.task)
    (finishOr w' raised K)
  /-- What was there first, and after it what was scheduled on the way, was run first or is left, in
  this order. -/
  order : es ++ served.flatMap Errand.spawned = served ++ left
  breadthFirst_eq : breadthFirst es = served ++ breadthFirst left
  /-- What the call raises, the last errand that was run has raised. -/
  raised_eq : served.filterMap Errand.raised = raised.toList
  stops {e : Errand} (he : e ∈ served.dropLast) : e.raised = none
  /-- It does not return before the queue is empty. -/
  left_eq (h : raised = none) : left = []
  queue_eq : w'.queue = left.map Errand.task
  unfolds : w'.Unfolds left

/-- A host drains the queue, again after each payload that comes out of it, until a call returns.
What each call has run is listed. -/
inductive Empties : World → List Errand → List (List Errand) → World → Prop where
  | last {w w' : World} {es served : List Errand} (h : w.Drains es served [] none w') :
      Empties w es [served] w'
  | again {w w' w'' : World} {es served left : List Errand} {p : Payload}
      {later : List (List Errand)} (h : w.Drains es served left (some p) w')
      (h' : Empties w' left later w'') : Empties w es (served :: later) w''

variable {w w' : World} {es served left : List Errand} {raised : Option Payload}
  {calls : List (List Errand)}

lemma Unfolds.queue_eq (h : w.Unfolds es) : w.queue = es.map Errand.task := by
  cases h with
  | nil hq => exact hq
  | cons hq => exact hq

/-! ### One call -/

lemma drains_nil (hq : w.queue = []) : w.Drains [] [] [] none w where
  serves K := by
    refine .quiet (d := finish w K) ?_ ?_ (.refl _)
    · simp [Config.next, Machine.call, hq]
    · simp [Config.taken, hq]
  order := rfl
  breadthFirst_eq := rfl
  raised_eq := rfl
  stops he := nomatch he
  left_eq _ := rfl
  queue_eq := hq
  unfolds := .nil hq

/-- The first task is taken off the queue and run. -/
lemma serves_first {e : Errand} (hq : w.queue = (e :: es).map Errand.task)
    (hrun : ∀ K, Config.Serves ⟨{ w with queue := es.map Errand.task }, .task e.task, K⟩ []
      (finishOr w' e.raised K)) (K : List Frame) :
    Config.Serves ⟨w, .call .drain, K⟩ [e.task] (finishOr w' e.raised (.draining :: K)) := by
  have htaken : Config.taken ⟨w, .call .drain, K⟩ = [e.task] := by
    simp [Config.taken, hq]
  have hnext : Config.next ⟨w, .call .drain, K⟩ =
      some ⟨{ w with queue := es.map Errand.task }, .task e.task, .draining :: K⟩ := by
    simp [Config.next, Machine.call, hq]
  have hserves := Config.Serves.step hnext (hrun (.draining :: K))
  rwa [htaken] at hserves

/-- The first errand raises a payload, and the call lets it through. -/
lemma drains_raised {e : Errand} {p : Payload} (hp : e.raised = some p)
    (hq : w.queue = (e :: es).map Errand.task)
    (hrun : ∀ K, Config.Serves ⟨{ w with queue := es.map Errand.task }, .task e.task, K⟩ []
      (finishOr w' e.raised K)) (h : w'.Unfolds (es ++ e.spawned)) :
    w.Drains (e :: es) [e] (es ++ e.spawned) (some p) w' where
  serves K := by
    have hfirst := serves_first hq hrun K
    rw [hp] at hfirst
    exact hfirst.trans (.quiet rfl rfl (.refl _))
  order := by simp
  breadthFirst_eq := breadthFirst_cons e es
  raised_eq := by simp [hp]
  stops he := nomatch he
  left_eq h := nomatch h
  queue_eq := h.queue_eq
  unfolds := h

/-- The first errand returns, and the call goes on with what waits then. -/
lemma Drains.cons {w'' : World} {e : Errand} (he : e.raised = none)
    (hq : w.queue = (e :: es).map Errand.task)
    (hrun : ∀ K, Config.Serves ⟨{ w with queue := es.map Errand.task }, .task e.task, K⟩ []
      (finishOr w' e.raised K)) (h : w'.Drains (es ++ e.spawned) served left raised w'') :
    w.Drains (e :: es) (e :: served) left raised w'' where
  serves K := by
    have hfirst := serves_first hq hrun K
    rw [he] at hfirst
    exact hfirst.trans (.quiet rfl rfl (h.serves K))
  order := by
    have horder := h.order
    rw [List.append_assoc] at horder
    rw [List.flatMap_cons, List.cons_append, horder, List.cons_append]
  breadthFirst_eq := by rw [breadthFirst_cons, h.breadthFirst_eq, List.cons_append]
  raised_eq := by rw [List.filterMap_cons_none he, h.raised_eq]
  stops := by
    intro e' he'
    cases served with
    | nil => exact nomatch he'
    | cons e₁ served =>
      rcases List.mem_cons.1 he' with rfl | he'
      · exact he
      · exact h.stops he'
  left_eq := h.left_eq
  queue_eq := h.queue_eq
  unfolds := h.unfolds

/-- A call that drains the queue comes to an end. -/
theorem Unfolds.exists_drains (h : w.Unfolds es) :
    ∃ served left raised w', w.Drains es served left raised w' := by
  induction h with
  | nil hq => exact ⟨[], [], none, _, drains_nil hq⟩
  | @cons w w' e es hq hrun h ih =>
    cases he : e.raised with
    | some p => exact ⟨[e], _, some p, w', drains_raised he hq hrun h⟩
    | none =>
      obtain ⟨served, left, raised, w'', hdrains⟩ := ih
      exact ⟨e :: served, left, raised, w'', hdrains.cons he hq hrun⟩

/-- Each errand is run in this call, or it is left. -/
lemma Drains.perm (h : w.Drains es served left raised w') :
    (allOf es).Perm (served ++ allOf left) := by
  have hperm := (breadthFirst_perm es).symm
  rw [h.breadthFirst_eq] at hperm
  exact hperm.trans ((breadthFirst_perm left).append_left served)

lemma Drains.served_ne {p : Payload} (h : w.Drains es served left (some p) w') :
    served ≠ [] := by
  rintro rfl
  exact nomatch h.raised_eq

/-- If no errand raises a payload, the call runs them all. -/
lemma Drains.of_none (h : w.Drains es served left raised w')
    (hes : ∀ e ∈ allOf es, e.raised = none) : w.Drains es (breadthFirst es) [] none w' := by
  have hraised : raised = none := by
    rw [← Option.toList_eq_nil_iff, ← h.raised_eq, List.filterMap_eq_nil_iff]
    intro e he
    exact hes e (h.perm.mem_iff.2 (List.mem_append_left _ he))
  subst hraised
  obtain rfl := h.left_eq rfl
  have hserved : breadthFirst es = served := by
    simpa using h.breadthFirst_eq
  rwa [hserved]

/-! ### Until the queue is empty -/

/-- A host that drains the queue again after each payload comes to an end. -/
theorem Unfolds.exists_empties (h : w.Unfolds es) : ∃ calls w', w.Empties es calls w' := by
  -- by induction on how many errands there are: a call that raises has run some
  induction hn : (allOf es).length using Nat.strongRecOn generalizing w es with
  | ind n ih =>
    obtain ⟨served, left, raised, w', hdrains⟩ := h.exists_drains
    cases raised with
    | none =>
      obtain rfl := hdrains.left_eq rfl
      exact ⟨[served], w', .last hdrains⟩
    | some p =>
      have hlt : (allOf left).length < n := by
        have hlen := hdrains.perm.length_eq
        have hpos := List.length_pos_iff.2 hdrains.served_ne
        rw [List.length_append] at hlen
        omega
      obtain ⟨calls, w'', hempties⟩ := ih _ hlt hdrains.unfolds rfl
      exact ⟨served :: calls, w'', .again hdrains hempties⟩

/-- All calls together run the forest in breadth-first order. -/
theorem Empties.flatten_eq (h : w.Empties es calls w') : calls.flatten = breadthFirst es := by
  induction h with
  | last h => simpa using h.breadthFirst_eq.symm
  | again h _ ih => rw [List.flatten_cons, ih, h.breadthFirst_eq]

lemma Empties.queue_eq (h : w.Empties es calls w') : w'.queue = [] := by
  induction h with
  | last h => exact h.queue_eq
  | again _ _ ih => exact ih

/-- There is one call for each errand that raises a payload, and one more. -/
lemma Empties.length_eq (h : w.Empties es calls w') :
    calls.length = ((breadthFirst es).filterMap Errand.raised).length + 1 := by
  induction h with
  | last h =>
    rw [h.breadthFirst_eq, Errand.breadthFirst_nil, List.append_nil, h.raised_eq]
    rfl
  | again h _ ih =>
    rw [h.breadthFirst_eq, List.filterMap_append, h.raised_eq, List.length_append, List.length_cons,
      ih, Option.toList_some, List.length_singleton, Nat.add_comm 1]

/-! ### Jobs -/

/-- A job schedules the jobs that it is made with, and raises its payload. -/
lemma exists_serves_job (w : World) (label : String) (spawned : List Job)
    (raised : Option Payload) :
    ∃ w', (∀ K, Config.Serves ⟨w, .task (.job (.mk label spawned raised)), K⟩ []
      (finishOr w' raised K)) ∧ w'.queue = w.queue ++ spawned.map Task.job :=
  ⟨_, fun _ => .quiet rfl rfl (.refl _), queue_foldl_schedule _ _⟩

/-- Jobs unfold in any world: what a job does depends on nothing else. -/
theorem unfolds_jobs {js : List Job} (hq : w.queue = js.map Task.job) :
    w.Unfolds (Job.errands js) := by
  induction hn : (allOf (Job.errands js)).length using Nat.strongRecOn generalizing w js with
  | ind n ih =>
    cases js with
    | nil =>
      rw [Job.errands]
      exact .nil hq
    | cons j js =>
      obtain ⟨label, spawned, raised⟩ := j
      obtain ⟨w', hserves, hq'⟩ :=
        exists_serves_job { w with queue := js.map Task.job } label spawned raised
      have hlt : (allOf (Job.errands (js ++ spawned))).length < n := by
        rw [← hn, Job.errands_append, Job.errands, Errand.allOf_append, Errand.allOf_cons,
          Job.errand, Errand.spawned]
        simp only [List.length_append, List.length_cons]
        omega
      have hunfolds := ih _ hlt (hq'.trans List.map_append.symm) rfl
      rw [Job.errands, Job.errand]
      rw [Job.errands_append] at hunfolds
      refine .cons ?_ ?_ hunfolds
      · rw [hq, List.map_cons, List.map_cons, Job.map_task_errands, Errand.task]
      · rw [Job.map_task_errands]
        exact hserves

/-- **The queue is fair.** Whatever a machine does, the tasks that it takes off the queue are those
that wait and then those that are scheduled on the way, in this order. Tasks that unfold into a
finite forest, as jobs do in any world, are run in breadth-first order by a call that drains the
queue. The call returns when none is left. If an errand raises a payload, then the call ends with
that: the errand is gone from the queue, and those that wait, with what this one has scheduled, wait
in the same order as before. A host that drains the queue again after each payload runs each errand
of the forest exactly once, and leaves nothing. -/
theorem queue_is_fair :
    (∀ (c : Config) (ts : List Task) (c' : Config), c.Serves ts c' →
      ∃ scheduled, c.world.queue ++ scheduled = ts ++ c'.world.queue) ∧
    (∀ (w : World) (es : List Errand), w.Unfolds es →
      (∃ served left raised w', w.Drains es served left raised w') ∧
      ((∀ e ∈ allOf es, e.raised = none) → ∃ w', w.Drains es (breadthFirst es) [] none w') ∧
      (∃ calls w', w.Empties es calls w' ∧ w'.queue = [] ∧ calls.flatten = breadthFirst es ∧
        calls.length = ((breadthFirst es).filterMap Errand.raised).length + 1) ∧
      (breadthFirst es).Perm (allOf es)) ∧
    (∀ (w : World) (js : List Job), w.queue = js.map Task.job → w.Unfolds (Job.errands js)) := by
  refine ⟨?_, ?_, ?_⟩
  · intro c ts c' h
    exact h.exists_queue_append
  · intro w es h
    obtain ⟨served, left, raised, w', hdrains⟩ := h.exists_drains
    obtain ⟨calls, w'', hempties⟩ := h.exists_empties
    refine ⟨⟨served, left, raised, w', hdrains⟩, ?_, ?_, breadthFirst_perm es⟩
    · intro hes
      exact ⟨w', hdrains.of_none hes⟩
    · exact ⟨calls, w'', hempties, hempties.queue_eq, hempties.flatten_eq, hempties.length_eq⟩
  · intro w js hq
    exact unfolds_jobs hq

/-- A leaf that puts its completion off, made from the value of another that does. -/
def twoLeaves : Sender :=
  .bind (.leaf { label := "head", completion := .value { n := 1 }, deferred := true })
    { call := fun env => { env } }
    fun _ => .leaf { label := "inner", completion := .done, deferred := true }

/-- The first leaf was started, and two jobs were scheduled, of which one schedules another and
raises a payload. -/
def mixed : World :=
  let r : Receiver := .recorder (.place 0) none
  let w := ((World.call {} 4 (.connect 0 twoLeaves r)).1.call 4 (.start 0)).1
  ((w.schedule (.job (.mk "a" [.mk "b" [] none] (some (.text "boom"))))).schedule
    (.job (.mk "c" [] none)))

/-- The errands that wait then: each leaf schedules its completion once it is started. -/
def mixedForest : List Errand :=
  let inner : Errand := .mk (.complete .done (.child .successor (.place 0) 0)) [] none
  .mk (.complete (.value { n := 1 }) (.child .predecessor (.place 0) 0)) [inner] none ::
    Job.errands [.mk "a" [.mk "b" [] none] (some (.text "boom")), .mk "c" [] none]

lemma unfolds_mixed : mixed.Unfolds mixedForest := by
  refine .cons rfl (fun K => .quiet rfl rfl (.quiet rfl rfl (.quiet rfl rfl (.quiet rfl rfl
    (.quiet rfl rfl (.quiet rfl rfl (.refl _))))))) ?_
  refine .cons rfl (fun K => .quiet rfl rfl (.refl _)) ?_
  refine .cons rfl (fun K => .quiet rfl rfl (.refl _)) ?_
  refine .cons rfl (fun K => .quiet rfl rfl (.quiet rfl rfl (.quiet rfl rfl (.refl _)))) ?_
  refine .cons rfl (fun K => .quiet rfl rfl (.refl _)) ?_
  exact .nil rfl

theorem queue_is_fair_mixed :
    mixed.Unfolds mixedForest ∧
    (∃ calls w', mixed.Empties mixedForest calls w' ∧ w'.queue = [] ∧ calls.length = 2 ∧
      calls.flatten.map Errand.task =
        [.complete (.value { n := 1 }) (.child .predecessor (.place 0) 0),
          .job (.mk "a" [.mk "b" [] none] (some (.text "boom"))), .job (.mk "c" [] none),
          .complete .done (.child .successor (.place 0) 0), .job (.mk "b" [] none)]) := by
  refine ⟨unfolds_mixed, ?_⟩
  obtain ⟨-, -, ⟨calls, w', hempties, hq, hflatten, hlen⟩, -⟩ :=
    queue_is_fair.2.1 mixed mixedForest unfolds_mixed
  have hforest : breadthFirst mixedForest = mixedForest ++
      [.mk (.complete .done (.child .successor (.place 0) 0)) [] none,
        .mk (.job (.mk "b" [] none)) [] none] := by
    simp [breadthFirst, mixedForest, Job.errands, Job.errand, Errand.spawned]
  rw [hforest] at hflatten hlen
  exact ⟨calls, w', hempties, hq, hlen, by rw [hflatten]; rfl⟩

end World

end Handoff
