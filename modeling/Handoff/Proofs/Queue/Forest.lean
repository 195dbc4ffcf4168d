import Handoff.World
import Mathlib.Data.List.Basic
import Mathlib.Tactic.Common

/-!
# Forests of tasks

A task may schedule others while it runs, and these may again. An `Errand` is a task with all that
comes of it in this way, and `Errand.breadthFirst` lists those of a forest level by level. It lists
each exactly once (`Errand.breadthFirst_perm`), and it is the order of a queue that each errand
leaves at the front and those that it schedules enter at the back (`Errand.breadthFirst_cons`).
-/

namespace Handoff

/-- A task with what it schedules while it runs, in order, and the payload that it raises at last,
if it does. -/
inductive Errand where
  | mk (task : Task) (spawned : List Errand) (raised : Option Payload)

namespace Errand

/-- What is run. -/
def task : Errand → Task
  | mk t _ _ => t

/-- What it schedules. -/
def spawned : Errand → List Errand
  | mk _ es _ => es

/-- What it raises. -/
def raised : Errand → Option Payload
  | mk _ _ m => m

mutual

/-- An errand with all that comes of it. -/
def all : Errand → List Errand
  | mk t es m => mk t es m :: allOf es

/-- All errands of a forest. -/
def allOf : List Errand → List Errand
  | [] => []
  | e :: es => e.all ++ allOf es

end

lemma all_eq (e : Errand) : e.all = e :: allOf e.spawned := by
  cases e with
  | mk t es m => rw [all, spawned]

@[simp] lemma allOf_nil : allOf [] = [] := by
  rw [allOf]

lemma allOf_cons (e : Errand) (es : List Errand) :
    allOf (e :: es) = e :: (allOf e.spawned ++ allOf es) := by
  rw [allOf, all_eq, List.cons_append]

@[simp] lemma allOf_append (es fs : List Errand) : allOf (es ++ fs) = allOf es ++ allOf fs := by
  induction es with
  | nil => simp
  | cons e es ih => simp [allOf_cons, ih]

/-- The errands of a forest are those of the first level and those that come of them. -/
lemma allOf_perm (es : List Errand) : (allOf es).Perm (es ++ allOf (es.flatMap spawned)) := by
  induction es with
  | nil => simp
  | cons e es ih =>
    rw [allOf_cons, List.flatMap_cons, allOf_append, List.cons_append]
    refine .cons e ?_
    exact (ih.append_left _).trans (List.perm_append_comm_assoc _ _ _)

lemma length_allOf (es : List Errand) :
    (allOf es).length = es.length + (allOf (es.flatMap spawned)).length := by
  rw [(allOf_perm es).length_eq, List.length_append]

/-- The errands of a forest level by level: first those given, in order, then those that they
schedule, and so on. -/
def breadthFirst : List Errand → List Errand
  | [] => []
  | e :: es => (e :: es) ++ breadthFirst ((e :: es).flatMap spawned)
termination_by es => (allOf es).length
decreasing_by
  rw [length_allOf (e :: es), List.length_cons]
  omega

@[simp] lemma breadthFirst_nil : breadthFirst [] = [] := by
  rw [breadthFirst]

lemma breadthFirst_eq (es : List Errand) :
    breadthFirst es = es ++ breadthFirst (es.flatMap spawned) := by
  cases es with
  | nil => simp
  | cons e es => rw [breadthFirst]

/-- Each errand of a forest is listed exactly once. -/
theorem breadthFirst_perm (es : List Errand) : (breadthFirst es).Perm (allOf es) := by
  induction es using breadthFirst.induct with
  | case1 => simp
  | case2 e es ih =>
    rw [breadthFirst]
    exact (ih.append_left _).trans (allOf_perm (e :: es)).symm

/-- The first errands of a level may be left out if those that they schedule come last. -/
theorem breadthFirst_append (es fs : List Errand) :
    breadthFirst (es ++ fs) = es ++ breadthFirst (fs ++ es.flatMap spawned) := by
  -- by induction on how many errands there are: the rest of the level is in the same position
  induction hn : (allOf (es ++ fs)).length using Nat.strongRecOn generalizing es fs with
  | ind n ih =>
    cases es with
    | nil => simp
    | cons e es =>
      set level := e :: es with hlevel
      have hlt : (allOf (fs ++ level.flatMap spawned)).length < n := by
        have hlen := length_allOf level
        simp only [hlevel, List.length_cons, allOf_append, List.length_append] at hlen hn ⊢
        omega
      calc breadthFirst (level ++ fs)
          = level ++ fs ++ breadthFirst ((level ++ fs).flatMap spawned) := breadthFirst_eq _
        _ = level ++ (fs ++ breadthFirst (level.flatMap spawned ++ fs.flatMap spawned)) := by
            rw [List.flatMap_append, List.append_assoc]
        _ = level ++ breadthFirst (fs ++ level.flatMap spawned) := by rw [← ih _ hlt _ _ rfl]

/-- An errand leaves a queue at the front, and those that it schedules enter at the back. -/
theorem breadthFirst_cons (e : Errand) (es : List Errand) :
    breadthFirst (e :: es) = e :: breadthFirst (es ++ e.spawned) := by
  simpa using breadthFirst_append [e] es

end Errand

/-! ### Jobs -/

mutual

/-- What comes of a job. -/
def Job.errand : Job → Errand
  | .mk label spawned raised => .mk (.job (.mk label spawned raised)) (Job.errands spawned) raised

/-- What comes of jobs. -/
def Job.errands : List Job → List Errand
  | [] => []
  | j :: js => j.errand :: Job.errands js

end

lemma Job.errands_eq (js : List Job) : Job.errands js = js.map Job.errand := by
  induction js with
  | nil => rw [Job.errands, List.map_nil]
  | cons j js ih => rw [Job.errands, ih, List.map_cons]

lemma Job.errands_append (js ks : List Job) :
    Job.errands (js ++ ks) = Job.errands js ++ Job.errands ks := by
  simp [Job.errands_eq]

lemma Job.task_errand (j : Job) : j.errand.task = .job j := by
  cases j with
  | mk label spawned raised => rw [Job.errand, Errand.task]

@[simp] lemma Job.map_task_errands (js : List Job) :
    (Job.errands js).map Errand.task = js.map Task.job := by
  simp [Job.errands_eq, Job.task_errand]

end Handoff
