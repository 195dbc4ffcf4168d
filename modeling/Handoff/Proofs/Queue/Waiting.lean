import Handoff.Proofs.Lifetime.Recall
import Handoff.Proofs.Panic.Thread

/-!
# What waits in the queue

Tasks are taken off the queue at its front, by the calls that run them, and put into it at its back.
`Config.Forwards` says so of a move, and also where each task that waits or is under way afterwards
comes from: it did before, it is what is left of a script, it is a job, or an operation has put it
off that was started just then. Every move of the machine is such: `Config.Moves.forwards`.
-/

namespace Handoff

open Machine

/-! ### Tasks under way -/

/-- The task that a control is about to carry out, or the rest of it. -/
def Control.underWay : Control → List Task
  | follow r steps => [.resume r steps]
  | task t => [t]
  | _ => []

/-- The rest of a task that a frame goes on with. -/
def Frame.underWay : Frame → List Task
  | script r rest => [.resume r rest]
  | attempt r rest => [.resume r rest]
  | _ => []

namespace Config

/-- The tasks that a machine is amid, innermost first. -/
def underWay (c : Config) : List Task :=
  c.control.underWay ++ c.stack.flatMap Frame.underWay

/-- The task that the next move takes off the queue, if it takes one. -/
def taken (c : Config) : List Task :=
  match c.control with
  | .call .tick => c.world.queue.take 1
  | .call .drain => c.world.queue.take 1
  | _ => []

/-- Where a task comes from that waits or is under way after a move. -/
inductive Stems (c : Config) : Task → Prop where
  | same {t : Task} (ht : t ∈ c.underWay ++ c.world.queue) : Stems c t
  | rest {r r' : Run} {steps steps' : List Instr} (ht : .resume r steps ∈ c.underWay)
      (hright : ∀ q, r'.right steps' = some q → r.right steps = some q) :
      Stems c (.resume r' steps')
  | job (j : Job) : Stems c (.job j)
  | leaf {s : Site} {h k : Nat} {l : Leaf} {r : Receiver} (hc : c.control = .start s h)
      (hl : (c.world.layers s)[h]? = some (.leaf k l (some r))) :
      Stems c (.complete l.completion r)
  | script {s : Site} {h k : Nat} {x : Script} {r : Receiver} {run : Run}
      (hc : c.control = .start s h)
      (hl : (c.world.layers s)[h]? = some (.script k x (some r))) (hr : run.receiver = some r) :
      Stems c (.resume run x.start)

/-- Tasks leave the queue at its front and come into it at its back. -/
structure Forwards (c c' : Config) : Prop where
  queue : ∃ new, c.world.queue ++ new = c.taken ++ c'.world.queue
  stems {t : Task} (ht : t ∈ c'.underWay ++ c'.world.queue) : c.Stems t

end Config

namespace Machine

open Config (Forwards Stems)

variable {w w' : World} {s : Site} {h : Nat} {r : Receiver} {K : List Frame} {control : Control}
  {c : Config} {ts : List Task}

/-- A move that takes nothing off the queue. -/
lemma forwards_of_new (new : List Task) (ht : Config.taken ⟨w, control, K⟩ = [])
    (hq : c.world.queue = w.queue ++ new)
    (hnew : ∀ t ∈ new, Stems ⟨w, control, K⟩ t) (hc : ∀ t ∈ c.underWay, Stems ⟨w, control, K⟩ t) :
    Forwards ⟨w, control, K⟩ c := by
  constructor
  · exact ⟨new, by rw [ht, hq, List.nil_append]⟩
  · intro t hmem
    rw [hq, List.mem_append, List.mem_append] at hmem
    rcases hmem with hmem | hmem | hmem
    · exact hc t hmem
    · exact .same (List.mem_append_right _ hmem)
    · exact hnew t hmem

lemma stems_of_stack {t : Task} (ht : t ∈ K.flatMap Frame.underWay) :
    Stems ⟨w, control, K⟩ t :=
  .same (List.mem_append_left _ (List.mem_append_right _ ht))

/-- So many tasks wait, and all that is under way is what the frames go on with. -/
structure Waits (ts : List Task) (K : List Frame) (c : Config) : Prop where
  queue_eq : c.world.queue = ts
  underWay_eq : c.underWay = K.flatMap Frame.underWay

lemma Waits.forwards (h : Waits w.queue K c) (ht : Config.taken ⟨w, control, K⟩ = []) :
    Forwards ⟨w, control, K⟩ c := by
  refine forwards_of_new [] ht (by simp [h.queue_eq]) (by simp) ?_
  rw [h.underWay_eq]
  exact fun t => stems_of_stack

lemma waits_of_eq {c : Config} (hq : c.world.queue = ts) (hc : c.control.underWay = [])
    (hK : c.stack.flatMap Frame.underWay = K.flatMap Frame.underWay) : Waits ts K c := by
  refine ⟨hq, ?_⟩
  rw [Config.underWay, hc, hK, List.nil_append]

lemma waits_finishOr (m : Option Payload) : Waits w.queue K (finishOr w m K) := by
  cases m <;> exact waits_of_eq rfl rfl rfl

/-! ### Connecting, completing and building -/

lemma waits_connectLeaf (make : Nat → Layer) (after : Option Payload) :
    Waits w.queue K (connectLeaf w s h make after K) := by
  rw [← World.queue_fill make, connectLeaf]
  generalize w.fill s h make = y
  obtain ⟨v, taken⟩ := y
  cases taken
  · exact waits_of_eq rfl rfl rfl
  · exact waits_finishOr after

lemma waits_connect (x : Sender) : Waits w.queue K (connect w x r s h K) := by
  cases x with
  | ready c => exact waits_connectLeaf _ none
  | leaf l => exact waits_connectLeaf (w := w.note s _) _ none
  | exploding built =>
    cases built with
    | none => exact waits_of_eq rfl rfl rfl
    | some label => exact waits_connectLeaf (w := w.note s _) _ _
  | script y =>
    rw [connect, connectScript]
    cases y.connecting with
    | fill => exact waits_connectLeaf (w := w.note s _) _ none
    | half m => exact waits_connectLeaf (w := w.note s _) _ _
    | raise m => exact waits_of_eq rfl rfl rfl
    | deliver d m => exact waits_of_eq rfl rfl rfl
  | either which y =>
    rw [← World.queue_fill (.either · which), connect]
    generalize w.fill s h _ = z
    obtain ⟨v, taken⟩ := z
    cases taken <;> exact waits_of_eq rfl rfl rfl
  | bind y f next =>
    have hq : w.queue = ((w.note s [.logged (w.nextSerial s) .connecting]).fill s h
        (newBinding f next r)).1.queue := by simp
    rw [hq, connect]
    generalize World.fill _ s h _ = z
    obtain ⟨v, taken⟩ := z
    cases taken <;> exact waits_of_eq rfl rfl rfl

lemma waits_pass (b : Binding) (v : Completion Value Failure) :
    Waits w.queue K (pass w s h b v K) := by
  rw [pass]
  cases b.receiver <;> exact waits_of_eq rfl rfl rfl

lemma waits_receive (role : Role) (b : Binding) (v : Completion Value Failure) :
    Waits w.queue K (receive w role s h b v K) := by
  cases role with
  | successor => exact waits_pass b _
  | predecessor =>
    cases v with
    | error e => exact waits_pass (w := w.note s _) b _
    | done => exact waits_pass (w := w.note s _) b _
    | value v =>
      refine waits_of_eq rfl ?_ rfl
      rw [receive, accept]
      cases (World.dropAbove _ s (h + 1) false).2 <;> rfl

lemma waits_complete (v : Completion Value Failure) : Waits w.queue K (complete w r v K) := by
  cases r with
  | child role s h =>
    rw [complete]
    cases w.binding? s h with
    | none => exact waits_of_eq rfl rfl rfl
    | some b =>
      simp only
      split_ifs
      · exact waits_receive role b v
      · exact waits_of_eq rfl rfl rfl
  | observer home o => exact waits_of_eq rfl rfl rfl
  | recorder home k => exact waits_of_eq rfl rfl rfl
  | waiter id =>
    rw [complete, completeWaiter]
    split_ifs <;> exact waits_of_eq rfl rfl rfl

lemma waits_build : Waits w.queue K (build w s h K) := by
  rw [build]
  cases w.binding? s h with
  | none => exact waits_of_eq rfl rfl rfl
  | some b =>
    cases hf : b.factory with
    | none =>
      simp only [hf]
      exact waits_of_eq rfl rfl rfl
    | some f =>
      obtain ⟨f, next⟩ := f
      simp only [hf]
      cases (f.call (b.stored ++ w.scope s h)).raised <;> exact waits_of_eq rfl rfl rfl

lemma waits_react (home : Site) (label : String) (actions : List Action) :
    Waits w.queue K (react w home label actions K) := by
  cases actions with
  | nil => exact waits_of_eq rfl rfl rfl
  | cons a rest => cases a <;> exact waits_of_eq rfl rfl rfl

/-! ### Starting -/

lemma forwards_startLeaf {k : Nat} {l : Leaf}
    (hl : (w.layers s)[h]? = some (.leaf k l (some r))) (hq : w'.queue = w.queue) :
    Forwards ⟨w, .start s h, K⟩ (startLeaf w' l r s K) := by
  simp only [startLeaf]
  generalize hv : w'.note s _ = v
  have hq : v.queue = w.queue := by rw [← hv, ← hq, World.queue_note]
  split_ifs
  · exact Waits.forwards (waits_of_eq hq rfl rfl) rfl
  · refine forwards_of_new [.complete l.completion r] rfl (by simp [finish, hq]) ?_ ?_
    · intro t ht
      obtain rfl := List.mem_singleton.1 ht
      exact .leaf rfl hl
    · exact fun t => stems_of_stack
  · exact Waits.forwards (waits_of_eq hq rfl rfl) rfl

lemma forwards_start : Forwards ⟨w, .start s h, K⟩ (start w s h K) := by
  have hwaits {c : Config} (h' : Waits w.queue K c) : Forwards ⟨w, .start s h, K⟩ c :=
    h'.forwards rfl
  rw [start]
  cases hl : (w.layers s)[h]? with
  | none => exact hwaits (waits_of_eq rfl rfl rfl)
  | some l =>
    cases l with
    | ready k held => cases held <;> exact hwaits (waits_of_eq rfl rfl rfl)
    | leaf k l held =>
      cases held with
      | none => exact hwaits (waits_of_eq rfl rfl rfl)
      | some r => exact forwards_startLeaf hl rfl
    | script k x held =>
      cases held with
      | none => exact hwaits (waits_of_eq rfl rfl rfl)
      | some r =>
        refine forwards_of_new [] rfl (by simp [World.setLayer]) (by simp) ?_
        intro t ht
        rcases List.mem_cons.1 ht with rfl | ht
        · exact .script rfl hl rfl
        · exact stems_of_stack ht
    | either k which => exact hwaits (waits_of_eq rfl rfl rfl)
    | bind b =>
      simp only
      split_ifs <;> exact hwaits (waits_of_eq rfl rfl rfl)

/-! ### Following a script -/

lemma receiver_giveAway (run : Run) (q : Receiver) (h : (giveAway run).receiver = some q) :
    run.receiver = some q :=
  (Option.filter_eq_some_iff.1 h).1

/-- A task that is left of a run completes nothing that the run would not. -/
inductive Left (run : Run) (steps : List Instr) : Task → Prop where
  | mk {run' : Run} {steps' : List Instr}
      (hr : ∀ q, run'.receiver = some q → run.receiver = some q)
      (hs : Instr.spendsAll steps' ≤ Instr.spendsAll steps) : Left run steps (.resume run' steps')

lemma Left.stems {run : Run} {steps : List Instr} {t : Task} (h : Left run steps t) :
    Stems ⟨w, .follow run steps, K⟩ t := by
  obtain ⟨hr, hs⟩ := h
  have hmem : Task.resume run steps ∈ Config.underWay ⟨w, .follow run steps, K⟩ :=
    List.mem_cons_self
  refine .rest hmem ?_
  intro q hq
  unfold Run.right at hq ⊢
  split_ifs at hq with hzero
  rw [if_neg (by omega)]
  exact hr q hq

/-- The rest of a script is followed, by a control or by a frame. -/
lemma forwards_left {run : Run} {steps : List Instr} (left new : List Task)
    (hq : c.world.queue = w.queue ++ new) (hc : c.underWay = left ++ K.flatMap Frame.underWay)
    (hleft : ∀ t ∈ left ++ new, Left run steps t) : Forwards ⟨w, .follow run steps, K⟩ c := by
  refine forwards_of_new new rfl hq ?_ ?_
  · intro t ht
    exact (hleft t (List.mem_append_right _ ht)).stems
  · intro t ht
    rw [hc, List.mem_append] at ht
    rcases ht with ht | ht
    · exact (hleft t (List.mem_append_left _ ht)).stems
    · exact stems_of_stack ht

lemma forwards_deliver {run : Run} {steps rest : List Instr} (frame : Run → Frame)
    (hf : ∀ run, (frame run).underWay = [.resume run rest]) (hq : w'.queue = w.queue)
    (hs : Instr.spendsAll rest ≤ Instr.spendsAll steps) (d : Delivery) :
    Forwards ⟨w, .follow run steps, K⟩ (deliver w' run d frame K) := by
  rw [deliver]
  cases run.receiver with
  | none =>
    refine forwards_left [.resume run rest] [] ?_ ?_ ?_
    · simp [fault, hq]
    · simp [fault, Config.underWay, Control.underWay, hf]
    · simpa using Left.mk (fun q => id) hs
  | some r =>
    refine forwards_left [.resume (giveAway run) rest] [] ?_ ?_ ?_
    · simp [hq]
    · simp [Config.underWay, Control.underWay, hf]
    · simpa using Left.mk (receiver_giveAway run) hs

lemma forwards_instruct {run : Run} {i : Instr} {rest : List Instr} :
    Forwards ⟨w, .follow run (i :: rest), K⟩ (instruct w run i rest K) := by
  have hle (hi : ∀ p, i ≠ .raise p) : Instr.spendsAll rest ≤ Instr.spendsAll (i :: rest) :=
    Instr.le_spends hi _
  have hfollow (hi : ∀ p, i ≠ .raise p) {v : World} (hq : v.queue = w.queue) :
      Forwards ⟨w, .follow run (i :: rest), K⟩ ⟨v, .follow run rest, K⟩ := by
    refine forwards_left [.resume run rest] [] (by simp [hq]) rfl ?_
    simpa using Left.mk (fun q => id) (hle hi)
  cases i with
  | complete d =>
    exact forwards_deliver (.script · rest) (fun _ => rfl) rfl (hle (by simp)) d
  | attempt d =>
    exact forwards_deliver (.attempt · rest) (fun _ => rfl) rfl (hle (by simp)) d
  | stopDone =>
    simp only [instruct]
    split_ifs
    · apply forwards_deliver (.script · []) (fun _ => rfl) (World.queue_note)
      exact Nat.zero_le _
    · exact hfollow (by simp) rfl
  | request k => exact hfollow (by simp) (World.queue_request k)
  | raise p => exact Waits.forwards (waits_of_eq rfl rfl rfl) rfl
  | forget =>
    refine forwards_left [.resume { run with receiver := none } rest] []
      (by simp [instruct, dropReceiver]) rfl ?_
    simpa using Left.mk (by simp) (hle (by simp))
  | defer =>
    refine forwards_left [] [.resume run rest] rfl rfl ?_
    simpa using Left.mk (fun q => id) (hle (by simp))
  | later steps =>
    refine forwards_left [.resume (giveAway run) rest] [.resume { run with id := w.runs } steps]
      rfl rfl ?_
    intro t ht
    rcases List.mem_cons.1 ht with rfl | ht
    · exact .mk (receiver_giveAway run) (Nat.le_add_left _ _)
    · obtain rfl := List.mem_singleton.1 ht
      exact .mk (fun q => id) (Nat.le_add_right _ _)
  | _ => exact hfollow (by simp) rfl

lemma forwards_follow {run : Run} {steps : List Instr} :
    Forwards ⟨w, .follow run steps, K⟩ (follow w run steps K) := by
  cases steps with
  | nil => exact Waits.forwards (waits_of_eq rfl rfl rfl) rfl
  | cons i rest =>
    unfold follow
    split_ifs
    · exact forwards_instruct
    · have hskip (hi : ∀ p, i ≠ .raise p) :
          Forwards ⟨w, .follow run (i :: rest), K⟩ ⟨w, .follow run rest, K⟩ := by
        refine forwards_left [.resume run rest] [] (by simp) rfl ?_
        simpa using Left.mk (fun q => id) (Instr.le_spends hi _)
      cases i with
      | log text => exact forwards_instruct
      | raise p => exact forwards_instruct
      | _ => exact hskip (by simp)

/-! ### Calls and tasks -/

lemma forwards_runTask {t : Task} : Forwards ⟨w, .task t, K⟩ (runTask w t K) := by
  cases t with
  | complete v r => exact Waits.forwards (waits_of_eq rfl rfl rfl) rfl
  | resume run steps =>
    simp only [runTask]
    split_ifs
    · refine forwards_of_new [] rfl (by simp) (by simp) ?_
      exact fun t ht => .same (List.mem_append_left _ ht)
    · exact Waits.forwards (waits_of_eq rfl rfl rfl) rfl
  | job j =>
    obtain ⟨label, spawned, raised⟩ := j
    refine forwards_of_new (spawned.map .job) rfl ?_ ?_ ?_
    · cases raised <;> exact queue_foldl_schedule _ _
    · intro t ht
      obtain ⟨j, -, rfl⟩ := List.mem_map.1 ht
      exact .job j
    · cases raised <;> exact fun t => stems_of_stack

lemma waits_connectPlace (x : Sender) : Waits w.queue K (connectPlace w s x r K) := by
  rw [connectPlace]
  cases w.layers s with
  | nil => exact waits_of_eq rfl rfl rfl
  | cons l rest =>
    simp only
    split_ifs <;> exact waits_of_eq rfl rfl rfl

lemma waits_withPlace (h : Waits w.queue K c) : Waits w.queue K (withPlace w s c K) := by
  rw [withPlace]
  cases w.places.get? s with
  | none => exact waits_of_eq rfl rfl rfl
  | some p => exact h

/-- The first task of the queue is taken. -/
lemma forwards_unqueue {t : Task} {rest : List Task} {f : Frame}
    (ht : Config.taken ⟨w, control, K⟩ = w.queue.take 1) (hq : w.queue = t :: rest)
    (hf : f.underWay = []) :
    Forwards ⟨w, control, K⟩ ⟨{ w with queue := rest }, .task t, f :: K⟩ := by
  constructor
  · exact ⟨[], by simp [ht, hq]⟩
  · intro t' hmem
    refine .same ?_
    simp only [Config.underWay, Control.underWay, List.flatMap_cons, hf, List.mem_append,
      hq, List.mem_cons, List.nil_append] at hmem ⊢
    tauto

lemma forwards_call {x : Call} : Forwards ⟨w, .call x, K⟩ (call w x K) := by
  cases x with
  | connect p y r => exact (waits_connectPlace y).forwards rfl
  | start p =>
    refine Waits.forwards (waits_withPlace ?_) rfl
    exact waits_of_eq rfl rfl rfl
  | clear p =>
    refine Waits.forwards (waits_withPlace ?_) rfl
    exact waits_finishOr (w := (w.dropAbove (.place p) 0 false).1) _
  | tick =>
    cases hq : w.queue with
    | nil =>
      rw [call, hq]
      refine Waits.forwards ?_ (by simp [Config.taken, hq])
      exact waits_of_eq rfl rfl rfl
    | cons t rest =>
      rw [call, hq]
      exact forwards_unqueue rfl hq rfl
  | drain =>
    cases hq : w.queue with
    | nil =>
      rw [call, hq]
      refine Waits.forwards ?_ (by simp [Config.taken, hq])
      exact waits_of_eq rfl rfl rfl
    | cons t rest =>
      rw [call, hq]
      exact forwards_unqueue rfl hq rfl
  | request k => exact Waits.forwards (waits_of_eq (World.queue_request k) rfl rfl) rfl
  | schedule j =>
    refine forwards_of_new [.job j] rfl rfl ?_ (fun t => stems_of_stack)
    intro t ht
    obtain rfl := List.mem_singleton.1 ht
    exact .job j
  | _ => exact Waits.forwards (waits_of_eq rfl rfl rfl) rfl

/-! ### Returning and unwinding -/

lemma waits_unblock : Waits w.queue K (unblock w K) := by
  rw [unblock]
  cases w.given with
  | none => exact waits_of_eq rfl rfl rfl
  | some v =>
    simp only [release]
    rw [← World.queue_dropAbove (s := .wait) (h := 0) false]
    generalize w.dropAbove .wait 0 false = d
    obtain ⟨v, raised⟩ := d
    cases raised <;> exact waits_of_eq rfl rfl rfl

lemma waits_abandon : Waits w.queue K (abandon w K) := by
  rw [abandon]
  cases w.given with
  | none => exact waits_finishOr (w := ((w.note _ _).dropAbove .wait 0 false).1) _
  | some v => exact waits_of_eq rfl rfl rfl

/-- The innermost frame is gone, and what it goes on with is under way. -/
lemma forwards_pop {f : Frame} (ht : Config.taken ⟨w, control, f :: K⟩ = [])
    (hq : c.world.queue = w.queue) (hc : c.underWay ⊆ (f :: K).flatMap Frame.underWay) :
    Forwards ⟨w, control, f :: K⟩ c := by
  refine forwards_of_new [] ht (by simp [hq]) (by simp) ?_
  exact fun t hmem => stems_of_stack (hc hmem)

lemma Waits.pop {f : Frame} (h : Waits w.queue K c) (ht : Config.taken ⟨w, control, f :: K⟩ = []) :
    Forwards ⟨w, control, f :: K⟩ c := by
  refine forwards_pop ht h.queue_eq ?_
  rw [h.underWay_eq, List.flatMap_cons]
  exact List.subset_append_right _ _

lemma forwards_resume {a : Reply} {f : Frame} :
    Forwards ⟨w, .done a, f :: K⟩ (resume w a f K) := by
  cases f with
  | script run rest => exact forwards_pop rfl rfl (List.Subset.refl _)
  | attempt run rest => exact forwards_pop rfl rfl (List.Subset.refl _)
  | handoff s h =>
    rw [resume]
    cases w.binding? s h <;> exact Waits.pop (waits_of_eq rfl rfl rfl) rfl
  | thenRaise p => exact (waits_finishOr p).pop rfl
  | waitDrained => exact waits_abandon.pop rfl
  | waitOver => exact waits_unblock.pop rfl
  | _ => exact Waits.pop (waits_of_eq rfl rfl rfl) rfl

lemma forwards_unwind {m : Payload} {f : Frame} :
    Forwards ⟨w, .raised m, f :: K⟩ (unwind w m f K) := by
  cases f with
  | attempt run rest => exact forwards_pop rfl rfl (List.Subset.refl _)
  | handoff s h =>
    rw [unwind]
    cases w.binding? s h with
    | none => exact Waits.pop (waits_of_eq rfl rfl rfl) rfl
    | some b =>
      refine Waits.pop ?_ rfl
      exact waits_pass (w := w.note s _) b _
  | _ => exact Waits.pop (waits_of_eq rfl rfl rfl) rfl

end Machine

/-! ### Every move -/

/-- Every move takes tasks off the front of the queue and puts them into it at the back, and adds
none whose origin is not told. -/
theorem Config.Moves.forwards {c c' : Config} (hm : c.Moves c') : c.Forwards c' := by
  obtain ⟨w, control, K⟩ := c
  have hm : Config.next ⟨w, control, K⟩ = some c' := hm
  cases control with
  | done a =>
    cases K with
    | nil => simp [next] at hm
    | cons f K =>
      obtain rfl := Option.some.inj hm
      exact Machine.forwards_resume
  | raised m =>
    cases K with
    | nil => simp [next] at hm
    | cons f K =>
      obtain rfl := Option.some.inj hm
      exact Machine.forwards_unwind
  | connect x r s h =>
    obtain rfl := Option.some.inj hm
    exact (Machine.waits_connect x).forwards rfl
  | start s h =>
    obtain rfl := Option.some.inj hm
    exact Machine.forwards_start
  | complete r v =>
    obtain rfl := Option.some.inj hm
    exact (Machine.waits_complete v).forwards rfl
  | build s h =>
    obtain rfl := Option.some.inj hm
    exact Machine.waits_build.forwards rfl
  | react home label actions =>
    obtain rfl := Option.some.inj hm
    exact (Machine.waits_react home label actions).forwards rfl
  | follow run steps =>
    obtain rfl := Option.some.inj hm
    exact Machine.forwards_follow
  | call x =>
    obtain rfl := Option.some.inj hm
    exact Machine.forwards_call
  | task t =>
    obtain rfl := Option.some.inj hm
    exact Machine.forwards_runTask

end Handoff
