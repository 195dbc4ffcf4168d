import Handoff.Proofs.Lifetime.Destruction

/-!
# What scripts recall

A run of a script recalls the number of the operation that it belongs to, also when that is gone.
Runs wait in the queue, on the stack and in what is done next; wherever one comes from, its number
was given to an operation before: `Config.Arises.recalls`.
-/

namespace Handoff

section Recalls

variable (P : Site → Nat → Prop)

/-- The operation that a task goes on with, if it is a script's, has a certain property. -/
def Task.Recalls : Task → Prop
  | resume x _ => P x.site x.serial
  | _ => True

/-- The operation of the script that is followed next has a certain property. -/
def Control.Recalls : Control → Prop
  | follow x _ => P x.site x.serial
  | task t => t.Recalls P
  | _ => True

/-- The operation of the script that a frame goes on with has a certain property. -/
def Frame.Recalls : Frame → Prop
  | script x _ => P x.site x.serial
  | attempt x _ => P x.site x.serial
  | _ => True

/-- The operations of all scripts that are under way have a certain property. -/
structure Config.Recalls (c : Config) : Prop where
  queue : ∀ t ∈ c.world.queue, t.Recalls P
  control : c.control.Recalls P
  stack : ∀ f ∈ c.stack, f.Recalls P

end Recalls

variable {P P' : Site → Nat → Prop} {w w' : World} {s : Site} {h : Nat} {r : Receiver}
  {K : List Frame}

/-! ### What does not touch the queue -/

namespace World

@[simp] lemma queue_fill (make : Nat → Layer) : (w.fill s h make).1.queue = w.queue := by
  unfold fill
  split <;> rfl

@[simp] lemma queue_dropAbove (unwinding : Bool) :
    (w.dropAbove s h unwinding).1.queue = w.queue := rfl

@[simp] lemma queue_request (k : Int) : (w.request k).1.queue = w.queue := by
  unfold request
  split <;> rfl

end World

namespace Machine

section Steps

variable (hq : ∀ t ∈ w.queue, t.Recalls P) (hK : ∀ f ∈ K, f.Recalls P)

include hq

lemma recalls_schedule {t : Task} (ht : t.Recalls P) :
    ∀ t' ∈ (w.schedule t).queue, t'.Recalls P := by
  intro t' ht'
  obtain ht' | rfl := by simpa using ht'
  · exact hq t' ht'
  · exact ht

include hK

lemma recalls_finishOr (m : Option Payload) : (finishOr w m K).Recalls P := by
  cases m <;> exact ⟨hq, trivial, hK⟩

/-! ### Connecting and starting -/

lemma recalls_connectLeaf (make : Nat → Layer) (m : Option Payload) :
    (connectLeaf w s h make m K).Recalls P := by
  rw [← World.queue_fill make] at hq
  rw [connectLeaf]
  generalize w.fill s h make = y at hq
  obtain ⟨v, taken⟩ := y
  cases taken
  · exact ⟨hq, trivial, hK⟩
  · exact recalls_finishOr hq hK m

lemma recalls_connect (x : Sender) : (connect w x r s h K).Recalls P := by
  cases x with
  | ready c => exact recalls_connectLeaf hq hK _ _
  | leaf l => exact recalls_connectLeaf (w := w.note s _) hq hK _ _
  | exploding built =>
    cases built with
    | none => exact ⟨hq, trivial, hK⟩
    | some label => exact recalls_connectLeaf (w := w.note s _) hq hK _ _
  | script y =>
    rw [connect, connectScript]
    cases y.connecting with
    | fill => exact recalls_connectLeaf (w := w.note s _) hq hK _ _
    | half m => exact recalls_connectLeaf (w := w.note s _) hq hK _ _
    | raise m => exact ⟨hq, trivial, hK⟩
    | deliver d m => exact ⟨hq, trivial, List.forall_mem_cons.2 ⟨trivial, hK⟩⟩
  | either which x =>
    rw [← World.queue_fill (.either · which)] at hq
    rw [connect]
    generalize w.fill s h (.either · which) = y at hq
    obtain ⟨v, taken⟩ := y
    cases taken
    · exact ⟨hq, trivial, hK⟩
    · exact ⟨hq, trivial, List.forall_mem_cons.2 ⟨trivial, hK⟩⟩
  | bind p f next =>
    have hfill : ∀ t ∈ ((w.note s [.logged (w.nextSerial s) .connecting]).fill s h
        (newBinding f next r)).1.queue, t.Recalls P := by
      rw [World.queue_fill]
      exact hq
    simp only [connect]
    generalize (w.note s [.logged (w.nextSerial s) .connecting]).fill s h
      (newBinding f next r) = y at hfill
    obtain ⟨v, taken⟩ := y
    cases taken
    · exact ⟨hfill, trivial, hK⟩
    · exact ⟨hfill, trivial, List.forall_mem_cons.2 ⟨trivial, hK⟩⟩

lemma recalls_startLeaf (l : Leaf) : (startLeaf w l r s K).Recalls P := by
  unfold startLeaf
  extract_lets walk v
  have hv : ∀ t ∈ v.queue, t.Recalls P := hq
  clear_value v
  split_ifs
  · exact ⟨hv, trivial, List.forall_mem_cons.2 ⟨trivial, hK⟩⟩
  · exact ⟨recalls_schedule hv trivial, trivial, hK⟩
  · exact ⟨hv, trivial, hK⟩

lemma recalls_start (hl : ∀ l ∈ w.layers s, P s l.serial) : (start w s h K).Recalls P := by
  rw [start]
  cases hs : (w.layers s)[h]? with
  | none => exact ⟨hq, trivial, hK⟩
  | some l =>
    cases l with
    | ready k held => cases held <;> exact ⟨hq, trivial, hK⟩
    | leaf k l held =>
      cases held with
      | none => exact ⟨hq, trivial, hK⟩
      | some r =>
        exact recalls_startLeaf
          (w := (w.note s [.started l.label]).setLayer s h (.leaf k l none)) hq hK l
    | script k y held =>
      cases held with
      | none => exact ⟨hq, trivial, hK⟩
      | some r => exact ⟨hq, hl _ (List.mem_of_getElem? hs), hK⟩
    | either k which => exact ⟨hq, trivial, hK⟩
    | bind b =>
      simp only
      split_ifs <;> exact ⟨hq, trivial, hK⟩

/-! ### Completing -/

lemma recalls_pass (b : Binding) (c : Completion Value Failure) :
    (pass w s h b c K).Recalls P := by
  rw [pass]
  cases b.receiver <;> exact ⟨hq, trivial, hK⟩

lemma recalls_build : (build w s h K).Recalls P := by
  rw [build]
  cases w.binding? s h with
  | none => exact ⟨hq, trivial, hK⟩
  | some b =>
    simp only
    cases b.factory with
    | none => exact ⟨hq, trivial, hK⟩
    | some x =>
      simp only
      split <;> exact ⟨hq, trivial, hK⟩

lemma recalls_complete (c : Completion Value Failure) : (complete w r c K).Recalls P := by
  cases r with
  | child role s h =>
    rw [complete]
    cases w.binding? s h with
    | none => exact ⟨hq, trivial, hK⟩
    | some b =>
      simp only
      split_ifs
      · cases role with
        | successor => exact recalls_pass hq hK b _
        | predecessor =>
          cases c with
          | value v =>
            refine ⟨hq, ?_, List.forall_mem_cons.2 ⟨trivial, hK⟩⟩
            simp only [receive, accept]
            generalize World.dropAbove _ s (h + 1) false = d
            cases d.2 <;> trivial
          | error e => exact recalls_pass (w := w.note s _) hq hK b _
          | done => exact recalls_pass (w := w.note s _) hq hK b _
      · exact ⟨hq, trivial, hK⟩
  | observer home o => exact ⟨hq, trivial, List.forall_mem_cons.2 ⟨trivial, hK⟩⟩
  | recorder home k => exact ⟨hq, trivial, hK⟩
  | waiter id =>
    rw [complete, completeWaiter]
    split_ifs <;> exact ⟨hq, trivial, hK⟩

lemma recalls_react (label : String) (actions : List Action) :
    (react w s label actions K).Recalls P := by
  cases actions with
  | nil => exact ⟨hq, trivial, hK⟩
  | cons a rest =>
    cases a with
    | step x => exact ⟨hq, trivial, List.forall_mem_cons.2 ⟨trivial, hK⟩⟩
    | _ => exact ⟨hq, trivial, hK⟩

/-! ### Following a script -/

lemma recalls_deliver (x : Run) (d : Delivery) (frame : Run → Frame)
    (hframe : ∀ y : Run, y.site = x.site → y.serial = x.serial → (frame y).Recalls P) :
    (deliver w x d frame K).Recalls P := by
  rw [deliver]
  cases x.receiver <;> exact ⟨hq, trivial, List.forall_mem_cons.2 ⟨hframe _ rfl rfl, hK⟩⟩

lemma recalls_follow {x : Run} (hx : P x.site x.serial) (steps : List Instr) :
    (follow w x steps K).Recalls P := by
  have hsame (y : Run) (hs : y.site = x.site) (hk : y.serial = x.serial) :
      P y.site y.serial := by rwa [hs, hk]
  have hinstruct (i : Instr) (rest : List Instr) : (instruct w x i rest K).Recalls P := by
    cases i with
    | complete d => exact recalls_deliver hq hK x d (.script · rest) hsame
    | attempt d => exact recalls_deliver hq hK x d (.attempt · rest) hsame
    | stopDone =>
      simp only [instruct]
      split_ifs
      · exact recalls_deliver (w := w.note x.site _) hq hK x .done (.script · []) hsame
      · exact ⟨hq, hx, hK⟩
    | request k =>
      rw [← World.queue_request k] at hq
      exact ⟨hq, hx, hK⟩
    | raise m => exact ⟨hq, trivial, hK⟩
    | defer => exact ⟨recalls_schedule hq hx, trivial, hK⟩
    | later steps => exact ⟨recalls_schedule hq hx, hx, hK⟩
    | _ => exact ⟨hq, hx, hK⟩
  cases steps with
  | nil => exact ⟨hq, trivial, hK⟩
  | cons i rest =>
    simp only [follow]
    split_ifs
    · exact hinstruct i rest
    · cases i with
      | log text => exact hinstruct _ rest
      | raise m => exact hinstruct _ rest
      | _ => exact ⟨hq, hx, hK⟩

/-! ### Calls and tasks -/

lemma recalls_runTask {t : Task} (ht : t.Recalls P) : (runTask w t K).Recalls P := by
  cases t with
  | complete c r => exact ⟨hq, trivial, hK⟩
  | resume x steps =>
    rw [runTask]
    split_ifs
    · exact ⟨hq, ht, hK⟩
    · exact ⟨hq, trivial, hK⟩
  | job j =>
    obtain ⟨label, spawned, raised⟩ := j
    have hjobs : ∀ (js : List Job) (v : World), (∀ t ∈ v.queue, t.Recalls P) →
        ∀ t ∈ ((js.map Task.job).foldl World.schedule v).queue, t.Recalls P := by
      intro js
      induction js with
      | nil => exact fun v hv => hv
      | cons j js ih => exact fun v hv => ih _ (recalls_schedule hv trivial)
    rw [runTask]
    exact recalls_finishOr (hjobs spawned (w.record none [.remark label]) hq) hK raised

lemma recalls_call (x : Call) : (call w x K).Recalls P := by
  have hplace (s : Site) {c : Config} (hc : c.Recalls P) : (withPlace w s c K).Recalls P := by
    rw [withPlace]
    cases w.places.get? s with
    | none => exact ⟨hq, trivial, hK⟩
    | some p => exact hc
  cases x with
  | connect p x r =>
    rw [call, connectPlace]
    cases w.layers (.place p) with
    | nil => exact ⟨hq, trivial, hK⟩
    | cons l rest =>
      simp only
      split_ifs <;> exact ⟨hq, trivial, hK⟩
  | start p => exact hplace _ (⟨hq, trivial, hK⟩)
  | clear p => exact hplace _ (recalls_finishOr (w := (w.dropAbove (.place p) 0 false).1) hq hK _)
  | tick =>
    rw [call]
    cases hw : w.queue with
    | nil => exact ⟨hq, trivial, hK⟩
    | cons t rest =>
      obtain ⟨ht, hrest⟩ := List.forall_mem_cons.1 (hw ▸ hq)
      exact ⟨hrest, ht, List.forall_mem_cons.2 ⟨trivial, hK⟩⟩
  | drain =>
    rw [call]
    cases hw : w.queue with
    | nil => exact ⟨hq, trivial, hK⟩
    | cons t rest =>
      obtain ⟨ht, hrest⟩ := List.forall_mem_cons.1 (hw ▸ hq)
      exact ⟨hrest, ht, List.forall_mem_cons.2 ⟨trivial, hK⟩⟩
  | request k =>
    rw [← World.queue_request k] at hq
    exact ⟨hq, trivial, hK⟩
  | schedule j => exact ⟨recalls_schedule hq trivial, trivial, hK⟩
  | wait x =>
    exact ⟨hq, trivial,
      List.forall_mem_cons.2 ⟨trivial, List.forall_mem_cons.2 ⟨trivial, hK⟩⟩⟩
  | _ => exact ⟨hq, trivial, hK⟩

/-! ### Returning and unwinding -/

lemma recalls_resume (a : Reply) {f : Frame} (hf : f.Recalls P) :
    (resume w a f K).Recalls P := by
  cases f with
  | handoff s h =>
    rw [resume]
    cases w.binding? s h <;> exact ⟨hq, trivial, hK⟩
  | script x rest => exact ⟨hq, hf, hK⟩
  | attempt x rest => exact ⟨hq, hf, hK⟩
  | thenRaise m => exact recalls_finishOr hq hK m
  | waitConnected => exact ⟨hq, trivial, List.forall_mem_cons.2 ⟨trivial, hK⟩⟩
  | waitStarted => exact ⟨hq, trivial, List.forall_mem_cons.2 ⟨trivial, hK⟩⟩
  | waitDrained =>
    rw [resume, abandon]
    cases w.given with
    | none =>
      exact recalls_finishOr
        (w := ((w.note .wait [.remark "abandoned"]).dropAbove .wait 0 false).1) hq hK _
    | some c => exact ⟨hq, trivial, hK⟩
  | waitOver =>
    rw [resume, unblock]
    cases w.given with
    | none => exact ⟨hq, trivial, hK⟩
    | some c =>
      rw [← World.queue_dropAbove (s := .wait) (h := 0) false] at hq
      simp only [release]
      generalize w.dropAbove .wait 0 false = d at hq ⊢
      obtain ⟨v, raised⟩ := d
      cases raised <;> exact ⟨hq, trivial, hK⟩
  | _ => exact ⟨hq, trivial, hK⟩

lemma recalls_unwind (m : Payload) {f : Frame} (hf : f.Recalls P) :
    (unwind w m f K).Recalls P := by
  cases f with
  | handoff s h =>
    rw [unwind]
    cases w.binding? s h with
    | none => exact ⟨hq, trivial, hK⟩
    | some b => exact recalls_pass (w := w.note s _) hq hK b _
  | attempt x rest => exact ⟨hq, hf, hK⟩
  | _ => exact ⟨hq, trivial, hK⟩

end Steps

end Machine

namespace Config

variable {c c' : Config}

/-- A move starts scripts of operations that stand, and follows those that are under way. -/
lemma Recalls.next (hc : c.Recalls P) (hl : ∀ s, ∀ l ∈ c.world.layers s, P s l.serial)
    (hm : c.Moves c') : c'.Recalls P := by
  obtain ⟨w, x, K⟩ := c
  obtain ⟨hq, hx, hK⟩ := hc
  have hm : Config.next ⟨w, x, K⟩ = some c' := hm
  cases x with
  | done a =>
    cases K with
    | nil => simp [Config.next] at hm
    | cons f K =>
      obtain rfl := Option.some.inj hm
      obtain ⟨hf, hK⟩ := List.forall_mem_cons.1 hK
      exact Machine.recalls_resume hq hK a hf
  | raised m =>
    cases K with
    | nil => simp [Config.next] at hm
    | cons f K =>
      obtain rfl := Option.some.inj hm
      obtain ⟨hf, hK⟩ := List.forall_mem_cons.1 hK
      exact Machine.recalls_unwind hq hK m hf
  | connect x r s h =>
    obtain rfl := Option.some.inj hm
    exact Machine.recalls_connect hq hK x
  | start s h =>
    obtain rfl := Option.some.inj hm
    exact Machine.recalls_start hq hK (hl s)
  | complete r v =>
    obtain rfl := Option.some.inj hm
    exact Machine.recalls_complete hq hK v
  | build s h =>
    obtain rfl := Option.some.inj hm
    exact Machine.recalls_build hq hK
  | react home label actions =>
    obtain rfl := Option.some.inj hm
    exact Machine.recalls_react hq hK label actions
  | follow y steps =>
    obtain rfl := Option.some.inj hm
    exact Machine.recalls_follow hq hK hx steps
  | call x =>
    obtain rfl := Option.some.inj hm
    exact Machine.recalls_call hq hK x
  | task t =>
    obtain rfl := Option.some.inj hm
    exact Machine.recalls_runTask hq hK hx

lemma Recalls.mono (hc : c.Recalls P) (hP : ∀ s k, P s k → P' s k) : c.Recalls P' := by
  refine ⟨fun t ht => ?_, ?_, fun f hf => ?_⟩
  · have := hc.queue t ht
    cases t with
    | resume x steps => exact hP _ _ this
    | _ => trivial
  · have := hc.control
    cases hx : c.control with
    | follow x steps =>
      rw [hx] at this
      exact hP _ _ this
    | task t =>
      rw [hx] at this
      cases t with
      | resume x steps => exact hP _ _ this
      | _ => trivial
    | _ => trivial
  · have := hc.stack f hf
    cases f with
    | script x rest => exact hP _ _ this
    | attempt x rest => exact hP _ _ this
    | _ => trivial

end Config

/-! ### Numbers that were given before -/

/-- The number of an operation of a numbered place is one that the place has given before. -/
def World.Given (w : World) (s : Site) (k : Nat) : Prop :=
  ∀ p, s = .place p → k < w.nextSerial (.place p)

lemma Ledger.Takes.count_le {l l' : Ledger} {acts : List Act} (h : Takes l acts l') :
    l.count ≤ l'.count := by
  induction h with
  | nil => exact Nat.le_refl _
  | cons h _ ih =>
    refine Nat.le_trans ?_ ih
    cases h <;> simp

/-- No script that is under way is of an operation of a number that its place has still to give. -/
theorem Config.Arises.recalls {c : Config} (h : c.Arises) : c.Recalls c.world.Given := by
  induction h with
  | first x => exact ⟨by simp, trivial, by simp⟩
  | next _ _ x ih => exact ⟨ih.queue, trivial, by simp⟩
  | @move c c' hc hm ih =>
    obtain ⟨hsound, -, hsteady⟩ := hc.booked
    obtain ⟨hturns, -⟩ := keeps_next hm hsound hsteady
    have hl : ∀ s, ∀ l ∈ c.world.layers s, c.world.Given s l.serial := by
      rintro _ l hl p rfl
      exact (hsound p).serial_lt l hl
    refine (ih.next hl hm).mono fun s k hk p hp => Nat.lt_of_lt_of_le (hk p hp) ?_
    obtain ⟨acts, -, hplace⟩ := hturns p
    exact (hplace (hsound p)).2.count_le

end Handoff
