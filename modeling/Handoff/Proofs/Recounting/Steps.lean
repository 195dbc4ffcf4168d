import Handoff.Proofs.Recounting.Worlds
import Handoff.Program

/-!
# Moves under other numbers

A machine makes the same moves under other numbers, and the numbers fit on: `Config.recount_next`
says so of one move of any machine. There is one lemma for each function of the machine, which
carries the new numbers through it.
-/

namespace Handoff

/-- A frame under other numbers. -/
def Frame.recount (F : Recount) : Frame → Frame
  | script r rest => script (r.recount F) rest
  | attempt r rest => attempt (r.recount F) rest
  | f => f

/-- What a machine does next, under other numbers. -/
def Control.recount (F : Recount) : Control → Control
  | follow r steps => follow (r.recount F) steps
  | task t => task (t.recount F)
  | x => x

/-- A machine under other numbers, after other events. -/
def Config.recount (F : Recount) (es : List Event) (c : Config) : Config where
  world := c.world.recount F es
  control := c.control.recount F
  stack := c.stack.map (Frame.recount F)

/-- The one machine is the other under new numbers, which fit. -/
def Config.Carried (F : Recount) (es : List Event) (c c' : Config) : Prop :=
  c' = c.recount F es ∧ F.Fits c.world

open Config (Carried)
open Recount (Fits)
open World (place_recount recount_setLayers recount_setLayer recount_setBinding recount_setScope
  dropAbove_recount fill_recount isUsable_recount request_recount nextSerial_recount)

variable {F : Recount} {es : List Event} {w : World} {s : Site} {h : Nat} {r : Receiver}

namespace Machine

variable {K : List Frame}

lemma carried_finish (hF : F.Fits w) :
    Carried F es (finish w K) (finish (w.recount F es) (K.map (Frame.recount F))) :=
  ⟨rfl, hF⟩

lemma carried_finishOr (hF : F.Fits w) (m : Option Payload) :
    Carried F es (finishOr w m K) (finishOr (w.recount F es) m (K.map (Frame.recount F))) := by
  cases m <;> exact ⟨rfl, hF⟩

lemma carried_fault (hF : F.Fits w) (f : Fault) :
    Carried F es (fault w f K) (fault (w.recount F es) f (K.map (Frame.recount F))) :=
  ⟨rfl, hF⟩

/-! ### Connecting -/

lemma carried_connectLeaf (hF : F.Fits w) {make : Nat → Layer}
    (hmake : ∀ k, make (F s k) = (make k).recount (F s)) (m : Option Payload) :
    Carried F es (connectLeaf w s h make m K)
      (connectLeaf (w.recount F es) s h make m (K.map (Frame.recount F))) := by
  have hfits := hF.fill s h make
  rw [connectLeaf, connectLeaf, fill_recount hF make hmake]
  generalize w.fill s h make = x at hfits ⊢
  obtain ⟨w', taken⟩ := x
  cases taken
  · exact carried_fault hfits _
  · exact carried_finishOr hfits m

lemma carried_connectScript (hF : F.Fits w) (x : Script) :
    Carried F es (connectScript w x r s h K)
      (connectScript (w.recount F es) x r s h (K.map (Frame.recount F))) := by
  have hfits := hF.note s [.connected x.label]
  have hw : (w.recount F es).note s [.connected x.label] =
      (w.note s [.connected x.label]).recount F es := by simp
  simp only [connectScript, hw]
  cases x.connecting with
  | fill => exact carried_connectLeaf hfits (fun _ => rfl) none
  | half m => exact carried_connectLeaf hfits (fun _ => rfl) (some m)
  | raise m => exact ⟨by simp [Config.recount, Control.recount], hfits.note s _⟩
  | deliver d m => exact ⟨by rw [World.scope_recount]; rfl, hfits⟩

lemma carried_connect (hF : F.Fits w) (x : Sender) :
    Carried F es (connect w x r s h K)
      (connect (w.recount F es) x r s h (K.map (Frame.recount F))) := by
  cases x with
  | ready c => exact carried_connectLeaf hF (fun _ => rfl) none
  | leaf l =>
    have hw : (w.recount F es).note s [.connected l.label] =
        (w.note s [.connected l.label]).recount F es := by simp
    simp only [connect, hw]
    exact carried_connectLeaf (hF.note s _) (fun _ => rfl) none
  | exploding built =>
    cases built with
    | none =>
      have hw : (w.recount F es).note s r.drop = (w.note s r.drop).recount F es := by simp
      simp only [connect, hw]
      exact carried_fault (hF.note s _) _
    | some label =>
      have hw : (w.recount F es).note s [.connected label] =
          (w.note s [.connected label]).recount F es := by simp
      simp only [connect, hw]
      exact carried_connectLeaf (hF.note s _) (fun _ => rfl) _
  | script x => exact carried_connectScript hF x
  | either which x =>
    have hfits := hF.fill s h (.either · which)
    simp only [connect, fill_recount hF (.either · which) fun _ => rfl]
    generalize w.fill s h (.either · which) = y at hfits ⊢
    obtain ⟨w', taken⟩ := y
    cases taken
    · have hw : (w'.recount F es).note s (x.drop ++ r.drop) =
          (w'.note s (x.drop ++ r.drop)).recount F es := by simp
      simp only [hw]
      exact carried_fault (hfits.note s _) _
    · exact ⟨rfl, hfits⟩
  | bind p f next =>
    have hfits := hF.note s [.logged (w.nextSerial s) .connecting]
    have hw : (w.recount F es).note s [.logged (F s (w.nextSerial s)) .connecting] =
        (w.note s [.logged (w.nextSerial s) .connecting]).recount F es := by simp
    simp only [connect, nextSerial_recount hF, hw,
      fill_recount hfits (newBinding f next r) fun _ => rfl]
    have hfits := hfits.fill s h (newBinding f next r)
    generalize (w.note s [.logged (w.nextSerial s) .connecting]).fill s h (newBinding f next r) = y
      at hfits ⊢
    obtain ⟨w', taken⟩ := y
    cases taken
    · have hw : (w'.recount F es).note s p.drop = (w'.note s p.drop).recount F es := by simp
      simp only [hw]
      exact carried_fault (hfits.note s _) _
    · exact ⟨rfl, hfits⟩

/-! ### Starting -/

lemma carried_startLeaf (hF : F.Fits w) (l : Leaf) :
    Carried F es (startLeaf w l r s K)
      (startLeaf (w.recount F es) l r s (K.map (Frame.recount F))) := by
  simp only [startLeaf, World.namesFrom_recount]
  generalize hacts : (if l.inspecting = true then
    [Act.remark ("chain " ++ l.label ++ ": " ++ " > ".intercalate (w.namesFrom r))] else []) = acts
  have hw : (w.recount F es).note s acts = (w.note s acts).recount F es := by
    rw [← hacts]
    split_ifs <;> simp
  have hfits := hF.note s acts
  rw [hw, World.isStopped_recount]
  split_ifs
  · exact ⟨by simp [Config.recount, Control.recount, Frame.recount], hfits.note s _⟩
  · exact ⟨by simp [finish, Config.recount, Control.recount, Task.recount],
      hfits.of_places_eq rfl⟩
  · exact ⟨rfl, hfits⟩

lemma carried_start (hF : F.Fits w) :
    Carried F es (start w s h K) (start (w.recount F es) s h (K.map (Frame.recount F))) := by
  simp only [start, World.layers_recount, List.getElem?_map]
  cases hl : (w.layers s)[h]? with
  | none => exact carried_fault hF _
  | some l =>
    cases l with
    | ready k held =>
      cases held with
      | none => exact carried_fault hF _
      | some x =>
        exact ⟨by simp [Layer.recount, Config.recount, Control.recount, recount_setLayer hF],
          hF.setLayer s h _⟩
    | leaf k l held =>
      have hw : (w.recount F es).note s [.started l.label] =
          (w.note s [.started l.label]).recount F es := by simp
      have hfits := hF.note s [.started l.label]
      cases held with
      | none =>
        simp only [Option.map_some, Layer.recount, hw]
        exact carried_fault hfits _
      | some r =>
        have hset : (World.setLayer _ s h (.leaf k l none)).recount F es = _ :=
          recount_setLayer hfits _
        simp only [Option.map_some, Layer.recount, hw] at hset ⊢
        rw [← hset]
        exact carried_startLeaf (hfits.setLayer s h _) l
    | script k x held =>
      have hw : (w.recount F es).note s [.started x.label] =
          (w.note s [.started x.label]).recount F es := by simp
      have hfits := hF.note s [.started x.label]
      cases held with
      | none =>
        simp only [Option.map_some, Layer.recount, hw]
        exact carried_fault hfits _
      | some r =>
        have hset : (World.setLayer _ s h (.script k x none)).recount F es = _ :=
          recount_setLayer hfits _
        simp only [Option.map_some, Layer.recount, hw] at hset ⊢
        rw [← hset]
        exact ⟨rfl, (hfits.setLayer s h _).of_places_eq rfl⟩
    | either k which => exact ⟨rfl, hF⟩
    | bind b =>
      have hw : (w.recount F es).note s [.logged (F s b.serial) .starting] =
          (w.note s [.logged b.serial .starting]).recount F es := by simp
      have hfits := hF.note s [.logged b.serial .starting]
      simp only [Option.map_some, Layer.recount, Binding.serial_recount, Binding.storage_recount,
        hw]
      split_ifs
      · exact ⟨rfl, hfits⟩
      · exact carried_fault hfits _

/-! ### Completing -/

lemma carried_pass (hF : F.Fits w) (b : Binding) (c : Completion Value Failure) :
    Carried F es (pass w s h b c K)
      (pass (w.recount F es) s h (b.recount (F s)) c (K.map (Frame.recount F))) := by
  simp only [pass, Binding.receiver_recount]
  cases b.receiver with
  | none =>
    have hw : (w.recount F es).note s (dropCarried c) =
        (w.note s (dropCarried c)).recount F es := by simp
    simp only [hw]
    exact carried_fault (hF.note s _) _
  | some r =>
    exact ⟨by simp [Config.recount, Control.recount, recount_setBinding hF],
      hF.setBinding s h _⟩

lemma carried_accept (hF : F.Fits w) (b : Binding) (v : Value) :
    Carried F es (accept w s h b v K)
      (accept (w.recount F es) s h (b.recount (F s)) v (K.map (Frame.recount F))) := by
  have hset := hF.setBinding s h (b.store v)
  have hdrop := hset.dropAbove s (h + 1) false
  simp only [accept, ← Binding.recount_store, ← recount_setBinding hF, dropAbove_recount hset,
    ← Binding.recount_vacate, ← recount_setBinding hdrop]
  refine ⟨?_, hdrop.setBinding s h _⟩
  cases ((w.setBinding s h (b.store v)).dropAbove s (h + 1) false).2 <;> rfl

lemma carried_build (hF : F.Fits w) :
    Carried F es (build w s h K) (build (w.recount F es) s h (K.map (Frame.recount F))) := by
  simp only [build, World.binding?_recount]
  cases w.binding? s h with
  | none => exact carried_finish hF
  | some b =>
    simp only [Option.map_some, Binding.factory_recount]
    cases b.factory with
    | none =>
      simp only [← Binding.recount_call, ← recount_setBinding hF]
      exact carried_fault (hF.setBinding s h _) _
    | some x =>
      obtain ⟨f, next⟩ := x
      simp only [Binding.stored_recount, World.scope_recount, Binding.serial_recount]
      generalize f.call (b.stored ++ w.scope s h) = c
      have hw : (w.recount F es).note s
            (b.stored.map (Act.called (F s b.serial) f.label) ++ c.remarks.map Act.remark) =
          (w.note s (b.stored.map (Act.called b.serial f.label) ++
            c.remarks.map Act.remark)).recount F es := by simp [Function.comp_def]
      have hnote := hF.note s
        (b.stored.map (Act.called b.serial f.label) ++ c.remarks.map Act.remark)
      rw [hw]
      generalize w.note s (b.stored.map (Act.called b.serial f.label) ++ c.remarks.map Act.remark) =
        w' at hnote ⊢
      have hscope := hnote.setScope s h (c.env.drop b.stored.length)
      have hlog := hscope.note s [.logged b.serial .connectingSuccessor]
      simp only [← recount_setScope hnote, Binding.serial_restore, Binding.serial_call,
        Binding.serial_recount]
      cases c.raised with
      | some m =>
        exact ⟨by simp [Config.recount, Control.recount, recount_setBinding hscope],
          hscope.setBinding s h _⟩
      | none =>
        exact ⟨by simp [Config.recount, Control.recount, recount_setBinding hlog],
          hlog.setBinding s h _⟩

lemma carried_receive (hF : F.Fits w) (role : Role) (b : Binding) (c : Completion Value Failure) :
    Carried F es (receive w role s h b c K)
      (receive (w.recount F es) role s h (b.recount (F s)) c (K.map (Frame.recount F))) := by
  have hlog (x : Record) : (w.recount F es).note s [.logged (F s b.serial) x] =
      (w.note s [.logged b.serial x]).recount F es := by simp
  have hstored : (w.recount F es).note s
        [.logged (F s b.serial) .produced, .stored (F s b.serial)] =
      (w.note s [.logged b.serial .produced, .stored b.serial]).recount F es := by simp
  cases role with
  | successor => exact carried_pass hF b _
  | predecessor =>
    cases c with
    | value v =>
      simp only [receive, Binding.serial_recount, hstored]
      exact carried_accept (hF.note s _) b v
    | error e =>
      simp only [receive, Binding.serial_recount, hlog]
      exact carried_pass (hF.note s _) b _
    | done =>
      simp only [receive, Binding.serial_recount, hlog]
      exact carried_pass (hF.note s _) b _

lemma carried_completeWaiter (hF : F.Fits w) (id : Nat) (c : Completion Value Failure) :
    Carried F es (completeWaiter w id c K)
      (completeWaiter (w.recount F es) id c (K.map (Frame.recount F))) := by
  have hw : (w.recount F es).note .wait (.waiterGone :: dropCarried c) =
      (w.note .wait (.waiterGone :: dropCarried c)).recount F es := by simp
  simp only [completeWaiter, hw]
  show Carried F es _ (if w.waiter = some { id } then _ else _)
  split_ifs
  · exact ⟨rfl, hF.of_places_eq rfl⟩
  · exact carried_finish (hF.note .wait _)

lemma carried_complete (hF : F.Fits w) (c : Completion Value Failure) :
    Carried F es (complete w r c K)
      (complete (w.recount F es) r c (K.map (Frame.recount F))) := by
  cases r with
  | child role s h =>
    have hw : (w.recount F es).note s (dropCarried c) =
        (w.note s (dropCarried c)).recount F es := by simp
    simp only [complete, World.binding?_recount]
    cases w.binding? s h with
    | none =>
      simp only [Option.map_none, hw]
      exact carried_finish (hF.note s _)
    | some b =>
      simp only [Option.map_some, Binding.cleanup_recount, hw]
      split_ifs
      · exact carried_receive hF role b c
      · exact carried_fault (hF.note s _) _
  | observer home o =>
    exact ⟨by simp [complete, Config.recount, Control.recount, Frame.recount], hF.note home _⟩
  | recorder home k => exact ⟨rfl, hF.of_places_eq rfl⟩
  | waiter id => exact carried_completeWaiter hF id c

lemma carried_react (hF : F.Fits w) (label : String) (actions : List Action) :
    Carried F es (react w s label actions K)
      (react (w.recount F es) s label actions (K.map (Frame.recount F))) := by
  cases actions with
  | nil => exact carried_finish hF
  | cons a rest =>
    cases a with
    | raise m => exact ⟨rfl, hF⟩
    | log x => exact ⟨by simp [react, Config.recount, Control.recount], hF.note s _⟩
    | step x => exact ⟨rfl, hF⟩

/-! ### Following a script -/

@[simp] lemma giveAway_recount (x : Run) : giveAway (x.recount F) = (giveAway x).recount F := rfl

lemma dropReceiver_recount (x : Run) :
    dropReceiver (w.recount F es) (x.recount F) = (dropReceiver w x).recount F es := by
  simp [dropReceiver, Run.recount]

lemma carried_deliver (hF : F.Fits w) (x : Run) (d : Delivery) (frame : Run → Frame)
    (hframe : ∀ y, frame (y.recount F) = (frame y).recount F) :
    Carried F es (deliver w x d frame K)
      (deliver (w.recount F es) (x.recount F) d frame (K.map (Frame.recount F))) := by
  have hid : (x.recount F).id = x.id := rfl
  have hreceiver : (x.recount F).receiver = x.receiver := rfl
  have hsite : (x.recount F).site = x.site := rfl
  simp only [deliver, World.scopeOf_recount, hid, hreceiver, hsite, hframe, giveAway_recount]
  cases x.receiver with
  | none =>
    refine ⟨?_, hF.note x.site _⟩
    simp [fault, Config.recount, Control.recount]
  | some y => exact ⟨rfl, hF⟩

lemma ask_recount (x : Run) (say : Receiver → String) :
    ask (w.recount F es) (x.recount F) say = (ask w x say).recount F es := by
  simp [ask, Run.recount]

lemma stopText_recount (label : String) : stopText (w.recount F es) label = stopText w label := by
  funext y
  simp [stopText]

lemma carried_instruct (hF : F.Fits w) (x : Run) (i : Instr) (rest : List Instr) :
    Carried F es (instruct w x i rest K)
      (instruct (w.recount F es) (x.recount F) i rest (K.map (Frame.recount F))) := by
  have hsay (acts : List Act) (hacts : acts.map (Act.recount (F x.site)) = acts) :
      Carried F es ⟨w.note x.site acts, .follow x rest, K⟩
        ⟨(w.recount F es).note x.site acts, .follow (x.recount F) rest,
          K.map (Frame.recount F)⟩ :=
    ⟨by simp [Config.recount, Control.recount, hacts], hF.note _ _⟩
  have hstopped : (w.recount F es).isStopped = w.isStopped :=
    funext fun _ => World.isStopped_recount
  cases i with
  | complete d => exact carried_deliver hF x d (.script · rest) fun _ => rfl
  | attempt d => exact carried_deliver hF x d (.attempt · rest) fun _ => rfl
  | askStop =>
    simp only [instruct, stopText_recount, ask_recount]
    exact ⟨rfl, hF.note _ _⟩
  | stopDone =>
    have hw : (w.recount F es).note x.site [.gaveUp x.label] =
        (w.note x.site [.gaveUp x.label]).recount F es := by simp
    simp only [instruct, hstopped]
    show Carried F es _ (if x.receiver.any w.isStopped = true then _ else _)
    split_ifs
    · show Carried F es _ (deliver ((w.recount F es).note x.site [.gaveUp x.label]) _ _ _ _)
      rw [hw]
      exact carried_deliver (hF.note _ _) x .done (.script · []) fun _ => rfl
    · exact ⟨rfl, hF⟩
  | chain =>
    simp only [instruct, World.termFrom_recount, ask_recount]
    exact ⟨rfl, hF.note _ _⟩
  | info =>
    have hnames : (w.recount F es).namesFrom = w.namesFrom :=
      funext fun _ => World.namesFrom_recount
    simp only [instruct, hnames]
    exact hsay _ (by simp)
  | request k =>
    simp only [instruct, request_recount]
    exact ⟨by simp [Config.recount, Control.recount, Run.recount],
      (hF.of_places_eq (by unfold World.request; split <;> rfl)).note _ _⟩
  | log text => exact hsay _ (by simp)
  | peek d =>
    simp only [instruct, World.scopeOf_recount]
    exact hsay _ (by simp)
  | poke d n =>
    simp only [instruct, World.scopeOf_recount]
    exact ⟨by simp [Config.recount, Control.recount, recount_setScope hF, Run.recount, Run.reach],
      hF.setScope _ _ _⟩
  | raise m =>
    simp only [instruct, dropReceiver_recount]
    exact ⟨rfl, hF.note _ _⟩
  | forget =>
    simp only [instruct, dropReceiver_recount]
    exact ⟨rfl, hF.note _ _⟩
  | defer =>
    exact ⟨by simp [instruct, finish, Config.recount, Control.recount, Task.recount],
      hF.of_places_eq rfl⟩
  | later steps =>
    refine ⟨?_, hF.of_places_eq rfl⟩
    simp only [instruct, giveAway_recount]
    simp [Config.recount, Control.recount, World.recount, World.schedule, Task.recount, Run.recount]

lemma carried_follow (hF : F.Fits w) (x : Run) (steps : List Instr) :
    Carried F es (follow w x steps K)
      (follow (w.recount F es) (x.recount F) steps (K.map (Frame.recount F))) := by
  cases steps with
  | nil =>
    simp only [follow, dropReceiver_recount]
    exact carried_finish (hF.note _ _)
  | cons i rest =>
    simp only [follow, isUsable_recount hF]
    split_ifs
    · exact carried_instruct hF x i rest
    · cases i with
      | log text => exact carried_instruct hF x _ rest
      | raise m => exact carried_instruct hF x _ rest
      | _ => exact ⟨rfl, hF⟩

/-! ### Calls and tasks -/

lemma recount_foldl_schedule (js : List Job) :
    ((js.map Task.job).foldl World.schedule w).recount F es =
      (js.map Task.job).foldl World.schedule (w.recount F es) := by
  induction js generalizing w with
  | nil => rfl
  | cons j js ih => simp [ih, Task.recount]

lemma fits_foldl_schedule (hF : F.Fits w) (ts : List Task) :
    F.Fits (ts.foldl World.schedule w) := by
  induction ts generalizing w with
  | nil => exact hF
  | cons t ts ih => exact ih (hF.of_places_eq rfl)

lemma carried_runTask (hF : F.Fits w) (t : Task) :
    Carried F es (runTask w t K)
      (runTask (w.recount F es) (t.recount F) (K.map (Frame.recount F))) := by
  cases t with
  | complete c r => exact ⟨rfl, hF⟩
  | resume x steps =>
    simp only [runTask, Task.recount, isUsable_recount hF]
    split_ifs
    · exact ⟨by simp [Config.recount, Control.recount, Run.recount], hF.note _ _⟩
    · exact ⟨by simp [finish, Config.recount, Control.recount, Run.recount], hF.note _ _⟩
  | job j =>
    obtain ⟨label, spawned, raised⟩ := j
    have hw : (spawned.map Task.job).foldl World.schedule
          ((w.recount F es).record none [.remark label]) =
        ((spawned.map Task.job).foldl World.schedule (w.record none [.remark label])).recount
          F es := by
      simp [recount_foldl_schedule]
    simp only [runTask, Task.recount, hw]
    have hrecord : F.Fits (w.record none [.remark label]) := hF.of_places_eq rfl
    exact carried_finishOr (fits_foldl_schedule hrecord _) raised

lemma carried_connectPlace (hF : F.Fits w) (x : Sender) :
    Carried F es (connectPlace w s x r K)
      (connectPlace (w.recount F es) s x r (K.map (Frame.recount F))) := by
  simp only [connectPlace, World.layers_recount]
  cases w.layers s with
  | nil =>
    exact ⟨by simp [Config.recount, Control.recount, recount_setLayers hF], hF.setLayers s _⟩
  | cons l rest =>
    simp only [List.map_cons, Layer.kind_recount]
    split_ifs
    · exact ⟨rfl, hF⟩
    · exact ⟨by simp [refuse, Config.recount, Control.recount], hF.note s _⟩

lemma carried_withPlace (hF : F.Fits w) {c c' : Config} (hc : Carried F es c c') :
    Carried F es (withPlace w s c K)
      (withPlace (w.recount F es) s c' (K.map (Frame.recount F))) := by
  simp only [withPlace, World.get?_recount]
  cases w.places.get? s with
  | none => exact ⟨rfl, hF⟩
  | some p => exact hc

lemma carried_call (hF : F.Fits w) (x : Call) :
    Carried F es (call w x K) (call (w.recount F es) x (K.map (Frame.recount F))) := by
  have hqueue : (w.recount F es).queue = w.queue.map (Task.recount F) := rfl
  cases x with
  | connect p x r => exact carried_connectPlace hF x
  | start p => exact carried_withPlace hF ⟨rfl, hF⟩
  | clear p =>
    simp only [call, dropAbove_recount hF]
    exact carried_withPlace hF (carried_finishOr (hF.dropAbove _ 0 false) _)
  | vacant p => exact ⟨by simp [call, Config.recount, Control.recount], hF⟩
  | pending => exact ⟨by simp [call, Config.recount, Control.recount, hqueue], hF⟩
  | tick =>
    simp only [call, hqueue]
    cases hq : w.queue with
    | nil => exact ⟨rfl, hF⟩
    | cons t rest => exact ⟨rfl, hF.of_places_eq rfl⟩
  | drain =>
    simp only [call, hqueue]
    cases hq : w.queue with
    | nil => exact ⟨rfl, hF⟩
    | cons t rest => exact ⟨rfl, hF.of_places_eq rfl⟩
  | request k =>
    simp only [call, request_recount]
    exact ⟨rfl, hF.of_places_eq (by unfold World.request; split <;> rfl)⟩
  | stopped k => exact ⟨rfl, hF⟩
  | schedule j => exact ⟨by simp [call, finish, Config.recount, Control.recount, Task.recount],
      hF.of_places_eq rfl⟩
  | wait x =>
    have hwait : F.Fits { w with waiter := some { id := w.waits }, waits := w.waits + 1 } :=
      hF.of_places_eq rfl
    refine ⟨?_, (hwait.setLayers .wait []).note .wait _⟩
    simp only [call, Config.recount, Control.recount, World.recount_note, recount_setLayers hwait]
    rfl

/-! ### Returning and unwinding -/

lemma carried_unblock (hF : F.Fits w) :
    Carried F es (unblock w K) (unblock (w.recount F es) (K.map (Frame.recount F))) := by
  simp only [unblock, release, World.given_recount, dropAbove_recount hF]
  cases w.given with
  | none =>
    have hleave : F.Fits (w.dropAbove .wait 0 true).1.leave :=
      (hF.dropAbove .wait 0 true).of_places_eq rfl
    exact carried_fault hleave _
  | some c =>
    have hleave : F.Fits (w.dropAbove .wait 0 false).1.leave :=
      (hF.dropAbove .wait 0 false).of_places_eq rfl
    simp only
    generalize w.dropAbove .wait 0 false = d at hleave ⊢
    obtain ⟨w', raised⟩ := d
    cases raised with
    | none => exact ⟨by simp [Config.recount, Control.recount], hleave.note .wait _⟩
    | some m => exact ⟨rfl, hleave⟩

lemma carried_abandon (hF : F.Fits w) :
    Carried F es (abandon w K) (abandon (w.recount F es) (K.map (Frame.recount F))) := by
  simp only [abandon, World.given_recount]
  cases w.given with
  | some c => exact carried_finish hF
  | none =>
    have hw : (w.recount F es).note .wait [.remark "abandoned"] =
        (w.note .wait [.remark "abandoned"]).recount F es := by simp
    have hnote := hF.note .wait [.remark "abandoned"]
    simp only [hw, dropAbove_recount hnote]
    exact carried_finishOr (hnote.dropAbove .wait 0 false) _

@[simp] lemma map_recount_settled {f : Nat → Nat} (c : Completion Value Failure)
    (waiting : List Observer) : (settled c waiting).map (Act.recount f) = settled c waiting := by
  simp [settled]

lemma carried_resume (hF : F.Fits w) (a : Reply) (f : Frame) :
    Carried F es (resume w a f K)
      (resume (w.recount F es) a (f.recount F) (K.map (Frame.recount F))) := by
  cases f with
  | handoff s h =>
    simp only [resume, Frame.recount, World.binding?_recount]
    cases w.binding? s h with
    | none => exact carried_finish hF
    | some b =>
      exact ⟨by simp [Config.recount, Control.recount, recount_setBinding hF],
        hF.setBinding s h _⟩
  | thenRaise m => exact carried_finishOr hF m
  | discard s c => exact ⟨by simp [resume, finish, Config.recount, Control.recount, Frame.recount],
      hF.note s _⟩
  | settle home c waiting =>
    exact ⟨by simp [resume, finish, Config.recount, Control.recount, Frame.recount],
      hF.note home _⟩
  | acting home label step rest =>
    exact ⟨by simp [resume, Config.recount, Control.recount, Frame.recount], hF.note home _⟩
  | waitDrained => exact carried_abandon hF
  | waitOver => exact carried_unblock hF
  | _ => exact ⟨rfl, hF⟩

lemma carried_unwind (hF : F.Fits w) (m : Payload) (f : Frame) :
    Carried F es (unwind w m f K)
      (unwind (w.recount F es) m (f.recount F) (K.map (Frame.recount F))) := by
  cases f with
  | guard s h =>
    simp only [unwind, Frame.recount, dropAbove_recount hF]
    exact ⟨rfl, hF.dropAbove s h true⟩
  | handoff s h =>
    simp only [unwind, Frame.recount, World.binding?_recount]
    cases w.binding? s h with
    | none => exact ⟨rfl, hF⟩
    | some b =>
      have hw : (w.recount F es).note s [.logged (F s b.serial) (.buildFailed m)] =
          (w.note s [.logged b.serial (.buildFailed m)]).recount F es := by simp
      simp only [Option.map_some, Binding.serial_recount, hw]
      exact carried_pass (hF.note s _) b _
  | script x rest =>
    exact ⟨by simp [unwind, Config.recount, Control.recount, Frame.recount, Run.recount],
      hF.note _ _⟩
  | attempt x rest =>
    exact ⟨by simp [unwind, Config.recount, Control.recount, Frame.recount, Run.recount],
      hF.note _ _⟩
  | discard s c =>
    exact ⟨by simp [unwind, Config.recount, Control.recount, Frame.recount], hF.note s _⟩
  | settle home c waiting =>
    exact ⟨by simp [unwind, Config.recount, Control.recount, Frame.recount], hF.note home _⟩
  | waitOver =>
    have hfits : F.Fits (w.dropAbove .wait 0 true).1.leave :=
      (hF.dropAbove .wait 0 true).of_places_eq rfl
    refine ⟨?_, hfits.note .wait _⟩
    cases hg : w.given <;>
      simp [unwind, Frame.recount, Config.recount, Control.recount, dropAbove_recount hF, hg]
  | _ => exact ⟨rfl, hF⟩

end Machine

namespace Config

variable {c c' : Config}

variable (es) in
/-- A machine makes the same moves under other numbers, and the numbers fit on. -/
theorem recount_next (hF : F.Fits c.world) (hm : c.next = some c') :
    (c.recount F es).next = some (c'.recount F es) ∧ F.Fits c'.world := by
  suffices h : ∃ c'', (c.recount F es).next = some c'' ∧ Carried F es c' c'' by
    obtain ⟨c'', hnext, rfl, hfits⟩ := h
    exact ⟨hnext, hfits⟩
  obtain ⟨w, x, K⟩ := c
  cases x with
  | done a =>
    cases K with
    | nil => simp [Config.next] at hm
    | cons f K =>
      obtain rfl := Option.some.inj hm
      exact ⟨_, rfl, Machine.carried_resume hF a f⟩
  | raised m =>
    cases K with
    | nil => simp [Config.next] at hm
    | cons f K =>
      obtain rfl := Option.some.inj hm
      exact ⟨_, rfl, Machine.carried_unwind hF m f⟩
  | connect x r s h =>
    obtain rfl := Option.some.inj hm
    exact ⟨_, rfl, Machine.carried_connect hF x⟩
  | start s h =>
    obtain rfl := Option.some.inj hm
    exact ⟨_, rfl, Machine.carried_start hF⟩
  | complete r v =>
    obtain rfl := Option.some.inj hm
    exact ⟨_, rfl, Machine.carried_complete hF v⟩
  | build s h =>
    obtain rfl := Option.some.inj hm
    exact ⟨_, rfl, Machine.carried_build hF⟩
  | react home label actions =>
    obtain rfl := Option.some.inj hm
    exact ⟨_, rfl, Machine.carried_react hF label actions⟩
  | follow x steps =>
    obtain rfl := Option.some.inj hm
    exact ⟨_, rfl, Machine.carried_follow hF x steps⟩
  | call x =>
    obtain rfl := Option.some.inj hm
    exact ⟨_, rfl, Machine.carried_call hF x⟩
  | task t =>
    obtain rfl := Option.some.inj hm
    exact ⟨_, rfl, Machine.carried_runTask hF t⟩

lemma recount_isFinal (hc : c.IsFinal) : (c.recount F es).IsFinal := by
  obtain ⟨w, x, K⟩ := c
  cases x with
  | done a =>
    cases K with
    | nil => rfl
    | cons f K => simp [IsFinal, Config.next] at hc
  | raised m =>
    cases K with
    | nil => rfl
    | cons f K => simp [IsFinal, Config.next] at hc
  | _ => simp [IsFinal, Config.next] at hc

end Config

end Handoff
