import Handoff.Proofs.Hearing
import Handoff.Proofs.Lifetime.Moves
import Handoff.Proofs.Panic.Rights

/-!
# The thread of a run

At any moment of a run the stack shows what the machine is at. While senders are connected there are
guards on top of it, and a handoff below them unless a host is connecting; in all other phases the
frames are idle: they let a payload through, and whatever they return to completes nothing.
`Thread` describes the phases, each with the receivers that may still be completed in it. This
module is about the phases outside of handoffs.
-/

namespace Handoff

open Machine
open Layer (offer Open)

/-- A frame that hands nothing over: what it goes on with completes nothing. -/
def Frame.Idle : Frame → Prop
  | script _ rest => Instr.spendsAll rest = 0
  | attempt _ rest => Instr.spendsAll rest = 0
  | discard _ _ => True
  | settle _ _ _ => True
  | answer _ => True
  | draining => True
  | _ => False

/-- The guards of operations that are finished in place, each inside the one before. -/
def Frame.guards (s : Site) (base : Nat) : Nat → List Frame
  | 0 => []
  | n + 1 => .guard s (base + n) :: guards s base n

/-- A call that leaves what is connected in its place, and places nothing elsewhere. -/
def Call.Attends (s : Site) : Call → Prop
  | start p => .place p = s
  | vacant _ => True
  | pending => True
  | tick => True
  | drain => True
  | request _ => True
  | stopped _ => True
  | schedule _ => True
  | connect _ _ _ => False
  | clear _ => False
  | wait _ => False

namespace Control

/-- The receivers that a control is about to complete or may still complete. -/
def rights : Control → List Receiver
  | complete r _ => [r]
  | follow r steps => (r.right steps).toList
  | task t => t.right.toList
  | _ => []

/-- A control outside of handoffs that comes from lawful senders and a calm receiver. -/
def Fit (s : Site) : Control → Prop
  | complete _ _ => True
  | follow _ steps => Instr.spendsAll steps ≤ 1
  | react _ _ actions => ∀ a ∈ actions, a.isStep = false
  | call c => c.Attends s
  | task t => t.Lawful
  | done _ => True
  | raised _ => True
  | _ => False

end Control

/-- A binding operation amid its handoff, on top of those below it: its receiver can be given an
error, and starting from the outside does not lead into it. -/
structure Amid (o : Receiver) (s : Site) (below : List Layer) (b : Binding) : Prop where
  exists_receiver : ∃ r, b.receiver = some r ∧ Open o s below r
  cleanup_eq : b.cleanup = .invalid ∨ b.cleanup = .values
  storage_ne : b.storage ≠ .predecessor
  offer_eq : offer (below ++ [.bind b]) = none

/-- What an operation is connected on top of, what will have become of that once it is started, and
the stack of whoever connects it. -/
inductive Footing (o : Receiver) (s : Site) : List Layer → List Layer → List Frame → Prop where
  | vacant : Footing o s [] [] []
  | handoff {below : List Layer} {b : Binding} {K : List Frame} (hb : Amid o s below b)
      (hK : ∀ f ∈ K, f.Idle) :
      Footing o s (below ++ [.bind b]) (below ++ [.bind b.settle])
        (.handoff s below.length :: K)

/-- The phases of a run at a site in which at most so many completions are still to be given to the
final receiver. -/
inductive Thread (o : Receiver) (s : Site) : Nat → Config → Prop where
  /-- A host is about to connect in a vacant place. -/
  | called {w : World} {p : Int} {x : Sender} (hw : w.Lawful s) (hp : .place p = s)
      (hl : w.layers s = []) (hq : w.spare = []) (hx : x.Lawful) :
      Thread o s 1 ⟨w, .call (.connect p x o), []⟩
  | loose {n : Nat} {w : World} {control : Control} {K : List Frame} (hw : w.Lawful s)
      (hc : control.Fit s) (hK : ∀ f ∈ K, f.Idle)
      (hb : w.Bears o s n (control.rights ++ (offer (w.layers s)).toList)) :
      Thread o s n ⟨w, control, K⟩
  /-- An operation is started, and will find out whether it can be. -/
  | starting {n : Nat} {w : World} {outer inner : List Layer} {K : List Frame} (hw : w.Lawful s)
      (hl : w.layers s = outer ++ inner) (ho : offer outer = none)
      (hlast : ∀ b, outer.getLast? = some (.bind b) →
        b.storage = .predecessor ∨ b.cleanup = .successor)
      (hK : ∀ f ∈ K, f.Idle) (hb : w.Bears o s n (offer inner).toList) :
      Thread o s n ⟨w, .start s outer.length, K⟩
  | building {w : World} {below : List Layer} {b : Binding} {K : List Frame} (hw : w.Lawful s)
      (hb : Amid o s below b) (hl : w.layers s = below ++ [.bind b]) (hK : ∀ f ∈ K, f.Idle)
      (hq : w.spare = []) :
      Thread o s 1 ⟨w, .build s below.length, .handoff s below.length :: K⟩
  | connecting {w : World} {x : Sender} {r : Receiver} {base settled outer : List Layer}
      {K : List Frame} (hw : w.Lawful s) (hf : Footing o s base settled K)
      (hl : w.layers s = base ++ outer) (ho : ∀ l ∈ outer, l.descends = true) (hq : w.spare = [])
      (hx : x.Lawful) (hr : Open o s (settled ++ outer) r) :
      Thread o s 1 ⟨w, .connect x r s (base.length + outer.length),
        Frame.guards s base.length outer.length ++ K⟩
  | connected {w : World} {reply : Reply} {base settled inner : List Layer} {K : List Frame}
      {n : Nat} (hw : w.Lawful s) (hf : Footing o s base settled K)
      (hl : w.layers s = base ++ inner) (hq : w.spare = [])
      (hr : ∀ r, offer inner = some r → Open o s (settled ++ inner) r) :
      Thread o s 1 ⟨w, .done reply, Frame.guards s base.length n ++ K⟩
  | failed {w : World} {m : Payload} {base settled outer inner : List Layer} {K : List Frame}
      (hw : w.Lawful s) (hf : Footing o s base settled K)
      (hl : w.layers s = base ++ (outer ++ inner)) (ho : ∀ l ∈ outer, l.descends = true)
      (hq : w.spare = [])
      (hr : ∀ r, offer inner = some r → Open o s (settled ++ (outer ++ inner)) r) :
      Thread o s 1 ⟨w, .raised m, Frame.guards s base.length outer.length ++ K⟩

/-- A configuration that a move may lead to from a world, without anything for the final receiver:
it is in one of the phases, and operations have aged. -/
def Onward (o : Receiver) (s : Site) (n : Nat) (w : World) (c : Config) : Prop :=
  Thread o s n c ∧ w.Ages s c.world

variable {o : Receiver} {s : Site} {n : Nat} {w w' : World} {K : List Frame}

lemma Onward.after {c : Config} (hw : w.Ages s w') (h : Onward o s n w' c) : Onward o s n w c :=
  ⟨h.1, hw.trans h.2⟩

/-- Nothing has changed that matters, and nobody else may complete a receiver. -/
lemma Onward.like {rs : List Receiver} {control : Control} (hw : w.Lawful s)
    (hb : w.Bears o s n (rs ++ (offer (w.layers s)).toList)) (hlike : w.Like s w')
    (hq : w'.queue = w.queue) (hrs : control.rights.Sublist rs) (hc : control.Fit s)
    (hK : ∀ f ∈ K, f.Idle) : Onward o s n w ⟨w', control, K⟩ := by
  refine ⟨.loose (hw.of_like hlike hq) hc hK ?_, hlike.ages⟩
  rw [Layer.offer_eq_of_bare hlike.layers_eq]
  have hsub : (control.rights ++ (offer (w.layers s)).toList ++ w'.spare).Sublist
      (rs ++ (offer (w.layers s)).toList ++ w.spare) := by
    rw [World.spare_eq_of_queue hq]
    exact (hrs.append_right _).append_right _
  exact hb.of_like hlike hsub.length_le fun r hr => hsub.subset hr

/-- A task has been put into the queue, and what it completes nobody else will. -/
lemma Onward.scheduled {rs : List Receiver} {control : Control} {t : Task} (hw : w.Lawful s)
    (hb : w.Bears o s n (rs ++ (offer (w.layers s)).toList)) (hp : w'.places = w.places)
    (hq : w'.queue = w.queue ++ [t]) (ht : t.Lawful)
    (hlen : (control.rights ++ t.right.toList).length ≤ rs.length)
    (hmem : ∀ r ∈ control.rights ++ t.right.toList, r ∈ rs) (hc : control.Fit s)
    (hK : ∀ f ∈ K, f.Idle) : Onward o s n w ⟨w', control, K⟩ := by
  have hlike : w.Like s w' := .of_places hp
  have hspare : w'.spare = w.spare ++ t.right.toList := by
    rw [← World.spare_schedule]
    exact World.spare_eq_of_queue hq
  refine ⟨.loose (hw.of_mem hlike ?_) hc hK ?_, hlike.ages⟩
  · intro t' ht'
    rw [hq, List.mem_append, List.mem_singleton] at ht'
    rcases ht' with ht' | rfl
    · exact .inl ht'
    · exact .inr ht
  · rw [Layer.offer_eq_of_bare hlike.layers_eq]
    refine hb.of_like hlike ?_ ?_
    · simp only [List.length_append, hspare] at hlen ⊢
      omega
    · intro r hr
      simp only [List.mem_append, hspare] at hr hmem ⊢
      rcases hr with (hr | hr) | hr | hr
      · exact .inl (.inl (hmem r (.inl hr)))
      · exact .inl (.inr hr)
      · exact .inr hr
      · exact .inl (.inl (hmem r (.inr hr)))

lemma idle_cons {f : Frame} (hf : f.Idle) (hK : ∀ f ∈ K, f.Idle) : ∀ g ∈ f :: K, g.Idle := by
  intro g hg
  rcases List.mem_cons.1 hg with rfl | hg
  · exact hf
  · exact hK g hg

/-! ### Following a script -/

lemma Instr.le_spends {i : Instr} (hi : ∀ p, i ≠ .raise p) (n : Nat) : n ≤ i.spends n := by
  cases i with
  | raise p => exact absurd rfl (hi p)
  | _ => simp only [spends]; omega

lemma Run.right_sublist (r : Run) {steps steps' : List Instr}
    (h : Instr.spendsAll steps' ≤ Instr.spendsAll steps) :
    (r.right steps').toList.Sublist (r.right steps).toList := by
  unfold Run.right
  by_cases hzero : Instr.spendsAll steps' = 0
  · simp [hzero]
  · have hpos : Instr.spendsAll steps ≠ 0 := by omega
    simp [hzero, hpos]

lemma Run.right_eq_receiver (r : Run) {steps : List Instr} (h : Instr.spendsAll steps ≠ 0) :
    r.right steps = r.receiver := if_neg h

lemma Run.right_eq_none (r : Run) {steps : List Instr} (h : Instr.spendsAll steps = 0) :
    r.right steps = none := if_pos h

/-- A run completes its receiver for the last time. -/
lemma onward_deliver (r : Run) (frame : Run → Frame) (hw : w.Lawful s) (hK : ∀ f ∈ K, f.Idle)
    (hframe : ∀ r, (frame r).Idle)
    (hb : w.Bears o s n (r.receiver.toList ++ (offer (w.layers s)).toList)) (d : Delivery) :
    Onward o s n w (deliver w r d frame K) := by
  rw [deliver]
  cases hr : r.receiver with
  | none =>
    exact .like hw hb (.of_places rfl) rfl (List.nil_sublist _) trivial (idle_cons (hframe r) hK)
  | some receiver =>
    rw [hr] at hb
    exact .like hw hb (.refl s w) rfl (.refl _) trivial (idle_cons (hframe _) hK)

lemma places_request (w : World) (k : Int) :
    (w.request k).1.places = w.places ∧ (w.request k).1.queue = w.queue := by
  rw [World.request]
  split_ifs <;> exact ⟨rfl, rfl⟩

lemma Run.right_giveAway_sublist (r : Run) (steps : List Instr) :
    ((giveAway r).right steps).toList.Sublist (r.right steps).toList := by
  unfold Run.right giveAway
  split_ifs
  · exact .refl _
  · cases r.receiver with
    | none => exact .refl _
    | some receiver => cases hc : receiver.isChild <;> simp [hc]

lemma onward_instruct {r : Run} {i : Instr} {rest : List Instr} (hw : w.Lawful s)
    (hK : ∀ f ∈ K, f.Idle) (hsteps : Instr.spendsAll (i :: rest) ≤ 1)
    (hb : w.Bears o s n ((r.right (i :: rest)).toList ++ (offer (w.layers s)).toList)) :
    Onward o s n w (instruct w r i rest K) := by
  -- most instructions leave the rest of the script to be followed
  have hfollow (hi : ∀ p, i ≠ .raise p) {w' : World} (hlike : w.Like s w')
      (hq : w'.queue = w.queue) : Onward o s n w ⟨w', .follow r rest, K⟩ := by
    have hle : Instr.spendsAll rest ≤ Instr.spendsAll (i :: rest) := Instr.le_spends hi _
    exact .like hw hb hlike hq (r.right_sublist hle) (Nat.le_trans hle hsteps) hK
  cases i with
  | complete d =>
    have hrest : Instr.spendsAll rest = 0 := Nat.le_zero.1 (Nat.le_of_succ_le_succ hsteps)
    have hspends : Instr.spendsAll (.complete d :: rest) ≠ 0 := Nat.succ_ne_zero _
    rw [r.right_eq_receiver hspends] at hb
    exact onward_deliver r (.script · rest) hw hK (fun _ => hrest) hb d
  | attempt d =>
    have hrest : Instr.spendsAll rest = 0 := Nat.le_zero.1 (Nat.le_of_succ_le_succ hsteps)
    have hspends : Instr.spendsAll (.attempt d :: rest) ≠ 0 := Nat.succ_ne_zero _
    rw [r.right_eq_receiver hspends] at hb
    exact onward_deliver r (.attempt · rest) hw hK (fun _ => hrest) hb d
  | askStop => exact hfollow (by simp) (.of_places rfl) rfl
  | stopDone =>
    simp only [instruct]
    split_ifs
    · have hspends : Instr.spendsAll (.stopDone :: rest) ≠ 0 := by
        simp only [Instr.spendsAll, Instr.spends]
        omega
      rw [r.right_eq_receiver hspends] at hb
      have hlike : w.Like s (w.note r.site [.gaveUp r.label]) := .of_places rfl
      have hdeliver := onward_deliver (w := w.note r.site [.gaveUp r.label]) r
        (.script · []) (hw.of_like hlike rfl) hK (fun _ => rfl)
        (hb.of_like hlike (Nat.le_refl _) fun r hr => hr) .done
      exact hdeliver.after hlike.ages
    · exact hfollow (by simp) (.refl s w) rfl
  | chain => exact hfollow (by simp) (.of_places rfl) rfl
  | info => exact hfollow (by simp) (.of_places rfl) rfl
  | request k =>
    exact hfollow (by simp) (.of_places (places_request w k).1) (places_request w k).2
  | log text => exact hfollow (by simp) (.of_places rfl) rfl
  | peek d => exact hfollow (by simp) (.of_places rfl) rfl
  | poke d m => exact hfollow (by simp) (.setScope w s r.site r.reach _) rfl
  | raise p => exact .like hw hb (.of_places rfl) rfl (List.nil_sublist _) trivial hK
  | forget =>
    refine .like hw hb (.of_places rfl) rfl ?_ hsteps hK
    rw [Control.rights, Run.right]
    split_ifs <;> exact List.nil_sublist _
  | defer =>
    refine .scheduled hw hb rfl rfl hsteps ?_ ?_ trivial hK
    · exact Nat.le_refl _
    · intro receiver hmem
      exact hmem
  | later steps =>
    have hsum : Instr.spendsAll steps + Instr.spendsAll rest ≤ 1 := hsteps
    have hrights := r.right_giveAway_sublist rest
    refine .scheduled (t := .resume { r with id := w.runs } steps) hw hb rfl rfl ?_ ?_ ?_ ?_ hK
    · exact Nat.le_trans (Nat.le_add_right _ _) hsum
    · by_cases hzero : Instr.spendsAll steps = 0
      · have hall : Instr.spendsAll (.later steps :: rest) = Instr.spendsAll rest := by
          simp [Instr.spendsAll, Instr.spends, hzero]
        simp only [Control.rights, Task.right, Run.right_eq_none _ hzero, Option.toList_none,
          List.append_nil]
        refine Nat.le_trans hrights.length_le ?_
        exact (r.right_sublist (Nat.le_of_eq hall.symm)).length_le
      · have hrest : Instr.spendsAll rest = 0 := by omega
        have hall : Instr.spendsAll (.later steps :: rest) ≠ 0 := by
          simp only [Instr.spendsAll, Instr.spends]
          omega
        simp [Control.rights, Task.right, Run.right_eq_none _ hrest, r.right_eq_receiver hall,
          Run.right_eq_receiver _ hzero]
    · intro receiver hmem
      have hle₁ : Instr.spendsAll steps ≤ Instr.spendsAll (.later steps :: rest) :=
        Nat.le_add_right _ _
      have hle₂ : Instr.spendsAll rest ≤ Instr.spendsAll (.later steps :: rest) :=
        Nat.le_add_left _ _
      rcases List.mem_append.1 hmem with hmem | hmem
      · exact (r.right_sublist hle₂).subset (hrights.subset hmem)
      · exact (r.right_sublist hle₁).subset hmem
    · exact Nat.le_trans (Nat.le_add_left _ _) hsum

lemma onward_follow {r : Run} {steps : List Instr} (hw : w.Lawful s) (hK : ∀ f ∈ K, f.Idle)
    (hsteps : Instr.spendsAll steps ≤ 1)
    (hb : w.Bears o s n ((r.right steps).toList ++ (offer (w.layers s)).toList)) :
    Onward o s n w (follow w r steps K) := by
  cases steps with
  | nil => exact .like hw hb (.of_places rfl) rfl (List.nil_sublist _) trivial hK
  | cons i rest =>
    unfold follow
    split_ifs
    · exact onward_instruct hw hK hsteps hb
    · have hskip (hi : ∀ p, i ≠ .raise p) : Onward o s n w ⟨w, .follow r rest, K⟩ := by
        have hle : Instr.spendsAll rest ≤ Instr.spendsAll (i :: rest) := Instr.le_spends hi _
        exact .like hw hb (.refl s w) rfl (r.right_sublist hle) (Nat.le_trans hle hsteps) hK
      cases i with
      | log text => exact onward_instruct hw hK hsteps hb
      | raise p => exact onward_instruct hw hK hsteps hb
      | _ => exact hskip (by simp)

/-! ### Calls and tasks -/

lemma queue_foldl_schedule (ts : List Task) (w : World) :
    (ts.foldl World.schedule w).queue = w.queue ++ ts := by
  induction ts generalizing w with
  | nil => simp
  | cons t rest ih => simp [ih]

lemma onward_runTask {t : Task} (hw : w.Lawful s) (hK : ∀ f ∈ K, f.Idle) (ht : t.Lawful)
    (hb : w.Bears o s n (t.right.toList ++ (offer (w.layers s)).toList)) :
    Onward o s n w (runTask w t K) := by
  cases t with
  | complete c r => exact .like hw hb (.refl s w) rfl (.refl _) trivial hK
  | resume r steps =>
    simp only [runTask]
    split_ifs
    · exact .like hw hb (.of_places rfl) rfl (.refl _) ht hK
    · exact .like hw hb (.of_places rfl) rfl (List.nil_sublist _) trivial hK
  | job j =>
    obtain ⟨label, spawned, raised⟩ := j
    set w' := (spawned.map Task.job).foldl World.schedule (w.record none [.remark label]) with hw'
    have hlike : w.Like s w' := .of_places (places_foldl_schedule _ _).1
    have hq : w'.queue = w.queue ++ spawned.map Task.job := queue_foldl_schedule _ _
    have hspare : w'.spare = w.spare := by
      simp only [World.spare, hq, List.filterMap_append, List.filterMap_map]
      exact List.append_right_eq_self.2 (List.filterMap_eq_nil_iff.2 fun j _ => rfl)
    have hlaw : w'.Lawful s := by
      refine hw.of_mem hlike ?_
      intro t ht
      rw [hq, List.mem_append, List.mem_map] at ht
      rcases ht with ht | ⟨j, -, rfl⟩
      · exact .inl ht
      · exact .inr trivial
    have hbears : w'.Bears o s n (offer (w'.layers s)).toList := by
      rw [Layer.offer_eq_of_bare hlike.layers_eq]
      refine hb.of_like hlike ?_ ?_
      · simp [hspare, Task.right]
      · simp [hspare, Task.right]
    cases raised with
    | none => exact ⟨.loose hlaw trivial hK hbears, hlike.ages⟩
    | some m => exact ⟨.loose hlaw trivial hK hbears, hlike.ages⟩

lemma onward_unqueue {t : Task} {rest : List Task} (hw : w.Lawful s) (hq : w.queue = t :: rest)
    (hb : w.Bears o s n (offer (w.layers s)).toList) (hK : ∀ f ∈ K, f.Idle) :
    Onward o s n w ⟨{ w with queue := rest }, .task t, K⟩ := by
  have hlike : w.Like s { w with queue := rest } := .of_places rfl
  have ht : t.Lawful := hw.queue (hq ▸ List.mem_cons_self)
  have hspare : w.spare = t.right.toList ++ World.spare { w with queue := rest } := by
    cases hr : t.right <;> simp [World.spare, hq, hr]
  refine ⟨.loose (hw.of_mem hlike fun t ht => .inl ?_) ht hK (hb.of_like hlike ?_ ?_), hlike.ages⟩
  · exact hq ▸ List.mem_cons_of_mem _ ht
  · simp only [Control.rights, hspare, List.length_append]
    exact Nat.le_of_eq (by ac_rfl)
  · intro r hr
    simp only [Control.rights, List.mem_append] at hr
    simp only [hspare, List.mem_append]
    tauto

lemma onward_call {c : Call} (hw : w.Lawful s) (hK : ∀ f ∈ K, f.Idle) (hc : c.Attends s)
    (hb : w.Bears o s n (offer (w.layers s)).toList) : Onward o s n w (call w c K) := by
  have hnone : w.Bears o s n ([] ++ (offer (w.layers s)).toList) := hb
  have hanswer (r : Reply) : Onward o s n w ⟨w, .done r, K⟩ :=
    .like hw hnone (.refl s w) rfl (.refl _) trivial hK
  cases c with
  | connect p x r => exact hc.elim
  | start p =>
    obtain rfl : .place p = s := hc
    simp only [call, withPlace]
    cases w.places.get? (.place p) with
    | none => exact hanswer _
    | some q =>
      have hstart := @Thread.starting o (.place p) n w [] _ K hw rfl rfl (by simp) hK hb
      exact ⟨hstart, .refl _ w⟩
  | clear p => exact hc.elim
  | vacant p => exact hanswer _
  | pending => exact hanswer _
  | tick =>
    cases hq : w.queue with
    | nil => simpa [call, hq] using hanswer (.flag false)
    | cons t rest =>
      have hidle := idle_cons (f := .answer (.flag true)) trivial hK
      simpa [call, hq] using onward_unqueue hw hq hb hidle
  | drain =>
    cases hq : w.queue with
    | nil =>
      simp only [call, hq]
      exact hanswer .nothing
    | cons t rest =>
      have hidle := idle_cons (f := .draining) trivial hK
      simpa [call, hq] using onward_unqueue hw hq hb hidle
  | request k =>
    exact .like hw hnone (.of_places (places_request w k).1) (places_request w k).2
      (.refl _) trivial hK
  | stopped k => exact hanswer _
  | schedule j =>
    refine .scheduled (t := .job j) hw hnone rfl rfl trivial ?_ ?_ trivial hK
    · exact Nat.le_refl _
    · intro r hr
      exact hr
  | wait x => exact hc.elim

end Handoff
