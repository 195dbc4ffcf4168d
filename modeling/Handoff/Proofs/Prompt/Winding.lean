import Handoff.Proofs.Delivery
import Handoff.Proofs.Panic.Rights

/-!
# Winding down

Once a leaf has completed its receiver inside its start, or let go of it, what is left on the stack
only winds down: scripts make their last remarks, and what stopped leaves carried is dropped. This
changes no operation but for stored numbers, queues nothing and gives nothing to a blocked caller,
which is `World.Stays`.
-/

namespace Handoff

open Config Machine

namespace World

variable {w w' w'' : World} {s : Site}

/-- All sites hold what they held, but for stored values, and nothing was queued or given to a
blocked caller. -/
structure Stays (w w' : World) : Prop where
  like (s : Site) : w.Like s w'
  queue_eq : w'.queue = w.queue
  waiter_eq : w'.waiter = w.waiter

lemma Stays.refl (w : World) : w.Stays w := ⟨fun s => .refl s w, rfl, rfl⟩

lemma Stays.trans (h : w.Stays w') (h' : w'.Stays w'') : w.Stays w'' :=
  ⟨fun s => (h.like s).trans (h'.like s), h'.queue_eq.trans h.queue_eq,
    h'.waiter_eq.trans h.waiter_eq⟩

lemma stays_note (w : World) (s : Site) (acts : List Act) : w.Stays (w.note s acts) :=
  ⟨fun _ => .of_places rfl, rfl, rfl⟩

lemma stays_setScope (w : World) (s : Site) (h : Nat) (env : Env) :
    w.Stays (w.setScope s h env) :=
  ⟨fun s' => .setScope w s' s h env, rfl, rfl⟩

lemma stays_request (w : World) (k : Int) : w.Stays (w.request k).1 := by
  unfold request
  split
  · exact .refl w
  · exact ⟨fun _ => .of_places rfl, rfl, rfl⟩

end World

/-! ### Idle instructions -/

namespace Instr

/-- Whether an instruction neither completes or gives up the receiver, nor raises a payload, nor
puts anything off. -/
def isIdle : Instr → Bool
  | askStop | chain | info | request _ | log _ | peek _ | poke _ _ => true
  | complete _ | attempt _ | stopDone | raise _ | forget | defer | later _ => false

/-- Whether an instruction is idle or drops the receiver. -/
def letsGo : Instr → Bool
  | forget => true
  | i => i.isIdle

end Instr

variable {i : Instr} {steps rest : List Instr}

lemma exists_instruct (hi : i.isIdle = true) (w : World) (run : Run) (rest : List Instr) :
    ∃ w', w.Stays w' ∧ ∀ K, instruct w run i rest K = ⟨w', .follow run rest, K⟩ := by
  cases i with
  | askStop => exact ⟨_, World.stays_note .., fun K => rfl⟩
  | chain => exact ⟨_, World.stays_note .., fun K => rfl⟩
  | info => exact ⟨_, World.stays_note .., fun K => rfl⟩
  | log text => exact ⟨_, World.stays_note .., fun K => rfl⟩
  | peek d => exact ⟨_, World.stays_note .., fun K => rfl⟩
  | poke d n => exact ⟨_, World.stays_setScope .., fun K => rfl⟩
  | request k => exact ⟨_, (World.stays_request w k).trans (World.stays_note ..), fun K => rfl⟩
  | _ => simp [Instr.isIdle] at hi

/-- An idle instruction is carried out or, if the receiver may no longer be used, left out. -/
lemma exists_follow (hi : i.isIdle = true) (w : World) (run : Run) (rest : List Instr) :
    ∃ w', w.Stays w' ∧ ∀ K, follow w run (i :: rest) K = ⟨w', .follow run rest, K⟩ := by
  obtain ⟨w', hstays, hinstruct⟩ := exists_instruct hi w run rest
  by_cases hu : w.isUsable run = true
  · exact ⟨w', hstays, fun K => by simp [follow, hu, hinstruct]⟩
  · cases i with
    | log text => exact ⟨w', hstays, fun K => by simp [follow, hu, hinstruct]⟩
    | raise p => simp [Instr.isIdle] at hi
    | _ => exact ⟨w, .refl w, fun K => by simp [follow, hu]⟩

/-- A script makes its way past idle instructions. -/
lemma leads_follow_idle (hsteps : ∀ i ∈ steps, i.isIdle = true) (w : World) (run : Run)
    (rest : List Instr) :
    ∃ w', w.Stays w' ∧
      ∀ K, Leads ⟨w, .follow run (steps ++ rest), K⟩ [] ⟨w', .follow run rest, K⟩ := by
  induction steps generalizing w with
  | nil => exact ⟨w, .refl w, fun K => .refl _⟩
  | cons i steps ih =>
    obtain ⟨hi, hsteps⟩ := List.forall_mem_cons.1 hsteps
    obtain ⟨w₁, hstays₁, hfollow⟩ := exists_follow hi w run (steps ++ rest)
    obtain ⟨w₂, hstays₂, hleads⟩ := ih hsteps w₁
    exact ⟨w₂, hstays₁.trans hstays₂, fun K => .quiet (congrArg some (hfollow K)) rfl (hleads K)⟩

/-- A script that only lets go comes to its end. -/
lemma leads_follow_letsGo (hsteps : ∀ i ∈ steps, i.letsGo = true) (w : World) (run : Run) :
    ∃ w', w.Stays w' ∧ ∀ K, Leads ⟨w, .follow run steps, K⟩ [] (finish w' K) := by
  induction steps generalizing w run with
  | nil => exact ⟨_, World.stays_note .., fun K => .quiet rfl rfl (.refl _)⟩
  | cons i steps ih =>
    obtain ⟨hi, htail⟩ := List.forall_mem_cons.1 hsteps
    by_cases hforget : i = .forget
    · subst hforget
      by_cases hu : w.isUsable run = true
      · obtain ⟨w', hstays, hleads⟩ := ih htail (dropReceiver w run) { run with receiver := none }
        refine ⟨w', (World.stays_note ..).trans hstays, fun K => .quiet ?_ rfl (hleads K)⟩
        simp [next, follow, hu, instruct]
      · obtain ⟨w', hstays, hleads⟩ := ih htail w run
        refine ⟨w', hstays, fun K => .quiet ?_ rfl (hleads K)⟩
        simp [next, follow, hu]
    · have hidle : i.isIdle = true := by cases i <;> simp_all [Instr.letsGo, Instr.isIdle]
      obtain ⟨w₁, hstays₁, hfollow⟩ := exists_follow hidle w run steps
      obtain ⟨w₂, hstays₂, hleads⟩ := ih htail w₁ run
      exact ⟨w₂, hstays₁.trans hstays₂, fun K => .quiet (congrArg some (hfollow K)) rfl (hleads K)⟩

/-! ### Frames that wind down -/

/-- A frame that leaves operations, the queue and callers alone when it is returned to. -/
def Frame.Winds : Frame → Prop
  | script _ rest => ∀ i ∈ rest, i.letsGo = true
  | attempt _ rest => ∀ i ∈ rest, i.letsGo = true
  | discard _ _ => True
  | _ => False

/-- A stack of such frames winds down. -/
theorem leads_winding {fs : List Frame} (hfs : ∀ f ∈ fs, f.Winds) (w : World) :
    ∃ w', w.Stays w' ∧ ∀ K, Leads (finish w (fs ++ K)) [] (finish w' K) := by
  induction fs generalizing w with
  | nil => exact ⟨w, .refl w, fun K => .refl _⟩
  | cons f fs ih =>
    obtain ⟨hf, hfs⟩ := List.forall_mem_cons.1 hfs
    obtain ⟨w₁, hstays₁, hleads₁⟩ : ∃ w₁, w.Stays w₁ ∧
        ∀ K, Leads (finish w (f :: K)) [] (finish w₁ K) := by
      cases f with
      | script run rest =>
        obtain ⟨w₁, hstays, hleads⟩ := leads_follow_letsGo hf w run
        exact ⟨w₁, hstays, fun K => .quiet rfl rfl (hleads K)⟩
      | attempt run rest =>
        obtain ⟨w₁, hstays, hleads⟩ := leads_follow_letsGo hf w run
        exact ⟨w₁, hstays, fun K => .quiet rfl rfl (hleads K)⟩
      | discard s c => exact ⟨_, World.stays_note .., fun K => .quiet rfl rfl (.refl _)⟩
      | _ => exact hf.elim
    obtain ⟨w₂, hstays₂, hleads₂⟩ := ih hfs w₁
    exact ⟨w₂, hstays₁.trans hstays₂, fun K => (hleads₁ (fs ++ K)).append_quiet (hleads₂ K)⟩

end Handoff
