import Handoff.Proofs.Delivery
import Handoff.Proofs.Framing

/-!
# Blocking without help

A caller that blocks until a sender completes makes a channel, connects the sender to a final
receiver that has the sending end, starts it and blocks on the other end. A machine helps it on from
there: it runs the queue and lets go of an operation that was not completed, so that no host waits
for good (`Config.leads_abandon`). `Config.Unaided` is the machine without that help. Its moves are
those of `Config.next` but for the one that follows where the caller blocks, which it makes only if
there is something to receive. What has become of the channel by then depends on who has the
caller's receiver: `Config.Brings`. With a completion given and nothing queued, help makes no
difference (`Config.leads_release`).
-/

namespace Handoff

open Config Machine

/-- A caller that has received a completion drops its operation first, and then what it has
received. -/
lemma Machine.release_sent (w : World) (v : Completion Value Failure) (K : List Frame) :
    release w (.sent v) K = match (w.dropAbove .wait 0 false).2 with
      | none => ⟨(w.dropAbove .wait 0 false).1.leave.note .wait (dropCarried v),
          .done (.completion (v.map Value.n)), K⟩
      | some m => ⟨(w.dropAbove .wait 0 false).1.leave, .raised m, K⟩ := by
  simp only [release]
  rcases w.dropAbove .wait 0 false with ⟨w₁, _ | m⟩ <;> rfl

/-! ### Who has a receiver -/

/-- The receiver that a task has, if any. -/
def Task.receiver? : Task → Option Receiver
  | complete _ r => some r
  | resume r _ => r.receiver
  | job _ => none

/-- The receiver that a frame has, if any. -/
def Frame.receiver? : Frame → Option Receiver
  | script r _ => r.receiver
  | attempt r _ => r.receiver
  | _ => none

/-- The receiver that a control has, if any. -/
def Control.receiver? : Control → Option Receiver
  | connect _ r _ _ => some r
  | complete r _ => some r
  | follow r _ => r.receiver
  | call (.connect _ _ r) => some r
  | task t => t.receiver?
  | _ => none

namespace Config

/-- Somebody has a receiver: an operation, a task of the queue, or what is under way. -/
inductive Owns (c : Config) (r : Receiver) : Prop
  | layer {s : Site} {l : Layer} (hl : l ∈ c.world.layers s) (hr : l.receiver? = some r)
  | task {t : Task} (ht : t ∈ c.world.queue) (hr : t.receiver? = some r)
  | control (hr : c.control.receiver? = some r)
  | frame {f : Frame} (hf : f ∈ c.stack) (hr : f.receiver? = some r)

/-! ### The channel to a blocked caller -/

/-- What has become of the channel to the blocked caller. Its sending end is in the final receiver
of the caller, and is dropped with that. -/
inductive Brings (ch : Channel (Completion Value Failure)) (c : Config) : ch.State → Prop
  | sent {id : Nat} {v : Completion Value Failure}
      (hw : c.world.waiter = some { id, given := some v }) : Brings ch c (ch.send ch.new v)
  | dropped {id : Nat} (hw : c.world.waiter = some { id }) (hr : ¬ c.Owns (.waiter id)) :
      Brings ch c (ch.close ch.new)
  | kept {id : Nat} (hw : c.world.waiter = some { id }) (hr : c.Owns (.waiter id)) :
      Brings ch c ch.new

/-- A caller on top of a stack has started its operation and blocks. -/
def blocking (w : World) (K : List Frame) : Config :=
  ⟨w, .done .nothing, .waitStarted :: .waitOver :: K⟩

/-- One move of a machine that does not help a caller on top of a stack: this goes on from where it
blocks only with what it receives. -/
inductive Unaided (ch : Channel (Completion Value Failure)) (K : List Frame) :
    Config → Config → Prop
  | move {c c' : Config} (hc : ∀ w, c ≠ blocking w K) (hm : c.Moves c') : Unaided ch K c c'
  | woken {w : World} {st : ch.State} {x : Received (Completion Value Failure)}
      (hst : (blocking w K).Brings ch st) (hx : ch.block st = some x) :
      Unaided ch K (blocking w K) (release w x K)

/-- Any number of unaided moves, and what final receivers are given on the way. -/
inductive UnaidedLeads (ch : Channel (Completion Value Failure)) (K : List Frame) :
    Config → List Parcel → Config → Prop
  | refl (c : Config) : UnaidedLeads ch K c [] c
  | step {c c' c'' : Config} {ps : List Parcel} (h : Unaided ch K c c')
      (h' : UnaidedLeads ch K c' ps c'') : UnaidedLeads ch K c (c.given ++ ps) c''

variable {ch : Channel (Completion Value Failure)} {K L : List Frame} {w : World}
  {c c' c'' d : Config} {ps ps' : List Parcel} {id : Nat} {v : Completion Value Failure}
  {st st' : ch.State}

lemma UnaidedLeads.trans (h : UnaidedLeads ch K c ps c') (h' : UnaidedLeads ch K c' ps' c'') :
    UnaidedLeads ch K c (ps ++ ps') c'' := by
  induction h with
  | refl => exact h'
  | step h _ ih =>
    rw [List.append_assoc]
    exact .step h (ih h')

/-- What a machine does by itself it does unaided, on top of a caller that does not block yet. -/
lemma Leads.unaided (h : c.Leads ps d) (hL : L.length = K.length + 2) :
    UnaidedLeads ch K (c.onto L) ps (d.onto L) := by
  induction h with
  | refl => exact .refl _
  | @step c c' d ps hm _ ih =>
    have hc (w : World) : c.onto L ≠ blocking w K := by
      rintro hc
      obtain ⟨w', x, fs⟩ := c
      obtain ⟨rfl, rfl, hstack⟩ : w' = w ∧ x = .done .nothing ∧
          fs ++ L = .waitStarted :: .waitOver :: K := by simpa [blocking] using hc
      have hlength := congrArg List.length hstack
      obtain rfl : fs = [] := by simpa [hL] using hlength
      cases hm
    exact .step (c := c.onto L) (.move hc (hm.onto L)) ih

/-! ### The help of a machine -/

/-- A machine with nothing queued does not wait for good: it lets go of an operation that was not
completed. -/
lemma leads_abandon (hq : w.queue = []) (a : Reply) (K : List Frame) :
    Leads ⟨w, .done a, .waitStarted :: .waitOver :: K⟩ [] (abandon w (.waitOver :: K)) := by
  have hdrain : Leads ⟨w, .call .drain, .waitDrained :: .waitOver :: K⟩ []
      (finish w (.waitDrained :: .waitOver :: K)) :=
    .quiet (by simp [next, Machine.call, hq]) rfl (.refl _)
  exact .quiet rfl rfl (hdrain.append_quiet (.quiet rfl rfl (.refl _)))

/-- With nothing queued, a caller that was given a completion goes on with that. -/
lemma leads_release (hw : w.waiter = some { id, given := some v }) (hq : w.queue = []) (a : Reply)
    (K : List Frame) :
    Leads ⟨w, .done a, .waitStarted :: .waitOver :: K⟩ [] (release w (.sent v) K) := by
  have hgiven : w.given = some v := by simp [World.given, hw]
  have habandon : abandon w (.waitOver :: K) = finish w (.waitOver :: K) := by
    simp [abandon, hgiven]
  have hunblock : Leads (finish w (.waitOver :: K)) [] (release w (.sent v) K) :=
    .quiet (by simp [next, finish, resume, unblock, hgiven]) rfl (.refl _)
  have hleads := leads_abandon hq a K
  rw [habandon] at hleads
  exact hleads.append_quiet hunblock

/-! ### Where a caller blocks -/

/-- A channel has come to one state only. -/
lemma Brings.unique (h : c.Brings ch st) (h' : c.Brings ch st') : st = st' := by
  cases h with
  | sent hw =>
    cases h' with
    | sent hw' =>
      obtain ⟨-, hv⟩ := Wait.mk.inj (Option.some.inj (hw.symm.trans hw'))
      rw [Option.some.inj hv]
    | dropped hw' => cases hw.symm.trans hw'
    | kept hw' => cases hw.symm.trans hw'
  | dropped hw hr =>
    cases h' with
    | sent hw' => cases hw.symm.trans hw'
    | dropped hw' => rfl
    | kept hw' hr' =>
      obtain ⟨rfl, -⟩ := Wait.mk.inj (Option.some.inj (hw.symm.trans hw'))
      exact absurd hr' hr
  | kept hw hr =>
    cases h' with
    | sent hw' => cases hw.symm.trans hw'
    | dropped hw' hr' =>
      obtain ⟨rfl, -⟩ := Wait.mk.inj (Option.some.inj (hw.symm.trans hw'))
      exact absurd hr hr'
    | kept hw' => rfl

/-- A caller that blocks goes on with what it receives, and else not at all. -/
lemma Brings.unaided_iff (h : (blocking w K).Brings ch st) : Unaided ch K (blocking w K) c' ↔
    ∃ x, ch.block st = some x ∧ c' = release w x K := by
  constructor
  · intro hu
    generalize hb : blocking w K = b at hu
    cases hu with
    | move hc => exact absurd hb.symm (hc w)
    | @woken w' st' x hst hx =>
      obtain rfl : w = w' := congrArg Config.world hb
      obtain rfl := h.unique hst
      exact ⟨x, hx, rfl⟩
  · rintro ⟨x, hx, rfl⟩
    exact .woken h hx

/-- A machine has no choice without help either. -/
theorem Unaided.unique (h : Unaided ch K c c') (h' : Unaided ch K c c'') : c' = c'' := by
  cases h with
  | move hc hm =>
    cases h' with
    | move _ hm' => exact hm.unique hm'
    | woken => exact absurd rfl (hc _)
  | woken hst hx =>
    obtain ⟨x', hx', rfl⟩ := hst.unaided_iff.1 h'
    rw [Option.some.inj (hx.symm.trans hx')]

variable (hch : ch.OneShot)
include hch

/-- A caller that was given a completion goes on with that. -/
lemma unaided_blocking_of_given (hw : w.waiter = some { id, given := some v }) :
    Unaided ch K (blocking w K) c' ↔ c' = release w (.sent v) K := by
  simp [Brings.unaided_iff (.sent hw), hch.sent]

/-- A caller whose receiver was dropped goes on without a completion. -/
lemma unaided_blocking_of_dropped (hw : w.waiter = some { id })
    (hr : ¬ (blocking w K).Owns (.waiter id)) :
    Unaided ch K (blocking w K) c' ↔ c' = release w .canceled K := by
  simp [Brings.unaided_iff (.dropped hw hr), hch.canceled]

/-- A caller does not go on while somebody has its receiver. -/
lemma not_unaided_blocking_of_kept (hw : w.waiter = some { id })
    (hr : (blocking w K).Owns (.waiter id)) : ¬ Unaided ch K (blocking w K) c' := by
  simp [Brings.unaided_iff (.kept hw hr), hch.pending]

end Config

end Handoff
