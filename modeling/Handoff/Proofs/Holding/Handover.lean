import Handoff.Proofs.Handover
import Handoff.Proofs.Holding.Building

/-!
# What a handoff holds

The value of a predecessor begins a handoff: the value is stored, the predecessor operation dropped,
the factory called and its sender connected. Each of these may raise a payload, and what the binding
operation owns then is another matter each time. `Binding.Amid` says how it stands when the handoff
is done or given up, and `leads_handover` that each handoff comes to that.
-/

namespace Handoff

open Config Machine
open Layer (Built Fitting Restored)
open Binding (Hands)

/-- How a binding operation with a factory stands amid a handoff, with what is inside it, once the
successor is built or a payload was raised. -/
inductive Binding.Amid (s : Site) (h : Nat) (next : Env → Sender) (b : Binding) :
    List Layer → Option Payload → Prop where
  | built {env : Env} {ls : List Layer} (hb : b.settle.Fits ls)
      (hls : (next env).Stands s (.child .successor s h) (h + 1) ls) : Amid s h next b ls none
  | failed {ls : List Layer} {m : Payload} (hb : b.spend.Fits ls) (hls : Fitting ls) :
      Amid s h next b ls (some m)

variable {s : Site} {base rest : List Layer} {b b' : Binding} {next : Env → Sender}

namespace Binding

/-- A value was stored and the predecessor operation is gone. -/
structure Emptied (b : Binding) : Prop where
  cleanup_eq : b.cleanup = .invalid
  storage_eq : b.storage = .vacant
  value : b.value.isSome
  factory : b.factory.isSome

lemma Fits.emptied (hb : b.Fits rest) (hc : b.cleanup = .predecessor) (v : Value) :
    (b.store v).vacate.Emptied :=
  ⟨rfl, rfl, rfl, (hb.predecessor hc).2.2.2⟩

/-- Dropping the predecessor operation has raised a payload. -/
lemma Emptied.amid {h : Nat} (hb : b.Emptied) (m : Payload) : b.Amid s h next [] (some m) := by
  refine .failed ⟨fun hc => ?_, fun _ => ?_, fun hc => ?_, fun hc => ?_⟩ trivial
  · simp [hb.cleanup_eq] at hc
  · exact ⟨hb.storage_eq, rfl, hb.value, hb.factory, rfl⟩
  · simp [hb.cleanup_eq] at hc
  · simp [hb.cleanup_eq] at hc

/-- Calling the factory has raised a payload. -/
lemma Emptied.amid_call {h : Nat} (hb : b.Emptied) (env : Env) (m : Payload) :
    (b.call.restore env).Amid s h next [] (some m) := by
  refine .failed ⟨fun hc => ?_, fun hc => ?_, fun _ => ?_, fun hc => ?_⟩ trivial
  · simp at hc
  · simp at hc
  · exact ⟨by simpa using hb.value, by simp, rfl, .inl ⟨by simpa using hb.storage_eq, rfl⟩⟩
  · simp at hc

/-- The sender that the factory made was connected. -/
lemma Emptied.amid_connect {h : Nat} {ls : List Layer} {m : Option Payload} (hb : b.Emptied)
    (env : Env) (hls : Built s (next env) (.child .successor s h) (h + 1) ls m) :
    (b.call.restore env).emplace.Amid s h next ls m := by
  have hvalue : (b.call.restore env).emplace.value.isSome := by simpa using hb.value
  have hfailed {ls : List Layer} (hls : ls = [] ∨ Layer.HalfBuilt ls) :
      (b.call.restore env).emplace.spend.Fits ls := by
    refine ⟨fun hc => ?_, fun hc => ?_, fun _ => ?_, fun hc => ?_⟩
    · simp at hc
    · simp at hc
    · exact ⟨hvalue, by simp, rfl, .inr ⟨rfl, hls⟩⟩
    · simp at hc
  cases hls with
  | whole hls =>
    refine .built ⟨fun hc => ?_, fun hc => ?_, fun hc => ?_, fun _ => ?_⟩ hls
    · simp at hc
    · simp at hc
    · simp at hc
    · exact ⟨rfl, hls.ne_nil, hvalue, by simp⟩
  | half => exact .failed (hfailed (.inr ⟨_, _, _, rfl⟩)) ⟨rfl, trivial⟩
  | nothing => exact .failed (hfailed (.inl rfl)) trivial

lemma Emptied.amid_of_hands {h : Nat} {ls : List Layer} {m : Option Payload} (hb : b.Emptied)
    (hnext : ∀ env, (next env).Scriptless) (hands : Hands s h next b b' ls m) :
    b'.Amid s h next ls m := by
  cases hands with
  | dropping m => exact hb.amid m
  | calling env m => exact hb.amid_call env m
  | connecting env scope n => exact hb.amid_connect env (Sender.built_lay (hnext env) ..)

lemma Hands.unscripted {h : Nat} {ls : List Layer} {m : Option Payload}
    (hands : Hands s h next b b' ls m) (hun : (Layer.bind b).Unscripted)
    (hnext : ∀ env, (next env).Scriptless) : ∀ l ∈ .bind b' :: ls, l.Unscripted := by
  cases hands with
  | dropping m => simpa using hun
  | calling env m => simpa using hun.of_bind (by simp) (by simp)
  | connecting env scope n =>
    have hr : (Receiver.child .successor s h).Unscripted := trivial
    exact List.forall_mem_cons.2
      ⟨hun.of_bind (by simp) (by simp), Sender.unscripted_lay (hnext env) hr _ _⟩

/-- A handoff that was begun with the predecessor gone has used up the factory, or not. -/
lemma Hands.ensues {h : Nat} {v : Value} {ls : List Layer} {m : Option Payload}
    (hands : Hands s h next (b.store v).vacate b' ls m) : (Layer.bind b).Ensues (.bind b') := by
  cases hands with
  | dropping m => exact .bind rfl (.inr rfl) (.inr rfl)
  | calling env m => exact .bind (by simp) (.inr (by simp)) (.inl (by simp))
  | connecting env scope n => exact .bind (by simp) (.inr (by simp)) (.inl (by simp))

end Binding

variable (s base) in
/-- The value of a predecessor begins a handoff, which is done or given up. -/
lemma leads_handover {f : Factory} (hb : b.Fits rest) (hc : b.cleanup = .predecessor)
    (hf : b.factory = some (f, next)) (hun : (Layer.bind b).Unscripted) (w : World) (n : Nat)
    (acts : List Act) (v : Value) :
    ∃ base' b' ls m n' acts', List.Forall₂ Restored base base' ∧
      (Layer.bind b).Ensues (.bind b') ∧ b'.receiver = b.receiver ∧
      b'.Amid s base.length next ls m ∧ (∀ l ∈ .bind b' :: ls, l.Unscripted) ∧ ∀ K,
      Leads ⟨w.after s (base ++ .bind b :: rest) n acts,
          .complete (.child .predecessor s base.length) (.value v), K⟩ []
        (finishOr (w.after s (base' ++ .bind b' :: ls) n' acts') m
          (.handoff s base.length :: K)) := by
  have hnext : ∀ env, (next env).Scriptless := hun.factory b rfl f next hf
  have hun' : (Layer.bind (b.store v).vacate).Unscripted :=
    hun.of_bind (fun _ h => h) (fun _ h => h)
  have hands := Binding.hands_hand s base b f next rest n acts v
  obtain ⟨ns, hns⟩ := Binding.exists_around_hand s base b f next rest n acts v
  refine ⟨_, _, _, _, _, _, ?_, hands.ensues, hands.receiver_eq,
    (hb.emptied hc v).amid_of_hands hnext hands, hands.unscripted hun' hnext,
    fun K => Binding.leads_hand hc hf (fun env => (hnext env).silent) w s base rest n acts v K⟩
  rw [hns]
  exact Layer.forall₂_restored_writeBack ns base

end Handoff
