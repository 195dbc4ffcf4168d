import Handoff.Machine
import Mathlib.Tactic.Common

/-!
# A binding operation and its surroundings

Children, factories and drops are free to call the operation that they belong to whenever they run,
as often as they like and in any state. `Exposed` is a binding operation together with the handoffs
under way, and a `Turn` is anything that may happen to it next: one of its entry points is called,
or what the innermost handoff was waiting for is over. A list of turns in any order is more than any
surroundings can do. `Exposed.run_sound` says what holds whatever the turns are.
-/

namespace Handoff

/-- How far a handoff has come. -/
inductive Stage where
  /-- The predecessor operation is being dropped. -/
  | dropping
  /-- The predecessor operation is gone, and its drop may have raised a payload. -/
  | vacated (raised : Option Payload)
  /-- The factory is being called. -/
  | calling
  /-- The successor is being connected. -/
  | connecting
  deriving DecidableEq

/-- A binding operation, with the handoffs under way, innermost first. -/
structure Exposed where
  binding : Binding
  underway : List Stage := []

/-- What may happen to a binding operation next. -/
inductive Turn where
  /-- A child completes it. -/
  | complete (role : Role) (c : Completion Value Failure)
  | start
  /-- What the innermost handoff was waiting for is over, and may have raised a payload. -/
  | goOn (raised : Option Payload)
  /-- The stored number is changed. -/
  | write (env : Env)

/-- What a turn leads to. -/
inductive Effect where
  | raises (p : Payload)
  /-- The receiver is completed. -/
  | completes (r : Receiver) (c : Completion Value Failure)
  /-- A value is stored and the drop of the predecessor begins. -/
  | stores (v : Value)
  /-- The factory is called with the stored number. -/
  | calls (f : Factory) (env : Env)
  /-- The successor is connected. -/
  | connects
  /-- A child is started. -/
  | starts (role : Role)

namespace Effect

/-- Whether the receiver is completed. -/
def isCompletion : Effect → Bool
  | completes _ _ => true
  | _ => false

/-- Whether a value is stored. -/
def isStore : Effect → Bool
  | stores _ => true
  | _ => false

/-- Whether the factory is called. -/
def isCall : Effect → Bool
  | calls _ _ => true
  | _ => false

end Effect

/-- A completion under the tag that it gets from a child. -/
def Role.tag : Role → Completion Value Failure → Completion Value Failure
  | predecessor, c => c.mapError .predecessor
  | successor, c => c.mapError .successor

namespace Exposed

/-- Complete the receiver, or raise a payload if that is used up. -/
def pass (x : Exposed) (c : Completion Value Failure) : Exposed × Option Effect :=
  match x.binding.receiver with
  | some r => ({ x with binding := x.binding.spend }, some (.completes r c))
  | none => (x, some (.raises Fault.bindCompleted.payload))

/-- A child completes the operation. -/
def complete (x : Exposed) (role : Role) (c : Completion Value Failure) :
    Exposed × Option Effect :=
  let b := x.binding
  if b.cleanup = role.expects then
    match role, c with
    | .predecessor, .value v => (⟨b.store v, .dropping :: x.underway⟩, some (.stores v))
    | role, c => x.pass (role.tag c)
  else (x, some (.raises (Fault.wrongState b.cleanup role.expects).payload))

/-- The innermost handoff goes on. -/
def goOn (x : Exposed) (raised : Option Payload) : Exposed × Option Effect :=
  let b := x.binding
  match x.underway, raised with
  | [], _ => (x, none)
  | .dropping :: rest, raised => (⟨b.vacate, .vacated raised :: rest⟩, none)
  | .vacated none :: rest, _ =>
    match b.factory with
    | some (f, _) => (⟨b.call, .calling :: rest⟩, some (.calls f b.stored))
    | none => (⟨b.call, .vacated (some Fault.factoryConsumed.payload) :: rest⟩, none)
  | .calling :: rest, none => (⟨b.emplace, .connecting :: rest⟩, some .connects)
  | .connecting :: rest, none => (⟨b.settle, rest⟩, some (.starts .successor))
  | .vacated (some m) :: rest, _ => pass ⟨b, rest⟩ (.error (.panicked m))
  | .calling :: rest, some m => pass ⟨b, rest⟩ (.error (.panicked m))
  | .connecting :: rest, some m => pass ⟨b, rest⟩ (.error (.panicked m))

/-- Take a turn. -/
def take (x : Exposed) : Turn → Exposed × Option Effect
  | .complete role c => x.complete role c
  | .start =>
    if x.binding.storage = .predecessor then (x, some (.starts .predecessor))
    else (x, some (.raises Fault.bindRestarted.payload))
  | .goOn raised => x.goOn raised
  | .write env => ({ x with binding := x.binding.restore env }, none)

/-- Take turns one after another, and list what they lead to. -/
def run (x : Exposed) : List Turn → Exposed × List Effect
  | [] => (x, [])
  | t :: ts =>
    let (y, e) := x.take t
    let (z, es) := y.run ts
    (z, e.toList ++ es)

variable {x y : Exposed} {t : Turn} {ts us : List Turn} {e : Option Effect}

@[simp] lemma run_nil : x.run [] = (x, []) := rfl

lemma run_cons : x.run (t :: ts) =
    (((x.take t).1.run ts).1, (x.take t).2.toList ++ ((x.take t).1.run ts).2) := rfl

@[simp] lemma run_singleton : x.run [t] = ((x.take t).1, (x.take t).2.toList) := by
  simp [run]

lemma run_append : x.run (ts ++ us) =
    (((x.run ts).1.run us).1, (x.run ts).2 ++ ((x.run ts).1.run us).2) := by
  induction ts generalizing x with
  | nil => rfl
  | cons t ts ih => simp [run_cons, ih, List.append_assoc]

/-! ### What is used up -/

/-- What turns lead to is accounted for by what they use up: a completion by the receiver, a call by
the factory. -/
structure Spends (b : Binding) (es : List Effect) (b' : Binding) : Prop where
  receiver : es.countP Effect.isCompletion + b'.receiver.toList.length = b.receiver.toList.length
  factory : es.countP Effect.isCall + b'.factory.toList.length = b.factory.toList.length
  completes (r : Receiver) (c : Completion Value Failure) (h : .completes r c ∈ es) :
    b.receiver = some r
  receiver_eq (r : Receiver) (h : b'.receiver = some r) : b.receiver = some r

section Spends

variable {b b' b'' : Binding} {es es' : List Effect}

lemma Spends.of_eq (hr : b'.receiver = b.receiver) (hf : b'.factory = b.factory)
    (he : ∀ e ∈ es, e.isCompletion = false ∧ e.isCall = false) : Spends b es b' where
  receiver := by
    rw [hr, List.countP_eq_zero.2 fun e h => by simp [(he e h).1], Nat.zero_add]
  factory := by
    rw [hf, List.countP_eq_zero.2 fun e h => by simp [(he e h).2], Nat.zero_add]
  completes r c h := by simpa [Effect.isCompletion] using (he _ h).1
  receiver_eq r h := hr.symm.trans h

lemma Spends.trans (h : Spends b es b') (h' : Spends b' es' b'') : Spends b (es ++ es') b'' where
  receiver := by
    rw [List.countP_append, ← h.receiver, ← h'.receiver]
    omega
  factory := by
    rw [List.countP_append, ← h.factory, ← h'.factory]
    omega
  completes r c hmem := by
    rcases List.mem_append.1 hmem with hmem | hmem
    · exact h.completes r c hmem
    · exact h.receiver_eq r (h'.completes r c hmem)
  receiver_eq r hr := h.receiver_eq r (h'.receiver_eq r hr)

lemma spends_pass (b : Binding) (rest : List Stage) (c : Completion Value Failure) :
    Spends b (pass ⟨b, rest⟩ c).2.toList (pass ⟨b, rest⟩ c).1.binding := by
  unfold pass
  split
  · next r hr =>
    have hr : b.receiver = some r := hr
    constructor <;> simp [hr, Effect.isCompletion, Effect.isCall]
  · exact .of_eq rfl rfl (by simp [Effect.isCompletion, Effect.isCall])

lemma spends_take (x : Exposed) (t : Turn) :
    Spends x.binding (x.take t).2.toList (x.take t).1.binding := by
  cases t with
  | complete role c =>
    simp only [take, complete]
    split
    · split
      · exact .of_eq (by simp) (by simp) (by simp [Effect.isCompletion, Effect.isCall])
      · exact spends_pass x.binding x.underway _
    · exact .of_eq rfl rfl (by simp [Effect.isCompletion, Effect.isCall])
  | start =>
    simp only [take]
    split <;> exact .of_eq rfl rfl (by simp [Effect.isCompletion, Effect.isCall])
  | goOn raised =>
    simp only [take, goOn]
    split
    · exact .of_eq rfl rfl (by simp)
    · exact .of_eq (by simp) (by simp) (by simp)
    · split
      · next f next hf =>
        constructor <;> simp [hf, Effect.isCompletion, Effect.isCall]
      · next hf => exact .of_eq (by simp) (by simp [hf]) (by simp)
    · exact .of_eq (by simp) (by simp) (by simp [Effect.isCompletion, Effect.isCall])
    · exact .of_eq (by simp) (by simp) (by simp [Effect.isCompletion, Effect.isCall])
    · exact spends_pass x.binding _ _
    · exact spends_pass x.binding _ _
    · exact spends_pass x.binding _ _
  | write env => exact .of_eq (by simp [take]) (by simp [take]) (by simp [take])

lemma spends_run (x : Exposed) (ts : List Turn) :
    Spends x.binding (x.run ts).2 (x.run ts).1.binding := by
  induction ts generalizing x with
  | nil => exact .of_eq rfl rfl (by simp [run])
  | cons t ts ih => exact (spends_take x t).trans (ih _)

end Spends

/-! ### The stages of a handoff -/

/-- At most one handoff is under way, and the state of the operation is that of the handoff. Once
it is over without a successor, the receiver is used up. -/
inductive Sound : Exposed → Prop where
  | waiting {b : Binding} (hc : b.cleanup = .predecessor) (hf : b.factory.isSome)
      (hv : b.value = none) : Sound ⟨b, []⟩
  | handing {b : Binding} {stage : Stage}
      (hstage : stage = .dropping ∨ ∃ m, stage = .vacated m) (hc : b.cleanup = .invalid)
      (hf : b.factory.isSome) (hv : b.value.isSome = true) : Sound ⟨b, [stage]⟩
  | building {b : Binding} {stage : Stage} (hstage : stage = .calling ∨ stage = .connecting)
      (hc : b.cleanup = .values) (hv : b.value.isSome = true) : Sound ⟨b, [stage]⟩
  | settled {b : Binding} (hc : b.cleanup = .successor) (hv : b.value.isSome = true) :
      Sound ⟨b, []⟩
  | failed {b : Binding} (hc : b.cleanup = .invalid ∨ b.cleanup = .values)
      (hr : b.receiver = none) (hv : b.value.isSome = true) : Sound ⟨b, []⟩

/-- A turn of a sound operation: it moves on by one stage at most, and stores a value only if there
is none. -/
structure Advances (x : Exposed) (e : Option Effect) (y : Exposed) : Prop where
  sound : y.Sound
  le : x.binding.cleanup.stage ≤ y.binding.cleanup.stage
  le_succ : y.binding.cleanup.stage ≤ x.binding.cleanup.stage + 1
  value : e.toList.countP Effect.isStore + x.binding.value.toList.length =
    y.binding.value.toList.length

section Advances

variable {b b' : Binding} {e : Option Effect} {x y : Exposed}

lemma Advances.of_eq (hy : y.Sound) (hc : y.binding.cleanup = x.binding.cleanup)
    (hv : y.binding.value.isSome = x.binding.value.isSome)
    (he : ∀ f, e = some f → f.isStore = false) : Advances x e y where
  sound := hy
  le := Nat.le_of_eq (congrArg Cleanup.stage hc.symm)
  le_succ := Nat.le_succ_of_le (Nat.le_of_eq (congrArg Cleanup.stage hc))
  value := by
    have hcount : e.toList.countP Effect.isStore = 0 :=
      List.countP_eq_zero.2 fun f hf => by simp [he f (Option.mem_toList.1 hf)]
    cases hx : x.binding.value <;> cases hy : y.binding.value <;> simp_all

/-- A sound operation stays sound if its receiver is used up. -/
lemma Sound.spend (h : x.Sound) : Sound { x with binding := x.binding.spend } := by
  cases h with
  | waiting hc hf hv => exact .waiting hc hf hv
  | handing hstage hc hf hv => exact .handing hstage hc hf hv
  | building hstage hc hv => exact .building hstage hc hv
  | settled hc hv => exact .settled hc hv
  | failed hc hr hv => exact .failed hc rfl hv

lemma Sound.advances_pass (h : x.Sound) (c : Completion Value Failure) :
    Advances x (x.pass c).2 (x.pass c).1 := by
  unfold pass
  split
  · exact .of_eq h.spend rfl rfl (by simp [Effect.isStore])
  · exact .of_eq h rfl rfl (by simp [Effect.isStore])

/-- A handoff that has failed leaves the receiver used up. -/
lemma advances_fail {stages : List Stage} (hc : b.cleanup = .invalid ∨ b.cleanup = .values)
    (hv : b.value.isSome = true) (c : Completion Value Failure) :
    Advances ⟨b, stages⟩ (pass ⟨b, []⟩ c).2 (pass ⟨b, []⟩ c).1 := by
  unfold pass
  split
  · exact .of_eq (.failed hc rfl hv) rfl rfl (by simp [Effect.isStore])
  · next hr => exact .of_eq (.failed hc hr hv) rfl rfl (by simp [Effect.isStore])

lemma Sound.advances_complete (h : x.Sound) (role : Role) (c : Completion Value Failure) :
    Advances x (x.complete role c).2 (x.complete role c).1 := by
  simp only [complete]
  split
  · next hexpects =>
    split
    · cases h with
      | waiting hc hf hv =>
        constructor
        · exact .handing (.inl rfl) rfl hf rfl
        · simp [hc, Cleanup.stage]
        · simp [hc, Cleanup.stage]
        · simp_all [Effect.isStore]
      | handing hstage hc hf hv => simp [hc, Role.expects] at hexpects
      | building hstage hc hv => simp [hc, Role.expects] at hexpects
      | settled hc hv => simp [hc, Role.expects] at hexpects
      | failed hc hr hv => rcases hc with hc | hc <;> simp [hc, Role.expects] at hexpects
    · exact h.advances_pass _
  · exact .of_eq h rfl rfl (by simp [Effect.isStore])

lemma Sound.advances_goOn (h : x.Sound) (raised : Option Payload) :
    Advances x (x.goOn raised).2 (x.goOn raised).1 := by
  cases h with
  | waiting hc hf hv => exact .of_eq (.waiting hc hf hv) rfl rfl (by simp [goOn])
  | settled hc hv => exact .of_eq (.settled hc hv) rfl rfl (by simp [goOn])
  | failed hc hr hv => exact .of_eq (.failed hc hr hv) rfl rfl (by simp [goOn])
  | @handing b stage hstage hc hf hv =>
    rcases hstage with rfl | ⟨m, rfl⟩
    · exact .of_eq (.handing (.inr ⟨raised, rfl⟩) hc hf hv) rfl rfl (by simp [goOn])
    · cases m with
      | some m => exact advances_fail (.inl hc) hv _
      | none =>
        obtain ⟨f, hf⟩ := Option.isSome_iff_exists.1 hf
        simp only [goOn, hf]
        constructor
        · exact .building (.inl rfl) rfl hv
        · simp [hc, Cleanup.stage]
        · simp [hc, Cleanup.stage]
        · simp [Effect.isStore]
  | @building b stage hstage hc hv =>
    rcases hstage with rfl | rfl
    · cases raised with
      | some m => exact advances_fail (.inr hc) hv _
      | none => exact .of_eq (.building (.inr rfl) hc hv) rfl rfl (by simp [goOn, Effect.isStore])
    · cases raised with
      | some m => exact advances_fail (.inr hc) hv _
      | none =>
        constructor
        · exact .settled rfl hv
        · simp [goOn, hc, Cleanup.stage]
        · simp [goOn, hc, Cleanup.stage]
        · simp [goOn, Effect.isStore]

/-- Whatever its turn, a sound operation stays sound and moves forward. -/
lemma Sound.advances (h : x.Sound) (t : Turn) : Advances x (x.take t).2 (x.take t).1 := by
  cases t with
  | complete role c => exact h.advances_complete role c
  | start =>
    simp only [take]
    split <;> exact .of_eq h rfl rfl (by simp [Effect.isStore])
  | goOn raised => exact h.advances_goOn raised
  | write env =>
    refine .of_eq ?_ (by simp [take]) (by simp [take]) (by simp [take])
    cases h with
    | waiting hc hf hv =>
      exact .waiting (by simpa) (by simpa) (by cases env <;> simp [Binding.restore, hv])
    | handing hstage hc hf hv => exact .handing hstage (by simpa) (by simpa) (by simpa)
    | building hstage hc hv => exact .building hstage (by simpa) (by simpa)
    | settled hc hv => exact .settled (by simpa) (by simpa)
    | failed hc hr hv => exact .failed (by simpa) (by simpa) (by simpa)

lemma Sound.run (h : x.Sound) (ts : List Turn) : (x.run ts).1.Sound := by
  induction ts generalizing x with
  | nil => exact h
  | cons t ts ih => exact ih (h.advances t).sound

lemma Sound.value_run (h : x.Sound) (ts : List Turn) :
    (x.run ts).2.countP Effect.isStore + x.binding.value.toList.length =
      (x.run ts).1.binding.value.toList.length := by
  induction ts generalizing x with
  | nil => simp [Exposed.run]
  | cons t ts ih =>
    have hadvance := h.advances t
    rw [run_cons, List.countP_append, ← ih hadvance.sound, ← hadvance.value]
    omega

end Advances

end Exposed

end Handoff
