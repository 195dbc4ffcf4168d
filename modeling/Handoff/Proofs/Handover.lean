import Handoff.Proofs.Laying

/-!
# What a handoff comes to

The value of a predecessor begins a handoff: the value is stored, the predecessor operation dropped,
the factory called and the sender that it makes connected. `Binding.hand` says what that comes to,
and `Binding.leads_hand` is the statement that the machine does just that. How the binding operation
stands by then is one of three cases, `Binding.hands_hand`. If nothing was raised the successor is
started next (`Binding.leads_settled`); else the receiver of the binding operation is given what was
raised, as an error (`Binding.leads_given_up`).
-/

namespace Handoff

open Config Machine

/-- What a handoff comes to, short of starting the successor. -/
structure Handed where
  /-- The binding operation by then. -/
  binding : Binding
  /-- What stands above it, what was recorded, and what was raised, if anything. -/
  laid : Laid

/-- What a handoff comes to, with the operations around it, whose stored numbers the factory may
have changed. -/
structure Handover extends Handed where
  around : List Layer

namespace Binding

/-- A binding operation whose predecessor is still to complete it. -/
structure Fresh (b : Binding) (f : Factory) (next : Env → Sender) (r : Receiver) : Prop where
  factory_eq : b.factory = some (f, next)
  receiver_eq : b.receiver = some r
  storage_eq : b.storage = .predecessor
  cleanup_eq : b.cleanup = .predecessor

/-- A binding operation whose predecessor is gone calls its factory and connects the sender that
this makes. -/
def engage (s : Site) (base : List Layer) (b : Binding) (f : Factory) (next : Env → Sender)
    (n : Nat) (acts : List Act) : Handover :=
  let c := f.call (b.stored ++ Layer.scope base)
  let around := Layer.writeBack (c.env.drop b.stored.length).reverse base
  let called := acts ++ (b.stored.map (.called b.serial f.label) ++ c.remarks.map .remark)
  match c.raised with
  | some m => ⟨⟨b.call.restore c.env, ⟨[], called, n, some m⟩⟩, around⟩
  | none =>
    let b' := (b.call.restore c.env).emplace
    let x := (next c.env).lay s (Layer.scope (around ++ [.bind b']))
      (.child .successor s base.length) (base.length + 1) n
    ⟨⟨b', { x with acts := called ++ .logged b.serial .connectingSuccessor :: x.acts }⟩, around⟩

/-- The handoff of a binding operation on top of others: the value is stored, the predecessor
operation dropped, the factory called and the sender that it makes connected. -/
def hand (s : Site) (base : List Layer) (b : Binding) (f : Factory) (next : Env → Sender)
    (inside : List Layer) (n : Nat) (acts : List Act) (v : Value) : Handover :=
  let d := Layer.dropAll false (Layer.scope (base ++ [.bind (b.store v)])) inside
  let stored := acts ++ [.logged b.serial .produced, .stored b.serial] ++ d.acts
  match d.raised with
  | some m => ⟨⟨(b.store v).vacate, ⟨[], stored, n, some m⟩⟩, base⟩
  | none => (b.store v).vacate.engage s base f next n stored

/-- How a binding operation stands amid a handoff that was begun with the predecessor gone, with
what is above it, once the successor is built or a payload was raised: by dropping the predecessor
operation, by the factory, or else by connecting the sender that this has made. -/
inductive Hands (s : Site) (h : Nat) (next : Env → Sender) (b : Binding) :
    Binding → List Layer → Option Payload → Prop where
  | dropping (m : Payload) : Hands s h next b b [] (some m)
  | calling (env : Env) (m : Payload) : Hands s h next b (b.call.restore env) [] (some m)
  | connecting (env scope : Env) (n : Nat) : Hands s h next b (b.call.restore env).emplace
      ((next env).lay s scope (.child .successor s h) (h + 1) n).layers (next env).flaw

variable {s : Site} {base inside : List Layer} {b : Binding} {f : Factory} {next : Env → Sender}
  {n : Nat} {acts : List Act} {v : Value}

lemma hands_engage (s : Site) (base : List Layer) (b : Binding) (f : Factory)
    (next : Env → Sender) (n : Nat) (acts : List Act) :
    let x := b.engage s base f next n acts
    Hands s base.length next b x.binding x.laid.layers x.laid.raised := by
  simp only [engage]
  split
  · exact .calling ..
  · rw [Sender.raised_lay]
    exact .connecting ..

lemma hands_hand (s : Site) (base : List Layer) (b : Binding) (f : Factory) (next : Env → Sender)
    (inside : List Layer) (n : Nat) (acts : List Act) (v : Value) :
    let x := b.hand s base f next inside n acts v
    Hands s base.length next (b.store v).vacate x.binding x.laid.layers x.laid.raised := by
  simp only [hand]
  split
  · exact .dropping _
  · exact hands_engage ..

/-- A handoff keeps the receiver. -/
lemma Hands.receiver_eq {h : Nat} {b' : Binding} {ls : List Layer} {m : Option Payload}
    (hb : Hands s h next b b' ls m) : b'.receiver = b.receiver := by
  cases hb <;> simp

/-- If nothing was raised, a successor stands that was built by the factory and not started. -/
lemma Hands.exists_stands {h : Nat} {b' : Binding} {ls : List Layer}
    (hb : Hands s h next b b' ls none) (hsilent : ∀ env, (next env).Silent) :
    ∃ env, (next env).Stands s (.child .successor s h) (h + 1) ls := by
  generalize hm : (none : Option Payload) = m at hb
  cases hb with
  | dropping m => cases hm
  | calling env m => cases hm
  | connecting env scope n => exact ⟨env, Sender.stands_lay (hsilent env) hm.symm ..⟩

/-- Around a handoff only stored numbers change. -/
lemma exists_around_hand (s : Site) (base : List Layer) (b : Binding) (f : Factory)
    (next : Env → Sender) (inside : List Layer) (n : Nat) (acts : List Act) (v : Value) :
    ∃ ns, (b.hand s base f next inside n acts v).around = Layer.writeBack ns base := by
  simp only [hand]
  split
  · exact ⟨base.flatMap Layer.lent, (Layer.writeBack_lent base).symm⟩
  · simp only [engage]
    split <;> exact ⟨_, rfl⟩

/-! ### The machine hands over -/

/-- The value of a predecessor is stored and its operation dropped, amid a handoff. -/
lemma leads_accept (hc : b.cleanup = .predecessor) (w : World) (s : Site)
    (base inside : List Layer) (n : Nat) (acts : List Act) (v : Value) (K : List Frame) :
    let d := Layer.dropAll false (Layer.scope (base ++ [.bind (b.store v)])) inside
    Leads ⟨w.after s (base ++ .bind b :: inside) n acts,
        .complete (.child .predecessor s base.length) (.value v), K⟩ []
      ⟨w.after s (base ++ [.bind (b.store v).vacate]) n
          (acts ++ [.logged b.serial .produced, .stored b.serial] ++ d.acts),
        Option.elim d.raised (.build s base.length) .raised, .handoff s base.length :: K⟩ := by
  refine .quiet rfl rfl ?_
  simpa [complete, hc, Role.expects, receive, accept, World.take_top] using Leads.refl _

lemma setScope_after (w : World) (env : Env) :
    (w.after s (base ++ inside) n acts).setScope s base.length env =
      w.after s (Layer.writeBack env.reverse base ++ inside) n acts := by
  simp [World.setScope]

/-- The factory is called, and the sender that it makes connected. -/
lemma leads_engage (hf : b.factory = some (f, next)) (hsilent : ∀ env, (next env).Silent)
    (w : World) (s : Site) (base : List Layer) (n : Nat) (acts : List Act) (K : List Frame) :
    let x := b.engage s base f next n acts
    Leads ⟨w.after s (base ++ [.bind b]) n acts, .build s base.length, K⟩ []
      (finishOr (w.after s (x.around ++ .bind x.binding :: x.laid.layers) x.laid.count x.laid.acts)
        x.laid.raised K) := by
  let c := f.call (b.stored ++ Layer.scope base)
  let around := Layer.writeBack (c.env.drop b.stored.length).reverse base
  have hlength : base.length = around.length := by simp [around]
  have hset (acts : List Act) (b' : Binding) :
      (w.after s (around ++ [.bind b]) n acts).setBinding s base.length b' =
        w.after s (around ++ [.bind b']) n acts := by
    rw [hlength]
    simp
  cases hr : c.raised with
  | some m =>
    refine .quiet rfl rfl ?_
    simpa [build, hf, setScope_after, engage, c, hr, around, hset] using Leads.refl _
  | none =>
    have hconnect := Sender.leads_connect (s := s) (hsilent c.env)
      (.child .successor s base.length) w (around ++ [.bind (b.call.restore c.env).emplace]) n
      (acts ++ (b.stored.map (.called b.serial f.label) ++ c.remarks.map .remark) ++
        [.logged b.serial .connectingSuccessor]) K
    rw [List.length_append, List.length_singleton, ← hlength] at hconnect
    refine .quiet rfl rfl ?_
    simpa [build, hf, setScope_after, engage, c, hr, around, hset] using hconnect

/-- The value of a predecessor begins a handoff, which is done or given up. -/
theorem leads_hand (hc : b.cleanup = .predecessor) (hf : b.factory = some (f, next))
    (hsilent : ∀ env, (next env).Silent) (w : World) (s : Site) (base inside : List Layer) (n : Nat)
    (acts : List Act) (v : Value) (K : List Frame) :
    let x := b.hand s base f next inside n acts v
    Leads ⟨w.after s (base ++ .bind b :: inside) n acts,
        .complete (.child .predecessor s base.length) (.value v), K⟩ []
      (finishOr (w.after s (x.around ++ .bind x.binding :: x.laid.layers) x.laid.count x.laid.acts)
        x.laid.raised (.handoff s base.length :: K)) := by
  have haccept := leads_accept hc w s base inside n acts v K
  simp only [hand]
  cases hd : (Layer.dropAll false (Layer.scope (base ++ [.bind (b.store v)])) inside).raised with
  | some m =>
    simp only [hd] at haccept
    exact haccept
  | none =>
    simp only [hd] at haccept
    exact haccept.append_quiet (leads_engage (b := (b.store v).vacate) hf hsilent ..)

/-- The successor is built, and the handoff comes to its end. -/
lemma leads_settled (w : World) (s : Site) (base : List Layer) (b : Binding) (inside : List Layer)
    (n : Nat) (acts : List Act) (K : List Frame) :
    Leads (finish (w.after s (base ++ .bind b :: inside) n acts) (.handoff s base.length :: K)) []
      ⟨w.after s (base ++ .bind b.settle :: inside) n acts, .start s (base.length + 1), K⟩ := by
  refine .quiet rfl rfl ?_
  simpa [resume] using Leads.refl _

/-- A handoff is given up, and the payload passed on. -/
lemma leads_given_up (w : World) (s : Site) (base : List Layer) (b : Binding) (inside : List Layer)
    (n : Nat) (acts : List Act) (m : Payload) (K : List Frame) :
    Leads ⟨w.after s (base ++ .bind b :: inside) n acts, .raised m, .handoff s base.length :: K⟩ []
      (pass (w.after s (base ++ .bind b :: inside) n (acts ++ [.logged b.serial (.buildFailed m)]))
        s base.length b (.error (.panicked m)) K) := by
  refine .quiet rfl rfl ?_
  simpa [unwind] using Leads.refl _

end Binding

end Handoff
