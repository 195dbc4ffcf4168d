import Handoff.Chain
import Handoff.Proofs.Laying

/-!
# What connecting a chain builds

A chain has no scripts, so what connecting it comes to does not depend on any stored numbers. It is
`Chain.lay`, which says of the sender of the chain what `Sender.lay` does, whatever is stored around
it.
-/

namespace Handoff

/-! ### Layers without scripts -/

namespace Layer

/-- None of the layers is that of a script. -/
def Scriptless (ls : List Layer) : Prop := ∀ l ∈ ls, l.kind ≠ .script

@[simp] lemma scriptless_nil : Scriptless [] := by
  simp [Scriptless]

@[simp] lemma scriptless_cons (l : Layer) (ls : List Layer) :
    Scriptless (l :: ls) ↔ l.kind ≠ .script ∧ Scriptless ls := by
  simp [Scriptless]

lemma drop_eq_of_kind_ne {l : Layer} (h : l.kind ≠ .script) (unwinding : Bool) (env : Env)
    (child : Dropped) : l.drop unwinding env child = l.drop unwinding [] child := by
  cases l with
  | script => exact absurd rfl h
  | _ => rfl

lemma dropAll_eq_of_scriptless {ls : List Layer} (h : Scriptless ls) (unwinding : Bool)
    (env : Env) : dropAll unwinding env ls = dropAll unwinding [] ls := by
  induction ls generalizing env with
  | nil => rfl
  | cons l rest ih =>
    obtain ⟨hl, hrest⟩ := (scriptless_cons l rest).1 h
    simp only [dropAll]
    rw [ih hrest (l.lent ++ env), ih hrest (l.lent ++ []), drop_eq_of_kind_ne hl]

end Layer

lemma Laid.inside_eq_of_scriptless {l : Layer} {x : Laid} (hl : l.kind ≠ .script)
    (hx : Layer.Scriptless x.layers) (env : Env) (acts : List Act) :
    x.inside env l acts = x.inside [] l acts := by
  have hs : Layer.Scriptless (l :: x.layers) := by simp [hl, hx]
  simp only [inside, Layer.dropAll_eq_of_scriptless hs true env]

namespace Sender

variable {s : Site} {x : Sender}

lemma Scriptless.lay (hx : x.Scriptless) (env : Env) (r : Receiver) (h k : Nat) :
    Layer.Scriptless (x.lay s env r h k).layers := by
  induction x generalizing r h k with
  | ready c => simp [Sender.lay, Layer.kind]
  | leaf l => simp [Sender.lay, Layer.kind]
  | exploding built => cases built <;> simp [Sender.lay, Layer.kind]
  | script y => exact hx.elim
  | either which x ih => exact Laid.forall_layers_inside (by simp [Layer.kind]) (ih hx _ _ _)
  | bind p f next ih =>
    exact Laid.forall_layers_inside (by simp [Machine.newBinding, Layer.kind]) (ih hx.1 _ _ _)

/-- Without scripts nothing is looked up in stored numbers. -/
lemma Scriptless.lay_eq (hx : x.Scriptless) (env : Env) (r : Receiver) (h k : Nat) :
    x.lay s env r h k = x.lay s [] r h k := by
  induction x generalizing r h k with
  | script y => exact hx.elim
  | exploding built => cases built <;> rfl
  | either which x ih =>
    have hl : (Layer.either k which).kind ≠ .script := by simp [Layer.kind]
    rw [Sender.lay, Sender.lay, ih hx]
    exact Laid.inside_eq_of_scriptless hl (Scriptless.lay (x := x) hx _ _ _ _) _ _
  | bind p f next ih =>
    have hl : (Machine.newBinding f next r k).kind ≠ .script := by
      simp [Machine.newBinding, Layer.kind]
    rw [Sender.lay, Sender.lay, ih hx.1]
    exact Laid.inside_eq_of_scriptless hl (Scriptless.lay (x := p) hx.1 _ _ _ _) _ _
  | _ => rfl

end Sender

/-! ### Laying -/

namespace Chain

lemma scriptless_sender (c : Chain) : c.sender.Scriptless := by
  induction c with
  | either which c other ih => exact ih
  | bind p raises next promised ihp ihnext => exact ⟨ihp, fun env => ihnext _⟩
  | _ => trivial

/-- The sender that a chain's factory builds, as a function of the stored numbers. -/
def successor (next : Int64 → Chain) (env : Env) : Sender := (next (innermost env)).sender

/-- The operation that a chain's binding starts out as. -/
def binding (raises : Int64 → Option Payload) (next : Int64 → Chain) (r : Receiver)
    (serial : Nat) : Binding where
  serial := serial
  factory := some (factory raises, successor next)
  receiver := some r

/-- What connecting a chain to a receiver at a height of a site comes to, if the site has built so
many operations before. -/
def lay (s : Site) (c : Chain) (r : Receiver) (h k : Nat) : Laid := c.sender.lay s [] r h k

/-- What connecting a chain raises, if anything: whether the leaf reached through active
alternatives and predecessors can be connected. -/
def connectRaises : Chain → Option Payload
  | ready _ => none
  | leaf _ => none
  | exploding _ => some Fault.connectExploded.payload
  | either _ c _ => c.connectRaises
  | bind p _ _ _ => p.connectRaises

variable {s : Site} {c p : Chain}

lemma flaw_sender (c : Chain) : c.sender.flaw = c.connectRaises := by
  induction c with
  | either which c other ih => exact ih
  | bind p raises next promised ihp _ => exact ihp
  | _ => rfl

@[simp] lemma raised_lay (c : Chain) (r : Receiver) (h k : Nat) :
    (c.lay s r h k).raised = c.connectRaises :=
  (Sender.raised_lay ..).trans c.flaw_sender

lemma scriptless_lay (c : Chain) (r : Receiver) (h k : Nat) :
    Layer.Scriptless (c.lay s r h k).layers :=
  c.scriptless_sender.lay _ _ _ _

lemma lay_either (which : Arm) (other : Signature) (r : Receiver) (h k : Nat) :
    (either which c other).lay s r h k =
      (c.lay s r (h + 1) (k + 1)).inside [] (.either k which) [.opened k h] := rfl

lemma lay_bind (raises : Int64 → Option Payload) (next : Int64 → Chain) (promised : Signature)
    (r : Receiver) (h k : Nat) :
    (bind p raises next promised).lay s r h k =
      (p.lay s (.child .predecessor s h) (h + 1) (k + 1)).inside []
        (.bind (binding raises next r k)) [.logged k .connecting, .opened k h] := rfl

end Chain

end Handoff
