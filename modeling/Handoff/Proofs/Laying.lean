import Handoff.Machine
import Handoff.Proofs.Delivery
import Handoff.Proofs.Site

/-!
# What connecting a sender builds

Connecting a sender lays its operations one into another, down to the leaf that is reached through
active alternatives and predecessors. `Sender.lay` says what then stands in the slot, what is
recorded, and what is raised if that leaf cannot be connected: each guard on the way up then vacates
its slot again. `Sender.connects` is the statement that the machine does just that, unless the leaf
completes its receiver amid being connected, and whatever else is known of connecting is read off
`Sender.lay`. If nothing was raised the operations stand, complete and unstarted: `Sender.Stands`.
-/

namespace Handoff

/-! ### Moves of connecting -/

/-- Whether a machine only connects or lets a payload through. -/
def Control.isConnecting : Control → Bool
  | .connect _ _ _ _ => true
  | .raised _ => true
  | .call (.connect _ _ _) => true
  | _ => false

namespace Config

open Machine

/-- Moves that only connect or let a payload through, or by which a guard lets the operation stand
that was finished in place. -/
inductive Connects : Config → Config → Prop where
  | refl (c : Config) : Connects c c
  | climb {c c' c'' : Config} (hm : c.Moves c') (hc : c.control.isConnecting = true)
      (h : Connects c' c'') : Connects c c''
  | keep {w : World} {s : Site} {h : Nat} {K : List Frame} {c : Config}
      (hc : Connects (finish w K) c) : Connects (finish w (.guard s h :: K)) c

variable {c c' c'' : Config}

lemma Connects.trans (h : c.Connects c') (h' : c'.Connects c'') : c.Connects c'' := by
  induction h with
  | refl => exact h'
  | climb hm hc _ ih => exact .climb hm hc (ih h')
  | keep _ ih => exact .keep (ih h')

lemma given_of_isConnecting (hc : c.control.isConnecting = true) : c.given = [] := by
  obtain ⟨w, x, K⟩ := c
  cases x <;> first | rfl | simp [Control.isConnecting] at hc

/-- Nothing is given to a final receiver on the way. -/
lemma Connects.leads (h : c.Connects c') : c.Leads [] c' := by
  induction h with
  | refl c => exact .refl c
  | climb hm hc _ ih => exact .quiet hm (given_of_isConnecting hc) ih
  | keep _ ih => exact .quiet rfl rfl ih

end Config

/-! ### Laying -/

/-- What connecting comes to: the layers built from the slot upwards, what was recorded, how many
operations the site has built by then, and what was raised, if anything. -/
structure Laid where
  layers : List Layer
  acts : List Act
  count : Nat
  raised : Option Payload := none

namespace Laid

/-- What an operation finished in place comes to, among stored numbers, given what connecting the
operation inside it comes to: if that raised a payload, all is dropped again. -/
def inside (env : Env) (l : Layer) (acts : List Act) (x : Laid) : Laid :=
  match x.raised with
  | none => { x with layers := l :: x.layers, acts := acts ++ x.acts }
  | some _ =>
    { x with
      layers := [],
      acts := acts ++ x.acts ++ (Layer.dropAll true env (l :: x.layers)).acts }

variable {env : Env} {l : Layer} {acts : List Act} {x : Laid}

@[simp] lemma raised_inside : (x.inside env l acts).raised = x.raised := by
  rw [inside]
  split <;> simp_all

@[simp] lemma count_inside : (x.inside env l acts).count = x.count := by
  rw [inside]
  split <;> rfl

lemma inside_of_raised_eq_none (hx : x.raised = none) :
    x.inside env l acts = { x with layers := l :: x.layers, acts := acts ++ x.acts } := by
  simp [inside, hx]

lemma inside_of_raised_eq_some {m : Payload} (hx : x.raised = some m) :
    x.inside env l acts =
      { x with
        layers := [],
        acts := acts ++ x.acts ++ (Layer.dropAll true env (l :: x.layers)).acts } := by
  simp [inside, hx]

lemma forall_layers_inside {P : Layer → Prop} (hl : P l) (hx : ∀ l' ∈ x.layers, P l') :
    ∀ l' ∈ (x.inside env l acts).layers, P l' := by
  rw [inside]
  split
  · exact List.forall_mem_cons.2 ⟨hl, hx⟩
  · simp

end Laid

/-- What a leaf raises when it is connected, if it does not complete first. -/
def Connecting.flaw : Connecting → Option Payload
  | fill => none
  | raise m => some m
  | half m => some m
  | deliver _ _ => none

namespace Sender

/-- What connecting a sender raises: what the leaf does that is reached through active alternatives
and predecessors. -/
def flaw : Sender → Option Payload
  | ready _ => none
  | leaf _ => none
  | exploding _ => some Fault.connectExploded.payload
  | script y => y.connecting.flaw
  | either _ x => x.flaw
  | bind p _ _ => p.flaw

/-- The leaf that is reached through active alternatives and predecessors does not complete its
receiver amid being connected. -/
def Silent : Sender → Prop
  | ready _ => True
  | leaf _ => True
  | exploding _ => True
  | script y => ∀ d p, y.connecting ≠ .deliver d p
  | either _ x => x.Silent
  | bind p _ _ => p.Silent

/-- A sender without scripts, as are those that its factories build. -/
def Scriptless : Sender → Prop
  | ready _ => True
  | leaf _ => True
  | exploding _ => True
  | script _ => False
  | either _ x => x.Scriptless
  | bind p _ next => p.Scriptless ∧ ∀ env, (next env).Scriptless

/-- What connecting a silent sender to a receiver at a height of a site comes to, among the stored
numbers there, if the site has built so many operations before. -/
def lay (s : Site) (env : Env) : Sender → Receiver → Nat → Nat → Laid
  | ready c, r, h, k => ⟨[.ready k (some (c, r))], [.opened k h], k + 1, none⟩
  | leaf l, r, h, k => ⟨[.leaf k l (some r)], [.connected l.label, .opened k h], k + 1, none⟩
  | exploding none, r, _, k => ⟨[], r.drop, k, some Fault.connectExploded.payload⟩
  | exploding (some label), r, h, k =>
    ⟨[.leaf k { label, completion := .done } (some r)], [.connected label, .opened k h], k + 1,
      some Fault.connectExploded.payload⟩
  | script y, r, h, k =>
    match y.connecting with
    | .fill => ⟨[.script k y (some r)], [.connected y.label, .opened k h], k + 1, none⟩
    | .half m => ⟨[.script k y (some r)], [.connected y.label, .opened k h], k + 1, some m⟩
    | .raise m => ⟨[], .connected y.label :: r.drop, k, some m⟩
    | .deliver _ _ => ⟨[], [.connected y.label], k, none⟩
  | either which x, r, h, k =>
    (x.lay s env r (h + 1) (k + 1)).inside env (.either k which) [.opened k h]
  | bind p f next, r, h, k =>
    (p.lay s env (.child .predecessor s h) (h + 1) (k + 1)).inside env
      (Machine.newBinding f next r k) [.logged k .connecting, .opened k h]

variable {s : Site} {env : Env} {x : Sender}

@[simp] lemma raised_lay (x : Sender) (r : Receiver) (h k : Nat) :
    (x.lay s env r h k).raised = x.flaw := by
  induction x generalizing r h k with
  | ready c => rfl
  | leaf l => rfl
  | exploding built => cases built <;> rfl
  | script y => cases hy : y.connecting <;> simp [lay, flaw, hy, Connecting.flaw]
  | either which x ih => simp [lay, flaw, ih]
  | bind p f next ih => simp [lay, flaw, ih]

lemma Scriptless.silent (hx : x.Scriptless) : x.Silent := by
  induction x with
  | script y => exact hx.elim
  | either which x ih => exact ih hx
  | bind p f next ih => exact ih hx.1
  | _ => trivial

/-- The guard of an operation that is finished in place leaves nothing in the slot. -/
lemma layers_lay_of_flaw {m : Payload} (hx : x.kind = .bind ∨ x.kind = .either)
    (hm : x.flaw = some m) (r : Receiver) (h k : Nat) :
    (x.lay s env r h k).layers = [] := by
  have hinside {l : Layer} {acts : List Act} {y : Laid} (hy : y.raised = some m) :
      (y.inside env l acts).layers = [] := by
    rw [Laid.inside_of_raised_eq_some hy]
  cases x with
  | either which x => exact hinside ((raised_lay ..).trans hm)
  | bind p f next => exact hinside ((raised_lay ..).trans hm)
  | _ => simp [kind] at hx

/-- A sender that raises a payload when it is connected has not completed its receiver by then. -/
lemma silent_of_flaw {m : Payload} (hx : x.flaw = some m) : x.Silent := by
  induction x with
  | script y =>
    intro d p hy
    simp [flaw, hy, Connecting.flaw] at hx
  | either which x ih => exact ih hx
  | bind p f next ih => exact ih hx
  | _ => trivial

/-! ### The machine lays operations -/

open Config Machine

/-- What an alternative or a new binding operation lends to the operations inside it: nothing. -/
lemma scope_append_new {base : List Layer} {l : Layer} (hl : l.lent = []) :
    Layer.scope (base ++ [l]) = Layer.scope base := by
  simp [Layer.scope, hl]

/-- An operation is finished in place: its guard lets it stand or, if a payload was raised inside,
vacates its slot again. -/
lemma connects_guard (w : World) (base : List Layer) (l : Layer) (x : Laid)
    (acts acts' : List Act) (K : List Frame) :
    let y := x.inside (Layer.scope base) l acts'
    Connects
      (finishOr (w.after s (base ++ [l] ++ x.layers) x.count (acts ++ acts' ++ x.acts)) x.raised
        (.guard s base.length :: K))
      (finishOr (w.after s (base ++ y.layers) y.count (acts ++ y.acts)) y.raised K) := by
  intro y
  cases hr : x.raised with
  | none =>
    refine .keep ?_
    simpa [y, Laid.inside, hr] using Connects.refl _
  | some m =>
    refine .climb rfl rfl ?_
    simpa [y, Laid.inside, hr, unwind] using Connects.refl _

/-- Connecting a silent sender on top of what a site holds comes to what `lay` says. -/
theorem connects (hx : x.Silent) (r : Receiver) (w : World) (base : List Layer) (k : Nat)
    (acts : List Act) (K : List Frame) :
    let y := x.lay s (Layer.scope base) r base.length k
    Connects ⟨w.after s base k acts, .connect x r s base.length, K⟩
      (finishOr (w.after s (base ++ y.layers) y.count (acts ++ y.acts)) x.flaw K) := by
  induction x generalizing r base k acts K with
  | ready c =>
    refine .climb rfl rfl ?_
    simpa [connect, connectLeaf, lay, flaw] using Connects.refl _
  | leaf l =>
    refine .climb rfl rfl ?_
    simpa [connect, connectLeaf, lay, flaw] using Connects.refl _
  | exploding built =>
    refine .climb rfl rfl ?_
    cases built with
    | none => simpa [connect, lay, flaw, fault] using Connects.refl _
    | some label => simpa [connect, connectLeaf, lay, flaw] using Connects.refl _
  | script y =>
    refine .climb rfl rfl ?_
    cases hy : y.connecting with
    | deliver d m => exact absurd hy (hx d m)
    | raise m =>
      simpa [connect, connectScript, lay, flaw, Connecting.flaw, hy] using Connects.refl _
    | _ =>
      simpa [connect, connectScript, connectLeaf, lay, flaw, Connecting.flaw, hy] using
        Connects.refl _
  | either which x ih =>
    have hin := ih hx r (base ++ [.either k which]) (k + 1) (acts ++ [.opened k base.length])
      (.guard s base.length :: K)
    have hguard := connects_guard (s := s) w base (.either k which)
      (x.lay s (Layer.scope base) r (base.length + 1) (k + 1)) acts [.opened k base.length] K
    simp only [List.length_append, List.length_singleton,
      scope_append_new (l := .either k which) rfl] at hin
    rw [raised_lay] at hguard
    refine .climb rfl rfl ?_
    simpa [connect, lay, flaw] using hin.trans hguard
  | bind p f next ih =>
    have hin := ih hx (.child .predecessor s base.length) (base ++ [newBinding f next r k]) (k + 1)
      (acts ++ [.logged k .connecting, .opened k base.length]) (.guard s base.length :: K)
    have hguard := connects_guard (s := s) w base (newBinding f next r k)
      (p.lay s (Layer.scope base) (.child .predecessor s base.length) (base.length + 1) (k + 1))
      acts [.logged k .connecting, .opened k base.length] K
    simp only [List.length_append, List.length_singleton,
      scope_append_new (l := newBinding f next r k) rfl] at hin
    rw [raised_lay] at hguard
    refine .climb rfl rfl ?_
    simpa [connect, lay, flaw] using hin.trans hguard

lemma leads_connect (hx : x.Silent) (r : Receiver) (w : World) (base : List Layer) (k : Nat)
    (acts : List Act) (K : List Frame) :
    let y := x.lay s (Layer.scope base) r base.length k
    Leads ⟨w.after s base k acts, .connect x r s base.length, K⟩ []
      (finishOr (w.after s (base ++ y.layers) y.count (acts ++ y.acts)) x.flaw K) :=
  (connects hx r w base k acts K).leads

/-- A host connects a silent sender in a vacant place. -/
lemma connects_call (hx : x.Silent) (r : Receiver) {w : World} {p : Int}
    (hv : w.layers (.place p) = []) (K : List Frame) :
    let y := x.lay (.place p) [] r 0 (w.nextSerial (.place p))
    Connects ⟨w, .call (.connect p x r), K⟩
      (finishOr (w.after (.place p) y.layers y.count y.acts) x.flaw K) := by
  have hcall : Moves ⟨w, .call (.connect p x r), K⟩
      ⟨w.after (.place p) [] (w.nextSerial (.place p)) [], .connect x r (.place p) 0, K⟩ := by
    simp [Moves, next, Machine.call, connectPlace, hv, World.setLayers_eq_after]
  refine .climb hcall rfl ?_
  simpa using connects (s := .place p) hx r w [] (w.nextSerial (.place p)) [] K

/-! ### Operations that are yet to be started -/

/-- Layers from a height of a site on are the operation of a sender, connected to a receiver and not
yet started. -/
inductive Stands (s : Site) : Sender → Receiver → Nat → List Layer → Prop where
  | ready {c : Completion Value Failure} {r : Receiver} {h k : Nat} :
      Stands s (.ready c) r h [.ready k (some (c, r))]
  | leaf {l : Leaf} {r : Receiver} {h k : Nat} : Stands s (.leaf l) r h [.leaf k l (some r)]
  | script {y : Script} {r : Receiver} {h k : Nat} :
      Stands s (.script y) r h [.script k y (some r)]
  | either {which : Arm} {x : Sender} {r : Receiver} {h k : Nat} {ls : List Layer}
      (hx : Stands s x r (h + 1) ls) : Stands s (.either which x) r h (.either k which :: ls)
  | bind {p : Sender} {f : Factory} {next : Env → Sender} {r : Receiver} {h k : Nat}
      {ls : List Layer} (hp : Stands s p (.child .predecessor s h) (h + 1) ls) :
      Stands s (.bind p f next) r h (newBinding f next r k :: ls)

lemma Stands.ne_nil {r : Receiver} {h : Nat} {ls : List Layer} (hx : x.Stands s r h ls) :
    ls ≠ [] := by
  cases hx <;> exact List.cons_ne_nil _ _

/-- If nothing is raised, what connecting a silent sender builds stands. -/
lemma stands_lay (hx : x.Silent) (hflaw : x.flaw = none) (r : Receiver) (h k : Nat) :
    x.Stands s r h (x.lay s env r h k).layers := by
  induction x generalizing r h k with
  | ready c => exact .ready
  | leaf l => exact .leaf
  | exploding built => simp [flaw] at hflaw
  | script y =>
    cases hy : y.connecting with
    | fill => simpa [lay, hy] using Stands.script
    | deliver d m => exact absurd hy (hx d m)
    | _ => simp [flaw, hy, Connecting.flaw] at hflaw
  | either which x ih =>
    have hr : (x.lay s env r (h + 1) (k + 1)).raised = none := (raised_lay ..).trans hflaw
    rw [lay, Laid.inside_of_raised_eq_none hr]
    exact .either (ih hx hflaw ..)
  | bind p f next ih =>
    have hr : (p.lay s env (.child .predecessor s h) (h + 1) (k + 1)).raised = none :=
      (raised_lay ..).trans hflaw
    rw [lay, Laid.inside_of_raised_eq_none hr]
    exact .bind (ih hx hflaw ..)

end Sender

end Handoff
