import Handoff.Proofs.Holding.Live
import Handoff.Proofs.Laying

/-!
# Building operations

Connecting a sender without scripts comes to one of three things. Its operations stand whole, each
connected to the one around it and none started; or a payload was raised, and either the half-built
operation of a leaf is left in the slot, or nothing is. `Sender.built_lay` is this statement.
-/

namespace Handoff

open Layer (Conveys Fitting)

namespace Sender

variable {s : Site} {x : Sender} {o r : Receiver} {h : Nat} {base ls : List Layer} {env : Env}

lemma Stands.fitting (hls : x.Stands s r h ls) : Fitting ls := by
  induction hls with
  | ready => exact ⟨rfl, trivial⟩
  | leaf => exact ⟨rfl, trivial⟩
  | script => exact ⟨rfl, trivial⟩
  | either hls ih => exact ⟨hls.ne_nil, ih⟩
  | bind hls ih =>
    refine ⟨⟨fun _ => ⟨rfl, hls.ne_nil, rfl, rfl⟩, ?_, ?_, ?_⟩, ih⟩
    all_goals exact fun hc => absurd hc (by simp)

/-- Operations that are yet to be started go on with a line, down to a leaf that is still to
complete. -/
lemma Stands.exists_conveys (hls : x.Stands s r h ls) (hx : x.Scriptless)
    (hbase : Conveys o s base x r) (hh : h = base.length) :
    ∃ base' l y r', base ++ ls = base' ++ [l] ∧ Conveys o s base' y r' ∧ ∀ q, l.Owes q r' := by
  induction hls generalizing base with
  | @ready c r h k => exact ⟨base, _, _, r, rfl, hbase, fun q => ⟨c, rfl⟩⟩
  | @leaf l r h k => exact ⟨base, _, _, r, rfl, hbase, fun q => .inl rfl⟩
  | script => exact hx.elim
  | either _ ih =>
    subst hh
    simpa using ih hx hbase.either (by simp)
  | @bind p f next r h k ls _ ih =>
    subst hh
    have hinside : Conveys o s (base ++ [Machine.newBinding f next r k]) p
        (.child .predecessor s base.length) :=
      hbase.bind (.bind (.inr rfl) (.inr rfl)) (by simp) rfl rfl (.predecessor p f next)
    simpa using ih hx.1 hinside (by simp)

end Sender

namespace Layer

/-- What stands in a slot into which a sender without scripts was connected, and what that has
raised. -/
inductive Built (s : Site) (x : Sender) (r : Receiver) (h : Nat) :
    List Layer → Option Payload → Prop where
  | whole {ls : List Layer} (hls : x.Stands s r h ls) : Built s x r h ls none
  | half {k : Nat} {l : Leaf} {m : Payload} : Built s x r h [.leaf k l (some r)] (some m)
  | nothing {m : Payload} : Built s x r h [] (some m)

variable {s : Site} {x : Sender} {o r : Receiver} {h : Nat} {base ls : List Layer}
  {m : Option Payload}

lemma Built.fitting (hls : Built s x r h ls m) : Fitting ls := by
  cases hls with
  | whole hls => exact hls.fitting
  | half => exact ⟨rfl, trivial⟩
  | nothing => trivial

/-- What is left at a site where nothing stood is live when something was connected there. Only a
connect that has raised a payload leaves nothing. -/
lemma Built.live {w : World} (hls : Built s x r 0 ls m) (hx : x.Scriptless) (hr : r.Ends s)
    (hw : w.layers s = ls) : w.Live s r ∨ ls = [] ∧ ∃ p, m = some p := by
  cases hls with
  | whole hls =>
    obtain ⟨base, l, y, r', hsplit, hbase, howes⟩ := hls.exists_conveys hx (conveys_nil r s x) rfl
    exact .inl ⟨hr, base, l, y, r', hw.trans hsplit, hbase, howes _⟩
  | half => exact .inl ⟨hr, [], _, x, r, hw, conveys_nil r s x, .inl rfl⟩
  | @nothing p => exact .inr ⟨rfl, p, rfl⟩

lemma unscripted_ready (k : Nat) (c : Completion Value Failure) (hr : r.Unscripted) :
    (ready k (some (c, r))).Unscripted :=
  .of_kind_ne (by simp [kind]) (by simp [kind]) (by simpa [receiver?] using hr)

lemma unscripted_leaf (k : Nat) (l : Leaf) (hr : r.Unscripted) :
    (leaf k l (some r)).Unscripted :=
  .of_kind_ne (by simp [kind]) (by simp [kind]) (by simpa [receiver?] using hr)

lemma unscripted_either (k : Nat) (which : Arm) : (either k which).Unscripted :=
  .of_kind_ne (by simp [kind]) (by simp [kind]) (by simp [receiver?])

lemma unscripted_newBinding {f : Factory} {next : Env → Sender} (k : Nat)
    (hnext : ∀ env, (next env).Scriptless) (hr : r.Unscripted) :
    (Machine.newBinding f next r k).Unscripted where
  kind_ne := by simp [Machine.newBinding, kind]
  receiver := by simpa [Machine.newBinding, receiver?] using hr
  factory b hb f' next' hf := by
    cases hb
    obtain ⟨-, rfl⟩ : f = f' ∧ next = next' := by simpa using hf
    exact hnext

end Layer

namespace Sender

open Layer (Built)

variable {s : Site} {x : Sender} {env : Env}

/-- What connecting a sender without scripts leaves in the slot. -/
theorem built_lay (hx : x.Scriptless) (r : Receiver) (h k : Nat) :
    Built s x r h (x.lay s env r h k).layers x.flaw := by
  cases hflaw : x.flaw with
  | none => exact .whole (stands_lay hx.silent hflaw r h k)
  | some m =>
    cases x with
    | ready c => simp [flaw] at hflaw
    | leaf l => simp [flaw] at hflaw
    | exploding built =>
      cases built with
      | none => exact .nothing
      | some label => exact .half
    | script y => exact hx.elim
    | either which x =>
      rw [layers_lay_of_flaw (.inr rfl) hflaw]
      exact .nothing
    | bind p f next =>
      rw [layers_lay_of_flaw (.inl rfl) hflaw]
      exact .nothing

lemma unscripted_lay (hx : x.Scriptless) {r : Receiver} (hr : r.Unscripted) (h k : Nat) :
    ∀ l ∈ (x.lay s env r h k).layers, l.Unscripted := by
  induction x generalizing r h k with
  | ready c => simpa [lay] using Layer.unscripted_ready k c hr
  | leaf l => simpa [lay] using Layer.unscripted_leaf k l hr
  | exploding built =>
    cases built with
    | none => simp [lay]
    | some label => simpa [lay] using Layer.unscripted_leaf k _ hr
  | script y => exact hx.elim
  | either which x ih =>
    exact Laid.forall_layers_inside (Layer.unscripted_either k which) (ih hx hr _ _)
  | bind p f next ih =>
    have hp : (Receiver.child .predecessor s h).Unscripted := trivial
    exact Laid.forall_layers_inside (Layer.unscripted_newBinding k hx.2 hr) (ih hx.1 hp _ _)

end Sender

end Handoff
