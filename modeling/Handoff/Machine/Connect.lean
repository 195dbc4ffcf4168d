import Handoff.Machine.Config

/-!
# Connecting

Leaves fill their slot at once. Binding operations and alternatives fill it first and are then
finished in place by connecting what they hold; a guard vacates the slot again if that raises a
payload.
-/

namespace Handoff.Machine

/-- Fill a slot with a leaf's operation, then raise a payload, if there is one. -/
def connectLeaf (w : World) (site : Site) (h : Nat) (make : Nat → Layer) (after : Option Payload)
    (K : List Frame) : Config :=
  match w.fill site h make with
  | (w, true) => finishOr w after K
  | (w, false) => fault w .occupiedConnect K

/-- Connect a script, which may do other things than to fill its place. -/
def connectScript (w : World) (s : Script) (r : Receiver) (site : Site) (h : Nat)
    (K : List Frame) : Config :=
  let w := w.note site [.connected s.label]
  let make k := Layer.script k s (some r)
  match s.connecting with
  | .fill => connectLeaf w site h make none K
  | .half p => connectLeaf w site h make (some p) K
  | .raise p => ⟨w.note site r.drop, .raised p, K⟩
  | .deliver d p => ⟨w, .complete r (d.eval (w.scope site h) none), .thenRaise p :: K⟩

/-- The operation that a binding starts out as. -/
def newBinding (f : Factory) (next : Env → Sender) (r : Receiver) (serial : Nat) : Layer :=
  .bind { serial, factory := some (f, next), receiver := some r }

/-- Connect a sender to a receiver in the slot at a height of a site. -/
def connect (w : World) (s : Sender) (r : Receiver) (site : Site) (h : Nat) (K : List Frame) :
    Config :=
  match s with
  | .ready c => connectLeaf w site h (.ready · (some (c, r))) none K
  | .leaf l => connectLeaf (w.note site [.connected l.label]) site h (.leaf · l (some r)) none K
  | .exploding none => fault (w.note site r.drop) .connectExploded K
  | .exploding (some label) =>
    connectLeaf (w.note site [.connected label]) site h
      (.leaf · { label, completion := .done } (some r)) (some Fault.connectExploded.payload) K
  | .script s => connectScript w s r site h K
  | .either which s =>
    match w.fill site h (.either · which) with
    | (w, true) => ⟨w, .connect s r site (h + 1), .guard site h :: K⟩
    | (w, false) => fault (w.note site (s.drop ++ r.drop)) .occupiedConnect K
  | .bind p f next =>
    let w := w.note site [.logged (w.nextSerial site) .connecting]
    match w.fill site h (newBinding f next r) with
    | (w, true) => ⟨w, .connect p (.child .predecessor site h) site (h + 1), .guard site h :: K⟩
    | (w, false) => fault (w.note site p.drop) .occupiedConnect K

end Handoff.Machine
