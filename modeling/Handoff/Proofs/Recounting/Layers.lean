import Handoff.World
import Mathlib.Tactic.Common

/-!
# Operations under other numbers

The operations of a site are numbered as they are built. `Layer.recount` gives an operation another
number, and so on for all that speaks of numbers. Nothing but the record depends on them: what
operations lend, how they are dropped and where completions through them go is the same.
-/

namespace Handoff

/-- What happens, under other numbers. -/
def Act.recount (f : Nat → Nat) : Act → Act
  | opened k h => opened (f k) h
  | closed k => closed (f k)
  | stored k => stored (f k)
  | released k => released (f k)
  | called k label n => called (f k) label n
  | logged k r => logged (f k) r
  | a => a

/-- A binding operation under another number. -/
def Binding.recount (f : Nat → Nat) (b : Binding) : Binding := { b with serial := f b.serial }

/-- An operation under another number. -/
def Layer.recount (f : Nat → Nat) : Layer → Layer
  | ready k held => ready (f k) held
  | leaf k l held => leaf (f k) l held
  | script k s held => script (f k) s held
  | either k which => either (f k) which
  | bind b => bind (b.recount f)

/-- What dropping operations leaves behind, under other numbers. -/
def Dropped.recount (f : Nat → Nat) (d : Dropped) : Dropped :=
  { d with acts := d.acts.map (Act.recount f) }

variable {f : Nat → Nat}

/-! ### What happens -/

namespace Act

@[simp] lemma recount_opened (k h : Nat) : (opened k h).recount f = opened (f k) h := rfl

@[simp] lemma recount_closed (k : Nat) : (closed k).recount f = closed (f k) := rfl

@[simp] lemma recount_stored (k : Nat) : (stored k).recount f = stored (f k) := rfl

@[simp] lemma recount_released (k : Nat) : (released k).recount f = released (f k) := rfl

@[simp] lemma recount_called (k : Nat) (label : Option String) (n : Int64) :
    (called k label n).recount f = called (f k) label n := rfl

@[simp] lemma recount_logged (k : Nat) (r : Record) : (logged k r).recount f = logged (f k) r := rfl

@[simp] lemma recount_uncalled (label : String) : (uncalled label).recount f = uncalled label := rfl

@[simp] lemma recount_connected (label : String) :
    (connected label).recount f = connected label := rfl

@[simp] lemma recount_started (label : String) : (started label).recount f = started label := rfl

@[simp] lemma recount_gaveUp (label : String) : (gaveUp label).recount f = gaveUp label := rfl

@[simp] lemma recount_dropped (label : String) : (dropped label).recount f = dropped label := rfl

@[simp] lemma recount_droppedSeeing (label : String) (n : Option Int64) :
    (droppedSeeing label n).recount f = droppedSeeing label n := rfl

@[simp] lemma recount_walked (label : String) (names : List String) :
    (walked label names).recount f = walked label names := rfl

@[simp] lemma recount_receiverDropped (label : String) :
    (receiverDropped label).recount f = receiverDropped label := rfl

@[simp] lemma recount_completed (label : String) (c : Completion Int64 Failure) :
    (completed label c).recount f = completed label c := rfl

@[simp] lemma recount_did (label step : String) (r : Reply) :
    (did label step r).recount f = did label step r := rfl

@[simp] lemma recount_caught (label : String) (p : Payload) :
    (caught label p).recount f = caught label p := rfl

@[simp] lemma recount_remark (text : String) : (remark text).recount f = remark text := rfl

@[simp] lemma recount_waiterGone : waiterGone.recount f = waiterGone := rfl

/-- A journal shows no numbers. -/
@[simp] lemma entry?_recount (logging : Bool) (a : Act) :
    Act.entry? logging (a.recount f) = a.entry? logging := by
  cases a with
  | called k label n => cases label <;> rfl
  | _ => rfl

lemma recount_id (a : Act) : a.recount id = a := by
  cases a <;> rfl

end Act

@[simp] lemma map_recount_receiver (r : Receiver) :
    r.drop.map (Act.recount f) = r.drop := by
  cases r <;> simp [Receiver.drop]

@[simp] lemma map_recount_dropHeld (r : Option Receiver) :
    (dropHeld r).map (Act.recount f) = dropHeld r := by
  cases r <;> simp [dropHeld]

@[simp] lemma map_recount_value (v : Value) : v.drop.map (Act.recount f) = v.drop := rfl

@[simp] lemma map_recount_dropCarried (c : Completion Value Failure) :
    (dropCarried c).map (Act.recount f) = dropCarried c := by
  cases c <;> rfl

@[simp] lemma map_recount_factory (x : Factory) : x.drop.map (Act.recount f) = x.drop := by
  cases hx : x.label <;> simp [Factory.drop, hx]

@[simp] lemma map_recount_sender (x : Sender) : x.drop.map (Act.recount f) = x.drop := by
  induction x with
  | ready c => simp [Sender.drop]
  | leaf l => simp [Sender.drop]
  | exploding built => rfl
  | script s => rfl
  | either which x ih => exact ih
  | bind p x next ih _ => simp [Sender.drop, ih]

/-! ### Binding operations -/

namespace Binding

variable (b : Binding)

@[simp] lemma serial_recount : (b.recount f).serial = f b.serial := rfl

@[simp] lemma factory_recount : (b.recount f).factory = b.factory := rfl

@[simp] lemma receiver_recount : (b.recount f).receiver = b.receiver := rfl

@[simp] lemma value_recount : (b.recount f).value = b.value := rfl

@[simp] lemma storage_recount : (b.recount f).storage = b.storage := rfl

@[simp] lemma cleanup_recount : (b.recount f).cleanup = b.cleanup := rfl

@[simp] lemma stored_recount : (b.recount f).stored = b.stored := rfl

@[simp] lemma lent_recount : (b.recount f).lent = b.lent := rfl

@[simp] lemma keepsValueOf_recount (run : Nat) :
    (b.recount f).keepsValueOf run = b.keepsValueOf run := rfl

@[simp] lemma recount_store (v : Value) : (b.store v).recount f = (b.recount f).store v := rfl

@[simp] lemma recount_vacate : b.vacate.recount f = (b.recount f).vacate := rfl

@[simp] lemma recount_call : b.call.recount f = (b.recount f).call := rfl

@[simp] lemma recount_emplace : b.emplace.recount f = (b.recount f).emplace := rfl

@[simp] lemma recount_settle : b.settle.recount f = (b.recount f).settle := rfl

@[simp] lemma recount_spend : b.spend.recount f = (b.recount f).spend := rfl

@[simp] lemma recount_restore (env : Env) :
    (b.restore env).recount f = (b.recount f).restore env := by
  cases env <;> rfl

@[simp] lemma map_recount_dropFactory :
    b.dropFactory.map (Act.recount f) = b.dropFactory := by
  cases h : b.factory <;> simp [dropFactory, h]

@[simp] lemma dropFactory_recount : (b.recount f).dropFactory = b.dropFactory := rfl

@[simp] lemma dropValue_recount :
    (b.recount f).dropValue = b.dropValue.map (Act.recount f) := by
  cases h : b.value <;> simp [dropValue, h]

lemma drop_recount (child : Dropped) :
    (b.recount f).drop (child.recount f) = (b.drop child).recount f := by
  obtain ⟨acts, raised⟩ := child
  cases h : b.cleanup <;> cases raised <;> simp [drop, Dropped.recount, h]

end Binding

/-! ### Operations and lists of them -/

namespace Layer

@[simp] lemma kind_recount (l : Layer) : (l.recount f).kind = l.kind := by
  cases l <;> rfl

@[simp] lemma serial_recount (l : Layer) : (l.recount f).serial = f l.serial := by
  cases l <;> rfl

@[simp] lemma lent_recount (l : Layer) : (l.recount f).lent = l.lent := by
  cases l <;> rfl

lemma drop_recount (unwinding : Bool) (env : Env) (child : Dropped) (l : Layer) :
    (l.recount f).drop unwinding env (child.recount f) =
      (l.drop unwinding env child).recount f := by
  cases l with
  | ready k held =>
    cases held <;> simp [drop, recount, Dropped.recount]
  | leaf k l held =>
    cases held <;> simp [drop, recount, Dropped.recount]
  | script k s held =>
    cases h : s.peekOnDrop <;> simp [drop, recount, Dropped.recount, h]
  | either k which => rfl
  | bind b => exact b.drop_recount child

/-- Operations are dropped in the same way under other numbers. -/
lemma dropAll_recount (unwinding : Bool) (env : Env) (ls : List Layer) :
    dropAll unwinding env (ls.map (recount f)) = (dropAll unwinding env ls).recount f := by
  induction ls generalizing env with
  | nil => rfl
  | cons l rest ih =>
    simp only [List.map_cons, dropAll, lent_recount, ih, drop_recount, serial_recount]
    simp [Dropped.recount]

@[simp] lemma scope_recount (ls : List Layer) : scope (ls.map (recount f)) = scope ls := by
  simp [scope, List.flatMap_map]

lemma writeBack_recount (ns : Env) (ls : List Layer) :
    writeBack ns (ls.map (recount f)) = (writeBack ns ls).map (recount f) := by
  induction ls generalizing ns with
  | nil => rfl
  | cons l rest ih =>
    cases l with
    | bind b =>
      cases hl : b.lent with
      | nil => simp [writeBack, recount, lent, hl, ih]
      | cons m ms => cases ns <;> simp [writeBack, recount, lent, hl, ih]
    | _ => simp [writeBack, recount, ih]

lemma trail_recount (ls : List Layer) (n : Nat) (r : Receiver) :
    trail (ls.map (recount f)) n r = trail ls n r := by
  induction n generalizing r with
  | zero => rfl
  | succ n ih =>
    cases r with
    | child role s i =>
      simp only [trail, List.getElem?_map]
      cases hl : ls[i]? with
      | none => rfl
      | some l =>
        cases l with
        | bind b => cases hr : b.receiver <;> simp [recount, hr, ih]
        | _ => rfl
    | _ => rfl

end Layer

end Handoff
