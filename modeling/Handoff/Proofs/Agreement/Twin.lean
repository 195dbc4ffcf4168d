import Handoff.Proofs.Lifetime.Upkeep

/-!
# Twins

One sender is connected twice: at a numbered place, to a receiver that records its completion, and
in the frame of a blocked caller, to that caller's receiver. What comes to stand at the one site is
the twin of what stands at the other. Twins differ in their numbers, which go on from those of their
own site, in the site that handles lead to, and in the final receiver. `World.Twin` says that two
worlds are the two sides of such a double course since a common world, and each operation of the
world on the two sites keeps them so.

Nothing may be left to the queue, as a host at a place may leave it there while a blocked caller
works it off: `Sender.Immediate` are the senders that put nothing off.
-/

namespace Handoff

/-! ### What is not put off -/

/-- Whether an instruction puts nothing off to a task. -/
def Instr.isImmediate : Instr → Bool
  | defer => false
  | later _ => false
  | _ => true

/-- Whatever a script does, it does inside its start. -/
def Script.Immediate (s : Script) : Prop := ∀ i ∈ s.start, i.isImmediate = true

/-- No leaf puts anything off, nor does any that factories make. -/
def Sender.Immediate : Sender → Prop
  | ready _ => True
  | leaf l => l.deferred = false
  | exploding _ => True
  | script s => s.Immediate
  | either _ s => s.Immediate
  | bind p _ next => p.Immediate ∧ ∀ env, (next env).Immediate

/-- Whether an act goes without the number of an operation. -/
def Act.isPlain : Act → Bool
  | logged _ _ => false
  | a => !a.isBooked

/-! ### Twins -/

section Twins

variable (v : World) (p : Int)

/-- The numbers of an operation that was built at a place since the given world and of its twin in
the frame of a blocked caller. -/
structure Paired (k k' : Nat) : Prop where
  le : v.nextSerial (.place p) ≤ k
  add_eq : k + v.nextSerial .wait = k' + v.nextSerial (.place p)

/-- The same happens at both sites. Texts may differ that name receivers. -/
inductive Act.Twin : Act → Act → Prop
  | opened {k k' : Nat} (hk : Paired v p k k') (i : Nat) : Twin (.opened k i) (.opened k' i)
  | closed {k k' : Nat} (hk : Paired v p k k') : Twin (.closed k) (.closed k')
  | stored {k k' : Nat} (hk : Paired v p k k') : Twin (.stored k) (.stored k')
  | released {k k' : Nat} (hk : Paired v p k k') : Twin (.released k) (.released k')
  | called {k k' : Nat} (hk : Paired v p k k') (label : Option String) (n : Int64) :
      Twin (.called k label n) (.called k' label n)
  | logged {k k' : Nat} (hk : Paired v p k k') (r : Record) : Twin (.logged k r) (.logged k' r)
  | remark (text text' : String) : Twin (.remark text) (.remark text')
  | walked (label : String) (names names' : List String) :
      Twin (.walked label names) (.walked label names')
  | plain {a : Act} (ha : a.isPlain = true) : Twin a a

/-- A receiver at a place and the one that has its part in the frame of a blocked caller. -/
inductive Receiver.Twin : Receiver → Receiver → Prop
  | child (role : Role) (i : Nat) : Twin (.child role (.place p) i) (.child role .wait i)
  | final : Twin (.recorder (.place p) none) (.waiter v.waits)

/-- Receivers that may be gone already. -/
abbrev Receiver.TwinHeld : Option Receiver → Option Receiver → Prop :=
  Option.Rel (Receiver.Twin v p)

/-- A binding operation and its twin. -/
structure Binding.Twin (b b' : Binding) : Prop where
  paired : Paired v p b.serial b'.serial
  factory_eq : b'.factory = b.factory
  immediate : ∀ f next, b.factory = some (f, next) → ∀ env, (next env).Immediate
  receiver : Receiver.TwinHeld v p b.receiver b'.receiver
  value_eq : b'.value = b.value
  storage_eq : b'.storage = b.storage
  cleanup_eq : b'.cleanup = b.cleanup

/-- An operation and its twin. -/
inductive Layer.Twin : Layer → Layer → Prop
  | ready {k k' : Nat} (hk : Paired v p k k') (c : Completion Value Failure) {r r' : Receiver}
      (hr : r.Twin v p r') : Twin (.ready k (some (c, r))) (.ready k' (some (c, r')))
  | started {k k' : Nat} (hk : Paired v p k k') : Twin (.ready k none) (.ready k' none)
  | leaf {k k' : Nat} (hk : Paired v p k k') {l : Leaf} (hl : l.deferred = false)
      {r r' : Option Receiver} (hr : Receiver.TwinHeld v p r r') :
      Twin (.leaf k l r) (.leaf k' l r')
  | script {k k' : Nat} (hk : Paired v p k k') {s : Script} (hs : s.Immediate)
      {r r' : Option Receiver} (hr : Receiver.TwinHeld v p r r') :
      Twin (.script k s r) (.script k' s r')
  | either {k k' : Nat} (hk : Paired v p k k') (which : Arm) :
      Twin (.either k which) (.either k' which)
  | bind {b b' : Binding} (hb : b.Twin v p b') : Twin (.bind b) (.bind b')

/-- The operations of a place and those in the frame of a blocked caller. -/
abbrev Layer.Twins : List Layer → List Layer → Prop := List.Forall₂ (Layer.Twin v p)

/-- What was recorded at the two sites. -/
abbrev Act.Twins : List Act → List Act → Prop := List.Forall₂ (Act.Twin v p)

/-- What dropping an operation leaves behind, and what dropping its twin does. -/
structure Dropped.Twin (d d' : Dropped) : Prop where
  acts : Act.Twins v p d.acts d'.acts
  raised_eq : d'.raised = d.raised

end Twins

variable {v : World} {p : Int}

/-- Of two related things that may be missing both are there, or neither is. -/
lemma rel_cases {α β : Type} {R : α → β → Prop} {x : Option α} {y : Option β}
    (h : Option.Rel R x y) : x = none ∧ y = none ∨ ∃ a b, x = some a ∧ y = some b ∧ R a b := by
  cases h with
  | some hab => exact .inr ⟨_, _, rfl, rfl, hab⟩
  | none => exact .inl ⟨rfl, rfl⟩

/-! ### Numbers -/

namespace Paired

variable {k k' i i' : Nat}

lemma first (v : World) (p : Int) : Paired v p (v.nextSerial (.place p)) (v.nextSerial .wait) :=
  ⟨Nat.le_refl _, Nat.add_comm _ _⟩

lemma succ (h : Paired v p k k') : Paired v p (k + 1) (k' + 1) := by
  obtain ⟨hle, hadd⟩ := h
  constructor <;> omega

lemma eq_iff (h : Paired v p k k') (hi : Paired v p i i') : k = i ↔ k' = i' := by
  obtain ⟨-, hadd⟩ := h
  obtain ⟨-, haddi⟩ := hi
  omega

end Paired

/-! ### Acts -/

namespace Act

variable {acts acts' : List Act}

lemma twins_self (h : ∀ a ∈ acts, a.isPlain = true) : Twins v p acts acts :=
  List.forall₂_same.2 fun a ha => .plain (h a ha)

@[simp] lemma twins_note {a a' : Act} : Twins v p [a] [a'] ↔ a.Twin v p a' := by
  simp [Twins]

lemma twins_drop_value (u : Value) : Twins v p u.drop u.drop :=
  twins_self (by simp [Value.drop, isPlain, isBooked])

lemma twins_dropCarried (c : Completion Value Failure) :
    Twins v p (dropCarried c) (dropCarried c) := by
  cases c with
  | value u => exact twins_drop_value u
  | error e => exact .nil
  | done => exact .nil

lemma twins_drop_sender (s : Sender) : Twins v p s.drop s.drop := by
  induction s with
  | ready c => exact twins_dropCarried c
  | leaf l => exact twins_dropCarried l.completion
  | exploding _ => exact .nil
  | script _ => exact .nil
  | either _ s ih => exact ih
  | bind p f next ih _ =>
    refine List.rel_append ih (twins_self ?_)
    cases hf : f.label <;> simp [Factory.drop, hf, isPlain, isBooked]

end Act

/-! ### Receivers -/

namespace Receiver

variable {r r' : Receiver} {held held' : Option Receiver}

lemma Twin.drop_eq (h : r.Twin v p r') : r.drop = [] ∧ r'.drop = [] := by
  cases h <;> exact ⟨rfl, rfl⟩

lemma Twin.isChild_eq (h : r.Twin v p r') : r'.isChild = r.isChild := by
  cases h <;> rfl

lemma Twin.ownStop_eq (h : r.Twin v p r') : r.ownStop = none ∧ r'.ownStop = none := by
  cases h <;> exact ⟨rfl, rfl⟩

lemma TwinHeld.dropHeld_eq (h : TwinHeld v p held held') :
    dropHeld held = [] ∧ dropHeld held' = [] := by
  cases h with
  | some hr => exact hr.drop_eq
  | none => exact ⟨rfl, rfl⟩

lemma TwinHeld.isSome_eq (h : TwinHeld v p held held') : held'.isSome = held.isSome := by
  cases h <;> rfl

lemma TwinHeld.ownStop_eq (h : TwinHeld v p held held') :
    (∀ r, held = some r → r.ownStop = none) ∧ ∀ r, held' = some r → r.ownStop = none := by
  cases h with
  | some hr => simpa using hr.ownStop_eq
  | none => simp

lemma TwinHeld.filter (h : TwinHeld v p held held') :
    TwinHeld v p (held.filter isChild) (held'.filter isChild) := by
  cases h with
  | some hr =>
    simp only [Option.filter_some, hr.isChild_eq]
    split_ifs
    · exact .some hr
    · exact .none
  | none => exact .none

end Receiver

/-! ### Binding operations -/

namespace Binding.Twin

variable {b b' : Binding}

lemma store (h : b.Twin v p b') (u : Value) : (b.store u).Twin v p (b'.store u) :=
  { h with value_eq := rfl, cleanup_eq := rfl }

lemma vacate (h : b.Twin v p b') : b.vacate.Twin v p b'.vacate := { h with storage_eq := rfl }

lemma call (h : b.Twin v p b') : b.call.Twin v p b'.call :=
  { h with factory_eq := rfl, immediate := by simp, cleanup_eq := rfl }

lemma emplace (h : b.Twin v p b') : b.emplace.Twin v p b'.emplace := { h with storage_eq := rfl }

lemma settle (h : b.Twin v p b') : b.settle.Twin v p b'.settle := { h with cleanup_eq := rfl }

lemma spend (h : b.Twin v p b') : b.spend.Twin v p b'.spend := { h with receiver := .none }

lemma restore (h : b.Twin v p b') (env : Env) : (b.restore env).Twin v p (b'.restore env) := by
  cases env with
  | nil => exact h
  | cons n env => exact { h with value_eq := by simp [Binding.restore, h.value_eq] }

lemma stored_eq (h : b.Twin v p b') : b'.stored = b.stored := by
  simp [stored, h.value_eq]

lemma lent_eq (h : b.Twin v p b') : b'.lent = b.lent := by
  simp [lent, h.storage_eq, h.stored_eq]

lemma dropValue (h : b.Twin v p b') : Act.Twins v p b.dropValue b'.dropValue := by
  cases hv : b.value with
  | none => simp [Binding.dropValue, h.value_eq, hv]
  | some u =>
    simpa [Binding.dropValue, h.value_eq, hv] using
      List.rel_append (Act.twins_drop_value u) (Act.twins_note.2 (.released h.paired))

lemma dropHanded (h : b.Twin v p b') :
    Act.Twins v p (b.dropFactory ++ dropHeld b.receiver)
      (b'.dropFactory ++ dropHeld b'.receiver) := by
  obtain ⟨hr, hr'⟩ := h.receiver.dropHeld_eq
  rw [hr, hr', List.append_nil, List.append_nil]
  cases hf : b.factory with
  | none => simp [dropFactory, h.factory_eq, hf]
  | some f =>
    have hplain : Act.Twins v p f.1.drop f.1.drop := by
      refine Act.twins_self ?_
      cases hl : f.1.label <;> simp [Factory.drop, hl, Act.isPlain, Act.isBooked]
    simpa [dropFactory, h.factory_eq, hf] using hplain

lemma drop {d d' : Dropped} (h : b.Twin v p b') (hd : d.Twin v p d') :
    (b.drop d).Twin v p (b'.drop d') := by
  have hlog (r : Record) : Act.Twin v p (.logged b.serial r) (.logged b'.serial r) :=
    .logged h.paired r
  have hhanded := h.dropHanded
  have hvalue := h.dropValue
  unfold Binding.drop
  rw [h.cleanup_eq]
  cases b.cleanup with
  | invalid =>
    exact ⟨.cons (hlog _) (.cons (hlog _) (List.rel_append hhanded hvalue)), rfl⟩
  | predecessor =>
    exact ⟨.cons (hlog _) (List.rel_append hd.acts (List.rel_append hhanded hvalue)),
      hd.raised_eq⟩
  | values | successor =>
    simp only [hd.raised_eq]
    cases d.raised with
    | none =>
      exact ⟨.cons (hlog _) (List.rel_append hd.acts (List.rel_append hvalue hhanded)), rfl⟩
    | some m =>
      exact ⟨.cons (hlog _) (List.rel_append hd.acts (List.rel_append hhanded hvalue)), rfl⟩

end Binding.Twin

/-! ### Operations -/

namespace Layer

variable {l l' : Layer} {ls ls' : List Layer} {unwinding : Bool} {env : Env} {d d' : Dropped}

lemma Twin.paired (h : l.Twin v p l') : Paired v p l.serial l'.serial := by
  cases h with
  | bind hb => exact hb.paired
  | _ hk => exact hk

lemma Twin.lent_eq (h : l.Twin v p l') : l'.lent = l.lent := by
  cases h with
  | bind hb => exact hb.lent_eq
  | _ => rfl

lemma Twin.drop (h : l.Twin v p l') (hd : d.Twin v p d') :
    (l.drop unwinding env d).Twin v p (l'.drop unwinding env d') := by
  cases h with
  | ready hk c hr =>
    obtain ⟨hr, hr'⟩ := hr.drop_eq
    refine ⟨?_, hd.raised_eq⟩
    simpa [Layer.drop, hr, hr'] using List.rel_append (Act.twins_dropCarried c) hd.acts
  | started hk => exact ⟨hd.acts, hd.raised_eq⟩
  | @leaf _ _ hk l hl _ _ hr =>
    obtain ⟨hheld, hheld'⟩ := hr.dropHeld_eq
    refine ⟨?_, by simp only [Layer.drop, hd.raised_eq]⟩
    simp only [Layer.drop, hheld, hheld', hr.isSome_eq, List.append_nil]
    refine .cons (.plain rfl) (List.rel_append ?_ hd.acts)
    split_ifs
    · exact Act.twins_dropCarried l.completion
    · exact .nil
  | @script _ _ hk s hs _ _ hr =>
    obtain ⟨hheld, hheld'⟩ := hr.dropHeld_eq
    refine ⟨?_, by simp only [Layer.drop, hd.raised_eq]⟩
    simp only [Layer.drop, hheld, hheld', List.nil_append]
    refine .cons ?_ hd.acts
    cases s.peekOnDrop <;> exact .plain rfl
  | either hk which => exact hd
  | bind hb => exact hb.drop hd

lemma Twins.dropAll (h : Twins v p ls ls') :
    (dropAll unwinding env ls).Twin v p (dropAll unwinding env ls') := by
  induction h generalizing env with
  | nil => exact ⟨.nil, rfl⟩
  | @cons l l' ls ls' hl _ ih =>
    have hd : (l.drop unwinding env (Layer.dropAll unwinding (l.lent ++ env) ls)).Twin v p
        (l'.drop unwinding env (Layer.dropAll unwinding (l.lent ++ env) ls')) := hl.drop ih
    simp only [Layer.dropAll, hl.lent_eq]
    exact ⟨List.rel_append hd.acts (Act.twins_note.2 (.closed hl.paired)), hd.raised_eq⟩

lemma Twins.scope_eq (h : Twins v p ls ls') : scope ls' = scope ls := by
  induction h with
  | nil => rfl
  | cons hl _ ih => simp_all [scope, hl.lent_eq]

lemma Twins.writeBack (h : Twins v p ls ls') (ns : Env) :
    Twins v p (writeBack ns ls) (writeBack ns ls') := by
  induction h generalizing ns with
  | nil => exact .nil
  | @cons l l' ls ls' hl _ ih =>
    cases hl with
    | @bind b b' hb =>
      simp only [Layer.writeBack, lent, hb.lent_eq]
      cases b.lent with
      | nil => exact .cons (.bind hb) (ih _)
      | cons m env =>
        cases ns with
        | nil => exact .cons (.bind hb) (ih _)
        | cons n ns => exact .cons (.bind (hb.restore [n])) (ih _)
    | ready hk c hr => exact .cons (.ready hk c hr) (ih _)
    | started hk => exact .cons (.started hk) (ih _)
    | leaf hk hl hr => exact .cons (.leaf hk hl hr) (ih _)
    | script hk hs hr => exact .cons (.script hk hs hr) (ih _)
    | either hk which => exact .cons (.either hk which) (ih _)

lemma Twins.getElem? (h : Twins v p ls ls') (i : Nat) : Option.Rel (Twin v p) ls[i]? ls'[i]? := by
  induction h generalizing i with
  | nil => exact .none
  | cons hl _ ih =>
    cases i with
    | zero => exact .some hl
    | succ i => exact ih i

lemma Twins.set (h : Twins v p ls ls') (i : Nat) (hl : l.Twin v p l') :
    Twins v p (ls.set i l) (ls'.set i l') := by
  induction h generalizing i with
  | nil => exact .nil
  | cons hx hrest ih =>
    cases i with
    | zero => exact .cons hl hrest
    | succ i => exact .cons hx (ih i)

/-- A completion goes through receivers to which no stop request comes, if those of all operations
are such. -/
lemma ownStop_of_mem_trail
    (hls : ∀ b, bind b ∈ ls → ∀ r, b.receiver = some r → r.ownStop = none) {n : Nat}
    {r x : Receiver} (hr : r.ownStop = none) (hx : x ∈ trail ls n r) :
    x.ownStop = none := by
  induction n generalizing r with
  | zero =>
    obtain rfl : x = r := by simpa [trail] using hx
    exact hr
  | succ n ih =>
    cases r with
    | child role s i =>
      simp only [trail] at hx
      split at hx
      · next b hb =>
        rcases List.mem_cons.1 hx with rfl | hx
        · rfl
        · cases hreceiver : b.receiver with
          | none => simp [hreceiver] at hx
          | some r =>
            rw [hreceiver] at hx
            exact ih (hls b (List.mem_of_getElem? hb) r hreceiver) hx
      · obtain rfl : x = .child role s i := by simpa using hx
        rfl
    | _ =>
      obtain rfl := List.mem_singleton.1 hx
      exact hr

lemma Twins.ownStop_eq (h : Twins v p ls ls') :
    (∀ b, bind b ∈ ls → ∀ r, b.receiver = some r → r.ownStop = none) ∧
      ∀ b, bind b ∈ ls' → ∀ r, b.receiver = some r → r.ownStop = none := by
  induction h with
  | nil => simp
  | cons hl _ ih =>
    obtain ⟨ih, ih'⟩ := ih
    cases hl with
    | bind hb =>
      obtain ⟨hstop, hstop'⟩ := hb.receiver.ownStop_eq
      constructor
      · rintro b hmem r hr
        rcases List.mem_cons.1 hmem with heq | hmem
        · obtain rfl := Layer.bind.inj heq
          exact hstop r hr
        · exact ih b hmem r hr
      · rintro b hmem r hr
        rcases List.mem_cons.1 hmem with heq | hmem
        · obtain rfl := Layer.bind.inj heq
          exact hstop' r hr
        · exact ih' b hmem r hr
    | _ => exact ⟨by simpa using ih, by simpa using ih'⟩

end Layer

/-! ### Worlds -/

/-- Two worlds are the two sides of a double course since a common world. The blocked caller has
been given what was recorded at the place since then. -/
structure World.Twin (v : World) (p : Int) (g : Option (Completion Value Failure)) (w u : World) :
    Prop where
  known : (w.places.get? (.place p)).isSome
  layers : Layer.Twins v p (w.layers (.place p)) (u.layers .wait)
  next : Paired v p (w.nextSerial (.place p)) (u.nextSerial .wait)
  requested_eq : u.requested = w.requested
  runs_eq : u.runs = w.runs
  queue_eq : u.queue = []
  waiter_eq : u.waiter = some { id := v.waits, given := g }
  recorded_eq : w.recorded = v.recorded ++ (g.map (·.map Value.n)).toList
  acts : ∃ acts acts', w.actsAt (.place p) = v.actsAt (.place p) ++ acts ∧
    u.actsAt .wait = v.actsAt .wait ++ .waitStarted :: acts' ∧ Act.Twins v p acts acts'

namespace World

variable {g : Option (Completion Value Failure)} {w u : World} {acts acts' : List Act} {h : Nat}

namespace Twin

/-! #### What is read -/

lemma binding? (hw : Twin v p g w u) (h : Nat) :
    Option.Rel (Binding.Twin v p) (w.binding? (.place p) h) (u.binding? .wait h) := by
  unfold World.binding?
  obtain ⟨hl, hl'⟩ | ⟨l, l', hl, hl', ht⟩ := rel_cases (hw.layers.getElem? h)
  · rw [hl, hl']
    exact .none
  · rw [hl, hl']
    cases ht with
    | bind hb => exact .some hb
    | _ => exact .none

lemma scope_eq (hw : Twin v p g w u) (h : Nat) : u.scope .wait h = w.scope (.place p) h :=
  Layer.Twins.scope_eq (List.forall₂_take h hw.layers)

lemma isVacant_eq (hw : Twin v p g w u) (h : Nat) :
    u.isVacant .wait h = w.isVacant (.place p) h := by
  simp [isVacant, hw.layers.length_eq]

/-- Stop requests come neither to the place nor to the blocked caller. -/
lemma isStopped_eq (hw : Twin v p g w u) {r r' : Receiver} (hr : r.Twin v p r') :
    w.isStopped r = false ∧ u.isStopped r' = false := by
  obtain ⟨hl, hl'⟩ := hw.layers.ownStop_eq
  obtain ⟨hstop, hstop'⟩ := hr.ownStop_eq
  have hnone {w : World} {r : Receiver} (h : ∀ x ∈ w.trail r, x.ownStop = none) :
      w.isStopped r = false := by
    have hlast : w.stopOf r = none := by
      unfold stopOf
      cases hx : (w.trail r).getLast? with
      | none => rfl
      | some x => exact h x (List.mem_of_getLast? hx)
    simp [isStopped, hlast]
  constructor <;> refine hnone fun x hx => ?_
  · refine Layer.ownStop_of_mem_trail ?_ hstop hx
    cases hr <;> exact hl
  · refine Layer.ownStop_of_mem_trail ?_ hstop' hx
    cases hr <;> exact hl'

/-! #### What is changed -/

lemma after (hw : Twin v p g w u) {ls ls' : List Layer} (hl : Layer.Twins v p ls ls') {n n' : Nat}
    (hn : Paired v p n n') (ha : Act.Twins v p acts acts') :
    Twin v p g (w.after (.place p) ls n acts) (u.after .wait ls' n' acts') := by
  obtain ⟨xs, ys, hxs, hys, hacts⟩ := hw.acts
  refine { hw with known := ?_, layers := ?_, next := ?_, acts := ?_ }
  · simp [World.after, put, note, record]
  · simpa using hl
  · simpa using hn
  · exact ⟨xs ++ acts, ys ++ acts', by simp [World.after, hxs], by simp [World.after, hys],
      List.rel_append hacts ha⟩

lemma note (hw : Twin v p g w u) (ha : Act.Twins v p acts acts') :
    Twin v p g (w.note (.place p) acts) (u.note .wait acts') := by
  obtain ⟨xs, ys, hxs, hys, hacts⟩ := hw.acts
  exact { hw with acts := ⟨xs ++ acts, ys ++ acts', by simp [hxs], by simp [hys],
    List.rel_append hacts ha⟩ }

lemma setLayers (hw : Twin v p g w u) {ls ls' : List Layer} (hl : Layer.Twins v p ls ls') :
    Twin v p g (w.setLayers (.place p) ls) (u.setLayers .wait ls') := by
  rw [setLayers_eq_after, setLayers_eq_after]
  exact hw.after hl hw.next .nil

lemma setLayer (hw : Twin v p g w u) {l l' : Layer} (hl : l.Twin v p l') :
    Twin v p g (w.setLayer (.place p) h l) (u.setLayer .wait h l') :=
  hw.setLayers (hw.layers.set h hl)

lemma setBinding (hw : Twin v p g w u) {b b' : Binding} (hb : b.Twin v p b') :
    Twin v p g (w.setBinding (.place p) h b) (u.setBinding .wait h b') :=
  hw.setLayer (.bind hb)

lemma setScope (hw : Twin v p g w u) (env : Env) :
    Twin v p g (w.setScope (.place p) h env) (u.setScope .wait h env) :=
  hw.setLayers (List.rel_append (Layer.Twins.writeBack (List.forall₂_take h hw.layers) _)
    (List.forall₂_drop h hw.layers))

lemma dropped (hw : Twin v p g w u) (h : Nat) (unwinding : Bool) :
    (Layer.dropAll unwinding (w.scope (.place p) h) ((w.layers (.place p)).drop h)).Twin v p
      (Layer.dropAll unwinding (u.scope .wait h) ((u.layers .wait).drop h)) := by
  rw [hw.scope_eq]
  exact Layer.Twins.dropAll (List.forall₂_drop h hw.layers)

lemma dropAbove (hw : Twin v p g w u) (h : Nat) (unwinding : Bool) :
    Twin v p g (w.dropAbove (.place p) h unwinding).1 (u.dropAbove .wait h unwinding).1 :=
  (hw.setLayers (List.forall₂_take h hw.layers)).note (hw.dropped h unwinding).acts

lemma dropAbove_raised_eq (hw : Twin v p g w u) (h : Nat) (unwinding : Bool) :
    (u.dropAbove .wait h unwinding).2 = (w.dropAbove (.place p) h unwinding).2 :=
  (hw.dropped h unwinding).raised_eq

/-- A slot takes an operation if its twin takes the twin. -/
lemma fill (hw : Twin v p g w u) (h : Nat) {make make' : Nat → Layer}
    (hmake : ∀ k k', Paired v p k k' → (make k).Twin v p (make' k')) :
    ∃ w' u' taken, w.fill (.place p) h make = (w', taken) ∧ u.fill .wait h make' = (u', taken) ∧
      Twin v p g w' u' := by
  have hl := hmake _ _ hw.next
  cases hv : w.isVacant (.place p) h with
  | true =>
    refine ⟨_, _, true, fill_of_isVacant hv _,
      fill_of_isVacant ((hw.isVacant_eq h).trans hv) _, ?_⟩
    exact hw.after (List.rel_append hw.layers (.cons hl .nil)) hw.next.succ
      (Act.twins_note.2 (.opened hw.next h))
  | false =>
    refine ⟨_, _, false, fill_of_not_isVacant hv _,
      fill_of_not_isVacant ((hw.isVacant_eq h).trans hv) _, ?_⟩
    rw [hw.scope_eq]
    exact hw.note (hl.drop ⟨.nil, rfl⟩).acts

lemma request (hw : Twin v p g w u) (k : Int) :
    Twin v p g (w.request k).1 (u.request k).1 ∧ (u.request k).2 = (w.request k).2 := by
  have hrequested : u.isRequested k = w.isRequested k := by simp [isRequested, hw.requested_eq]
  by_cases hk : w.isRequested k = true
  · simpa [World.request, hrequested, hk] using hw
  · simp only [World.request, hrequested, hk]
    exact ⟨{ hw with requested_eq := by simp [hw.requested_eq] }, rfl⟩

lemma nextRun (hw : Twin v p g w u) :
    Twin v p g { w with runs := w.runs + 1 } { u with runs := u.runs + 1 } :=
  { hw with runs_eq := by simp [hw.runs_eq] }

/-- A completion is recorded at the place, and given to the blocked caller. -/
lemma give (hw : Twin v p none w u) (c : Completion Value Failure) :
    Twin v p (some c) { w with recorded := w.recorded ++ [c.map Value.n] }
      { u with waiter := some { id := v.waits, given := some c } } :=
  { hw with waiter_eq := rfl, recorded_eq := by simp [hw.recorded_eq] }

end Twin

end World

end Handoff
