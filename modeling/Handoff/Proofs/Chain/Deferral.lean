import Handoff.Proofs.Chain.Meaning
import Mathlib.Data.List.Forall2

/-!
# Deferred leaves

Leaves may complete inline or put their completion off to a task. `Chain.inline` forgets which do.
Two chains that differ in nothing else are started in different ways: the one in a stack of
callbacks, the other in a number of tasks, each of which takes the course one piece further. The
main statement is that a host who runs the queue until it is empty and then clears the place sees
no difference.
-/

namespace Handoff

/-! ### Operations that are dropped alike -/

/-- Two binding operations that differ at most in what their factories build. -/
structure Binding.Alike (b b' : Binding) : Prop where
  serial_eq : b.serial = b'.serial
  factory_eq : b.factory.map Prod.fst = b'.factory.map Prod.fst
  receiver_eq : b.receiver = b'.receiver
  value_eq : b.value = b'.value
  storage_eq : b.storage = b'.storage
  cleanup_eq : b.cleanup = b'.cleanup

namespace Binding.Alike

variable {b b' : Binding}

lemma store (h : Alike b b') (v : Value) : Alike (b.store v) (b'.store v) :=
  { h with value_eq := rfl, cleanup_eq := rfl }

lemma vacate (h : Alike b b') : Alike b.vacate b'.vacate := { h with storage_eq := rfl }

lemma call (h : Alike b b') : Alike b.call b'.call :=
  { h with factory_eq := rfl, cleanup_eq := rfl }

lemma emplace (h : Alike b b') : Alike b.emplace b'.emplace := { h with storage_eq := rfl }

lemma settle (h : Alike b b') : Alike b.settle b'.settle := { h with cleanup_eq := rfl }

lemma spend (h : Alike b b') : Alike b.spend b'.spend := { h with receiver_eq := rfl }

lemma drop_eq (h : Alike b b') (child : Dropped) : b.drop child = b'.drop child := by
  have hfactory : b.dropFactory = b'.dropFactory := by
    have := congrArg (fun f : Option Factory => f.elim [] Factory.drop) h.factory_eq
    simpa [dropFactory, Option.elim_map, Function.comp_def] using this
  have hvalue : b.dropValue = b'.dropValue := by simp [dropValue, h.value_eq, h.serial_eq]
  simp only [drop, hfactory, hvalue, h.serial_eq, h.receiver_eq, h.cleanup_eq]

lemma lent_eq (h : Alike b b') : b.lent = b'.lent := by
  simp only [lent, stored, h.storage_eq, h.value_eq]

end Binding.Alike

namespace Layer

/-- Two layers that are dropped alike. -/
structure Alike (l l' : Layer) : Prop where
  serial_eq : l.serial = l'.serial
  lent_eq : l.lent = l'.lent
  drop_eq (unwinding : Bool) (env : Env) (child : Dropped) :
    l.drop unwinding env child = l'.drop unwinding env child

lemma Alike.refl (l : Layer) : Alike l l := ⟨rfl, rfl, fun _ _ _ => rfl⟩

lemma Alike.bind {b b' : Binding} (h : b.Alike b') : Alike (.bind b) (.bind b') :=
  ⟨h.serial_eq, h.lent_eq, fun _ _ child => h.drop_eq child⟩

lemma dropAll_eq_of_alike {ls ls' : List Layer} (h : List.Forall₂ Alike ls ls') (unwinding : Bool)
    (env : Env) : dropAll unwinding env ls = dropAll unwinding env ls' := by
  induction h generalizing env with
  | nil => rfl
  | cons hl _ ih => simp only [dropAll, hl.serial_eq, hl.lent_eq, hl.drop_eq, ih]

end Layer

namespace Chain

/-- A leaf that completes inline and is the same otherwise. -/
def Leaf.inline (l : Leaf) : Leaf := { l with deferred := false }

/-- The chain in which all leaves complete inline. -/
def inline : Chain → Chain
  | ready c => .ready c
  | leaf l => .leaf l.inline
  | exploding built => .exploding built
  | either which c other => .either which c.inline other
  | bind p raises next promised => .bind p.inline raises (fun n => (next n).inline) promised

lemma connectRaises_inline (c : Chain) : c.inline.connectRaises = c.connectRaises := by
  induction c with
  | either which c other ih => exact ih
  | bind p raises next promised ih => exact ih
  | _ => rfl

lemma meaning_inline (c : Chain) : c.inline.meaning = c.meaning := by
  induction c with
  | either which c other ih => exact ih
  | bind p raises next promised ihp ih =>
    simp only [inline, meaning, ihp, ih, connectRaises_inline]
  | _ => rfl

variable {s : Site}

lemma alike_leaf (k : Nat) (l : Leaf) (held : Option Receiver) :
    Layer.Alike (.leaf k l.inline.leaf held) (.leaf k l.leaf held) :=
  ⟨rfl, rfl, fun _ _ _ => rfl⟩

lemma alike_binding (raises : Int64 → Option Payload) (next next' : Int64 → Chain) (r : Receiver)
    (k : Nat) : (binding raises next r k).Alike (binding raises next' r k) :=
  ⟨rfl, rfl, rfl, rfl, rfl, rfl⟩

/-- Connecting comes to the same, up to layers that are dropped alike. -/
structure LaidAlike (x x' : Laid) : Prop where
  layers_alike : List.Forall₂ Layer.Alike x.layers x'.layers
  acts_eq : x.acts = x'.acts
  count_eq : x.count = x'.count
  raised_eq : x.raised = x'.raised

lemma LaidAlike.refl (x : Laid) : LaidAlike x x :=
  ⟨List.forall₂_same.2 fun l _ => .refl l, rfl, rfl, rfl⟩

lemma LaidAlike.inside {x x' : Laid} (h : LaidAlike x x') {l l' : Layer} (hl : l.Alike l')
    (acts : List Act) : LaidAlike (x.inside [] l acts) (x'.inside [] l' acts) := by
  obtain ⟨hlayers, hacts, hcount, hraised⟩ := h
  have hcons : List.Forall₂ Layer.Alike (l :: x.layers) (l' :: x'.layers) := .cons hl hlayers
  unfold Laid.inside
  rw [← hraised]
  cases hr : x.raised with
  | none => exact ⟨hcons, by simp [hacts], hcount, rfl⟩
  | some m =>
    have hdrop := Layer.dropAll_eq_of_alike hcons true []
    exact ⟨.nil, by simp [hacts, hdrop], hcount, rfl⟩

lemma lay_inline (c : Chain) (r : Receiver) (h k : Nat) :
    LaidAlike (c.inline.lay s r h k) (c.lay s r h k) := by
  induction c generalizing r h k with
  | ready c => exact .refl _
  | leaf l => exact ⟨.cons (alike_leaf k l _) .nil, rfl, rfl, rfl⟩
  | exploding built => exact .refl _
  | either which c other ih => exact (ih r (h + 1) (k + 1)).inside (.refl _) _
  | bind p raises next promised ih =>
    rw [inline, lay_bind, lay_bind]
    exact (ih (.child .predecessor s h) (h + 1) (k + 1)).inside (.bind (alike_binding ..)) _

/-- Starting comes to the same in the end, up to layers that are dropped alike. -/
structure EndsAlike (e e' : Ending) : Prop where
  layers_alike : List.Forall₂ Layer.Alike e.stretch.layers e'.stretch.layers
  acts_eq : e.stretch.acts = e'.stretch.acts
  count_eq : e.stretch.count = e'.stretch.count
  completion_eq : e.completion = e'.completion
  late_eq : e.late = e'.late

lemma EndsAlike.record {e e' : Ending} (h : EndsAlike e e') (acts : List Act) :
    EndsAlike (e.record acts) (e'.record acts) :=
  { h with acts_eq := congrArg (acts ++ ·) h.acts_eq }

lemma hand_alike {h : Nat} {b b' : Binding} (hb : b.Alike b') (raises : Int64 → Option Payload)
    (next : Int64 → Chain) {st st' : Stretch}
    (hlayers : List.Forall₂ Layer.Alike st.layers st'.layers) (hacts : st.acts = st'.acts)
    (hcount : st.count = st'.count) (v : Value) :
    (hand s h b raises (fun n => (next n).inline) st v).binding.Alike
        (hand s h b' raises next st' v).binding ∧
      LaidAlike (hand s h b raises (fun n => (next n).inline) st v).laid
        (hand s h b' raises next st' v).laid := by
  have hdrop := Layer.dropAll_eq_of_alike hlayers false []
  have hstored := (hb.store v).vacate
  simp only [hand, hdrop, hacts, hcount, hb.serial_eq]
  cases (Layer.dropAll false [] st'.layers).raised with
  | some m => exact ⟨hstored, .refl _⟩
  | none =>
    cases raises v.n with
    | some m => exact ⟨hstored.call, .refl _⟩
    | none =>
      obtain ⟨hlayers', hacts', hcount', hraised'⟩ :=
        lay_inline (s := s) (next v.n) (.child .successor s h) (h + 1) st'.count
      exact ⟨hstored.call.emplace, hlayers', by simp [hacts'], hcount', hraised'⟩

lemma bindEnding_alike {h : Nat} {b b' : Binding} (hb : b.Alike b')
    (raises : Int64 → Option Payload) (next : Int64 → Chain)
    {successor successor' : Int64 → Nat → Ending}
    (hnext : ∀ n k, EndsAlike (successor n k) (successor' n k)) {e e' : Ending}
    (he : EndsAlike e e') :
    EndsAlike (bindEnding s h b raises (fun n => (next n).inline) successor e)
      (bindEnding s h b' raises next successor' e') := by
  obtain ⟨hlayers, hacts, hcount, hcompletion, hlate⟩ := he
  simp only [bindEnding, hcompletion]
  cases e'.completion with
  | error f =>
    exact ⟨.cons (.bind hb.spend) hlayers, by simp [hacts, hb.serial_eq], hcount, rfl, hlate⟩
  | done =>
    exact ⟨.cons (.bind hb.spend) hlayers, by simp [hacts, hb.serial_eq], hcount, rfl, hlate⟩
  | value v =>
    obtain ⟨hbinding, hlayers', hacts', hcount', hraised'⟩ :=
      hand_alike (s := s) (h := h) hb raises next hlayers hacts hcount v
    simp only [hraised']
    cases (hand s h b' raises next e'.stretch v).laid.raised with
    | some m =>
      exact ⟨.cons (.bind hbinding.spend) hlayers', by simp [hacts', hb.serial_eq], hcount', rfl,
        hlate⟩
    | none =>
      have hn := hnext v.n e'.stretch.count
      simp only [hcount]
      exact ⟨.cons (.bind hbinding.settle.spend) hn.layers_alike, by simp [hacts', hn.acts_eq],
        hn.count_eq, by simp [hn.completion_eq], by simp [hn.late_eq, hlate]⟩

/-- In the end it makes no difference which leaves put their completions off. -/
theorem ending_inline (c : Chain) (r : Receiver) (rest : List Receiver) (h k : Nat) :
    EndsAlike (c.inline.ending s r rest h k) (c.ending s r rest h k) := by
  have hrefl (e : Ending) : EndsAlike e e :=
    ⟨List.forall₂_same.2 fun l _ => .refl l, rfl, rfl, rfl, rfl⟩
  induction c generalizing r rest h k with
  | ready c => exact hrefl _
  | leaf l =>
    simp only [inline, ending_leaf]
    exact ⟨.cons (alike_leaf k l none) .nil, rfl, rfl, rfl, rfl⟩
  | exploding built => exact hrefl _
  | either which c other ih =>
    simp only [inline, ending_either]
    have hc := ih r rest (h + 1) (k + 1)
    exact ⟨.cons (.refl _) hc.layers_alike, hc.acts_eq, hc.count_eq, hc.completion_eq, hc.late_eq⟩
  | bind p raises next promised ihp ih =>
    simp only [inline, ending_bind]
    exact bindEnding_alike (alike_binding ..) raises next (fun n k => ih n _ _ _ k)
      ((ihp _ _ _ _).record _)

end Chain

/-! ### Draining -/

open Config Machine

lemma leads_hear_draining {r : Receiver} (hr : r.Calm) {w : World} (hq : w.queue = [])
    (v : Completion Value Failure) :
    Leads ⟨w, .complete r v, [.draining]⟩ [(r, v)] (finishOr (w.hear r v) r.raises []) := by
  refine (leads_hear hr w v [.draining]).append_quiet ?_
  cases r.raises with
  | none =>
    refine .quiet rfl rfl (.quiet (d := finish (w.hear r v) []) ?_ rfl (.refl _))
    simp [Config.next, resume, call, hq]
  | some m => exact .quiet rfl rfl (.refl _)

lemma leads_drain {w : World} (hq : w.queue = []) (r : Receiver) (v : Completion Value Failure) :
    Leads ⟨w.schedule (.complete v r), .call .drain, []⟩ [] ⟨w, .complete r v, [.draining]⟩ := by
  refine .quiet (d := ⟨w, .task (.complete v r), [.draining]⟩) ?_ rfl (.quiet rfl rfl (.refl _))
  simp only [Config.next, call, World.queue_schedule, hq, List.nil_append]
  simp only [World.schedule, ← hq]

/-- A course that has been begun while the queue is drained comes to its end. -/
lemma Course.Realizes.leads_draining {s : Site} {base : List Layer} {r : Receiver} {k : Option Int}
    {x : Course} {w : World} {c : List Frame → Config} (h : x.Realizes s base r k w c)
    (hr : r.Calm) (hq : w.queue = []) (hk : w.stops k = false) (hlate : x.ending.late = []) :
    let e := x.ending
    Leads (c [.draining]) [(r, e.completion)]
      (finishOr ((w.after s (base ++ e.stretch.layers) e.stretch.count e.stretch.acts).hear r
        e.completion) r.raises []) := by
  induction x generalizing w c with
  | finished st v late =>
    obtain ⟨-, -, hc⟩ := h
    obtain rfl : late = [] := hlate
    exact (hc [.draining]).trans (leads_hear_draining hr (by simpa using hq) v)
  | pending st r' v resume ih =>
    obtain ⟨hc, hresume⟩ := h
    set w₁ := w.after s (base ++ st.layers) st.count st.acts with hw₁
    have hq₁ : w₁.queue = [] := by simpa [hw₁] using hq
    have htask : Leads (c [.draining]) [] ⟨w₁, .complete r' v, [.draining]⟩ :=
      (hc [.draining]).append_quiet (.quiet rfl rfl (leads_drain hq₁ r' v))
    have hstops : w₁.stops k = false := by simpa [hw₁] using hk
    have hgo := hresume w₁ World.holds_after
    rw [hstops] at hgo
    have hrest := ih false hgo hq₁ hstops hlate
    simp only [hw₁, World.after_after] at hrest
    exact htask.trans hrest

/-- Starting an operation and draining the queue takes the course of the operation to its end. In
one of the two calls the receiver is completed. -/
lemma Course.Realizes.runs {s : Site} {r : Receiver} {k : Option Int} {x : Course} {w : World}
    {start : Call} (h : x.Realizes s [] r k w fun K => ⟨w, .call start, K⟩) (hr : r.Calm)
    (hq : w.queue = []) (hk : w.stops k = false) (hlate : x.ending.late = []) :
    let e := x.ending
    ∃ os, w.Runs [start, .drain] os [(r, e.completion)]
        ((w.after s e.stretch.layers e.stretch.count e.stretch.acts).hear r e.completion) ∧
      (os = [World.ended none, World.ended r.raises] ∨
        os = [World.ended r.raises, World.ended none]) := by
  cases x with
  | finished st v late =>
    obtain ⟨-, -, hc⟩ := h
    obtain rfl : late = [] := hlate
    have hstart := (hc []).trans (leads_hear hr _ v [])
    have hdrain (w' : World) (hq' : w'.queue = []) :
        Leads ⟨w', .call .drain, []⟩ [] (finishOr w' none []) :=
      .quiet (by simp [Config.next, call, hq']) rfl (.refl _)
    have hq' : ((w.after s st.layers st.count st.acts).hear r v).queue = [] := by simpa using hq
    exact ⟨_, (World.Runs.of_leads hstart).append (.of_leads (hdrain _ hq')), .inr rfl⟩
  | pending st r' v resume =>
    obtain ⟨hc, hresume⟩ := h
    set w₁ := w.after s st.layers st.count st.acts with hw₁
    have hq₁ : w₁.queue = [] := by simpa [hw₁] using hq
    have hstart : Leads ⟨w, .call start, []⟩ []
        (finishOr (w₁.schedule (.complete v r')) none []) := hc []
    have hstops : w₁.stops k = false := by simpa [hw₁] using hk
    have hgo := hresume w₁ World.holds_after
    rw [hstops] at hgo
    have hrest := (leads_drain hq₁ r' v).trans (hgo.leads_draining hr hq₁ hstops hlate)
    simp only [hw₁, List.nil_append, World.after_after] at hrest
    exact ⟨_, (World.Runs.of_leads hstart).append (.of_leads hrest), .inl rfl⟩

namespace Chain

/-- The world after a chain was connected in a vacant place, started and cleared, its receiver
having been completed in between. -/
def cleared (c : Chain) (w : World) (p : Int) (r : Receiver) : World :=
  let x := c.lay (.place p) r 0 (w.nextSerial (.place p))
  let e := c.ending (.place p) r [] 0 (w.nextSerial (.place p))
  ((w.note (.place p) (x.acts ++ e.stretch.acts)).hear r e.completion).after (.place p) []
    e.stretch.count (Layer.dropAll false [] e.stretch.layers).acts

/-- What clearing the place of a chain raises that was started in it. -/
def clearRaises (c : Chain) (w : World) (p : Int) (r : Receiver) : Option Payload :=
  let e := c.ending (.place p) r [] 0 (w.nextSerial (.place p))
  (Layer.dropAll false [] e.stretch.layers).raised

lemma cleared_inline (c : Chain) (w : World) (p : Int) (r : Receiver) :
    c.inline.cleared w p r = c.cleared w p r ∧
      c.inline.clearRaises w p r = c.clearRaises w p r := by
  have hx := lay_inline (s := .place p) c r 0 (w.nextSerial (.place p))
  have he := ending_inline (s := .place p) c r [] 0 (w.nextSerial (.place p))
  have hdrop := Layer.dropAll_eq_of_alike he.layers_alike false []
  simp only [cleared, clearRaises, hx.acts_eq, he.acts_eq, he.count_eq, he.completion_eq, hdrop,
    and_self]

lemma runs_cleared (c : Chain) (hc : c.connectRaises = none) (w : World) (p : Int) {r : Receiver}
    (hr : r.Calm) (hq : w.queue = []) (hv : w.layers (.place p) = [])
    (hs : w.isStopped r = false) :
    ∃ os w', w.Runs [.connect p c.sender r, .start p, .drain] (World.ended none :: os)
        [(r, c.meaning.completion)] w' ∧
      (os = [World.ended none, World.ended r.raises] ∨
        os = [World.ended r.raises, World.ended none]) ∧
      w'.queue = [] ∧
      w'.Runs [.clear p] [World.ended (c.clearRaises w p r)] [] (c.cleared w p r) := by
  have hfits := fits_ending (s := .place p) c hc r [] 0 (w.nextSerial (.place p))
  have hconnect := leads_call_connect c w p r hv []
  rw [hc] at hconnect
  have hstart := realizes_call_start c w p hr.isChild_eq hc
  rw [hs] at hstart
  have hstops : (c.connected w p r).stops (World.stopFrom [r]) = false := by
    rw [connected, World.stops_after, ← hs]
    exact (World.isStopped_eq_of_awaits (s := .place p) (.final hr.isChild_eq)
      (List.nil_append _).symm).symm
  obtain ⟨os, hruns, hos⟩ := hstart.runs hr (by simpa [connected] using hq) hstops hfits.late_eq
  rw [← hfits.completion_eq]
  refine ⟨os, _, (World.Runs.of_leads hconnect).append hruns, hos, ?_, .of_leads ?_⟩
  · simpa [connected] using hq
  · simp only [connected, World.after_after, World.hear_after]
    exact leads_call_clear ..

/-- Which leaves of a chain put their completions off makes no difference to a host who connects
the chain in a vacant place, starts it, drains the queue and clears the place. The receiver is given
the same completion, once; the world is the same in the end, with all that was recorded in it; the
queue is empty; and clearing the place ends in the same way. So do the other calls, unless the
receiver raises a payload. -/
theorem deferral_makes_no_difference (c : Chain) (hc : c.connectRaises = none) (w : World)
    (p : Int) (r : Receiver) (hr : r.Calm) (hq : w.queue = []) (hv : w.layers (.place p) = [])
    (hs : w.isStopped r = false) :
    ∃ (v : Completion Value Failure) (w₁ : World) (o : Outcome),
      ∀ d : Chain, d.inline = c.inline → ∃ os w₀,
        w.Runs [.connect p d.sender r, .start p, .drain] os [(r, v)] w₀ ∧ w₀.queue = [] ∧
        w₀.Runs [.clear p] [o] [] w₁ ∧
        (r.raises = none → os = List.replicate 3 (.answered .nothing)) := by
  refine ⟨c.meaning.completion, c.cleared w p r, World.ended (c.clearRaises w p r), ?_⟩
  intro d hd
  have hconnect : d.connectRaises = none := by
    rw [← connectRaises_inline, hd, connectRaises_inline, hc]
  have hmeaning : d.meaning = c.meaning := by rw [← meaning_inline, hd, meaning_inline]
  obtain ⟨hcleared, hraises⟩ := cleared_inline c w p r
  obtain ⟨hcleared', hraises'⟩ := cleared_inline d w p r
  rw [hd] at hcleared' hraises'
  obtain ⟨os, w₀, hruns, hos, hempty, hclear⟩ := runs_cleared d hconnect w p hr hq hv hs
  rw [← hcleared', ← hraises', hcleared, hraises] at hclear
  rw [hmeaning] at hruns
  refine ⟨_, w₀, hruns, hempty, hclear, ?_⟩
  intro hquiet
  rw [hquiet, or_self] at hos
  rw [hos]
  rfl

/-- A chain whose two leaves are put off. -/
def deferredSample : Chain :=
  .bind (.leaf { label := "a", completion := .value 1, deferred := true }) (fun _ => none)
    (fun n => .leaf { label := "b", completion := .value (n + 1), deferred := true }) .unspecified

/-- It comes to the same whichever of its leaves are put off. -/
theorem deferredSample_makes_no_difference :
    ∃ (v : Completion Value Failure) (w₁ : World) (o : Outcome),
      ∀ d : Chain, d.inline = deferredSample.inline → ∃ os w₀,
        ({} : World).Runs [.connect 0 d.sender (.recorder (.place 0) none), .start 0, .drain] os
          [(.recorder (.place 0) none, v)] w₀ ∧ w₀.queue = [] ∧
        w₀.Runs [.clear 0] [o] [] w₁ ∧
        (Receiver.raises (.recorder (.place 0) none) = none →
          os = List.replicate 3 (.answered .nothing)) :=
  deferral_makes_no_difference deferredSample rfl {} 0 (.recorder (.place 0) none) trivial rfl rfl
    rfl

end Chain

end Handoff
