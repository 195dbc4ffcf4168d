import Handoff.Proofs.Chain.Course
import Handoff.Proofs.Trail

/-!
# The machine takes its course

`Course.Realizes` says that a machine, whatever its stack, does what a course says: it comes to
complete the receiver, or it returns with the task queued and takes the rest of the course when
that task runs, whatever has happened to the rest of the world in the meantime. The main statement,
`Chain.realizes_start`, is that starting a connected chain takes the course of the chain.
-/

namespace Handoff

open Config Machine

/-- What is dropped once a receiver is through. -/
def discards (s : Site) (late : List (Completion Value Failure)) : List Frame :=
  late.map (.discard s)

namespace Course

variable {s : Site} {base : List Layer} {r : Receiver} {k : Option Int}

/-- A machine that starts out from a configuration, for any stack, in a world, takes a course on
top of what a site holds, at the end of which a receiver is completed. Stop requests come from the
source given; only a completion with done can be that of a stopped leaf. -/
def Realizes (s : Site) (base : List Layer) (r : Receiver) (k : Option Int) :
    Course → World → (List Frame → Config) → Prop
  | finished st v late, w, c =>
    Layer.Scriptless st.layers ∧ (v ≠ .done → late = []) ∧
      ∀ K, Leads (c K) []
        ⟨w.after s (base ++ st.layers) st.count st.acts, .complete r v, discards s late ++ K⟩
  | pending st r' v resume, w, c =>
    (∀ K, Leads (c K) []
      (finish ((w.after s (base ++ st.layers) st.count st.acts).schedule (.complete v r')) K)) ∧
      ∀ w', w'.Holds s (base ++ st.layers) st.count →
        (resume (w'.stops k)).Realizes s base r k w' fun K => ⟨w', .complete r' v, K⟩

lemma Realizes.of_leads {x : Course} {w : World} {c c' : List Frame → Config}
    (h : x.Realizes s base r k w c') (hc : ∀ K, Leads (c K) [] (c' K)) :
    x.Realizes s base r k w c := by
  cases x with
  | finished st v late => exact ⟨h.1, h.2.1, fun K => (hc K).append_quiet (h.2.2 K)⟩
  | pending st r' v resume => exact ⟨fun K => (hc K).append_quiet (h.1 K), h.2⟩

lemma Realizes.record {x : Course} {w : World} {acts : List Act} {c : List Frame → Config}
    (h : x.Realizes s base r k (w.note s acts) c) :
    (x.record acts).Realizes s base r k w c := by
  cases x with
  | finished st v late => simpa [Course.record, Realizes] using h
  | pending st r' v resume => simpa [Course.record, Realizes] using h

lemma Realizes.record_after {x : Course} {w : World} {acts : List Act} {ls : List Layer} {n : Nat}
    {c : List Frame → Config} (h : x.Realizes s base r k (w.after s ls n acts) c) :
    (x.record acts).Realizes s base r k w c := by
  cases x with
  | finished st v late => simpa [Course.record, Realizes] using h
  | pending st r' v resume => simpa [Course.record, Realizes] using h

/-- An operation takes its course if the one inside it does, and if it goes on as said once the
receiver inside it is completed. -/
lemma Realizes.within {l : Layer} {r' : Receiver}
    {go : Bool → Stretch → Completion Value Failure → List (Completion Value Failure) → Course}
    (hgo : ∀ (w : World) (st : Stretch) (v : Completion Value Failure)
      (late : List (Completion Value Failure)), Layer.Scriptless st.layers →
      (v ≠ .done → late = []) →
      (go (w.stops k) st v late).Realizes s base r k w fun K =>
        ⟨w.after s (base ++ l :: st.layers) st.count st.acts, .complete r' v,
          discards s late ++ K⟩)
    {x : Course} {w : World} {c : List Frame → Config}
    (h : x.Realizes s (base ++ [l]) r' k w c) :
    (x.within l go (w.stops k)).Realizes s base r k w c := by
  induction x generalizing w c with
  | finished st v late =>
    obtain ⟨hst, hlate, hc⟩ := h
    refine (hgo w st v late hst hlate).of_leads ?_
    intro K
    simpa using hc K
  | pending st r' v resume ih =>
    obtain ⟨hc, hresume⟩ := h
    refine ⟨fun K => by simpa using hc K, ?_⟩
    intro w' hw'
    exact ih _ (hresume w' (by simpa using hw'))

end Course

namespace Chain

variable {s : Site} {base : List Layer} {r : Receiver} {k : Option Int} {w : World}

lemma realizes_pass {b : Binding} (hb : b.receiver = some r) {st : Stretch}
    (hst : Layer.Scriptless st.layers) (acts : List Act) (v : Completion Value Failure)
    {late : List (Completion Value Failure)} (hlate : v ≠ .done → late = []) :
    (Course.pass b st acts v late).Realizes s base r k w fun K =>
      Machine.pass (w.after s (base ++ .bind b :: st.layers) st.count (st.acts ++ acts)) s
        base.length b v (discards s late ++ K) := by
  refine ⟨by simpa [Layer.kind] using hst, hlate, ?_⟩
  intro K
  simpa [Machine.pass, hb] using Leads.refl _

/-- The factory of a chain changes no stored number, and nothing looks any up. -/
lemma hand_eq {raises : Int64 → Option Payload} {next : Int64 → Chain} {st : Stretch}
    (hst : Layer.Scriptless st.layers) (b : Binding) (v : Value) :
    b.hand s base (factory raises) (successor next) st.layers st.count st.acts v =
      ⟨hand s base.length b raises next st v, base⟩ := by
  have hstored : (b.store v).vacate.stored = [v.n] := rfl
  have hrestore (env : Env) : (b.store v).vacate.call.restore (v.n :: env) =
      (b.store v).vacate.call := rfl
  have haround : Layer.writeBack (Layer.scope base).reverse base = base := by
    simp [Layer.scope, Layer.writeBack_lent]
  simp only [Binding.hand, hand, Layer.dropAll_eq_of_scriptless hst _ (Layer.scope _)]
  cases hd : (Layer.dropAll false [] st.layers).raised with
  | some m => rfl
  | none =>
    cases hr : raises v.n with
    | some m => simp [Binding.engage, factory, hstored, hrestore, haround, hr]
    | none =>
      simp [Binding.engage, factory, hstored, hrestore, haround, hr, successor,
        (scriptless_sender _).lay_eq, lay]

variable (s base) in
/-- The handoff of a chain's binding operation, short of starting the successor. -/
lemma leads_hand {b : Binding} {raises : Int64 → Option Payload} {next : Int64 → Chain}
    (hb : b.Fresh (factory raises) (successor next) r) {st : Stretch}
    (hst : Layer.Scriptless st.layers) (w : World) (v : Value) (K : List Frame) :
    let x := hand s base.length b raises next st v
    Leads ⟨w.after s (base ++ .bind b :: st.layers) st.count st.acts,
        .complete (.child .predecessor s base.length) (.value v), K⟩ []
      (finishOr (w.after s (base ++ .bind x.binding :: x.laid.layers) x.laid.count x.laid.acts)
        x.laid.raised (.handoff s base.length :: K)) := by
  have hhand := Binding.leads_hand hb.cleanup_eq hb.factory_eq
    (fun _ => (scriptless_sender _).silent) w s base st.layers st.count st.acts v K
  rwa [hand_eq hst] at hhand

lemma scriptless_hand {b : Binding} {raises : Int64 → Option Payload} {next : Int64 → Chain}
    (h : Nat) (st : Stretch) (v : Value) :
    Layer.Scriptless (hand s h b raises next st v).laid.layers := by
  simp only [hand]
  split
  · simp
  · split
    · simp
    · exact scriptless_lay _ _ _ _

lemma receiver_hand {b : Binding} {raises : Int64 → Option Payload} {next : Int64 → Chain}
    (h : Nat) (st : Stretch) (v : Value) :
    (hand s h b raises next st v).binding.receiver = b.receiver := by
  simp only [hand]
  split
  · rfl
  · split <;> rfl

lemma serial_hand {b : Binding} {raises : Int64 → Option Payload} {next : Int64 → Chain}
    (h : Nat) (st : Stretch) (v : Value) :
    (hand s h b raises next st v).binding.serial = b.serial := by
  simp only [hand]
  split
  · rfl
  · split <;> rfl

lemma hand_eq_of_raised_eq_none {b : Binding} {raises : Int64 → Option Payload}
    {next : Int64 → Chain} {h : Nat} {st : Stretch} {v : Value}
    (hx : (hand s h b raises next st v).laid.raised = none) :
    (next v.n).connectRaises = none ∧
      (hand s h b raises next st v).binding = (b.store v).vacate.call.emplace ∧
      (hand s h b raises next st v).laid.layers =
        ((next v.n).lay s (.child .successor s h) (h + 1) st.count).layers ∧
      (hand s h b raises next st v).laid.count =
        ((next v.n).lay s (.child .successor s h) (h + 1) st.count).count := by
  simp only [hand] at hx ⊢
  split at hx
  · simp at hx
  · split at hx
    · simp at hx
    · simp_all

/-! ### Starting -/

/-- Starting a chain that was connected on top of what a site holds takes the course of the
chain. -/
def TakesCourse (s : Site) (c : Chain) : Prop :=
  ∀ (base : List Layer) (r : Receiver) (rest : List Receiver) (n : Nat) (w : World),
    Layer.Awaits s base r rest → c.connectRaises = none →
    w.Holds s (base ++ (c.lay s r base.length n).layers) (c.lay s r base.length n).count →
    (c.course s r rest base.length n (w.stops (World.stopFrom (r :: rest)))).Realizes s base r
      (World.stopFrom (r :: rest)) w fun K => ⟨w, .start s base.length, K⟩

lemma takesCourse_ready (c : Completion Int64 String) : TakesCourse s (ready c) := by
  intro base r rest n w _ _ hw
  refine ⟨by simp [Layer.kind], fun _ => rfl, fun K => .quiet rfl rfl ?_⟩
  rw [← World.after_self hw]
  simpa [start, lay, sender, Sender.lay, discards] using Leads.refl _

/-- A leaf that has given its receiver away records its start, and then goes by whether a stop was
requested. -/
lemma startLeaf_after (l : Leaf) (w : World) {n : Nat} {rest : List Receiver}
    (hrest : Layer.Awaits s base r rest) (K : List Frame) :
    startLeaf (w.after s (base ++ [.leaf n l.leaf none]) (n + 1) [.started l.label]) l.leaf r s K =
      let w' := w.after s (base ++ [.leaf n l.leaf none]) (n + 1)
        (startActs l ((r :: rest).flatMap Receiver.ownNames))
      if w.stops (World.stopFrom (r :: rest)) then
        ⟨w'.note s [.gaveUp l.label], .complete r .done, .discard s l.leaf.completion :: K⟩
      else if l.deferred then finish (w'.schedule (.complete l.leaf.completion r)) K
      else ⟨w', .complete r l.leaf.completion, K⟩ := by
  have hstop (acts : List Act) :
      (w.after s (base ++ [.leaf n l.leaf none]) (n + 1) acts).isStopped r =
        w.stops (World.stopFrom (r :: rest)) :=
    World.isStopped_eq_of_awaits hrest World.layers_after
  have hnames (acts : List Act) :
      (w.after s (base ++ [.leaf n l.leaf none]) (n + 1) acts).namesFrom r =
        (r :: rest).flatMap Receiver.ownNames :=
    World.namesFrom_eq_of_awaits hrest World.layers_after
  rw [startLeaf]
  simp only [World.note_after, hstop, hnames]
  rfl

lemma takesCourse_leaf (l : Leaf) : TakesCourse s (leaf l) := by
  intro base r rest n w hrest _ hw
  have hstart : ∀ K, Leads ⟨w, .start s base.length, K⟩ []
      (startLeaf (w.after s (base ++ [.leaf n l.leaf none]) (n + 1) [.started l.label]) l.leaf r s
        K) := by
    intro K
    refine .quiet rfl rfl ?_
    rw [← World.after_self hw]
    simpa [start, lay, sender, Sender.lay, Leaf.leaf] using Leads.refl _
  simp only [startLeaf_after l w hrest] at hstart
  rw [course]
  split_ifs with hs hd
  · refine ⟨by simp [Layer.kind], by simp, ?_⟩
    intro K
    simpa [hs, discards] using hstart K
  · refine ⟨fun K => by simpa [hs, hd] using hstart K, ?_⟩
    intro w' hw'
    refine ⟨by simp [Layer.kind], fun _ => rfl, ?_⟩
    intro K
    rw [World.after_self hw']
    exact .refl _
  · refine ⟨by simp [Layer.kind], fun _ => rfl, ?_⟩
    intro K
    simpa [hs, hd, discards] using hstart K

lemma takesCourse_either {which : Arm} {c : Chain} {other : Signature} (ih : TakesCourse s c) :
    TakesCourse s (either which c other) := by
  intro base r rest n w hrest hc hw
  have hc : c.connectRaises = none := hc
  rw [lay_either, Laid.inside_of_raised_eq_none ((raised_lay ..).trans hc)] at hw
  have hin := ih (base ++ [.either n which]) r rest (n + 1) w (hrest.append _) hc
    (by simpa using hw)
  simp only [List.length_append, List.length_singleton] at hin
  refine Course.Realizes.within (fun w st v late hst hlate => ?_)
    (hin.of_leads fun K => .quiet rfl rfl ?_)
  · exact ⟨by simpa [Layer.kind] using hst, hlate, fun K => .refl _⟩
  · simpa [start, hw.layers_eq] using Leads.refl _

lemma leads_successor {b : Binding} (hb : b.cleanup = .successor) (w : World) (st : Stretch)
    (v : Completion Value Failure) (K : List Frame) :
    Leads ⟨w.after s (base ++ .bind b :: st.layers) st.count st.acts,
        .complete (.child .successor s base.length) v, K⟩ []
      (Machine.pass (w.after s (base ++ .bind b :: st.layers) st.count (st.acts ++ [])) s
        base.length b (v.mapError .successor) K) := by
  refine .quiet rfl rfl ?_
  simpa [complete, hb, Role.expects, receive] using Leads.refl _

lemma realizes_successor {b : Binding} (hb : b.receiver = some r) {next : Int64 → Chain} {m : Int64}
    (ih : TakesCourse s (next m)) (hc : (next m).connectRaises = none) (w : World) {n : Nat}
    {rest : List Receiver} (hrest : Layer.Awaits s base r rest) (acts : List Act) :
    let x := (next m).lay s (.child .successor s base.length) (base.length + 1) n
    ((((next m).course s (.child .successor s base.length) (r :: rest) (base.length + 1) n
        (w.stops (World.stopFrom (r :: rest)))).record acts).within (.bind b.settle)
        (fun _ st v late => .pass b.settle st [] (v.mapError .successor) late)
        (w.stops (World.stopFrom (r :: rest)))).Realizes s base r (World.stopFrom (r :: rest)) w
      fun K => finish (w.after s (base ++ .bind b :: x.layers) x.count acts)
        (.handoff s base.length :: K) := by
  intro x
  have hin := ih (base ++ [.bind b.settle]) (.child .successor s base.length) (r :: rest) n
    (w.after s (base ++ .bind b.settle :: x.layers) x.count acts)
    (hrest.top .successor (by simpa using hb)) hc (by simp [x])
  simp only [List.length_append, List.length_singleton, World.stopFrom_cons_cons,
    World.stops_after] at hin
  refine Course.Realizes.within (fun w st v late hst hlate => ?_)
    (hin.record_after.of_leads fun K => ?_)
  · refine (realizes_pass (by simpa using hb) hst [] _ fun hv => hlate ?_).of_leads fun K =>
      leads_successor rfl w st v _
    rintro rfl
    exact hv rfl
  · simpa using Binding.leads_settled w s base b x.layers x.count acts K

/-- What a binding operation does with the value of its predecessor. -/
lemma realizes_handover {b : Binding} {raises : Int64 → Option Payload} {next : Int64 → Chain}
    (hb : b.Fresh (factory raises) (successor next) r) (ih : ∀ m, TakesCourse s (next m))
    (w : World) {rest : List Receiver} (hrest : Layer.Awaits s base r rest) {st : Stretch}
    (hst : Layer.Scriptless st.layers) (v : Value) :
    let stopped := w.stops (World.stopFrom (r :: rest))
    (handover s base.length b raises next
      (fun m n => (next m).course s (.child .successor s base.length) (r :: rest)
        (base.length + 1) n stopped) stopped st v []).Realizes s base r
      (World.stopFrom (r :: rest)) w fun K =>
        ⟨w.after s (base ++ .bind b :: st.layers) st.count st.acts,
          .complete (.child .predecessor s base.length) (.value v), K⟩ := by
  intro stopped
  set x := hand s base.length b raises next st v with hx
  have hhand := leads_hand s base hb hst w v
  simp only [← hx] at hhand
  have hr : x.binding.receiver = some r := (receiver_hand ..).trans hb.receiver_eq
  have hserial : x.binding.serial = b.serial := serial_hand ..
  simp only [handover, ← hx]
  cases hraised : x.laid.raised with
  | some m =>
    simp only [hraised] at hhand
    refine (realizes_pass hr (scriptless_hand _ _ _) [.logged b.serial (.buildFailed m)] _
      (fun _ => rfl)).of_leads fun K => (hhand K).append_quiet ?_
    simpa [hserial, discards] using Binding.leads_given_up w s base x.binding x.laid.layers
      x.laid.count x.laid.acts m K
  | none =>
    obtain ⟨hc, hbinding, hlayers, hcount⟩ := hand_eq_of_raised_eq_none hraised
    simp only [hraised] at hhand
    have hsucc := realizes_successor (n := st.count) hr (ih v.n) hc w hrest x.laid.acts
    simp only [← hlayers, ← hcount] at hsucc
    simpa using hsucc.of_leads hhand

lemma takesCourse_bind {p : Chain} {raises : Int64 → Option Payload} {next : Int64 → Chain}
    {promised : Signature} (ihp : TakesCourse s p) (ih : ∀ m, TakesCourse s (next m)) :
    TakesCourse s (bind p raises next promised) := by
  intro base r rest n w hrest hc hw
  have hc : p.connectRaises = none := hc
  set b := binding raises next r n with hb
  have hfresh : b.Fresh (factory raises) (successor next) r := ⟨rfl, rfl, rfl, rfl⟩
  have hserial : b.serial = n := rfl
  rw [lay_bind, Laid.inside_of_raised_eq_none ((raised_lay ..).trans hc), ← hb] at hw
  have hin := ihp (base ++ [.bind b]) (.child .predecessor s base.length) (r :: rest) (n + 1)
    (w.note s [.logged n .starting]) (hrest.top .predecessor rfl) hc (by simpa using hw)
  simp only [List.length_append, List.length_singleton, World.stopFrom_cons_cons,
    World.stops_note] at hin
  have hstart (K : List Frame) : Leads ⟨w, .start s base.length, K⟩ []
      ⟨w.note s [.logged n .starting], .start s (base.length + 1), K⟩ := by
    refine .quiet rfl rfl ?_
    simpa [start, hw.layers_eq, hfresh.storage_eq, hserial] using Leads.refl _
  simp only [course, ← hb]
  refine Course.Realizes.within ?_ (hin.record.of_leads hstart)
  intro w st v late hst hlate
  cases v with
  | value v =>
    obtain rfl := hlate (by simp)
    exact realizes_handover hfresh ih w hrest hst v
  | error e =>
    refine (realizes_pass hfresh.receiver_eq hst _ _ (by simpa using hlate)).of_leads
      fun K => .quiet rfl rfl ?_
    simpa [complete, hfresh.cleanup_eq, Role.expects, receive, hserial] using Leads.refl _
  | done =>
    refine (realizes_pass hfresh.receiver_eq hst _ _ hlate).of_leads
      fun K => .quiet rfl rfl ?_
    simpa [complete, hfresh.cleanup_eq, Role.expects, receive, hserial] using Leads.refl _

/-- Starting a connected chain takes the course of the chain. -/
theorem takesCourse (c : Chain) : TakesCourse s c := by
  induction c with
  | ready c => exact takesCourse_ready c
  | leaf l => exact takesCourse_leaf l
  | exploding built => intro base r rest n w _ hc; simp [connectRaises] at hc
  | either which c other ih => exact takesCourse_either ih
  | bind p raises next promised ihp ih => exact takesCourse_bind ihp ih

/-! ### In a place of its own -/

/-- The world after a chain was connected in a vacant place. -/
def connected (c : Chain) (w : World) (p : Int) (r : Receiver) : World :=
  let x := c.lay (.place p) r 0 (w.nextSerial (.place p))
  w.after (.place p) x.layers x.count x.acts

lemma leads_call_connect (c : Chain) (w : World) (p : Int) (r : Receiver)
    (hv : w.layers (.place p) = []) (K : List Frame) :
    Leads ⟨w, .call (.connect p c.sender r), K⟩ []
      (finishOr (c.connected w p r) c.connectRaises K) := by
  have hcall := (Sender.connects_call c.scriptless_sender.silent r hv K).leads
  rwa [flaw_sender] at hcall

lemma leads_call_clear (w : World) (p : Int) (ls : List Layer) (n : Nat) (acts : List Act)
    (K : List Frame) :
    Leads ⟨w.after (.place p) ls n acts, .call (.clear p), K⟩ []
      (finishOr (w.after (.place p) [] n (acts ++ (Layer.dropAll false [] ls).acts))
        (Layer.dropAll false [] ls).raised K) := by
  have hplace : (w.after (.place p) ls n acts).places.get? (.place p) = some _ := World.holds_after
  refine .quiet ?_ rfl (.refl _)
  simp [Config.next, call, withPlace, hplace]

lemma realizes_call_start (c : Chain) (w : World) (p : Int) {r : Receiver}
    (hr : r.isChild = false) (hc : c.connectRaises = none) :
    (c.course (.place p) r [] 0 (w.nextSerial (.place p)) (w.isStopped r)).Realizes (.place p) [] r
      (World.stopFrom [r]) (c.connected w p r) fun K =>
        ⟨c.connected w p r, .call (.start p), K⟩ := by
  have hstop : w.isStopped r = w.stops (World.stopFrom [r]) :=
    World.isStopped_eq_of_awaits (s := .place p) (.final hr) (List.nil_append _).symm
  have hcourse := takesCourse (s := .place p) c [] r [] (w.nextSerial (.place p))
    (c.connected w p r) (.final hr) hc World.holds_after
  rw [hstop]
  refine Course.Realizes.of_leads hcourse fun K => .quiet ?_ rfl (.refl _)
  have hplace : (c.connected w p r).places.get? (.place p) = some _ := World.holds_after
  simp [Config.next, call, withPlace, hplace]

end Chain

end Handoff
