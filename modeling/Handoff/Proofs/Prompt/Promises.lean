import Handoff.Proofs.Chain.Playing
import Handoff.Proofs.Prompt.Starting

/-!
# Promises are kept

`Sender.Promises` gives a sender the signature of its type and the class that it answers when asked:
leaves promise what they are, alternatives and binding operations combine what their parts promise,
and all that a factory may build has one signature. A chain whose parts have the signatures that are
declared for them keeps to this (`Chain.promises_sender`).

The main result is `Sender.promises_kept`. A sender that is promised not to send done never does.
One that completes inline, by its signature or by its answer, does so before its start returns,
whether or not a stop is requested. One that answers that it never blocks has not completed when its
start returns, unless it was stopped before.
-/

namespace Handoff

open Config Machine

/-! ### What senders promise -/

namespace Sender

/-- A sender has a signature by its type, and answers a class when asked for it. -/
inductive Promises : Sender → Signature → Blocking → Prop where
  | ready {c : Completion Value Failure} (hc : c ≠ .done) :
      Promises (.ready c) .ready .alwaysInline
  | done : Promises (.ready .done) .done .alwaysInline
  | leaf (l : Leaf) :
      Promises (.leaf l) .unspecified (if l.deferred then .never else .alwaysInline)
  | exploding (built : Option String) : Promises (.exploding built) .unspecified .maybe
  | script (s : Script) : Promises (.script s) .unspecified .maybe
  | left {s : Sender} {σ : Signature} {q : Blocking} (hs : Promises s σ q) (other : Signature) :
      Promises (.either .left s) (σ.either other) q
  | right {s : Sender} {σ : Signature} {q : Blocking} (hs : Promises s σ q) (other : Signature) :
      Promises (.either .right s) (other.either σ) q
  /-- A predecessor, and a factory all of whose senders have one signature. -/
  | bind {p : Sender} {σ τ : Signature} {q : Blocking} {next : Env → Sender}
      {answers : Env → Blocking} (hp : Promises p σ q) (f : Factory)
      (hnext : ∀ env, Promises (next env) τ (answers env)) :
      Promises (.bind p f next) (σ.bind τ) (.sequence q τ.blocking)

/-- The leaf that is reached through active alternatives and predecessors puts its completion
off. -/
def Defers : Sender → Prop
  | leaf l => l.deferred = true
  | either _ s => s.Defers
  | bind p _ _ => p.Defers
  | ready _ => False
  | exploding _ => False
  | script _ => False

end Sender

namespace Blocking

lemma sequence_eq_alwaysInline {a b : Blocking} :
    sequence a b = .alwaysInline ↔ a = .alwaysInline ∧ b = .alwaysInline := by
  cases a <;> cases b <;> decide

lemma either_eq_alwaysInline {a b : Blocking} :
    either a b = .alwaysInline ↔ a = .alwaysInline ∧ b = .alwaysInline := by
  cases a <;> cases b <;> decide

/-- Whatever comes after it, only a predecessor that never blocks makes a sequence that never
does. -/
lemma sequence_eq_never {a b : Blocking} : sequence a b = .never ↔ a = .never := by
  cases a <;> cases b <;> decide

end Blocking

namespace Sender

variable {s : Sender} {σ : Signature} {q : Blocking}

lemma Promises.inline_of_signature (hs : s.Promises σ q) (hσ : σ.blocking = .alwaysInline) :
    s.Inline := by
  induction hs with
  | ready hc => trivial
  | done => trivial
  | leaf l => cases hσ
  | exploding built => cases hσ
  | script s => cases hσ
  | left _ other ih => exact ih (Blocking.either_eq_alwaysInline.1 hσ).1
  | right _ other ih => exact ih (Blocking.either_eq_alwaysInline.1 hσ).2
  | bind _ f _ ihp ih =>
    obtain ⟨hp, hnext⟩ := Blocking.sequence_eq_alwaysInline.1 hσ
    exact ⟨ihp hp, fun env => ih env hnext⟩

/-- A sender knows more about the leaf that runs first than its type does, and nothing more about
all that come after. -/
lemma Promises.inline_of_answer (hs : s.Promises σ q) (hq : q = .alwaysInline) : s.Inline := by
  induction hs with
  | ready hc => trivial
  | done => trivial
  | leaf l =>
    cases hd : l.deferred with
    | false => exact hd
    | true => simp [hd] at hq
  | exploding built => cases hq
  | script s => cases hq
  | left _ other ih => exact ih hq
  | right _ other ih => exact ih hq
  | bind _ f hnext ihp _ =>
    obtain ⟨hp, hτ⟩ := Blocking.sequence_eq_alwaysInline.1 hq
    exact ⟨ihp hp, fun env => (hnext env).inline_of_signature hτ⟩

/-- Leaves say nothing about themselves, so that only inline values and errors are promised not to
be done. -/
lemma Promises.inline_of_sendsDone (hs : s.Promises σ q) (hσ : σ.sendsDone = false) :
    s.Inline ∧ ¬ s.MayStop := by
  induction hs with
  | ready hc => exact ⟨trivial, hc⟩
  | done => cases hσ
  | leaf l => cases hσ
  | exploding built => cases hσ
  | script s => cases hσ
  | left _ other ih => exact ih (Bool.or_eq_false_iff.1 hσ).1
  | right _ other ih => exact ih (Bool.or_eq_false_iff.1 hσ).2
  | bind _ f _ ihp ih =>
    obtain ⟨hp, hnext⟩ := Bool.or_eq_false_iff.1 hσ
    refine ⟨⟨(ihp hp).1, fun env => (ih env hnext).1⟩, ?_⟩
    rintro (hstop | ⟨env, hstop⟩)
    · exact (ihp hp).2 hstop
    · exact (ih env hnext).2 hstop

lemma Promises.defers (hs : s.Promises σ q) (hq : q = .never) : s.Defers := by
  induction hs with
  | ready hc => cases hq
  | done => cases hq
  | leaf l =>
    cases hd : l.deferred with
    | false => simp [hd] at hq
    | true => exact hd
  | exploding built => cases hq
  | script s => cases hq
  | left _ other ih => exact ih hq
  | right _ other ih => exact ih hq
  | bind _ f _ ihp _ => exact ihp (Blocking.sequence_eq_never.1 hq)

lemma Defers.fills (hs : s.Defers) : s.Fills := by
  induction s with
  | leaf l => trivial
  | either which s ih => exact ih hs
  | bind p f next ihp _ => exact ihp hs
  | _ => exact hs.elim

/-! ### Starting what is put off -/

/-- A leaf that puts its completion off leaves the start with nothing given, unless it is
stopped. -/
lemma Stands.leads_start {site : Site} {r : Receiver} {rest : List Receiver} {ls : List Layer}
    {w : World} {h : Nat} (hs : s.Stands site r h ls) (hd : s.Defers) (base : List Layer)
    (hh : h = base.length) (hl : w.layers site = base ++ ls) (hr : Layer.Awaits site base r rest)
    (hstop : w.stops (World.stopFrom (r :: rest)) = false) :
    ∃ w', ∀ K, Leads ⟨w, .start site h, K⟩ [] (finish w' K) := by
  induction hs generalizing base w rest with
  | ready => exact hd.elim
  | script => exact hd.elim
  | @leaf l r h k =>
    subst hh
    set w₁ := (w.note site [.started l.label]).setLayer site base.length (.leaf k l none) with hw₁
    set w₂ := w₁.note site (if l.inspecting then [.remark ("chain " ++ l.label ++ ": " ++
      " > ".intercalate (w₁.namesFrom r))] else []) with hw₂
    have hl₂ : w₂.layers site = base ++ [.leaf k l none] :=
      World.layers_setLayer (w := w.note site [.started l.label]) hl _
    have hstopped : w₂.isStopped r = false := (World.isStopped_eq_of_awaits hr hl₂).trans hstop
    have hdeferred : l.deferred = true := hd
    refine ⟨w₂.schedule (.complete l.completion r), fun K => .quiet rfl rfl ?_⟩
    simpa [Machine.start, hl, startLeaf, ← hw₁, ← hw₂, hstopped, hdeferred] using Leads.refl _
  | @either which s r h k ls _ ih =>
    subst hh
    obtain ⟨w', hleads⟩ := ih hd (base ++ [.either k which]) (by simp) (by simpa using hl)
      (hr.append _) hstop
    refine ⟨w', fun K => .quiet rfl rfl ?_⟩
    simpa [Machine.start, hl] using hleads K
  | @bind p f next r h k ls _ ih =>
    subst hh
    set w₁ := w.note site [.logged k .starting]
    have hl₁ : w₁.layers site = (base ++ [newBinding f next r k]) ++ ls := by simpa [w₁] using hl
    obtain ⟨w', hleads⟩ := ih hd (base ++ [newBinding f next r k]) (by simp) hl₁
      (hr.top .predecessor rfl) (by simpa [w₁] using hstop)
    refine ⟨w', fun K => .quiet rfl rfl ?_⟩
    simpa [Machine.start, hl, newBinding] using hleads K

end Sender

namespace Chain

/-- The declared promise of each binding of a chain is that of all its successors. -/
def Typed : Chain → Prop
  | ready _ => True
  | leaf _ => True
  | exploding _ => True
  | either _ c _ => c.Typed
  | bind p _ next promised => p.Typed ∧ ∀ n, (next n).signature = promised ∧ (next n).Typed

/-- The sender of a chain promises what the chain says. -/
lemma promises_sender {c : Chain} (hc : c.Typed) : c.sender.Promises c.signature c.query := by
  induction c with
  | ready c =>
    cases c with
    | value n => exact .ready (by simp [deliver, Completion.map, Completion.mapError])
    | error e => exact .ready (by simp [deliver, Completion.map, Completion.mapError])
    | done => exact .done
  | leaf l => exact .leaf l.leaf
  | exploding built => exact .exploding built
  | either which c other ih =>
    cases which with
    | left => exact .left (ih hc) other
    | right => exact .right (ih hc) other
  | bind p raises next promised ihp ih =>
    have hnext (env : Env) : (next (innermost env)).sender.Promises promised
        (next (innermost env)).query := by
      obtain ⟨hpromised, htyped⟩ := hc.2 (innermost env)
      rw [← hpromised]
      exact ih _ htyped
    exact .bind (ihp hc.1) (factory raises) hnext

end Chain

/-! ### In a place of its own -/

namespace World

/-- A host drives a place by calls, and final receivers are given this. -/
def Gives (p : Int) (w : World) (ds : List Drive) (given : List Parcel) (w' : World) : Prop :=
  ∃ os, w.Runs (ds.map (Drive.call p)) os given w'

/-- Starting a place completes a receiver before the start returns. If the receiver makes no calls
and raises no payload, the start returns, and whatever calls follow, short of another start, give
nothing more. -/
def Answers (p : Int) (r : Receiver) (v : Completion Value Failure) (w : World) : Prop :=
  ∃ w₁ fs, (∀ K, Leads ⟨w, .call (.start p), K⟩ [] ⟨w₁, .complete r v, fs ++ K⟩) ∧
    (r.Calm → r.raises = none → ∃ w₂, w.Runs [.start p] [.answered .nothing] [(r, v)] w₂ ∧
      ∀ later : List Drive, .start ∉ later → ∃ w₃, w₂.Gives p later [] w₃)

variable {w w' : World} {p : Int}

lemma exists_runs_drive {d : Drive} (hd : d ≠ .start) (hq : w.queue = []) (p : Int) :
    ∃ o w', w.Runs [d.call p] [o] [] w' ∧ w'.queue = [] ∧ w'.places = w.places := by
  cases d with
  | start => exact absurd rfl hd
  | task =>
    have htick : Leads ⟨w, .call .tick, []⟩ [] ⟨w, .done (.flag false), []⟩ :=
      .quiet (by simp [next, Machine.call, hq]) rfl (.refl _)
    exact ⟨_, w, .cons htick rfl (.nil w), hq, rfl⟩
  | request k =>
    have hrequest : Leads ⟨w, .call (.request k), []⟩ []
        ⟨(w.request k).1, .done (.flag (w.request k).2), []⟩ := .quiet rfl rfl (.refl _)
    obtain ⟨hplaces, hqueue, -⟩ := World.Rests.request_eq w k
    exact ⟨_, _, .cons hrequest rfl (.nil _), hqueue.trans hq, hplaces⟩

/-- Without a start, and with nothing queued, nobody is given anything. -/
lemma exists_gives_nothing {ds : List Drive} (hds : .start ∉ ds) (hq : w.queue = []) (p : Int) :
    ∃ w', w.Gives p ds [] w' ∧ w'.queue = [] ∧ w'.places = w.places := by
  induction ds generalizing w with
  | nil => exact ⟨w, ⟨[], .nil w⟩, hq, rfl⟩
  | cons d ds ih =>
    obtain ⟨hd, hds⟩ : d ≠ .start ∧ .start ∉ ds := by simpa [eq_comm] using hds
    obtain ⟨o, w₁, hrun, hq₁, hplaces₁⟩ := exists_runs_drive hd hq p
    obtain ⟨w₂, ⟨os, hruns⟩, hq₂, hplaces₂⟩ := ih hds hq₁
    exact ⟨w₂, ⟨_, hrun.append hruns⟩, hq₂, hplaces₂.trans hplaces₁⟩

end World

namespace Sender

variable {s : Sender} {σ : Signature} {q : Blocking} {w w₀ : World} {p : Int} {r : Receiver}

/-- A sender whose leaf fills its place is connected in a vacant place. -/
lemma leads_call_connect (hs : s.Fills) (r : Receiver) (hv : w.layers (.place p) = []) :
    ∃ w' ls, s.Stands (.place p) r 0 ls ∧ w'.layers (.place p) = ls ∧ w'.queue = w.queue ∧ ∀ K,
      Leads ⟨w, .call (.connect p s r), K⟩ [] (finish w' K) := by
  have hcall (K : List Frame) := (connects_call hs.silent r hv K).leads
  rw [hs.flaw_eq] at hcall
  exact ⟨_, _, stands_lay hs.silent hs.flaw_eq r 0 _, World.layers_after, rfl, hcall⟩

/-- There is only one way for a call to go. -/
lemma eq_of_runs {c : Call} {os : List Outcome} {given : List Parcel} {w₁ : World}
    (hruns : w.Runs [c] os given w₀) (hleads : Leads ⟨w, .call c, []⟩ [] (finish w₁ [])) :
    w₀ = w₁ := by
  cases hruns with
  | cons h hf hrest =>
    cases hrest with
    | nil =>
      obtain ⟨-, rfl⟩ := h.unique hleads hf rfl
      rfl

/-- Starting a sender all of whose leaves are inline answers. -/
lemma answers_of_inline (hs : s.Inline) {ls : List Layer} (hl : w.layers (.place p) = ls)
    (hstands : s.Stands (.place p) r 0 ls) (hq : w.queue = []) :
    ∃ v, (v = .done → s.MayStop) ∧ w.Answers p r v := by
  obtain ⟨n, hholds⟩ := World.exists_holds_of_layers_ne (hl.trans_ne hstands.ne_nil)
  have hstart (K : List Frame) := World.Rests.leads_call_start hholds K
  have hprompt : StartsPromptly (.place p) s := starts hs.prompt
  cases hprompt [] r w ls hl hstands with
  | forgets w₁ above leads left layers_eq keeps not_inline => exact absurd hs not_inline
  | completes w₁ above v fs leads winds layers_eq keeps stops =>
    refine ⟨v, stops, w₁, fs, fun K => (hstart K).append_quiet (leads K), fun hr hraises => ?_⟩
    obtain ⟨w₂, hstays, hwind⟩ := leads_winding winds (w₁.hear r v)
    have hhear := leads_hear hr w₁ v (fs ++ [])
    rw [hraises] at hhear
    have hgive : Leads ⟨w, .call (.start p), []⟩ [(r, v)] (finishOr w₂ none []) :=
      ((hstart []).append_quiet (leads [])).trans (hhear.append_quiet (hwind []))
    have hq₂ : w₂.queue = [] := by rw [hstays.queue_eq, World.queue_hear, keeps.queue_eq, hq]
    refine ⟨w₂, .of_leads hgive, fun later hlater => ?_⟩
    obtain ⟨w₃, hgives, -⟩ := World.exists_gives_nothing hlater hq₂ p
    exact ⟨w₃, hgives⟩

/-- What the promise of a sender comes to once it is connected in a place. Before the place is
started, the host may request stops and call for tasks. -/
structure Kept (σ : Signature) (q : Blocking) (p : Int) (r : Receiver) (w : World) : Prop where
  /-- One that is not to send done completes, and not with done. -/
  not_done (hσ : σ.sendsDone = false) (before : List Drive) (hbefore : .start ∉ before) :
    ∃ w₁ v, w.Gives p before [] w₁ ∧ w₁.Answers p r v ∧ v ≠ .done
  /-- One that is to complete inline does so, whether or not a stop is requested. -/
  inline (h : σ.blocking = .alwaysInline ∨ q = .alwaysInline) (before : List Drive)
    (hbefore : .start ∉ before) : ∃ w₁ v, w.Gives p before [] w₁ ∧ w₁.Answers p r v
  /-- One that answers that it never blocks has given nothing when its start returns, unless a stop
  was requested by then. -/
  put_off (hq : q = .never) (before : List Drive) (hbefore : .start ∉ before) :
    ∃ w₁, w.Gives p before [] w₁ ∧ (w₁.stops r.ownStop = false →
      ∃ w₂, ∀ K, Leads ⟨w₁, .call (.start p), K⟩ [] (finish w₂ K))

/-- What a host finds that has connected a sender, until the place is started. -/
lemma exists_before (hs : s.Fills) (hq : w.queue = []) (hv : w.layers (.place p) = [])
    {given : List Parcel} (hconnect : w.Runs [.connect p s r] [.answered .nothing] given w₀)
    {before : List Drive} (hbefore : .start ∉ before) :
    ∃ w₁ ls, w₀.Gives p before [] w₁ ∧ w₁.queue = [] ∧ w₁.layers (.place p) = ls ∧
      s.Stands (.place p) r 0 ls := by
  obtain ⟨w', ls, hstands, hl, hqueue, hleads⟩ := leads_call_connect hs r hv
  obtain rfl : w₀ = w' := eq_of_runs hconnect (hleads [])
  obtain ⟨w₁, hgives, hq₁, hplaces⟩ := World.exists_gives_nothing hbefore (hqueue.trans hq) p
  refine ⟨w₁, ls, hgives, hq₁, ?_, hstands⟩
  rw [← hl, World.layers, World.place, hplaces]
  rfl

/-- A sender that is connected in a vacant place and started once keeps what its signature and its
answer promise. -/
theorem promises_kept (hs : s.Promises σ q) (w w₀ : World) (p : Int) (r : Receiver)
    (hr : r.isChild = false) (hq : w.queue = []) (hv : w.layers (.place p) = [])
    {given : List Parcel} (hconnect : w.Runs [.connect p s r] [.answered .nothing] given w₀) :
    Kept σ q p r w₀ where
  not_done hσ before hbefore := by
    obtain ⟨hinline, hstop⟩ := hs.inline_of_sendsDone hσ
    obtain ⟨w₁, ls, hgives, hq₁, hl, hstands⟩ :=
      exists_before hinline.prompt.fills hq hv hconnect hbefore
    obtain ⟨v, hdone, hanswers⟩ := answers_of_inline hinline hl hstands hq₁
    exact ⟨w₁, v, hgives, hanswers, fun hv => hstop (hdone hv)⟩
  inline h before hbefore := by
    have hinline : s.Inline := h.elim hs.inline_of_signature hs.inline_of_answer
    obtain ⟨w₁, ls, hgives, hq₁, hl, hstands⟩ :=
      exists_before hinline.prompt.fills hq hv hconnect hbefore
    obtain ⟨v, -, hanswers⟩ := answers_of_inline hinline hl hstands hq₁
    exact ⟨w₁, v, hgives, hanswers⟩
  put_off hnever before hbefore := by
    have hdefers := hs.defers hnever
    obtain ⟨w₁, ls, hgives, -, hl, hstands⟩ := exists_before hdefers.fills hq hv hconnect hbefore
    refine ⟨w₁, hgives, fun hstop => ?_⟩
    obtain ⟨w₂, hleads⟩ := hstands.leads_start hdefers [] rfl hl (.final hr)
      (by simpa [World.stopFrom] using hstop)
    obtain ⟨n, hholds⟩ := World.exists_holds_of_layers_ne (hl.trans_ne hstands.ne_nil)
    have hstart (K : List Frame) := World.Rests.leads_call_start hholds K
    exact ⟨w₂, fun K => (hstart K).append_quiet (hleads K)⟩

/-- An inline value that an inline value follows is promised not to be done, and a leaf that puts
its completion off answers that it never blocks. -/
theorem promises_kept_ready_and_deferred :
    let c := Chain.bind (.ready (.value 1)) (fun _ => none) (fun n => .ready (.value (n + 1)))
      .ready
    let d := Chain.leaf { label := "a", completion := .done, deferred := true }
    let r := Receiver.recorder (.place 0) (some 7)
    c.signature.sendsDone = false ∧ d.query = .never ∧
      (∃ w₀ w₁ v, ({} : World).Runs [.connect 0 c.sender r] [.answered .nothing] [] w₀ ∧
        w₀.Gives 0 [.request 7] [] w₁ ∧ w₁.Answers 0 r v ∧ v ≠ .done) ∧
      ∃ w₀ w₁, ({} : World).Runs [.connect 0 d.sender r] [.answered .nothing] [] w₀ ∧
        w₀.Gives 0 [] [] w₁ ∧ (w₁.stops (some 7) = false →
          ∃ w₂, ∀ K, Leads ⟨w₁, .call (.start 0), K⟩ [] (finish w₂ K)) := by
  intro c d r
  have hc : c.sender.Promises c.signature c.query :=
    Chain.promises_sender ⟨trivial, fun _ => ⟨rfl, trivial⟩⟩
  have hd : d.sender.Promises d.signature d.query := Chain.promises_sender trivial
  have hconnect (x : Chain) (hx : x.connectRaises = none) :
      ({} : World).Runs [.connect 0 x.sender r] [.answered .nothing] [] (x.connected {} 0 r) := by
    have hleads := Chain.leads_call_connect x {} 0 r rfl []
    rw [hx] at hleads
    exact .of_leads hleads
  have hkept := promises_kept hc {} _ 0 r rfl rfl rfl (hconnect c rfl)
  have hkept' := promises_kept hd {} _ 0 r rfl rfl rfl (hconnect d rfl)
  obtain ⟨w₁, v, hgives, hanswers, hv⟩ := hkept.not_done rfl [.request 7] (by simp)
  obtain ⟨w₂, hgives', hstart⟩ := hkept'.put_off rfl [] (by simp)
  exact ⟨rfl, rfl, ⟨_, w₁, v, hconnect c rfl, hgives, hanswers, hv⟩, _, w₂, hconnect d rfl, hgives',
    hstart⟩

end Sender

end Handoff
