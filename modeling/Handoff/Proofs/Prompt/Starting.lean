import Handoff.Proofs.Handover
import Handoff.Proofs.Panic.Completing
import Handoff.Proofs.Prompt.Winding

/-!
# Prompt senders

A leaf is prompt if by the time its start returns it has completed its receiver or let go of it.
Starting a sender all of whose leaves are prompt, whatever its factories do, comes to one of two
things (`Sender.starts`): its receiver is about to be completed, with nothing left on the stack but
what winds down; or the start returns, and the leaf it came to has dropped the receiver that it was
given. That is the receiver of the sender itself only if no binding operation is around the leaf.
Else it was a handle, and the outermost binding operation has the receiver of the sender still.
-/

namespace Handoff

open Config Machine

/-! ### Which senders are prompt -/

namespace Script

/-- The script completes its receiver, and lets go of whatever it has left. -/
def Completes (s : Script) : Prop :=
  ∃ before d after, (s.start = before ++ .complete d :: after ∨
      s.start = before ++ .attempt d :: after) ∧
    (∀ i ∈ before, i.isIdle = true) ∧ ∀ i ∈ after, i.letsGo = true

/-- The script drops its receiver and never completes it. -/
def Forgets (s : Script) : Prop := ∀ i ∈ s.start, i.letsGo = true

/-- The script fills its place and completes or drops its receiver inside its start. -/
structure Prompt (s : Script) : Prop where
  connecting_eq : s.connecting = .fill
  start_spec : s.Completes ∨ s.Forgets

end Script

namespace Sender

/-- The leaf that is reached through active alternatives and predecessors fills its place when it is
connected, and does nothing else. -/
def Fills : Sender → Prop
  | ready _ => True
  | leaf _ => True
  | exploding _ => False
  | script s => s.connecting = .fill
  | either _ s => s.Fills
  | bind p _ _ => p.Fills

/-- Every leaf, with those that factories make, completes or drops its receiver inside its start. -/
def Prompt : Sender → Prop
  | ready _ => True
  | leaf l => l.deferred = false
  | exploding _ => False
  | script s => s.Prompt
  | either _ s => s.Prompt
  | bind p _ next => p.Prompt ∧ ∀ env, (next env).Prompt

/-- Every leaf, with those that factories make, completes its receiver inside its start, and none
of them is a script. -/
def Inline : Sender → Prop
  | ready _ => True
  | leaf l => l.deferred = false
  | exploding _ => False
  | script _ => False
  | either _ s => s.Inline
  | bind p _ next => p.Inline ∧ ∀ env, (next env).Inline

/-- Some leaf may complete with done. -/
def MayStop : Sender → Prop
  | ready c => c = .done
  | leaf _ => True
  | exploding _ => True
  | script _ => True
  | either _ s => s.MayStop
  | bind p _ next => p.MayStop ∨ ∃ env, (next env).MayStop

/-- Whether a binding operation is around the leaves. -/
def binds : Sender → Bool
  | either _ s => s.binds
  | bind _ _ _ => true
  | ready _ => false
  | leaf _ => false
  | exploding _ => false
  | script _ => false

variable {s : Sender}

lemma Fills.silent (hs : s.Fills) : s.Silent := by
  induction s with
  | exploding built => exact hs.elim
  | script sc =>
    have hfill : sc.connecting = .fill := hs
    simp [Silent, hfill]
  | either which s ih => exact ih hs
  | bind p f next ih _ => exact ih hs
  | _ => trivial

lemma Fills.flaw_eq (hs : s.Fills) : s.flaw = none := by
  induction s with
  | exploding built => exact hs.elim
  | script sc =>
    have hfill : sc.connecting = .fill := hs
    simp [flaw, hfill, Connecting.flaw]
  | either which s ih => exact ih hs
  | bind p f next ih _ => exact ih hs
  | _ => rfl

lemma Inline.prompt (hs : s.Inline) : s.Prompt := by
  induction s with
  | either which s ih => exact ih hs
  | bind p f next ihp ih => exact ⟨ihp hs.1, fun env => ih env (hs.2 env)⟩
  | ready c => trivial
  | leaf l => exact hs
  | exploding built => exact hs
  | script s => exact hs.elim

lemma Prompt.fills (hs : s.Prompt) : s.Fills := by
  induction s with
  | either which s ih => exact ih hs
  | bind p f next ihp _ => exact ihp hs.1
  | ready c => trivial
  | leaf l => trivial
  | exploding built => exact hs
  | script s => exact hs.connecting_eq

end Sender

/-! ### What a start comes to -/

namespace World

/-- Other sites hold what they held, but for stored values, and nothing was queued or given to a
blocked caller. -/
structure Keeps (s : Site) (w w' : World) : Prop where
  elsewhere (s' : Site) (hs : s ≠ s') : w.Like s' w'
  queue_eq : w'.queue = w.queue
  waiter_eq : w'.waiter = w.waiter

variable {w w' w'' : World} {s : Site} {base : List Layer}

lemma Keeps.refl (s : Site) (w : World) : w.Keeps s w := ⟨fun s' _ => .refl s' w, rfl, rfl⟩

lemma Keeps.trans (h : w.Keeps s w') (h' : w'.Keeps s w'') : w.Keeps s w'' :=
  ⟨fun s' hs => (h.elsewhere s' hs).trans (h'.elsewhere s' hs), h'.queue_eq.trans h.queue_eq,
    h'.waiter_eq.trans h.waiter_eq⟩

lemma Stays.keeps (h : w.Stays w') : w.Keeps s w' :=
  ⟨fun s' _ => h.like s', h.queue_eq, h.waiter_eq⟩

lemma Keeps.note (h : w.Keeps s w') (s' : Site) (acts : List Act) : w.Keeps s (w'.note s' acts) :=
  h.trans (stays_note w' s' acts).keeps

lemma Keeps.setLayer (h : w.Keeps s w') (i : Nat) (l : Layer) : w.Keeps s (w'.setLayer s i l) :=
  h.trans ⟨fun _ hs => .setLayer_of_ne hs i l, rfl, rfl⟩

lemma Keeps.setBinding (h : w.Keeps s w') (i : Nat) (b : Binding) :
    w.Keeps s (w'.setBinding s i b) :=
  h.setLayer i (.bind b)

lemma keeps_after (w : World) (s : Site) (ls : List Layer) (n : Nat) (acts : List Act) :
    w.Keeps s (w.after s ls n acts) :=
  ⟨fun _ hs => (Like.put_of_ne hs _).trans (.of_places rfl), rfl, rfl⟩

/-- The operations of a site, if they are known but for their stored values. -/
lemma exists_layers {b : Binding} {above : List Layer}
    (h : (w.layers s).map Layer.bare = (base ++ .bind b :: above).map Layer.bare) :
    ∃ below b' above', w.layers s = below ++ .bind b' :: above' ∧
      below.map Layer.bare = base.map Layer.bare ∧ below.length = base.length ∧
      above'.map Layer.bare = above.map Layer.bare ∧ b'.factory = b.factory ∧
      b'.receiver = b.receiver ∧ b'.storage = b.storage ∧ b'.cleanup = b.cleanup := by
  rw [List.map_append, List.map_eq_append_iff] at h
  obtain ⟨below, more, hl, hbelow, hmore⟩ := h
  rw [List.map_cons, List.map_eq_cons_iff] at hmore
  obtain ⟨l, above', rfl, hbare, habove⟩ := hmore
  obtain ⟨b', rfl, -, hfields⟩ := Layer.bare_eq_bind hbare
  have hlength := congrArg List.length hbelow
  simp only [List.length_map] at hlength
  exact ⟨below, b', above', hl, hbelow, hlength, habove, hfields⟩

end World

namespace Sender

/-- What stands where a leaf of a sender was reached that dropped its receiver: the leaf's script is
on top; without a binding operation around it nothing has a receiver any more, and else a binding
operation still has the receiver of the sender. -/
structure Left (s : Sender) (r : Receiver) (ls : List Layer) : Prop where
  script : ∃ k sc, ls.getLast? = some (.script k sc none) ∧ sc.Forgets
  free (hs : s.binds = false) : ∀ l ∈ ls, l.receiver? = none
  kept (hs : s.binds = true) : ∃ b, .bind b ∈ ls ∧ b.receiver = some r

lemma Left.of_bare {s : Sender} {r : Receiver} {ls ls' : List Layer} (h : s.Left r ls)
    (hls : ls'.map Layer.bare = ls.map Layer.bare) : s.Left r ls' where
  script := by
    obtain ⟨k, sc, hlast, hforgets⟩ := h.script
    have hlast' : (ls'.map Layer.bare).getLast? = some (Layer.script k sc none) := by
      rw [hls, List.getLast?_map, hlast]
      rfl
    rw [List.getLast?_map, Option.map_eq_some_iff] at hlast'
    obtain ⟨l, hl, hbare⟩ := hlast'
    refine ⟨k, sc, ?_, hforgets⟩
    cases l <;> simp_all [Layer.bare]
  free hs l hl := by
    have hmem : l.bare ∈ ls.map Layer.bare := hls ▸ List.mem_map_of_mem hl
    obtain ⟨l', hl', hbare⟩ := List.mem_map.1 hmem
    rw [← Layer.receiver?_bare, ← hbare, Layer.receiver?_bare]
    exact h.free hs l' hl'
  kept hs := by
    obtain ⟨b, hb, hr⟩ := h.kept hs
    have hmem : (Layer.bind b).bare ∈ ls'.map Layer.bare := hls ▸ List.mem_map_of_mem hb
    obtain ⟨l, hl, hbare⟩ := List.mem_map.1 hmem
    obtain ⟨b', rfl, -, -, hreceiver, -⟩ := Layer.bare_eq_bind hbare
    exact ⟨b', hl, hreceiver.trans hr⟩

/-- What starting the operation of a prompt sender comes to, on top of what a site holds. -/
inductive Starts (site : Site) (s : Sender) (base : List Layer) (r : Receiver) (w : World)
    (c : List Frame → Config) : Prop
  /-- The receiver is about to be completed. -/
  | completes (w' : World) (above : List Layer) (v : Completion Value Failure) (fs : List Frame)
      (leads : ∀ K, Leads (c K) [] ⟨w', .complete r v, fs ++ K⟩) (winds : ∀ f ∈ fs, f.Winds)
      (layers_eq : (w'.layers site).map Layer.bare = (base ++ above).map Layer.bare)
      (keeps : w.Keeps site w') (stops : v = .done → s.MayStop)
  /-- The start returns, and the leaf that was reached has dropped its receiver. -/
  | forgets (w' : World) (above : List Layer) (leads : ∀ K, Leads (c K) [] (finish w' K))
      (left : s.Left r above)
      (layers_eq : (w'.layers site).map Layer.bare = (base ++ above).map Layer.bare)
      (keeps : w.Keeps site w') (not_inline : ¬ s.Inline)

variable {site : Site} {s : Sender} {base : List Layer} {r : Receiver} {w w' : World}
  {c c' : List Frame → Config}

lemma Starts.of_leads (h : Starts site s base r w' c') (hc : ∀ K, Leads (c K) [] (c' K))
    (hw : w.Keeps site w') : Starts site s base r w c := by
  cases h with
  | completes w₁ above v fs leads winds layers_eq keeps stops =>
    exact .completes w₁ above v fs (fun K => (hc K).append_quiet (leads K)) winds layers_eq
      (hw.trans keeps) stops
  | forgets w₁ above leads left layers_eq keeps not_inline =>
    exact .forgets w₁ above (fun K => (hc K).append_quiet (leads K)) left layers_eq
      (hw.trans keeps) not_inline

/-! ### Leaves -/

lemma starts_ready {c : Completion Value Failure} {k : Nat}
    (hl : w.layers site = base ++ [.ready k (some (c, r))]) :
    Starts site (.ready c) base r w fun K => ⟨w, .start site base.length, K⟩ := by
  refine .completes (w.setLayer site base.length (.ready k none)) [.ready k none] c [] ?_ (by simp)
    (by rw [World.layers_setLayer hl]) ((World.Keeps.refl site w).setLayer _ _) id
  intro K
  refine .quiet rfl rfl ?_
  simpa [Machine.start, hl] using Leads.refl _

lemma starts_leaf {l : Leaf} (hd : l.deferred = false) {k : Nat}
    (hl : w.layers site = base ++ [.leaf k l (some r)]) :
    Starts site (.leaf l) base r w fun K => ⟨w, .start site base.length, K⟩ := by
  set w₁ := (w.note site [.started l.label]).setLayer site base.length (.leaf k l none) with hw₁
  have hl₁ : w₁.layers site = base ++ [.leaf k l none] :=
    World.layers_setLayer (w := w.note site [.started l.label]) hl _
  have hkeeps : w.Keeps site w₁ := ((World.Keeps.refl site w).note _ _).setLayer _ _
  have hstart (K : List Frame) : Leads ⟨w, .start site base.length, K⟩ []
      (startLeaf w₁ l r site K) := by
    refine .quiet rfl rfl ?_
    simpa [Machine.start, hl] using Leads.refl _
  set w₂ := w₁.note site (if l.inspecting then [.remark ("chain " ++ l.label ++ ": " ++
    " > ".intercalate (w₁.namesFrom r))] else []) with hw₂
  by_cases hs : w₂.isStopped r = true
  · refine .completes (w₂.note site [.gaveUp l.label]) [.leaf k l none] .done
      [.discard site l.completion] (fun K => ?_) (by simp [Frame.Winds]) ?_
      ((hkeeps.note _ _).note _ _) fun _ => trivial
    · simpa [startLeaf, ← hw₂, hs] using hstart K
    · exact congrArg (List.map Layer.bare) hl₁
  · refine .completes w₂ [.leaf k l none] l.completion [] (fun K => ?_) (by simp) ?_
      (hkeeps.note _ _) fun _ => trivial
    · simpa [startLeaf, ← hw₂, hs, hd] using hstart K
    · exact congrArg (List.map Layer.bare) hl₁

/-- A run may use its receiver while its operation stands. -/
lemma isUsable_firstRun {sc : Script} {k : Nat} {held : Option Receiver} (w₀ : World)
    (hl : (w.layers site).map Layer.bare = (base ++ [Layer.script k sc held]).map Layer.bare) :
    w.isUsable (firstRun w₀ sc r site base.length k) = true := by
  have halive : w.isAlive (firstRun w₀ sc r site base.length k) = true := by
    have hserial : ((w.layers site).map Layer.bare)[base.length]?.map Layer.serial = some k := by
      rw [hl]
      simp [Layer.bare, Layer.serial]
    rw [List.getElem?_map] at hserial
    cases hget : (w.layers site)[base.length]? with
    | none => simp [hget] at hserial
    | some l =>
      have hlk : l.serial = k := by
        cases l <;> simpa [hget, Layer.bare, Layer.serial] using hserial
      simp [World.isAlive, firstRun, hget, hlk]
  cases r with
  | child role s' h => cases role <;> simp_all [World.isUsable, firstRun]
  | _ => rfl

/-- What a script has done once it was started and is past its idle instructions. -/
lemma leads_start_script {sc : Script} {k : Nat}
    (hl : w.layers site = base ++ [.script k sc (some r)]) {before rest : List Instr}
    (hstart : sc.start = before ++ rest) (hidle : ∀ i ∈ before, i.isIdle = true) :
    ∃ w', (w'.layers site).map Layer.bare
        = (base ++ [Layer.script k sc none]).map Layer.bare ∧ w.Keeps site w' ∧
      ∀ K, Leads ⟨w, .start site base.length, K⟩ []
        ⟨w', .follow (firstRun w sc r site base.length k) rest, K⟩ := by
  set w₀ := (w.note site [.started sc.label]).setLayer site base.length (.script k sc none)
  set w₁ : World := { w₀ with runs := w₀.runs + 1 }
  have hl₁ : w₁.layers site = base ++ [.script k sc none] :=
    World.layers_setLayer (w := w.note site [.started sc.label]) hl _
  have hkeeps : w.Keeps site w₀ := ((World.Keeps.refl site w).note _ _).setLayer _ _
  have hrun : w₀.Stays w₁ := ⟨fun _ => .of_places rfl, rfl, rfl⟩
  obtain ⟨w₂, hstays, hleads⟩ :=
    leads_follow_idle hidle w₁ (firstRun w sc r site base.length k) rest
  refine ⟨w₂, ?_, hkeeps.trans (hrun.trans hstays).keeps, fun K => .quiet ?_ rfl (hleads K)⟩
  · rw [(hstays.like site).layers_eq, hl₁]
  · simp [next, Machine.start, hl, hstart, w₁, w₀]

lemma starts_script {sc : Script} (hsc : sc.Prompt) {k : Nat}
    (hl : w.layers site = base ++ [.script k sc (some r)]) :
    Starts site (.script sc) base r w fun K => ⟨w, .start site base.length, K⟩ := by
  set run := firstRun w sc r site base.length k with hrun
  have hreceiver : run.receiver = some r := rfl
  rcases hsc.start_spec with ⟨before, d, after, hstart, hbefore, hafter⟩ | hforgets
  · -- Either instruction completes the receiver; they differ in what a raised payload comes to.
    have hgo {i : Instr} (hstart : sc.start = before ++ i :: after) (f : Frame) (hf : f.Winds)
        (hi : ∀ w₁ : World, w₁.isUsable run = true → ∀ K, follow w₁ run (i :: after) K =
          ⟨w₁, .complete r (d.eval (w₁.scopeOf run) (some run.id)), f :: K⟩) :
        Starts site (.script sc) base r w fun K => ⟨w, .start site base.length, K⟩ := by
      obtain ⟨w₁, hl₁, hkeeps, hleads⟩ := leads_start_script hl hstart hbefore
      have hcomplete := hi w₁ (isUsable_firstRun w hl₁)
      exact .completes w₁ [.script k sc none] _ [f]
        (fun K => (hleads K).append_quiet (.quiet (congrArg some (hcomplete K)) rfl (.refl _)))
        (by simpa using hf) hl₁ hkeeps fun _ => trivial
    rcases hstart with hstart | hstart
    · exact hgo hstart (.script (giveAway run) after) hafter fun w₁ hu K => by
        simp [follow, hu, instruct, deliver, hreceiver]
    · exact hgo hstart (.attempt (giveAway run) after) hafter fun w₁ hu K => by
        simp [follow, hu, instruct, deliver, hreceiver]
  · obtain ⟨w₁, hl₁, hkeeps, hleads⟩ :=
      leads_start_script hl (show sc.start = [] ++ sc.start from rfl) (by simp)
    obtain ⟨w₂, hstays, hend⟩ := leads_follow_letsGo hforgets w₁ run
    refine .forgets w₂ [.script k sc none] (fun K => (hleads K).append_quiet (hend K)) ?_
      ((hstays.like site).layers_eq.trans hl₁) (hkeeps.trans hstays.keeps) id
    exact ⟨⟨k, sc, rfl, hforgets⟩, fun _ => by simp [Layer.receiver?], fun h => by cases h⟩

lemma starts_either {which : Arm} {k : Nat} {ls : List Layer}
    (hl : w.layers site = base ++ .either k which :: ls)
    (h : Starts site s (base ++ [.either k which]) r w
      fun K => ⟨w, .start site (base.length + 1), K⟩) :
    Starts site (.either which s) base r w fun K => ⟨w, .start site base.length, K⟩ := by
  have hdown (K : List Frame) : Leads ⟨w, .start site base.length, K⟩ []
      ⟨w, .start site (base.length + 1), K⟩ := by
    refine .quiet rfl rfl ?_
    simpa [Machine.start, hl] using Leads.refl _
  cases h with
  | completes w₁ above v fs leads winds layers_eq keeps stops =>
    exact .completes w₁ (.either k which :: above) v fs
      (fun K => (hdown K).append_quiet (leads K)) winds (by simpa using layers_eq) keeps stops
  | forgets w₁ above leads left layers_eq keeps not_inline =>
    refine .forgets w₁ (.either k which :: above) (fun K => (hdown K).append_quiet (leads K)) ?_
      (by simpa using layers_eq) keeps not_inline
    obtain ⟨k', sc, hlast, hforgets⟩ := left.script
    refine ⟨⟨k', sc, ?_, hforgets⟩, fun hs l hmem => ?_, fun hs => ?_⟩
    · simp [List.getLast?_cons, hlast]
    · rcases List.mem_cons.1 hmem with rfl | hmem
      · rfl
      · exact left.free hs l hmem
    · obtain ⟨b, hmem, hb⟩ := left.kept hs
      exact ⟨b, List.mem_cons_of_mem _ hmem, hb⟩

/-! ### Binding operations -/

section Binding

variable {below above : List Layer} {b : Binding}

/-- The value of a predecessor begins a handoff. If anything is raised amid it, that is the error of
the binding operation, and else the successor is about to be started. -/
lemma leads_handover (hl : w.layers site = below ++ .bind b :: above) {f : Factory}
    {next : Env → Sender} (hb : b.Fresh f next r) (hnext : ∀ env, (next env).Fills) (v : Value) :
    ∃ w' below' b' above', w'.layers site = below' ++ .bind b' :: above' ∧
      below'.map Layer.bare = below.map Layer.bare ∧ below'.length = below.length ∧
      w.Keeps site w' ∧
      ((∃ e, ∀ K,
          Leads ⟨w, .complete (.child .predecessor site below.length) (.value v), K⟩ []
            ⟨w', .complete r (.error e), K⟩) ∨
        ∃ env, (next env).Stands site (.child .successor site below.length) (below.length + 1)
            above' ∧ b'.receiver = some r ∧ b'.cleanup = .successor ∧ ∀ K,
          Leads ⟨w, .complete (.child .predecessor site below.length) (.value v), K⟩ []
            ⟨w', .start site (below.length + 1), K⟩) := by
  have hsilent (env : Env) : (next env).Silent := (hnext env).silent
  obtain ⟨n, hholds⟩ := World.exists_holds_of_layers_ne (w := w) (s := site) (by simp [hl])
  have hhand := Binding.leads_hand hb.cleanup_eq hb.factory_eq hsilent w site below above n [] v
  have hands := Binding.hands_hand site below b f next above n [] v
  obtain ⟨ns, hns⟩ := Binding.exists_around_hand site below b f next above n [] v
  rw [← hl, World.after_self hholds] at hhand
  set x := b.hand site below f next above n [] v
  have hbelow : x.around.map Layer.bare = below.map Layer.bare := by
    rw [hns, Layer.map_bare_writeBack]
  have hlength : x.around.length = below.length := by
    rw [hns, Layer.length_writeBack]
  have hr : x.binding.receiver = some r := hands.receiver_eq.trans hb.receiver_eq
  cases hm : x.laid.raised with
  | some m =>
    have hgiven := Binding.leads_given_up w site x.around x.binding x.laid.layers x.laid.count
      x.laid.acts m
    simp only [pass_eq hr, World.setBinding_after_top] at hgiven
    simp only [hm, finishOr_some, ← hlength] at hhand ⊢
    exact ⟨_, x.around, x.binding.spend, x.laid.layers, World.layers_after, hbelow, rfl,
      World.keeps_after .., .inl ⟨_, fun K => (hhand K).append_quiet (hgiven K)⟩⟩
  | none =>
    simp only [hm] at hands
    obtain ⟨env, hstands⟩ := hands.exists_stands hsilent
    have hsettled := Binding.leads_settled w site x.around x.binding x.laid.layers x.laid.count
      x.laid.acts
    simp only [hm, finishOr_none, ← hlength] at hhand hstands ⊢
    exact ⟨_, x.around, x.binding.settle, x.laid.layers, World.layers_after, hbelow, rfl,
      World.keeps_after .., .inr ⟨env, hstands, hr, rfl, fun K =>
        (hhand K).append_quiet (hsettled K)⟩⟩

end Binding

/-- Starting the operation of a sender, wherever it stands, comes to one of the two. -/
def StartsPromptly (site : Site) (s : Sender) : Prop :=
  ∀ (base : List Layer) (r : Receiver) (w : World) (ls : List Layer),
    w.layers site = base ++ ls → s.Stands site r base.length ls →
    Starts site s base r w fun K => ⟨w, .start site base.length, K⟩

/-- A successor of a binding operation that is about to be started, and what its completion or
silence makes of the binding operation. -/
lemma starts_successor {p : Sender} {f : Factory} {next : Env → Sender} {env : Env}
    (ih : StartsPromptly site (next env)) {below ls : List Layer} {b : Binding}
    (hl : w.layers site = below ++ .bind b :: ls)
    (hbelow : below.map Layer.bare = base.map Layer.bare)
    (hs : (next env).Stands site (.child .successor site below.length) (below.length + 1) ls)
    (hr : b.receiver = some r) (hc : b.cleanup = .successor) {fs : List Frame}
    (hfs : ∀ f ∈ fs, f.Winds) :
    Starts site (.bind p f next) base r w fun K =>
      ⟨w, .start site (below.length + 1), fs ++ K⟩ := by
  have hstart := ih (below ++ [.bind b]) (.child .successor site below.length) w ls
    (by simpa using hl) (by simpa using hs)
  rw [List.length_append, List.length_singleton] at hstart
  cases hstart with
  | completes w₁ above v fs₁ leads winds layers_eq keeps stops =>
    rw [List.append_assoc] at layers_eq
    obtain ⟨below₁, b₁, above₁, hl₁, hbelow₁, hlength, -, -, hr₁, -, hc₁⟩ :=
      World.exists_layers layers_eq
    have hb₁ := World.binding?_of_layers hl₁
    rw [hlength] at hb₁
    set w₂ := w₁.setBinding site below.length b₁.spend
    have hl₂ : w₂.layers site = below₁ ++ .bind b₁.spend :: above₁ := by
      simp only [w₂, ← hlength]
      exact World.layers_setBinding hl₁ _
    refine .completes w₂ (.bind b₁.spend :: above₁) (v.mapError .successor) (fs₁ ++ fs)
      (fun K => ?_) ?_ ?_ (keeps.setBinding _ _) ?_
    · refine (leads (fs ++ K)).append_quiet (.quiet rfl rfl ?_)
      simpa [complete, hb₁, hc₁.trans hc, Role.expects, receive, pass_eq (hr₁.trans hr)]
        using Leads.refl _
    · intro f hf
      rcases List.mem_append.1 hf with hf | hf
      · exact winds f hf
      · exact hfs f hf
    · rw [hl₂, List.map_append, List.map_append, hbelow₁, hbelow]
    · intro hv
      refine .inr ⟨env, stops ?_⟩
      cases v <;> simp_all [Completion.mapError]
  | forgets w₁ above leads left layers_eq keeps not_inline =>
    obtain ⟨w₂, hstays, hwind⟩ := leads_winding hfs w₁
    rw [List.append_assoc] at layers_eq
    refine .forgets w₂ (.bind b :: above) (fun K => (leads _).append_quiet (hwind K)) ?_ ?_
      (keeps.trans hstays.keeps) fun hin => not_inline (hin.2 env)
    · obtain ⟨k, sc, hlast, hforgets⟩ := left.script
      exact ⟨⟨k, sc, by simp [List.getLast?_cons, hlast], hforgets⟩, by simp [binds],
        fun _ => ⟨b, List.mem_cons_self, hr⟩⟩
    · rw [(hstays.like site).layers_eq, layers_eq, List.map_append, List.map_append,
        List.map_append, hbelow]
      rfl

lemma starts_bind {p : Sender} {f : Factory} {next : Env → Sender} {b : Binding} {ls : List Layer}
    (hl : w.layers site = base ++ .bind b :: ls) (hb : b.Fresh f next r)
    (hp : p.Stands site (.child .predecessor site base.length) (base.length + 1) ls)
    (hnext : ∀ env, (next env).Prompt) (ihp : StartsPromptly site p)
    (ih : ∀ env, StartsPromptly site (next env)) :
    Starts site (.bind p f next) base r w fun K => ⟨w, .start site base.length, K⟩ := by
  set w₀ := w.note site [.logged b.serial .starting] with hw₀
  have hdown (K : List Frame) : Leads ⟨w, .start site base.length, K⟩ []
      ⟨w₀, .start site (base.length + 1), K⟩ := by
    refine .quiet rfl rfl ?_
    simpa [Machine.start, hl, hb.storage_eq] using Leads.refl _
  have hstart := ihp (base ++ [.bind b]) (.child .predecessor site base.length) w₀ ls
    (by simpa [hw₀] using hl) (by simpa using hp)
  rw [List.length_append, List.length_singleton] at hstart
  suffices h : Starts site (.bind p f next) base r w₀ fun K =>
      ⟨w₀, .start site (base.length + 1), K⟩ from
    h.of_leads hdown ((World.Keeps.refl site w).note _ _)
  cases hstart with
  | completes w₁ above v fs leads winds layers_eq keeps stops =>
    rw [List.append_assoc] at layers_eq
    obtain ⟨below₁, b₁, above₁, hl₁, hbelow₁, hlength, -, hf₁, hr₁, hs₁, hc₁⟩ :=
      World.exists_layers layers_eq
    have hb₁ : b₁.Fresh f next r := ⟨hf₁.trans hb.factory_eq, hr₁.trans hb.receiver_eq,
      hs₁.trans hb.storage_eq, hc₁.trans hb.cleanup_eq⟩
    rw [← hlength] at leads ⊢
    -- What does not begin a handoff is passed on.
    have hpass (acts : List Act) (u : Completion Value Failure) (hu : u = .done → v = .done)
        (hgo : ∀ K, complete w₁ (.child .predecessor site below₁.length) v K =
          Machine.pass (w₁.note site acts) site below₁.length b₁ u K) :
        Starts site (.bind p f next) base r w₀ fun K =>
          ⟨w₀, .start site (below₁.length + 1), K⟩ := by
      refine .completes ((w₁.note site acts).setBinding site below₁.length b₁.spend)
        (.bind b₁.spend :: above₁) u fs (fun K => (leads K).append_quiet (.quiet rfl rfl ?_))
        winds ?_ ((keeps.note _ _).setBinding _ _) fun h => .inl (stops (hu h))
      · rw [hgo, pass_eq hb₁.receiver_eq]
        exact .refl _
      · rw [World.layers_setBinding (w := w₁.note site acts) hl₁, List.map_append, List.map_append,
          hbelow₁]
    have hfind := World.binding?_of_layers hl₁
    cases v with
    | error e =>
      refine hpass [.logged b₁.serial .failed] (.error (.predecessor e)) (by simp) fun K => ?_
      simp [complete, hfind, hb₁.cleanup_eq, Role.expects, receive]
    | done =>
      refine hpass [.logged b₁.serial .stopped] .done id fun K => ?_
      simp [complete, hfind, hb₁.cleanup_eq, Role.expects, receive]
    | value v =>
      obtain ⟨w₂, below₂, b₂, above₂, hl₂, hbelow₂, hlength₂, hkeeps₂, hhandover⟩ :=
        leads_handover hl₁ hb₁ (fun env => (hnext env).fills) v
      have hbelow := hbelow₂.trans hbelow₁
      rcases hhandover with ⟨e, hraised⟩ | ⟨env, hstands, hr₂, hc₂, hgo⟩
      · refine .completes w₂ (.bind b₂ :: above₂) (.error e) fs
          (fun K => (leads K).append_quiet (hraised _)) winds ?_ (keeps.trans hkeeps₂) (by simp)
        rw [hl₂, List.map_append, List.map_append, hbelow]
      · rw [← hlength₂] at hstands
        have hsuccessor := starts_successor (p := p) (f := f) (ih env) hl₂ hbelow hstands hr₂ hc₂
          winds
        rw [hlength₂] at hsuccessor
        exact hsuccessor.of_leads (fun K => (leads K).append_quiet (hgo _)) (keeps.trans hkeeps₂)
  | forgets w₁ above leads left layers_eq keeps not_inline =>
    refine .forgets w₁ (.bind b :: above) leads ?_ (by simpa using layers_eq) keeps
      fun hin => not_inline hin.1
    obtain ⟨k, sc, hlast, hforgets⟩ := left.script
    exact ⟨⟨k, sc, by simp [List.getLast?_cons, hlast], hforgets⟩, by simp [binds],
      fun _ => ⟨b, List.mem_cons_self, hb.receiver_eq⟩⟩

/-- Starting a prompt sender either comes to complete its receiver, or returns when a leaf has
dropped the receiver that it was given. -/
theorem starts (hs : s.Prompt) : StartsPromptly site s := by
  induction s with
  | ready c =>
    intro base r w ls hl hstands
    cases hstands
    exact starts_ready hl
  | leaf l =>
    intro base r w ls hl hstands
    cases hstands
    exact starts_leaf hs hl
  | exploding built => exact hs.elim
  | script sc =>
    intro base r w ls hl hstands
    cases hstands
    exact starts_script hs hl
  | either which s ih =>
    intro base r w ls hl hstands
    cases hstands with
    | @either _ _ _ _ k ls hstands =>
      have hin := ih hs (base ++ [.either k which]) r w ls (by simpa using hl)
        (by simpa using hstands)
      rw [List.length_append, List.length_singleton] at hin
      exact starts_either hl hin
  | bind p f next ihp ih =>
    intro base r w ls hl hstands
    cases hstands with
    | bind hp =>
      exact starts_bind hl ⟨rfl, rfl, rfl, rfl⟩ hp hs.2 (ihp hs.1) fun env => ih env (hs.2 env)

end Sender

end Handoff
