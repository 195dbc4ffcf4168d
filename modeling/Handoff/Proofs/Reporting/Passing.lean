import Handoff.Proofs.Panic.Unwinding
import Handoff.Proofs.Reporting.Tags
import Handoff.Proofs.Wiring.Whole

/-!
# Errors on their way out

An error that a leaf gives to its receiver, or that comes of a payload raised amid a handoff, is
passed on from operation to operation, and each puts its tag on it. So it comes to the final
receiver under the tags of the way to the place that it started from: `Config.Fails.delivers` and
`Config.Breaks.delivers`. Whatever else goes on, nothing comes in between.
-/

namespace Handoff

open Machine

namespace Sender

/-- What a leaf completes its receiver with, if no stop was requested. A script may choose. -/
inductive Gives : Sender → Completion Value Failure → Prop where
  | ready (v : Completion Value Failure) : Gives (.ready v) v
  | leaf (l : Leaf) : Gives (.leaf l) l.completion
  | exploding (label : String) : Gives (.exploding (some label)) .done
  | script (x : Script) (d : Delivery) (env : Env) (giver : Option Nat) :
      Gives (.script x) (d.eval env giver)

end Sender

namespace Layer

variable {x y y' : Sender} {o r r' : Receiver} {s : Site} {role : Role} {path path' : List Role}
  {base base' rest rest' : List Layer}

/-- What was laid down for a place in the sender `x` stands at a site, and was given this
receiver. -/
inductive Seats (x : Sender) (o : Receiver) (s : Site) :
    List Layer → List Role → Sender → Receiver → Prop where
  | mk {base rest : List Layer} {l : Layer} {path : List Role} {y : Sender} {r : Receiver}
      (hline : Line x o s base path y r) (hy : y.Yields r l) :
      Seats x o s (base ++ l :: rest) path y r

lemma Seats.exists_line {ls : List Layer} (h : Seats x o s ls path y r) :
    ∃ base l rest, ls = base ++ l :: rest ∧ Line x o s base path y r ∧ y.Yields r l := by
  obtain ⟨hline, hy⟩ := h
  exact ⟨_, _, _, rfl, hline, hy⟩

lemma Seats.lies {ls : List Layer} (h : Seats x o s ls path y r) : x.Lies path y := by
  obtain ⟨hline, -⟩ := h
  exact hline.lies

end Layer

/-! ### From operation to operation -/

section Leads

variable {x y : Sender} {o r q : Receiver} {s : Site} {role : Role} {path : List Role} {w : World}
  {b : Binding} {base below above rest : List Layer} {e : Failure} {K : List Frame}

/-- An operation passes an error of its child on, and puts its tag on it. -/
lemma leads_tag (hl : w.layers s = below ++ .bind b :: above) (hr : b.receiver = some q)
    (hc : b.cleanup = role.expects) (e : Failure) (K : List Frame) :
    ∃ w', Config.Leads ⟨w, .complete (.child role s below.length) (.error e), K⟩ []
        ⟨w', .complete q (.error (e.tag role)), K⟩ ∧
      w'.layers s = below ++ .bind b.spend :: above := by
  have hcomplete : complete w (.child role s below.length) (.error e) K =
      receive w role s below.length b (.error e) K := by
    simp [complete, World.binding?_of_layers hl, hc]
  have hpassed {v : World} (hv : v.layers s = w.layers s)
      (hreceive : receive w role s below.length b (.error e) K =
        Machine.pass v s below.length b (.error (e.tag role)) K) :
      ∃ w', Config.Leads ⟨w, .complete (.child role s below.length) (.error e), K⟩ []
          ⟨w', .complete q (.error (e.tag role)), K⟩ ∧
        w'.layers s = below ++ .bind b.spend :: above := by
    rw [hreceive, pass_eq hr] at hcomplete
    exact ⟨_, .quiet (congrArg some hcomplete) rfl (.refl _),
      World.layers_setBinding (hv.trans hl) b.spend⟩
  cases role with
  | predecessor => exact hpassed (v := w.note s [.logged b.serial .failed]) rfl rfl
  | successor => exact hpassed (v := w) rfl rfl

/-- An error of what stands on a line comes to the final receiver, under the tags of the way. -/
theorem leads_under (hline : Layer.Line x o s base path y r) (hl : w.layers s = base ++ rest)
    (hbase : ∀ l ∈ base, l.Rests) (e : Failure) (K : List Frame) :
    ∃ w', Config.Leads ⟨w, .complete r (.error e), K⟩ []
      ⟨w', .complete o (.error (e.under path)), K⟩ := by
  induction path generalizing base rest y r w e with
  | nil =>
    obtain rfl := hline.eq_of_nil
    exact ⟨w, .refl _⟩
  | cons role path ih =>
    obtain ⟨below, b, above, z, q, rfl, rfl, houter, hz, hs⟩ := hline.exists_outer
    have hb : (Layer.bind b).Rests := hbase _ (by simp)
    rw [List.append_assoc, List.cons_append] at hl
    obtain ⟨w₁, htag, hl₁⟩ := leads_tag hl (hb.receiver_eq hz) (hb.cleanup_eq hs) e K
    have hbelow : ∀ l ∈ below, l.Rests := fun l hmem => hbase l (by simp [hmem])
    obtain ⟨w₂, hrest⟩ := ih houter hl₁ hbelow (e.tag role)
    exact ⟨w₂, htag.append_quiet hrest⟩

end Leads

namespace Config

open Layer (Line Rests Seats)

/-! ### Where errors come from -/

/-- A leaf that stands at a site completes its receiver with an error. The way is that to its place
in the sender `x`. -/
inductive Fails (x : Sender) (o : Receiver) (s : Site) : List Role → Failure → Config → Prop where
  | mk {w : World} {path : List Role} {y : Sender} {r : Receiver} {e : Failure} {K : List Frame}
      (hy : Seats x o s (w.layers s) path y r) (hgives : y.Gives (.error e)) :
      Fails x o s path e ⟨w, .complete r (.error e), K⟩

/-- A payload is raised amid the handoff of a binding operation. The way is that to the place of the
binding in the sender `x`. -/
inductive Breaks (x : Sender) (o : Receiver) (s : Site) : List Role → Payload → Config → Prop where
  | mk {w : World} {base rest : List Layer} {b : Binding} {path : List Role} {z : Sender}
      {r : Receiver} {p : Payload} {K : List Frame} (hl : w.layers s = base ++ .bind b :: rest)
      (hline : Line x o s base path z r) (hz : z.Yields r (.bind b))
      (hK : .handoff s base.length ∈ K) : Breaks x o s path p ⟨w, .raised p, K⟩

/-- An error is given to a receiver, and nothing to any other before. -/
def Delivers (o : Receiver) (f : Failure) (c : Config) : Prop :=
  ∃ w K, c.Leads [] ⟨w, .complete o (.error f), K⟩

variable {x : Sender} {o : Receiver} {s : Site} {path : List Role} {e : Failure} {p : Payload}
  {c : Config}

lemma Fails.exists_lies (h : c.Fails x o s path e) :
    ∃ y, x.Lies path y ∧ y.Gives (.error e) := by
  obtain @⟨w, path, y, r, e, K, hy, hgives⟩ := h
  exact ⟨y, hy.lies, hgives⟩

lemma Breaks.exists_lies (h : c.Breaks x o s path p) :
    ∃ y f next, x.Lies path (.bind y f next) := by
  obtain ⟨-, hline, hz, -⟩ := h
  cases hz with
  | bind => exact ⟨_, _, _, hline.lies⟩

/-- As long as the final receiver was not given anything, the error of a leaf comes to it. -/
theorem Fails.delivers (h : c.Fails x o s path e) (hc : c.Whole x o s)
    (ho : o.isChild = false) : c.Delivers o (e.under path) := by
  obtain @⟨w, path, y, r, e, K, hy, -⟩ := h
  obtain ⟨base, l, rest, hl, hline, -⟩ := hy.exists_line
  cases hc with
  | resting hrests =>
    obtain ⟨w', hleads⟩ := leads_under hline hl (fun l hmem => hrests l (by simp [hl, hmem])) e K
    exact ⟨w', K, hleads⟩
  | passing hl' hline' hbase =>
    obtain rfl := hline.path_eq hline' ho (hl.symm.trans hl')
    obtain ⟨w', hleads⟩ := leads_under hline' hl' hbase e K
    exact ⟨w', K, hleads⟩

/-- As long as the final receiver was not given anything, a payload raised amid a handoff comes to
it as an error. -/
theorem Breaks.delivers (h : c.Breaks x o s path p) (hc : c.Whole x o s) :
    c.Delivers o ((Failure.panicked p).under path) := by
  obtain @⟨w, base, rest, b, path, z, r, p, K, hl, hline, hz, hK⟩ := h
  cases hc with
  | resting _ hnone => exact absurd hK (hnone _)
  | @failed _ _ base' inner b' gs K hl' hbase hinner hr hgs hnone =>
    -- the payload comes to the one handoff that is on the stack
    have hlen : base.length = base'.length := by
      rcases List.mem_append.1 hK with hmem | hmem
      · exact absurd hmem hgs.ne_handoff
      · rcases List.mem_cons.1 hmem with heq | hmem
        · exact (Frame.handoff.inj heq).2
        · exact absurd hmem (hnone _)
    obtain ⟨rfl, heq⟩ := List.append_inj (hl.symm.trans hl') hlen
    obtain ⟨rfl, -⟩ : b = b' ∧ rest = inner := by simpa using heq
    have hguards : ∀ f ∈ gs, ∃ j, f = .guard s j ∧ base.length < j := hgs
    obtain ⟨w₁, inner₁, hunwound, hl₁⟩ := leads_guards hguards hl p (.handoff s base.length :: K)
    obtain ⟨q, hq⟩ := Option.ne_none_iff_exists'.1 hr
    obtain rfl := hz.receiver_eq hq
    set w₂ := w₁.note s [.logged b.serial (.buildFailed p)] with hw₂
    have hl₂ : w₂.layers s = base ++ .bind b :: inner₁ := hl₁
    have hcaught : unwind w₁ p (.handoff s base.length) K =
        ⟨w₂.setBinding s base.length b.spend, .complete q (.error (.panicked p)), K⟩ := by
      simp [unwind, World.binding?_of_layers hl₁, pass_eq hq, hw₂]
    obtain ⟨w', hleads⟩ :=
      leads_under hline (World.layers_setBinding hl₂ b.spend) hbase (.panicked p) K
    exact ⟨w', K, hunwound.append_quiet (.quiet (congrArg some hcaught) rfl hleads)⟩

end Config

end Handoff
