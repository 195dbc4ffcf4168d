import Handoff.Proofs.Holding.Fitting
import Handoff.Proofs.Line
import Handoff.Proofs.Separation.Belonging

/-!
# Without scripts

A host that connects no scripts, and to final receivers that connect none when they are completed,
never gets to see one: nothing unscripted comes to hold a script. `World.Orderly` says so of all
that a world holds, and that the operations of each site fit together.
-/

namespace Handoff

/-! ### Expressions and final receivers -/

/-- An expression without scripts. -/
def Expr.Unscripted : Expr → Prop
  | value _ _ => True
  | error _ => True
  | done => True
  | script _ => False
  | arm _ e => e.Unscripted
  | cond _ l r => l.Unscripted ∧ r.Unscripted
  | bind p _ _ body => p.Unscripted ∧ body.Unscripted

lemma Expr.scriptless_sender {e : Expr} (h : e.Unscripted) (env : Env) :
    (e.sender env).Scriptless := by
  induction e generalizing env with
  | script y => exact h.elim
  | arm which e ih => exact ih h env
  | cond t l r ihl ihr =>
    simp only [sender]
    split
    · exact ihl h.1 env
    · exact ihr h.2 env
  | bind p label edits body ihp ih => exact ⟨ihp h.1 env, fun env => ih h.2 env⟩
  | _ => trivial

mutual

/-- A final receiver that connects no scripts when it is completed. -/
def Observer.Unscripted : Observer → Prop
  | .mk _ _ _ _ reaction => Action.UnscriptedAll reaction

/-- Actions that connect no scripts. -/
def Action.UnscriptedAll : List Action → Prop
  | [] => True
  | a :: rest => a.Unscripted ∧ Action.UnscriptedAll rest

/-- An action that connects no scripts. -/
def Action.Unscripted : Action → Prop
  | .raise _ => True
  | .log _ => True
  | .step s => s.Unscripted

/-- A step that connects no scripts. -/
def Step.Unscripted : Step → Prop
  | .connect _ e r => e.Unscripted ∧ r.Unscripted
  | .wait e => e.Unscripted
  | _ => True

end

/-- A receiver that connects no scripts when it is completed. -/
def Receiver.Unscripted : Receiver → Prop
  | observer _ o => o.Unscripted
  | _ => True

/-- A call that connects no scripts, and only to final receivers of the place. -/
def Call.Unscripted : Call → Prop
  | connect p x r => x.Scriptless ∧ r.Unscripted ∧ r.Ends (.place p)
  | wait x => x.Scriptless
  | _ => True

lemma Step.unscripted_call {s : Step} (h : s.Unscripted) : s.call.Unscripted := by
  cases s with
  | connect p e r => exact ⟨Expr.scriptless_sender h.1 [], h.2, rfl, rfl⟩
  | wait e => exact Expr.scriptless_sender h []
  | _ => trivial

/-! ### Operations and tasks -/

/-- An operation that is no script's, and connects none. -/
structure Layer.Unscripted (l : Layer) : Prop where
  kind_ne : l.kind ≠ .script
  receiver : ∀ r, l.receiver? = some r → r.Unscripted
  factory : ∀ b, l = .bind b → b.Scriptless

/-- A task that does not go on with a script. -/
def Task.Unscripted : Task → Prop
  | complete _ r => r.Unscripted
  | resume _ _ => False
  | job _ => True

variable {s s' : Site} {w w' : World} {b b' : Binding} {ls ls' : List Layer} {l l' : Layer}

lemma Layer.Unscripted.of_kind_ne (hk : l.kind ≠ .script) (hb : l.kind ≠ .bind)
    (hr : ∀ r, l.receiver? = some r → r.Unscripted) : l.Unscripted where
  kind_ne := hk
  receiver := hr
  factory b h := by
    subst h
    exact absurd rfl hb

lemma Layer.Unscripted.of_bind (h : (Layer.bind b).Unscripted)
    (hr : ∀ r, b'.receiver = some r → b.receiver = some r)
    (hf : ∀ f, b'.factory = some f → b.factory = some f) : (Layer.bind b').Unscripted where
  kind_ne := by simp [kind]
  receiver r hb := h.receiver r (hr r hb)
  factory b'' hb f next hfactory := by
    cases hb
    exact h.factory b rfl f next (hf _ hfactory)

lemma Layer.Unscripted.restored (h : l.Unscripted) (hl : Restored l l') : l'.Unscripted := by
  obtain rfl | ⟨b, env, rfl, rfl⟩ := hl
  · exact h
  · exact h.of_bind (by simp) (by simp)

lemma Layer.unscripted_restored (hls : ∀ l ∈ ls, l.Unscripted)
    (h : List.Forall₂ Restored ls ls') : ∀ l ∈ ls', l.Unscripted := by
  induction h with
  | nil => simp
  | cons hl _ ih =>
    obtain ⟨hx, hrest⟩ := List.forall_mem_cons.1 hls
    exact List.forall_mem_cons.2 ⟨hx.restored hl, ih hrest⟩

/-- An operation of a site is replaced. -/
lemma Layer.unscripted_replace {base rest : List Layer}
    (hls : ∀ x ∈ base ++ l :: rest, x.Unscripted) (hl' : l'.Unscripted) :
    ∀ x ∈ base ++ l' :: rest, x.Unscripted := by
  intro x hx
  obtain hx | rfl | hx := by simpa using hx
  · exact hls x (by simp [hx])
  · exact hl'
  · exact hls x (by simp [hx])

namespace World

/-- No script is anywhere, and the operations of each site fit together. -/
structure Orderly (w : World) : Prop where
  layers : ∀ s, ∀ l ∈ w.layers s, l.Unscripted
  fitting : ∀ s, Layer.Fitting (w.layers s)
  queue : ∀ t ∈ w.queue, t.Unscripted

lemma orderly_empty : ({} : World).Orderly where
  layers s l hl := by simp [World.layers, World.place] at hl
  fitting s := trivial
  queue t ht := by simp at ht

namespace Orderly

variable (hw : w.Orderly)

include hw

/-- What does not touch the operations and the queue keeps a world orderly. -/
lemma congr (hl : ∀ s, w'.layers s = w.layers s) (hq : w'.queue = w.queue) : w'.Orderly where
  layers s l h := hw.layers s l (hl s ▸ h)
  fitting s := (hl s).symm ▸ hw.fitting s
  queue t ht := hw.queue t (hq ▸ ht)

lemma put (n : Nat) (hls : ∀ l ∈ ls, l.Unscripted) (hfit : Layer.Fitting ls) :
    (w.put s ⟨ls, n⟩).Orderly where
  layers s' l hl := by
    by_cases hs : s' = s
    · subst hs
      exact hls l (by simpa using hl)
    · rw [layers_put_of_ne _ hs] at hl
      exact hw.layers s' l hl
  fitting s' := by
    by_cases hs : s' = s
    · subst hs
      simpa using hfit
    · rw [layers_put_of_ne _ hs]
      exact hw.fitting s'
  queue := hw.queue

lemma after (n : Nat) (acts : List Act) (hls : ∀ l ∈ ls, l.Unscripted) (hfit : Layer.Fitting ls) :
    (w.after s ls n acts).Orderly :=
  (hw.put n hls hfit).congr (fun _ => rfl) rfl

lemma schedule {t : Task} (ht : t.Unscripted) : (w.schedule t).Orderly where
  layers := hw.layers
  fitting := hw.fitting
  queue t' ht' := by
    obtain ht' | rfl := by simpa using ht'
    · exact hw.queue t' ht'
    · exact ht

end Orderly

end World

end Handoff
