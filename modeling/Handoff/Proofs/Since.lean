import Handoff.Proofs.Separation.Independence

/-!
# Runs that go on

`Config.Since` follows a run from one configuration to a later one, through moves of the machine and
calls that a host makes in between, whatever they are. A predicate restricts what the machine may
carry out on the way. What each move keeps, and what a new call does not disturb, is kept by all of
it: `Config.Since.keeps`.
-/

namespace Handoff.Config

/-- A run goes on from one configuration to another. The machine makes moves, from configurations
that satisfy a predicate, and when it has come to an end a host makes any call. What final receivers
are given on the way is listed. -/
inductive Since (ok : Config → Prop) : Config → List Parcel → Config → Prop where
  | refl (c : Config) : Since ok c [] c
  | move {c c' c'' : Config} {ps : List Parcel} (h : Since ok c ps c') (hok : ok c')
      (hm : c'.Moves c'') : Since ok c (ps ++ c'.given) c''
  | next {c c' : Config} {ps : List Parcel} (h : Since ok c ps c') (hf : c'.IsFinal) (x : Call) :
      Since ok c ps ⟨c'.world, .call x, []⟩

variable {ok ok' I : Config → Prop} {c c' c'' : Config} {ps ps' : List Parcel}

lemma Since.trans (h : Since ok c ps c') (h' : Since ok c' ps' c'') :
    Since ok c (ps ++ ps') c'' := by
  induction h' with
  | refl => simpa using h
  | move _ hok hm ih =>
    rw [← List.append_assoc]
    exact ih.move hok hm
  | next _ hf x ih => exact ih.next hf x

lemma Since.mono (h : Since ok c ps c') (himp : ∀ d, ok d → ok' d) : Since ok' c ps c' := by
  induction h with
  | refl => exact .refl c
  | move _ hok hm ih => exact ih.move (himp _ hok) hm
  | next _ hf x ih => exact ih.next hf x

/-- What all that is given satisfies, what each move gives does. -/
lemma Since.giving {P : Parcel → Prop} (h : Since ok c ps c') (hps : ∀ g ∈ ps, P g) :
    Since (fun d => ok d ∧ ∀ g ∈ d.given, P g) c ps c' := by
  induction h with
  | refl => exact .refl c
  | move _ hok hm ih =>
    obtain ⟨hbefore, hgiven⟩ := List.forall_mem_append.1 hps
    exact (ih hbefore).move ⟨hok, hgiven⟩ hm
  | next _ hf x ih => exact (ih hps).next hf x

/-- A number of moves of the machine, each from a configuration that satisfies the predicate. -/
lemma since_run (n : Nat) (c : Config) (hok : ∀ k < n, ok (c.run k)) :
    Since ok c (c.gifts n) (c.run n) := by
  induction n generalizing c with
  | zero => exact .refl c
  | succ n ih =>
    cases hc : c.next with
    | none =>
      rw [run_of_isFinal hc]
      simpa [gifts, hc] using Since.refl c
    | some d =>
      have hrest : ∀ k < n, ok (d.run k) := by
        intro k hk
        have := hok (k + 1) (by omega)
        rwa [run_succ_of_moves k hc] at this
      rw [run_succ_of_moves n hc]
      simpa [gifts, hc] using ((Since.refl c).move (hok 0 (by omega)) hc).trans (ih d hrest)

/-- What moves keep and calls do not disturb holds all along a run. -/
lemma Since.keeps (h : Since ok c ps c') (hc : I c)
    (hmove : ∀ d d', I d → ok d → d.Moves d' → I d')
    (hnext : ∀ d x, I d → d.IsFinal → I ⟨d.world, .call x, []⟩) : I c' := by
  induction h with
  | refl => exact hc
  | move _ hok hm ih => exact hmove _ _ ih hok hm
  | next _ hf x ih => exact hnext _ x ih hf

end Handoff.Config
