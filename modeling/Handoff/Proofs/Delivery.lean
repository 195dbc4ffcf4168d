import Handoff.Program
import Mathlib.Tactic.Common

/-!
# What final receivers are given

`Config.Leads` is `Config.Reaches` with a record of the completions that final receivers, those
that are no handles, are given on the way. A course of moves that gives them nothing has the empty
record. What a machine is led to does not depend on how the way is cut into pieces.
-/

namespace Handoff

/-- A completion on its way to a final receiver. -/
abbrev Parcel := Receiver × Completion Value Failure

namespace Config

/-- What the next move gives to a final receiver. -/
def given (c : Config) : List Parcel :=
  match c.control with
  | .complete r v => if r.isChild then [] else [(r, v)]
  | _ => []

/-- Any number of moves leads from a configuration to another, and on the way final receivers are
given the completions listed, in order. -/
inductive Leads : Config → List Parcel → Config → Prop where
  | refl (c : Config) : Leads c [] c
  | step {c c' c'' : Config} {ps : List Parcel} (h : c.Moves c') (h' : Leads c' ps c'') :
      Leads c (c.given ++ ps) c''

variable {c c' c'' : Config} {ps ps' : List Parcel}

lemma Leads.trans (h : c.Leads ps c') (h' : c'.Leads ps' c'') : c.Leads (ps ++ ps') c'' := by
  induction h with
  | refl => exact h'
  | step h _ ih =>
    rw [List.append_assoc]
    exact .step h (ih h')

/-- A move that gives nothing to a final receiver. -/
lemma Leads.quiet {d : Config} (h : c.next = some d) (hg : c.given = []) (h' : d.Leads ps c') :
    c.Leads ps c' := by
  have := Leads.step h h'
  rwa [hg] at this

lemma Leads.give {w : World} {r : Receiver} {v : Completion Value Failure} {K : List Frame}
    (hr : r.isChild = false) (h' : (Machine.complete w r v K).Leads ps c') :
    Leads ⟨w, .complete r v, K⟩ ((r, v) :: ps) c' := by
  have := Leads.step (c := ⟨w, .complete r v, K⟩) rfl h'
  simpa [given, hr] using this

lemma Leads.append_quiet (h : c.Leads ps c') (h' : c'.Leads [] c'') : c.Leads ps c'' := by
  simpa using h.trans h'

lemma Reaches.exists_leads (h : c.Reaches c') : ∃ ps, c.Leads ps c' := by
  induction h with
  | refl c => exact ⟨[], .refl c⟩
  | step h _ ih =>
    obtain ⟨ps, hps⟩ := ih
    exact ⟨_, .step h hps⟩

lemma Leads.reaches (h : c.Leads ps c') : c.Reaches c' := by
  induction h with
  | refl c => exact .refl c
  | step h _ ih => exact .step h ih

/-- A machine is led to one end only, and gives the same on the way there. -/
lemma Leads.unique (h : c.Leads ps c') (h' : c.Leads ps' c'') (hc' : c'.IsFinal)
    (hc'' : c''.IsFinal) : ps = ps' ∧ c' = c'' := by
  induction h generalizing ps' with
  | refl c =>
    cases h' with
    | refl => exact ⟨rfl, rfl⟩
    | step h _ => exact absurd (h.symm.trans hc') (by simp)
  | step h _ ih =>
    cases h' with
    | refl => exact absurd (h.symm.trans hc'') (by simp)
    | step h₂ h₂' =>
      obtain rfl := h.unique h₂
      obtain ⟨rfl, rfl⟩ := ih h₂' hc'
      exact ⟨rfl, rfl⟩

end Config

/-- A host makes calls one after another. Each comes to an end; the outcomes are listed, and so is
what final receivers are given on the way. -/
inductive World.Runs : World → List Call → List Outcome → List Parcel → World → Prop where
  | nil (w : World) : Runs w [] [] [] w
  | cons {w w' : World} {c : Call} {cs : List Call} {os : List Outcome} {ps ps' : List Parcel}
      {final : Config} (h : Config.Leads ⟨w, .call c, []⟩ ps final) (hf : final.IsFinal)
      (h' : Runs final.world cs os ps' w') :
      Runs w (c :: cs) (final.outcome :: os) (ps ++ ps') w'

namespace World

variable {w w' w'' : World}

lemma Runs.append {cs cs' : List Call} {os os' : List Outcome} {ps ps' : List Parcel}
    (h : w.Runs cs os ps w') (h' : w'.Runs cs' os' ps' w'') :
    w.Runs (cs ++ cs') (os ++ os') (ps ++ ps') w'' := by
  induction h with
  | nil => exact h'
  | cons h hf _ ih =>
    rw [List.append_assoc]
    exact .cons h hf (ih h')

/-- How a call ends that returns or raises a payload. -/
def ended (raised : Option Payload) : Outcome := raised.elim (.answered .nothing) .raised

lemma Runs.of_leads {c : Call} {ps : List Parcel} {raised : Option Payload}
    (h : Config.Leads ⟨w, .call c, []⟩ ps (Machine.finishOr w' raised [])) :
    w.Runs [c] [ended raised] ps w' := by
  have hruns : w.Runs [c] [ended raised] (ps ++ []) w' := by
    cases raised with
    | none => exact .cons h rfl (.nil w')
    | some p => exact .cons h rfl (.nil w')
  rwa [List.append_nil] at hruns

end World

end Handoff
