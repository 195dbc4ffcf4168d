import Handoff.Machine.Call
import Handoff.Machine.Connect
import Handoff.Machine.Follow
import Handoff.Machine.Return
import Handoff.Machine.Start

/-!
# The machine

`Config.next` makes one move of the machine; it has none where the control has returned or raised a
payload and the stack is empty. `Config.run` makes a number of moves, and `Config.Moves` is one move
as a relation, `Config.Reaches` any number of them.
-/

namespace Handoff.Config

/-- One move of the machine, unless it has come to its end. -/
def next : Config → Option Config
  | ⟨_, .done _, []⟩ => none
  | ⟨_, .raised _, []⟩ => none
  | ⟨w, .done r, f :: K⟩ => some (Machine.resume w r f K)
  | ⟨w, .raised p, f :: K⟩ => some (Machine.unwind w p f K)
  | ⟨w, .connect s r site h, K⟩ => some (Machine.connect w s r site h K)
  | ⟨w, .start site h, K⟩ => some (Machine.start w site h K)
  | ⟨w, .complete r c, K⟩ => some (Machine.complete w r c K)
  | ⟨w, .build site h, K⟩ => some (Machine.build w site h K)
  | ⟨w, .react home label actions, K⟩ => some (Machine.react w home label actions K)
  | ⟨w, .follow r steps, K⟩ => some (Machine.follow w r steps K)
  | ⟨w, .call c, K⟩ => some (Machine.call w c K)
  | ⟨w, .task t, K⟩ => some (Machine.runTask w t K)

/-- Make at most the given number of moves. -/
def run : Nat → Config → Config
  | 0, c => c
  | n + 1, c =>
    match c.next with
    | none => c
    | some c' => run n c'

/-- One move leads from a configuration to another. -/
def Moves (c c' : Config) : Prop := c.next = some c'

/-- Any number of moves leads from a configuration to another. -/
inductive Reaches : Config → Config → Prop where
  | refl (c : Config) : Reaches c c
  | step {c c' c'' : Config} (h : c.Moves c') (h' : Reaches c' c'') : Reaches c c''

/-- A machine that has returned or raised with an empty stack is at its end. -/
def IsFinal (c : Config) : Prop := c.next = none

variable {c c' c'' : Config}

@[simp] theorem run_zero : c.run 0 = c := rfl

theorem run_succ_of_moves (n : Nat) (h : c.Moves c') : c.run (n + 1) = c'.run n := by
  have h : c.next = some c' := h
  simp [run, h]

theorem run_of_isFinal (h : c.IsFinal) (n : Nat) : c.run n = c := by
  have h : c.next = none := h
  cases n with
  | zero => rfl
  | succ n => simp [run, h]

theorem run_add (m n : Nat) (c : Config) : c.run (m + n) = (c.run m).run n := by
  induction m generalizing c with
  | zero => simp
  | succ m ih =>
    rw [Nat.succ_add]
    cases h : c.next with
    | none => rw [run_of_isFinal h, run_of_isFinal h, run_of_isFinal h]
    | some c' => rw [run_succ_of_moves _ h, run_succ_of_moves _ h, ih]

theorem Reaches.trans (h : c.Reaches c') (h' : c'.Reaches c'') : c.Reaches c'' := by
  induction h with
  | refl => exact h'
  | step h _ ih => exact .step h (ih h')

theorem reaches_run (n : Nat) (c : Config) : c.Reaches (c.run n) := by
  induction n generalizing c with
  | zero => exact .refl c
  | succ n ih =>
    cases h : c.next with
    | none => rw [run_of_isFinal h]; exact .refl c
    | some c' => rw [run_succ_of_moves n h]; exact .step h (ih c')

/-- What a machine reaches is what it has become after a number of moves. -/
theorem reaches_iff : c.Reaches c' ↔ ∃ n, c.run n = c' := by
  constructor
  · intro h
    induction h with
    | refl c => exact ⟨0, rfl⟩
    | step h _ ih =>
      obtain ⟨n, hn⟩ := ih
      exact ⟨n + 1, (run_succ_of_moves n h).trans hn⟩
  · rintro ⟨n, rfl⟩
    exact reaches_run n c

/-- Moves are determined by where they start. -/
theorem Moves.unique (h : c.Moves c') (h' : c.Moves c'') : c' = c'' :=
  Option.some.inj (h.symm.trans h')

end Handoff.Config
