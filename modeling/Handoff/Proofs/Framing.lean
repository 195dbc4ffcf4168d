import Handoff.Machine
import Mathlib.Tactic.Common

/-!
# What is below on the stack

A machine looks at the frames that it has put on the stack, and at nothing below. A move that it
makes it makes on top of any other stack as well, which is `Config.Moves.onto`.
-/

namespace Handoff

/-- A machine on top of a stack. -/
def Config.onto (c : Config) (L : List Frame) : Config := { c with stack := c.stack ++ L }

namespace Machine

variable (w : World) (s : Site) (h : Nat) (K L : List Frame)

@[simp] lemma onto_mk (x : Control) : Config.onto ⟨w, x, K⟩ L = ⟨w, x, K ++ L⟩ := rfl

@[simp] lemma onto_fault (f : Fault) : (fault w f K).onto L = fault w f (K ++ L) := rfl

@[simp] lemma onto_finish : (finish w K).onto L = finish w (K ++ L) := rfl

@[simp] lemma onto_finishOr (m : Option Payload) :
    (finishOr w m K).onto L = finishOr w m (K ++ L) := by
  cases m <;> rfl

@[simp] lemma onto_pass (b : Binding) (v : Completion Value Failure) :
    (pass w s h b v K).onto L = pass w s h b v (K ++ L) := by
  unfold pass
  split <;> rfl

@[simp] lemma onto_connectLeaf (make : Nat → Layer) (m : Option Payload) :
    (connectLeaf w s h make m K).onto L = connectLeaf w s h make m (K ++ L) := by
  unfold connectLeaf
  split <;> simp

lemma onto_connect (x : Sender) (r : Receiver) :
    (connect w x r s h K).onto L = connect w x r s h (K ++ L) := by
  unfold connect connectScript
  cases x with
  | exploding built => cases built <;> simp
  | script y => cases hy : y.connecting <;> simp [hy]
  | either which x =>
    dsimp only
    split <;> simp
  | bind p f next =>
    dsimp only
    split <;> simp
  | _ => simp

lemma onto_start : (start w s h K).onto L = start w s h (K ++ L) := by
  unfold start startLeaf
  split <;> try rfl
  · dsimp only
    split_ifs <;> rfl
  · dsimp only
    split_ifs <;> rfl

lemma onto_complete (r : Receiver) (v : Completion Value Failure) :
    (complete w r v K).onto L = complete w r v (K ++ L) := by
  cases r with
  | child role s h =>
    simp only [complete]
    split
    · rfl
    · split_ifs
      · cases role <;> cases v <;> simp [receive, accept]
      · rfl
  | waiter id =>
    simp only [complete, completeWaiter]
    split_ifs <;> rfl
  | _ => rfl

lemma onto_build : (build w s h K).onto L = build w s h (K ++ L) := by
  unfold build
  split
  · rfl
  · split
    · rfl
    · dsimp only
      split <;> rfl

lemma onto_react (label : String) (actions : List Action) :
    (react w s label actions K).onto L = react w s label actions (K ++ L) := by
  unfold react
  split <;> rfl

@[simp] lemma onto_deliver (r : Run) (d : Delivery) (frame : Run → Frame) :
    (deliver w r d frame K).onto L = deliver w r d frame (K ++ L) := by
  unfold deliver
  dsimp only
  split <;> rfl

lemma onto_instruct (r : Run) (i : Instr) (rest : List Instr) :
    (instruct w r i rest K).onto L = instruct w r i rest (K ++ L) := by
  cases i with
  | stopDone =>
    simp only [instruct]
    split_ifs <;> simp
  | _ => simp [instruct]

lemma onto_follow (r : Run) (steps : List Instr) :
    (follow w r steps K).onto L = follow w r steps (K ++ L) := by
  cases steps with
  | nil => rfl
  | cons i rest =>
    simp only [follow]
    split_ifs
    · exact onto_instruct ..
    · cases i <;> rfl

lemma onto_call (c : Call) : (call w c K).onto L = call w c (K ++ L) := by
  cases c with
  | connect p x r =>
    simp only [call, connectPlace]
    split
    · rfl
    · split_ifs <;> rfl
  | start p =>
    simp only [call, withPlace]
    split <;> rfl
  | clear p =>
    simp only [call, withPlace]
    split <;> simp [refuse]
  | tick =>
    simp only [call]
    split <;> rfl
  | drain =>
    simp only [call]
    split <;> rfl
  | _ => rfl

lemma onto_runTask (t : Task) : (runTask w t K).onto L = runTask w t (K ++ L) := by
  cases t with
  | complete v r => rfl
  | resume r steps =>
    simp only [runTask]
    split_ifs <;> rfl
  | job j =>
    cases j
    simp [runTask]

@[simp] lemma onto_release (x : Received (Completion Value Failure)) :
    (release w x K).onto L = release w x (K ++ L) := by
  cases x with
  | canceled => rfl
  | sent v =>
    simp only [release]
    split <;> rfl

lemma onto_resume (a : Reply) (f : Frame) : (resume w a f K).onto L = resume w a f (K ++ L) := by
  cases f with
  | handoff s h =>
    simp only [resume]
    split <;> rfl
  | thenRaise m => simp [resume]
  | waitDrained =>
    simp only [resume, abandon]
    split <;> simp
  | waitOver =>
    simp only [resume, unblock]
    split <;> simp
  | _ => rfl

lemma onto_unwind (m : Payload) (f : Frame) : (unwind w m f K).onto L = unwind w m f (K ++ L) := by
  cases f with
  | handoff s h =>
    simp only [unwind]
    split <;> simp
  | _ => rfl

end Machine

namespace Config

variable {c d : Config}

open Machine

lemma next_onto (h : c.next = some d) (L : List Frame) : (c.onto L).next = some (d.onto L) := by
  obtain ⟨w, x, K⟩ := c
  cases x with
  | done a =>
    cases K with
    | nil => cases h
    | cons f K =>
      obtain rfl := Option.some.inj h
      exact congrArg some (onto_resume ..).symm
  | raised m =>
    cases K with
    | nil => cases h
    | cons f K =>
      obtain rfl := Option.some.inj h
      exact congrArg some (onto_unwind ..).symm
  | connect x r s i =>
    obtain rfl := Option.some.inj h
    exact congrArg some (onto_connect ..).symm
  | start s i =>
    obtain rfl := Option.some.inj h
    exact congrArg some (onto_start ..).symm
  | complete r v =>
    obtain rfl := Option.some.inj h
    exact congrArg some (onto_complete ..).symm
  | build s i =>
    obtain rfl := Option.some.inj h
    exact congrArg some (onto_build ..).symm
  | react s label actions =>
    obtain rfl := Option.some.inj h
    exact congrArg some (onto_react ..).symm
  | follow r steps =>
    obtain rfl := Option.some.inj h
    exact congrArg some (onto_follow ..).symm
  | call c =>
    obtain rfl := Option.some.inj h
    exact congrArg some (onto_call ..).symm
  | task t =>
    obtain rfl := Option.some.inj h
    exact congrArg some (onto_runTask ..).symm

/-- What a machine does it does on top of any stack. -/
theorem Moves.onto (hm : c.Moves d) (L : List Frame) : (c.onto L).Moves (d.onto L) := next_onto hm L

end Config

end Handoff
