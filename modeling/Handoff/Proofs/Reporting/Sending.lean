import Handoff.Proofs.Reporting.Seats

/-!
# Who completes with an error

A move makes a receiver the next one to be given an error for few reasons: an operation passes an
error of its child on, or catches a payload, a leaf is started or has put its completion off, or a
script completes instead of being connected. `Config.Sends` lists them and `Config.Moves.sends` says
that there are no others.
-/

namespace Handoff

open Machine

namespace Config

/-- Why a receiver is about to be given an error by the next move. -/
inductive Sends (c : Config) (r : Receiver) (f : Failure) : Prop where
  /-- An operation has been given one by its child. -/
  | passed {q : Receiver} {e : Failure} (hc : c.control = .complete q (.error e))
      (hq : q.isChild = true)
  /-- An operation catches a payload amid its handoff. -/
  | caught {m : Payload} {s : Site} {h : Nat} (hc : c.control = .raised m)
      (hK : .handoff s h ∈ c.stack)
  /-- A script completes instead of being connected. -/
  | connecting {x : Script} {s : Site} {h : Nat} {d : Delivery} {m : Option Payload}
      (hc : c.control = .connect (.script x) r s h) (hx : x.connecting = .deliver d m)
  /-- A leaf is started. -/
  | started {s : Site} {h : Nat} {l : Layer} (hc : c.control = .start s h)
      (hl : (c.world.layers s)[h]? = some l) (hr : l.held? = some r)
      (hf : ∀ y : Sender, y.Yields r l → y.Gives (.error f))
  /-- A leaf has put it off. -/
  | due {t : Task} (ht : t ∈ c.underWay) (hr : t.right = some r)
      (hf : ∀ y : Sender, t.StemsFrom y → y.Gives (.error f))

end Config

namespace Machine

open Config (Sends)

variable {w w' : World} {s : Site} {h : Nat} {b : Binding} {r q : Receiver} {role : Role}
  {f : Failure} {v : Completion Value Failure} {K : List Frame} {x : Sender}

lemma eq_error_of_pass (hc : (pass w s h b v K).control = .complete r (.error f)) :
    v = .error f := by
  rw [pass] at hc
  cases hb : b.receiver with
  | none =>
    rw [hb] at hc
    cases hc
  | some q =>
    rw [hb] at hc
    exact (Control.complete.inj hc).2

lemma exists_error_of_receive
    (hc : (receive w role s h b v K).control = .complete r (.error f)) : ∃ e, v = .error e := by
  cases role with
  | successor =>
    have hv := eq_error_of_pass hc
    cases v with
    | error e => exact ⟨e, rfl⟩
    | _ => cases hv
  | predecessor =>
    cases v with
    | error e => exact ⟨e, rfl⟩
    | done => cases eq_error_of_pass hc
    | value v =>
      simp only [receive, accept] at hc
      generalize (World.dropAbove _ s (h + 1) false).2 = raised at hc
      cases raised <;> cases hc

lemma sends_complete (hc : (complete w q v K).control = .complete r (.error f)) :
    Sends ⟨w, .complete q v, K⟩ r f := by
  cases q with
  | child role s h =>
    rw [complete] at hc
    cases hb : w.binding? s h with
    | none =>
      rw [hb] at hc
      cases hc
    | some b =>
      simp only [hb] at hc
      split_ifs at hc
      · obtain ⟨e, rfl⟩ := exists_error_of_receive hc
        exact .passed rfl rfl
      · cases hc
  | waiter id =>
    rw [complete, completeWaiter] at hc
    split_ifs at hc <;> cases hc
  | _ => cases hc

lemma ne_complete_finishOr (m : Option Payload) :
    (finishOr w m K).control ≠ .complete r v := by
  intro hc
  cases m <;> cases hc

lemma ne_complete_connectLeaf (make : Nat → Layer) (m : Option Payload) :
    (connectLeaf w s h make m K).control ≠ .complete r v := by
  intro hc
  rw [connectLeaf] at hc
  generalize w.fill s h make = y at hc
  obtain ⟨w', taken⟩ := y
  cases taken
  · cases hc
  · exact ne_complete_finishOr m hc

lemma sends_connect (hc : (connect w x q s h K).control = .complete r (.error f)) :
    Sends ⟨w, .connect x q s h, K⟩ r f := by
  cases x with
  | ready c => exact absurd hc (ne_complete_connectLeaf _ none)
  | leaf l => exact absurd hc (ne_complete_connectLeaf (w := w.note s _) _ none)
  | exploding built =>
    cases built with
    | none => cases hc
    | some label => exact absurd hc (ne_complete_connectLeaf (w := w.note s _) _ _)
  | script x =>
    cases hx : x.connecting with
    | deliver d m =>
      rw [connect, connectScript, hx] at hc
      obtain ⟨rfl, -⟩ := Control.complete.inj hc
      exact .connecting rfl hx
    | fill =>
      rw [connect, connectScript, hx] at hc
      exact absurd hc (ne_complete_connectLeaf (w := w.note s _) _ none)
    | half m =>
      rw [connect, connectScript, hx] at hc
      exact absurd hc (ne_complete_connectLeaf (w := w.note s _) _ _)
    | raise m =>
      rw [connect, connectScript, hx] at hc
      cases hc
  | either which y =>
    rw [connect] at hc
    generalize w.fill s h (.either · which) = z at hc
    obtain ⟨w', taken⟩ := z
    cases taken <;> cases hc
  | bind y g next =>
    rw [connect] at hc
    generalize World.fill _ s h _ = z at hc
    obtain ⟨w', taken⟩ := z
    cases taken <;> cases hc

/-- A leaf that is started completes with what it holds, unless a stop was requested or it puts that
off. -/
lemma eq_of_startLeaf {l : Leaf}
    (hc : (startLeaf w l q s K).control = .complete r (.error f)) :
    q = r ∧ l.completion = .error f := by
  simp only [startLeaf] at hc
  generalize w.note s _ = w' at hc
  split_ifs at hc
  · cases (Control.complete.inj hc).2
  · cases hc
  · exact Control.complete.inj hc

lemma sends_start (hc : (start w s h K).control = .complete r (.error f)) :
    Sends ⟨w, .start s h, K⟩ r f := by
  rw [start] at hc
  cases hl : (w.layers s)[h]? with
  | none =>
    rw [hl] at hc
    cases hc
  | some l =>
    rw [hl] at hc
    cases l with
    | ready k held =>
      cases held with
      | none => cases hc
      | some held =>
        obtain ⟨v, q⟩ := held
        obtain ⟨rfl, rfl⟩ := Control.complete.inj hc
        exact .started rfl hl rfl fun y hy => hy.gives_ready
    | leaf k l held =>
      cases held with
      | none => cases hc
      | some q =>
        obtain ⟨rfl, hv⟩ := eq_of_startLeaf hc
        exact .started rfl hl rfl fun y hy => hv ▸ hy.gives_leaf
    | script k x held => cases held <;> cases hc
    | either k which => cases hc
    | bind b =>
      simp only at hc
      split_ifs at hc
      all_goals cases hc

lemma sends_follow {run : Run} {steps : List Instr}
    (hc : (follow w run steps K).control = .complete r (.error f)) :
    Sends ⟨w, .follow run steps, K⟩ r f := by
  have hdeliver {v : World} {d : Delivery} {frame : Run → Frame}
      (hspends : Instr.spendsAll steps ≠ 0)
      (hc : (deliver v run d frame K).control = .complete r (.error f)) :
      Sends ⟨w, .follow run steps, K⟩ r f := by
    rw [deliver] at hc
    cases hr : run.receiver with
    | none =>
      rw [hr] at hc
      cases hc
    | some q =>
      rw [hr] at hc
      obtain ⟨rfl, hv⟩ := Control.complete.inj hc
      refine .due (t := .resume run steps) List.mem_cons_self ?_ ?_
      · exact (run.right_eq_receiver hspends).trans hr
      · rintro y ⟨z, rfl⟩
        exact hv ▸ .script z d _ _
  cases steps with
  | nil => cases hc
  | cons i rest =>
    unfold follow at hc
    split_ifs at hc
    · cases i with
      | complete d => exact hdeliver (Nat.succ_ne_zero _) hc
      | attempt d => exact hdeliver (Nat.succ_ne_zero _) hc
      | stopDone =>
        simp only [instruct] at hc
        split_ifs at hc
        exact hdeliver (Nat.ne_of_gt (Nat.le_max_left 1 _)) hc
      | _ => cases hc
    · cases i <;> cases hc

lemma ne_complete_call {z : Call} : (call w z K).control ≠ .complete r v := by
  intro hc
  cases z with
  | connect p y q =>
    rw [call, connectPlace] at hc
    generalize w.layers (.place p) = ls at hc
    cases ls with
    | nil => cases hc
    | cons l rest =>
      simp only at hc
      split_ifs at hc
      cases hc
  | start p =>
    rw [call, withPlace] at hc
    generalize w.places.get? (.place p) = place at hc
    cases place <;> cases hc
  | clear p =>
    simp only [call, withPlace] at hc
    generalize w.places.get? (.place p) = place at hc
    cases place with
    | none => cases hc
    | some place => exact ne_complete_finishOr _ hc
  | tick =>
    rw [call] at hc
    generalize w.queue = q at hc
    cases q <;> cases hc
  | drain =>
    rw [call] at hc
    generalize w.queue = q at hc
    cases q <;> cases hc
  | _ => cases hc

lemma sends_runTask {t : Task} (hc : (runTask w t K).control = .complete r (.error f)) :
    Sends ⟨w, .task t, K⟩ r f := by
  cases t with
  | complete v q =>
    obtain ⟨rfl, rfl⟩ := Control.complete.inj hc
    exact .due (t := .complete (.error f) q) List.mem_cons_self rfl fun y => id
  | resume run steps =>
    rw [runTask] at hc
    split_ifs at hc
    all_goals cases hc
  | job j =>
    obtain ⟨label, spawned, raised⟩ := j
    exact absurd hc (ne_complete_finishOr raised)

lemma ne_complete_build : (build w s h K).control ≠ .complete r v := by
  intro hc
  rw [build] at hc
  cases hb : w.binding? s h with
  | none =>
    rw [hb] at hc
    cases hc
  | some b =>
    cases hf : b.factory with
    | none =>
      simp only [hb, hf] at hc
      cases hc
    | some g =>
      obtain ⟨g, next⟩ := g
      simp only [hb, hf] at hc
      generalize (g.call (b.stored ++ w.scope s h)).raised = raised at hc
      cases raised <;> cases hc

lemma ne_complete_resume {a : Reply} {g : Frame} :
    (resume w a g K).control ≠ .complete r v := by
  intro hc
  cases g with
  | handoff s h =>
    rw [resume] at hc
    generalize w.binding? s h = b at hc
    cases b <;> cases hc
  | thenRaise m => exact ne_complete_finishOr m hc
  | waitDrained =>
    rw [resume, abandon] at hc
    generalize w.given = given at hc
    cases given with
    | none => exact ne_complete_finishOr _ hc
    | some v => cases hc
  | waitOver =>
    rw [resume, unblock] at hc
    generalize w.given = given at hc
    cases given with
    | none => cases hc
    | some v =>
      simp only [release] at hc
      generalize w.dropAbove .wait 0 false = d at hc
      obtain ⟨w', raised⟩ := d
      cases raised <;> cases hc
  | _ => cases hc

end Machine

namespace Config

variable {r : Receiver} {c c' : Config} {f : Failure}

/-- A receiver is about to be given an error for one of these reasons only. -/
theorem Moves.sends (hm : c.Moves c') (hc' : c'.control = .complete r (.error f)) :
    c.Sends r f := by
  obtain ⟨w, control, K⟩ := c
  have hm : Config.next ⟨w, control, K⟩ = some c' := hm
  cases control with
  | done a =>
    cases K with
    | nil => simp [next] at hm
    | cons g K =>
      obtain rfl := Option.some.inj hm
      exact absurd hc' ne_complete_resume
  | raised m =>
    cases K with
    | nil => simp [next] at hm
    | cons g K =>
      obtain rfl := Option.some.inj hm
      cases g with
      | handoff s h => exact .caught rfl List.mem_cons_self
      | _ => cases hc'
  | connect x q s h =>
    obtain rfl := Option.some.inj hm
    exact sends_connect hc'
  | start s h =>
    obtain rfl := Option.some.inj hm
    exact sends_start hc'
  | complete q v =>
    obtain rfl := Option.some.inj hm
    exact sends_complete hc'
  | build s h =>
    obtain rfl := Option.some.inj hm
    exact absurd hc' ne_complete_build
  | react home label actions =>
    obtain rfl := Option.some.inj hm
    cases actions with
    | nil => cases hc'
    | cons a rest => cases a <;> cases hc'
  | follow run steps =>
    obtain rfl := Option.some.inj hm
    exact sends_follow hc'
  | call z =>
    obtain rfl := Option.some.inj hm
    exact absurd hc' ne_complete_call
  | task t =>
    obtain rfl := Option.some.inj hm
    exact sends_runTask hc'

end Config

end Handoff
