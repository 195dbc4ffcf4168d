import Handoff.Proofs.Lifetime.Moves

/-!
# Destruction

A host makes any calls, one after another, and each may run any code of senders and receivers.
`Config.Arises` are the configurations that come up on the way. The main statement is that clearing
a place, at whatever moment, leaves nothing behind: each operation ever built there and each value
ever stored there has gone exactly once, and all has gone in order.
-/

namespace Handoff

open Ledger (Takes Orderly)

/-- A configuration that comes up when a host makes calls one after another, from an empty world. -/
inductive Config.Arises : Config → Prop where
  | first (x : Call) : Arises ⟨{}, .call x, []⟩
  | move {c c' : Config} (h : Arises c) (hm : c.Moves c') : Arises c'
  /-- The next call is made when the one before has come to its end. -/
  | next {c : Config} (h : Arises c) (hf : c.IsFinal) (x : Call) : Arises ⟨c.world, .call x, []⟩

namespace Config

lemma Arises.run {c : Config} (h : c.Arises) (n : Nat) : (c.run n).Arises := by
  induction n generalizing c with
  | zero => exact h
  | succ n ih =>
    cases hc : c.next with
    | none => rwa [run_of_isFinal hc]
    | some c' =>
      rw [run_succ_of_moves n hc]
      exact ih (h.move hc)

/-- The record of a numbered place can be booked from the beginning. -/
def Booked (w : World) : Prop :=
  ∀ p, Takes {} (w.actsAt (.place p)) (w.place (.place p)).ledger

lemma booked_of_turns {w w' : World} (h : Booked w) (hw : w.Sound) (hturns : w.Turns w') :
    Booked w' := by
  intro p
  obtain ⟨acts, hacts, htakes⟩ := hturns p
  rw [hacts]
  exact (h p).append (htakes (hw p)).2

/-- At all times places are sound and their records booked. -/
lemma Arises.booked {c : Config} (h : c.Arises) : c.world.Sound ∧ Booked c.world ∧ c.Steady := by
  induction h with
  | first x =>
    refine ⟨fun p => ⟨?_, ?_, ?_⟩, fun p => .nil _, trivial⟩ <;> simp [World.place]
  | move _ hm ih =>
    obtain ⟨hsound, hbooked, hsteady⟩ := ih
    obtain ⟨hturns, hsteady'⟩ := keeps_next hm hsound hsteady
    exact ⟨hturns.sound hsound, booked_of_turns hbooked hsound hturns, hsteady'⟩
  | next _ _ x ih => exact ⟨ih.1, ih.2.1, trivial⟩

/-- What ever came into being at a numbered place has gone, each operation and each value once, and
all in order. -/
def Accounted (w : World) (p : Int) : Prop :=
  let acts := w.actsAt (.place p)
  (∀ k, acts.count (.closed k) = acts.countP (Act.opens k) ∧ acts.countP (Act.opens k) ≤ 1) ∧
  (∀ k, acts.count (.released k) = acts.count (.stored k) ∧ acts.count (.stored k) ≤ 1) ∧
  Orderly acts

/-- Once no operation is left at a place, all that was booked there is accounted for. -/
lemma accounted_of_booked {w : World} (h : Booked w) {p : Int} (hl : w.layers (.place p) = []) :
    Accounted w p := by
  have haudit : Ledger.Audit (w.actsAt (.place p)) (w.place (.place p)).ledger := by
    simpa using Ledger.audit_nil.takes (h p)
  have hlives : (w.place (.place p)).ledger.lives = [] := by
    simpa [Place.ledger, World.layers] using hl
  refine ⟨fun k => ⟨haudit.births.count_closed_of_empty hlives k, ?_⟩, fun k => ⟨?_, ?_⟩,
    (h p).orderly⟩
  · rw [haudit.births.countP_opens]
    split_ifs <;> omega
  · have := haudit.values.count_stored k
    simpa [Ledger.keeps, hlives] using this.symm
  · exact haudit.values.count_stored_le k

lemma Arises.accounted {c : Config} (h : c.Arises) {p : Int}
    (hl : c.world.layers (.place p) = []) : Accounted c.world p :=
  accounted_of_booked h.booked.2.1 hl

lemma Arises.exists_clear {w : World} {p : Int} {K : List Frame}
    (h : Arises ⟨w, .call (.clear p), K⟩) :
    ∃ w' control, Moves ⟨w, .call (.clear p), K⟩ ⟨w', control, K⟩ ∧
      ((∃ r, control = .done r) ∨ ∃ m, control = .raised m) ∧
      w'.layers (.place p) = [] ∧ Accounted w' p := by
  cases hq : w.places.get? (.place p) with
  | none =>
    have hm : Moves ⟨w, .call (.clear p), K⟩ ⟨w, .done (.refused "no such place"), K⟩ := by
      simp [Moves, Config.next, Machine.call, Machine.withPlace, hq, Machine.refuse]
    have hl : w.layers (.place p) = [] := by simp [World.layers, World.place, hq]
    exact ⟨w, _, hm, .inl ⟨_, rfl⟩, hl, (h.move hm).accounted hl⟩
  | some q =>
    set d := w.dropAbove (.place p) 0 false with hd
    have hl : d.1.layers (.place p) = [] := by simp [hd, World.layers_dropAbove]
    cases hr : d.2 with
    | none =>
      have hm : Moves ⟨w, .call (.clear p), K⟩ ⟨d.1, .done .nothing, K⟩ := by
        simp [Moves, Config.next, Machine.call, Machine.withPlace, hq, ← hd, hr, Machine.finish]
      exact ⟨d.1, _, hm, .inl ⟨_, rfl⟩, hl, (h.move hm).accounted hl⟩
    | some m =>
      have hm : Moves ⟨w, .call (.clear p), K⟩ ⟨d.1, .raised m, K⟩ := by
        simp [Moves, Config.next, Machine.call, Machine.withPlace, hq, ← hd, hr]
      exact ⟨d.1, _, hm, .inr ⟨_, rfl⟩, hl, (h.move hm).accounted hl⟩

/-- Clearing a place, whatever was called before and whatever is still under way, returns or raises
a payload to its caller in one move. Afterwards the place is vacant; each operation that was ever
built there is gone, and has gone only once; and so has each value that was ever stored there. All
of it came and went in order. -/
theorem clear_destroys {w : World} {p : Int} {K : List Frame}
    (h : Arises ⟨w, .call (.clear p), K⟩) :
    ∃ w' control, Moves ⟨w, .call (.clear p), K⟩ ⟨w', control, K⟩ ∧
      ((∃ r, control = .done r) ∨ ∃ m, control = .raised m) ∧
      w'.layers (.place p) = [] ∧
      let acts := w'.actsAt (.place p)
      (∀ k, acts.count (.closed k) = acts.countP (Act.opens k) ∧ acts.countP (Act.opens k) ≤ 1) ∧
      (∀ k, acts.count (.released k) = acts.count (.stored k) ∧ acts.count (.stored k) ≤ 1) ∧
      Orderly acts :=
  h.exists_clear

/-- A binding of an inline value to a factory that builds an inline completion with done. -/
def smallSender : Sender :=
  .bind (.ready (.value { n := 1 })) { call := fun env => { env } } fun _ => .ready .done

/-- The world in which such a sender was connected and started. -/
def smallWorld : World :=
  let connected := run 10 ⟨{}, .call (.connect 0 smallSender (.recorder (.place 0) none)), []⟩
  (run 20 ⟨connected.world, .call (.start 0), []⟩).world

theorem clear_destroys_small :
    (smallWorld.actsAt (.place 0)).count (.stored 0) = 1 ∧
    ∃ w' control, Moves ⟨smallWorld, .call (.clear 0), []⟩ ⟨w', control, []⟩ ∧
      ((∃ r, control = .done r) ∨ ∃ m, control = .raised m) ∧
      w'.layers (.place 0) = [] ∧
      let acts := w'.actsAt (.place 0)
      (∀ k, acts.count (.closed k) = acts.countP (Act.opens k) ∧ acts.countP (Act.opens k) ≤ 1) ∧
      (∀ k, acts.count (.released k) = acts.count (.stored k) ∧ acts.count (.stored k) ≤ 1) ∧
      Orderly acts := by
  refine ⟨rfl, clear_destroys ?_⟩
  have hconnect := (Arises.first (.connect 0 smallSender (.recorder (.place 0) none))).run 10
  have hstart := (hconnect.next rfl (.start 0)).run 20
  exact hstart.next rfl (.clear 0)

end Config

end Handoff
