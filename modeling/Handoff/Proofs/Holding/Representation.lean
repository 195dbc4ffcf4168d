import Handoff.Proofs.Holding.Rounds
import Handoff.Proofs.Separation.Independence
import Mathlib.Tactic.IntervalCases

/-!
# What operations hold

A host connects senders without scripts, to final receivers that connect none, and makes any calls.
Whatever they come to, each binding operation that is alive afterwards holds what its `Cleanup`
says. What the host has connected at a vacant place goes on to be one line of operations, with a
leaf that is still to complete, until the place is cleared or its final receiver is completed.
-/

namespace Handoff.World

open Machine
open Config (Leads)

/-- A configuration comes up while a host makes calls, one after another. -/
inductive Visits : World → List Call → Config → Prop where
  | now {w : World} {c : Call} {cs : List Call} {d : Config}
      (h : Config.Reaches ⟨w, .call c, []⟩ d) : Visits w (c :: cs) d
  | later {w : World} {c : Call} {cs : List Call} {e d : Config}
      (h : Config.Reaches ⟨w, .call c, []⟩ e) (he : e.IsFinal) (h' : Visits e.world cs d) :
      Visits w (c :: cs) d

variable {w w' : World} {c : Call} {cs : List Call} {os : List Outcome} {ps : List Parcel}

/-- A call that comes to an end leaves an orderly world, and what was live at a place still is,
unless the place was cleared or the final receiver completed. -/
lemma Orderly.call {e : Config} (hw : w.Orderly) (hc : c.Unscripted)
    (h : Leads ⟨w, .call c, []⟩ ps e) (he : e.IsFinal) :
    e.world.Orderly ∧
      ∀ p r, (∀ d, Config.Reaches ⟨w, .call c, []⟩ d → d.control ≠ .call (.clear p)) →
        (∀ g ∈ ps, g.1 ≠ r) → w.Live (.place p) r → e.world.Live (.place p) r := by
  have hpoised : Config.Poised ⟨w, .call c, []⟩ := ⟨hw, hc, by simp⟩
  obtain ⟨hpoised', hsustains⟩ := hpoised.sustains h he
  have hdue : e.control.due = none := by
    obtain ⟨w', control, K⟩ := e
    cases control with
    | done _ => rfl
    | raised _ => rfl
    | _ => simp [Config.IsFinal, Config.next] at he
  refine ⟨hpoised'.world, fun p r hclear hgiven hlive => ?_⟩
  obtain hattends | ⟨g, hg, hr⟩ := hsustains p r hclear (.inl hlive)
  · exact hattends.live hdue
  · exact absurd hr (hgiven g hg)

lemma Orderly.runs (hw : w.Orderly) (hcs : ∀ c ∈ cs, c.Unscripted) (h : w.Runs cs os ps w') :
    w'.Orderly ∧
      ∀ p r, (∀ d, w.Visits cs d → d.control ≠ .call (.clear p)) → (∀ g ∈ ps, g.1 ≠ r) →
        w.Live (.place p) r → w'.Live (.place p) r := by
  induction h with
  | nil w => exact ⟨hw, fun _ _ _ _ hlive => hlive⟩
  | cons hleads he _ ih =>
    obtain ⟨hc, hcs⟩ := List.forall_mem_cons.1 hcs
    obtain ⟨hfirst, hlive⟩ := hw.call hc hleads he
    obtain ⟨hlast, hlive'⟩ := ih hfirst hcs
    refine ⟨hlast, fun p r hclear hgiven h => ?_⟩
    obtain ⟨hgiven, hgiven'⟩ := List.forall_mem_append.1 hgiven
    exact hlive' p r (fun d hd => hclear d (.later hleads.reaches he hd)) hgiven'
      (hlive p r (fun d hd => hclear d (.now hd)) hgiven h)

/-- What a connect leaves at a vacant place is live, whether the connect has failed or not. One that
has not failed leaves something. -/
lemma Orderly.connect {p : Int} {x : Sender} {r : Receiver} {o : Outcome} (hw : w.Orderly)
    (hc : Call.Unscripted (.connect p x r)) (hl : w.layers (.place p) = [])
    (h : w.Runs [.connect p x r] [o] ps w') :
    w'.Live (.place p) r ∨ w'.layers (.place p) = [] ∧ ∃ m, o = .raised m := by
  cases h with
  | cons hleads he hrest =>
    cases hrest
    obtain ⟨ls, m, n, acts, hls, -, hbuilt⟩ :=
      leads_connected (s := .place p) hc.1 hc.2.1 hw (w.nextSerial (.place p)) []
    have hmove : Config.next ⟨w, .call (.connect p x r), []⟩ =
        some ⟨w.after (.place p) [] (w.nextSerial (.place p)) [],
          .connect x r (.place p) 0, []⟩ := by
      simp [Config.next, Machine.call, connectPlace, hl, setLayers_eq_after]
    have hend : (finishOr (w.after (.place p) ls n acts) m []).IsFinal := by cases m <;> rfl
    obtain ⟨-, rfl⟩ := hleads.unique (.quiet hmove rfl (hbuilt [])) he hend
    have hlayers : (w.after (.place p) ls n acts).layers (.place p) = ls := layers_after
    obtain hlive | ⟨hnil, m, rfl⟩ := hls.live hc.1 hc.2.2 hlayers
    · cases m <;> exact .inl hlive
    · exact .inr ⟨hlayers.trans hnil, m, rfl⟩

/-- A host makes any calls, one after another, and connects no scripts. Whatever the calls come to,
each binding operation that is alive afterwards holds what its `Cleanup` says. And if the host has
connected a sender at a vacant place, then from there on all operations of the place are live, as
long as the final receiver is not completed nor the place cleared, be it by the host or by another
final receiver: they are one line, each with its receiver and in the state that the next one
expects, and the leaf in the end is still to complete. Only a connect that has raised a payload may
have left nothing at the place. -/
theorem operations_fit (h : ({} : World).Runs cs os ps w) (hcs : ∀ c ∈ cs, c.Unscripted) :
    (∀ s base b rest, w.layers s = base ++ .bind b :: rest → b.Fits rest) ∧
    ∀ cs₀ os₀ ps₀ w₀ p x r o₁ ps₁ w₁ cs₂ os₂ ps₂, cs = cs₀ ++ .connect p x r :: cs₂ →
      ({} : World).Runs cs₀ os₀ ps₀ w₀ → w₀.layers (.place p) = [] →
      w₀.Runs [.connect p x r] [o₁] ps₁ w₁ → w₁.Runs cs₂ os₂ ps₂ w →
      (∀ d, w₁.Visits cs₂ d → d.control ≠ .call (.clear p)) → (∀ g ∈ ps₂, g.1 ≠ r) →
      w.Live (.place p) r ∨ w₁.layers (.place p) = [] ∧ ∃ m, o₁ = .raised m := by
  refine ⟨fun s base b rest hl => ?_, ?_⟩
  · have hw : w.Orderly := (orderly_empty.runs hcs h).1
    have hfits := hw.fitting s
    rw [hl] at hfits
    exact hfits.fits
  · intro cs₀ os₀ ps₀ w₀ p x r o₁ ps₁ w₁ cs₂ os₂ ps₂ hsplit h₀ hvacant h₁ h₂ hclear hgiven
    subst hsplit
    obtain ⟨hcs₀, hcs'⟩ := List.forall_mem_append.1 hcs
    obtain ⟨hc, hcs₂⟩ := List.forall_mem_cons.1 hcs'
    have hw₀ : w₀.Orderly := (orderly_empty.runs hcs₀ h₀).1
    have hw₁ : w₁.Orderly := (hw₀.runs (by simpa using hc) h₁).1
    exact (hw₀.connect hc hvacant h₁).imp_left ((hw₁.runs hcs₂ h₂).2 p r hclear hgiven)

/-- What comes up while a host makes a call that ends in a number of moves, and further calls. -/
lemma Visits.of_run {d : Config} (h : w.Visits (c :: cs) d) (n : Nat)
    (hf : (Config.run n ⟨w, .call c, []⟩).IsFinal) :
    (∃ k ≤ n, Config.run k ⟨w, .call c, []⟩ = d) ∨
      (Config.run n ⟨w, .call c, []⟩).world.Visits cs d := by
  have hrun {e : Config} (he : Config.Reaches ⟨w, .call c, []⟩ e) :
      ∃ k ≤ n, Config.run k ⟨w, .call c, []⟩ = e := by
    obtain ⟨k, rfl⟩ := Config.reaches_iff.1 he
    by_cases hk : k ≤ n
    · exact ⟨k, hk, rfl⟩
    · obtain ⟨j, rfl⟩ := Nat.exists_eq_add_of_le (Nat.le_of_not_le hk)
      exact ⟨n, le_refl n, by rw [Config.run_add, Config.run_of_isFinal hf]⟩
  cases h with
  | now h => exact .inl (hrun h)
  | later h he h' =>
    obtain ⟨k, hk, rfl⟩ := hrun h
    obtain ⟨j, rfl⟩ := Nat.exists_eq_add_of_le hk
    rw [Config.run_add, Config.run_of_isFinal he]
    exact .inr h'

/-- A binding of two leaves, both of which complete from a task, and a final receiver for it. -/
def relay : Sender × Receiver :=
  (.bind (.leaf { label := "pred", completion := .value { n := 1 }, deferred := true })
    { label := some "f", call := fun env => { env } }
    fun _ => .leaf { label := "succ", completion := .value { n := 2 }, deferred := true },
    .recorder (.place 0) none)

/-- The binding is connected. -/
def relayConnect : Config := .run 4 ⟨{}, .call (.connect 0 relay.1 relay.2), []⟩

/-- The binding is started. -/
def relayStart (n : Nat) : Config := .run n ⟨relayConnect.world, .call (.start 0), []⟩

/-- The first leaf completes, and the second is started. -/
def relayTick (n : Nat) : Config := .run n ⟨(relayStart 3).world, .call .tick, []⟩

lemma relay_uncleared {d : Config} (h : relayConnect.world.Visits [.start 0, .tick] d) :
    d.control ≠ .call (.clear 0) := by
  obtain ⟨k, hk, rfl⟩ | h := h.of_run 3 rfl
  · interval_cases k <;> exact nofun
  obtain ⟨k, hk, rfl⟩ | h := h.of_run 8 rfl
  · interval_cases k <;> exact nofun
  · cases h

theorem operations_fit_relay :
    ∃ b l, (relayTick 8).world.layers (.place 0) = [.bind b, l] ∧ b.cleanup = .successor ∧
      b.Fits [l] ∧ (relayTick 8).world.Live (.place 0) relay.2 := by
  have hconnect : ({} : World).Runs [.connect 0 relay.1 relay.2] _ _ relayConnect.world :=
    .cons (Config.leads_run 4 _) rfl (.nil _)
  have hrest : relayConnect.world.Runs [.start 0, .tick] _ [] (relayTick 8).world :=
    .cons (Config.leads_run 3 _) rfl (.cons (Config.leads_run 8 _) rfl (.nil _))
  have hunscripted : ∀ c ∈ [Call.connect 0 relay.1 relay.2, .start 0, .tick], c.Unscripted := by
    simpa [Call.Unscripted, relay] using ⟨⟨trivial, fun _ => trivial⟩, trivial, rfl, rfl⟩
  obtain ⟨hfits, hlive⟩ := operations_fit (hconnect.append hrest) hunscripted
  refine ⟨_, _, rfl, rfl, hfits (.place 0) [] _ _ rfl, ?_⟩
  obtain hlive | ⟨hnil, -⟩ := hlive [] _ _ {} 0 relay.1 relay.2 _ _ relayConnect.world _ _ _ rfl
    (.nil _) rfl hconnect hrest (fun d => relay_uncleared) (by simp)
  · exact hlive
  · cases hnil

end Handoff.World
