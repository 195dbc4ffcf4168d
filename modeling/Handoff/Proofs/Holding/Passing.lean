import Handoff.Proofs.Holding.Strides

/-!
# Completions on their way

A completion that comes to a binding operation is passed on to the receiver of that, begins a
handoff or is lost. What is live stays so: a completion that is under way to the final receiver
either goes on to be, or the handoff has built a successor, with a leaf that is still to complete.
-/

namespace Handoff.Machine

open Config (Strides)
open Layer (Fitting Conveys)
open World (Leaves)

variable {w w' : World} {K K' : List Frame} {s s' : Site} {o : Receiver} {h n : Nat}
  {base rest : List Layer}
  {b b' : Binding} {role : Role} {v : Completion Value Failure} {acts : List Act}

/-- A completion has come to a binding operation of a site. What was live at other sites still is,
and from the operation a line leads on to the final receiver of its own site. -/
def Receiving (w : World) (s : Site) (base : List Layer) (b : Binding) (s' : Site) (o : Receiver) :
    Prop :=
  s' ≠ s ∧ w.Live s' o ∨
    s' = s ∧ o.Ends s ∧ ∃ z r, Conveys o s base z r ∧ z.Yields r (.bind b) ∧ b.receiver = some r

lemma receiving_of_attends (hl : w.layers s = base ++ .bind b :: rest)
    (hc : b.cleanup = role.expects)
    (h : Config.Attends s' o ⟨w, .complete (.child role s base.length) v, K⟩) :
    Receiving w s base b s' o := by
  have hthrough (ht : w.Through s o (.child role s base.length)) : Receiving w s base b s o := by
    obtain ⟨pre, b', post, z, r, hl', -, hlength, -, hr, hz, hpre⟩ := ht.of_child
    obtain ⟨rfl, hrest⟩ := List.append_inj (hl.symm.trans hl') hlength
    obtain ⟨rfl, -⟩ : b = b' ∧ rest = post := by simpa using hrest
    exact .inr ⟨rfl, ht.1, z, r, hpre, hz, hr⟩
  obtain hlive | ⟨r, hr, ht⟩ := h
  · by_cases hs : s' = s
    · subst hs
      exact hthrough (hlive.through hl hc)
    · exact .inl ⟨hs, hlive⟩
  · obtain rfl : Receiver.child role s base.length = r := Option.some.inj hr
    obtain rfl : s = s' := Option.some.inj ht.site_eq
    exact hthrough ht

lemma Receiving.restored {base' : List Layer} (h : Receiving w s base b s' o)
    (hbase : List.Forall₂ Layer.Restored base base') (hb : (Layer.bind b).Ensues (.bind b'))
    (hr : b'.receiver = b.receiver) : Receiving w s base' b' s' o :=
  h.imp_right fun ⟨hs, ho, z, r, hconveys, hz, hreceiver⟩ =>
    ⟨hs, ho, z, r, hconveys.restored hbase, hb.yields hz, hr.trans hreceiver⟩

/-- What is passed on goes on to the final receiver. -/
lemma attends_pass (h : Receiving w s base b s' o) :
    (pass (w.after s (base ++ .bind b :: rest) n acts) s base.length b v K).Attends s' o := by
  unfold pass
  obtain ⟨hs, hlive⟩ | ⟨rfl, ho, z, r, hconveys, -, hr⟩ := h
  · split
    · rw [World.setBinding_after_top]
      exact .inl (hlive.after_of_ne hs _ _ _)
    · rw [World.note_after]
      exact .inl (hlive.after_of_ne hs _ _ _)
  · simp only [hr, World.setBinding_after_top]
    exact .inr ⟨r, rfl, ho, base, _, z, World.layers_after, hconveys⟩

lemma poised_pass (hw : w.Orderly) (hK : ∀ f ∈ K, f.Poised)
    (hun : ∀ l ∈ base ++ .bind b :: rest, l.Unscripted)
    (hfit : Fitting (base ++ .bind b.spend :: rest)) :
    (pass (w.after s (base ++ .bind b :: rest) n acts) s base.length b v K).Poised := by
  have hb : (Layer.bind b).Unscripted := hun _ (by simp)
  unfold pass
  cases hr : b.receiver with
  | some r =>
    have hspent : (Layer.bind b.spend).Unscripted := hb.of_bind (by simp) fun _ h => h
    simp only [World.setBinding_after_top]
    exact ⟨hw.after n acts (Layer.unscripted_replace hun hspent) hfit, hb.receiver r hr, hK⟩
  | none =>
    have hspent : b.spend = b := by
      obtain ⟨serial, factory, receiver, value, storage, cleanup⟩ := b
      cases hr
      rfl
    rw [hspent] at hfit
    simp only [World.note_after]
    exact ⟨hw.after n _ hun hfit, trivial, hK⟩

/-- Spending its receiver makes no difference to what an operation holds, if that is not amid a
handoff. -/
lemma fits_spend (hb : b.Fits rest) (hc : b.cleanup = role.expects) : b.spend.Fits rest := by
  cases role with
  | predecessor =>
    have hc : b.cleanup = .predecessor := hc
    refine ⟨hb.predecessor, fun h => ?_, fun h => ?_, hb.successor⟩
    all_goals simp [hc] at h
  | successor =>
    have hc : b.cleanup = .successor := hc
    refine ⟨hb.predecessor, fun h => ?_, fun h => ?_, hb.successor⟩
    all_goals simp [hc] at h

/-- A completion that does not begin a handoff is passed on. -/
lemma strides_passed (hw : w.Orderly) (hK : ∀ f ∈ K, f.Poised)
    (hh : w.Holds s (base ++ .bind b :: rest) n) (hc : b.cleanup = role.expects)
    (u : Completion Value Failure) :
    Strides ⟨w, .complete (.child role s base.length) v, K⟩
      (pass (w.after s (base ++ .bind b :: rest) n acts) s base.length b u K) := by
  have hun := hw.layers s
  have hfit := hw.fitting s
  rw [hh.layers_eq] at hun hfit
  have hspent : Fitting (.bind b.spend :: rest) :=
    ⟨fits_spend hfit.fits hc, hfit.of_append.2⟩
  exact Config.strides_of_poised (poised_pass hw hK hun
      (hfit.replace hspent fun h => absurd h (Layer.not_halfBuilt_bind b)))
    fun p o hp => attends_pass (receiving_of_attends hh.layers_eq hc hp)

/-- A successor was built amid a handoff, and is about to be started. -/
lemma attends_settled {f : Factory} {next : Env → Sender} {env : Env} {base' ls : List Layer}
    (h : Receiving w s base b s' o) (hf : b.factory = some (f, next))
    (hnext : (next env).Scriptless) (hbase : List.Forall₂ Layer.Restored base base')
    (hb : (Layer.bind b).Ensues (.bind b')) (hr : b'.receiver = b.receiver)
    (hfits : b'.settle.Fits ls)
    (hls : (next env).Stands s (.child .successor s base'.length) (base'.length + 1) ls) :
    Config.Attends s' o ⟨w.after s (base' ++ .bind b'.settle :: ls) n acts,
      .start s (base'.length + 1), K⟩ := by
  obtain ⟨hs, hlive⟩ | ⟨rfl, ho, z, r, hconveys, hz, hreceiver⟩ := h
  · exact .inl (hlive.after_of_ne hs _ _ _)
  · have hensues : (Layer.bind b').Ensues (.bind b'.settle) :=
      .bind (by simp) (.inr (by simp)) (.inr (by simp))
    have hsettled : Conveys o s' (base' ++ [.bind b'.settle]) (next env)
        (.child .successor s' base'.length) :=
      (hconveys.restored hbase).bind (hensues.yields (hb.yields hz))
        (by simp [hr, hreceiver]) (hfits.successor (by simp)).1 rfl (hz.part hf env)
    obtain ⟨pre, l, y, r', hsplit, hpre, howes⟩ := hls.exists_conveys hnext hsettled (by simp)
    refine .inl ⟨ho, pre, l, y, r', ?_, hpre, howes _⟩
    rw [World.layers_after, ← hsplit, List.append_assoc, List.singleton_append]

lemma poised_settled (hw : w.Orderly) (hK : ∀ f ∈ K, f.Poised)
    (hun : ∀ l ∈ base ++ .bind b :: rest, l.Unscripted)
    (hfit : Fitting (base ++ .bind b.settle :: rest)) :
    Config.Poised ⟨w.after s (base ++ .bind b.settle :: rest) n acts,
      .start s (base.length + 1), K⟩ := by
  have hb : (Layer.bind b).Unscripted := hun _ (by simp)
  refine ⟨hw.after n acts (Layer.unscripted_replace hun (hb.of_bind (by simp) (by simp))) hfit,
    startable_succ World.layers_after fun b' h => ?_, hK⟩
  obtain rfl : b.settle = b' := by simpa using h
  simp

/-- The value of a predecessor begins a handoff. -/
lemma strides_handover (hw : w.Orderly) (hK : ∀ f ∈ K, f.Poised)
    (hh : w.Holds s (base ++ .bind b :: rest) n) (hc : b.cleanup = .predecessor) (v : Value) :
    Strides ⟨w, .complete (.child .predecessor s base.length) (.value v), K⟩
      (complete w (.child .predecessor s base.length) (.value v) K) := by
  have hun := hw.layers s
  have hfit := hw.fitting s
  rw [hh.layers_eq] at hun hfit
  obtain ⟨⟨f, next⟩, hf⟩ := Option.isSome_iff_exists.1 (hfit.fits.predecessor hc).2.2.2
  have hb : (Layer.bind b).Unscripted := hun _ (by simp)
  obtain ⟨base', b', ls, m, n', acts', hbase, hensues, hr, hamid, hls, hleads⟩ :=
    leads_handover s base hfit.fits hc hf hb w n [] v
  rw [World.after_self hh] at hleads
  have hun' : ∀ l ∈ base' ++ .bind b' :: ls, l.Unscripted :=
    List.forall_mem_append.2
      ⟨Layer.unscripted_restored (fun x hx => hun x (by simp [hx])) hbase, hls⟩
  have hfit' {b'' : Binding} (hb'' : Fitting (.bind b'' :: ls)) :
      Fitting (base' ++ .bind b'' :: ls) :=
    (hfit.restored hbase).replace hb'' fun h => absurd h (Layer.not_halfBuilt_bind b)
  have hexpected : b.cleanup = Role.predecessor.expects := hc
  have hreceiving {s' : Site} {o : Receiver} (h : Config.Attends s' o
      ⟨w, .complete (.child .predecessor s base.length) (.value v), K⟩) :
      Receiving w s base b s' o :=
    receiving_of_attends hh.layers_eq hexpected h
  rw [hbase.length_eq] at hleads hamid hreceiving ⊢
  cases hamid with
  | built hfits hstands =>
    exact Config.strides_of_leads
      ((hleads K).append_quiet (Binding.leads_settled w s base' b' ls n' acts' K)) rfl (by simp)
      (poised_settled hw hK hun' (hfit' ⟨hfits, hstands.fitting⟩))
      fun p o hp => attends_settled (hreceiving hp) hf (hb.factory b rfl f next hf _) hbase hensues
        hr hfits hstands
  | @failed _ m hfits hfitting =>
    refine Config.strides_of_leads
      ((hleads K).append_quiet (Binding.leads_given_up w s base' b' ls n' acts' m K)) rfl ?_
      (poised_pass hw hK hun' (hfit' ⟨hfits, hfitting⟩))
      fun p o hp => attends_pass ((hreceiving hp).restored hbase hensues hr)
    unfold pass
    split <;> simp [fault]

/-- A handle is completed. -/
lemma strides_child (hw : w.Orderly) (hK : ∀ f ∈ K, f.Poised) :
    Strides ⟨w, .complete (.child role s h) v, K⟩ (complete w (.child role s h) v K) := by
  -- A completion that does not arrive was not on its way to the final receiver.
  have hlost {d : Config} (hd : d.Poised) (hw' : w.Leaves d.world)
      (hnone : ∀ b, w.binding? s h = some b → b.cleanup ≠ role.expects) :
      Strides ⟨w, .complete (.child role s h) v, K⟩ d := by
    refine Config.strides_of_poised hd fun p o hp => ?_
    obtain hp | ⟨r, hr, ht⟩ := hp
    · exact .inl (hw'.live p o hp)
    · obtain rfl : Receiver.child role s h = r := Option.some.inj hr
      obtain ⟨pre, b, post, z, r, hl, rfl, rfl, hc, -, -, -⟩ := ht.of_child
      exact absurd hc (hnone b (World.binding?_eq_some_iff.2 (by simp [hl])))
  cases hb : w.binding? s h with
  | none =>
    have hnoted := Leaves.note hw s (dropCarried v)
    simpa [complete, hb, finish] using hlost (d := finish (w.note s (dropCarried v)) K)
      ⟨hnoted.orderly, trivial, hK⟩ hnoted (by simp [hb])
  | some b =>
    by_cases hc : b.cleanup = role.expects
    · obtain ⟨base, rest, n, rfl, hh⟩ := exists_holds hb
      have hafter (acts : List Act) :
          w.note s acts = w.after s (base ++ .bind b :: rest) n acts := by
        conv_lhs => rw [← World.after_self hh]
        simp
      have hpassed (acts : List Act) (u : Completion Value Failure) :
          Strides ⟨w, .complete (.child role s base.length) v, K⟩
            (pass (w.note s acts) s base.length b u K) := by
        rw [hafter]
        exact strides_passed hw hK hh hc u
      cases role with
      | predecessor =>
        cases v with
        | value v => exact strides_handover hw hK hh hc v
        | error e => simpa [complete, hb, hc, receive] using hpassed [.logged b.serial .failed] _
        | done => simpa [complete, hb, hc, receive] using hpassed [.logged b.serial .stopped] _
      | successor => simpa [complete, hb, hc, receive] using hpassed [] (v.mapError .successor)
    · have hnoted := Leaves.note hw s (dropCarried v)
      simpa [complete, hb, hc] using
        hlost (d := fault (w.note s (dropCarried v)) (.wrongState b.cleanup role.expects) K)
          ⟨hnoted.orderly, trivial, hK⟩ hnoted
          fun b' hb' => by simpa [← Option.some.inj (hb.symm.trans hb')] using hc

/-- A final receiver is completed. -/
lemma strides_final {r : Receiver} (hr : r.isChild = false) (hw : w.Orderly)
    (hK : ∀ f ∈ K, f.Poised) (hun : r.Unscripted) :
    Strides ⟨w, .complete r v, K⟩ (complete w r v K) := by
  have hgiven {w' : World} {control : Control} {K' : List Frame} (hw' : w.Leaves w')
      (hc : control.Poised w') (hK' : ∀ f ∈ K', f.Poised) :
      Strides ⟨w, .complete r v, K⟩ ⟨w', control, K'⟩ := by
    refine ⟨[], _, .refl _, ⟨hw'.orderly, hc, hK'⟩, fun p o _ hp => ?_⟩
    obtain hp | ⟨r', hr', ht⟩ := hp
    · exact .inl (.inl (hw'.live p o hp))
    · obtain rfl : r = r' := Option.some.inj hr'
      exact .inr ⟨(r, v), by simp [Config.given, hr], ht.eq_of_isChild hr⟩
  cases r with
  | child role s h => simp [Receiver.isChild] at hr
  | observer home o =>
    obtain ⟨label, plain, stop, waiting, reaction⟩ := o
    exact hgiven (.note hw _ _) hun (poised_cons trivial hK)
  | recorder home stop => exact hgiven (.congr hw (fun _ => rfl) rfl) trivial hK
  | waiter id =>
    unfold complete completeWaiter
    dsimp only
    split_ifs
    · exact hgiven (.congr hw (fun _ => rfl) rfl) trivial hK
    · exact hgiven (.note hw _ _) trivial hK

lemma strides_complete {r : Receiver} (hw : w.Orderly) (hK : ∀ f ∈ K, f.Poised)
    (hun : r.Unscripted) : Strides ⟨w, .complete r v, K⟩ (complete w r v K) := by
  cases r with
  | child role s h => exact strides_child hw hK
  | _ => exact strides_final rfl hw hK hun

end Handoff.Machine
