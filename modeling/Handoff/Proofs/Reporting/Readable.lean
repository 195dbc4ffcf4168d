import Handoff.Proofs.Reporting.Origins

/-!
# Errors stay readable

When a run ends with an error, that error tells what has happened however deep it did. It is the
error of the leaf that failed, or the payload that was caught, under one tag for each binding
operation on the way out, and it reads like that: `Config.errors_stay_readable`. An error that
arises before anything was given to the final receiver comes to it in any case; in runs that keep
the rules each error that comes to it has arisen so, and there is no other that could have.
-/

namespace Handoff

open Machine

/-- The ways on which a sender may complete with an error: one of its leaves gives it, or it is a
payload caught by one of its bindings. -/
inductive Sender.MayFail (x : Sender) : List Role → Failure → Prop where
  | leaf {path : List Role} {y : Sender} {e : Failure} (hy : x.Lies path y)
      (hgives : y.Gives (.error e)) : MayFail x path e
  | handoff {path : List Role} {y : Sender} {f : Factory} {next : Env → Sender}
      (hy : x.Lies path (.bind y f next)) (m : Payload) : MayFail x path (.panicked m)

namespace Config

variable {x : Sender} {o r : Receiver} {s : Site} {p : Int} {n : Nat} {c c' d t : Config}
  {path : List Role} {e f : Failure} {ps ps' : List Parcel} {ok : Config → Prop}
  {v : Completion Value Failure}

/-! ### What arises is delivered -/

lemma Begets.mayFail (h : c.Begets x o s path e) : x.MayFail path e := by
  cases h with
  | leaf h =>
    obtain ⟨y, hy, hgives⟩ := h.exists_lies
    exact .leaf hy hgives
  | handoff h =>
    obtain ⟨y, g, next, hy⟩ := h.exists_lies
    exact .handoff hy _

lemma Begets.delivers (h : c.Begets x o s path e) (hc : c.Whole x o s) (ho : o.isChild = false) :
    c.Delivers o (e.under path) := by
  cases h with
  | leaf h => exact h.delivers hc ho
  | handoff h => exact h.delivers hc

lemma Begets.engaged (h : c.Begets x o s path e) (ho : o.Ends s) : c.Engaged s := by
  cases h with
  | leaf h =>
    obtain @⟨w, path, y, r, e, K, hy, -⟩ := h
    obtain ⟨base, l, rest, -, hline, -⟩ := hy.exists_line
    exact .complete rfl (hline.site_eq ho)
  | handoff h =>
    obtain ⟨-, -, -, hK⟩ := h
    exact .raised rfl hK

lemma Engaged.attended (hc : c.Engaged s) : c.Attended s := by
  intro z hz
  cases hc with
  | complete hc => cases hz.symm.trans hc
  | raised hc => cases hz.symm.trans hc

/-- While a receiver is completed or a payload raised amid a handoff, there is a completion still to
be given. -/
lemma Engaged.one_le (hc : c.Engaged s) (hn : n ≤ 1) (ht : Thread o s n c) : 1 ≤ n := by
  cases hc with
  | complete hc =>
    cases ht with
    | loose hw hfit hK hb =>
      subst hc
      exact (hb.single hn).1.ge
    | _ => cases hc
  | raised hc hK => exact (ht.exists_handsOver hK).2.1.ge

/-- In a run that keeps the rules nothing was given to the final receiver by then. -/
lemma Behaves.not_given_of_engaged (hc : c.Behaves x o s ps) (h : c.Engaged s) :
    ∀ g ∈ ps, g.1 ≠ o := by
  refine hc.not_given_of_owing h (fun d hd => hd.attended) (fun d hd n hn => hd.one_le hn) ?_
  rintro ks p d rfl hshadow
  exact h.of_sameAt (hshadow.sameAt h)

lemma Behaves.houses (hc : c.Behaves x o s ps) (ho : o.Ends s) : c.Houses x o s ps := by
  cases hc with
  | @alone w hx _ hl _ h =>
    exact ⟨hx.patient, ho, w, [], hl, by simp, h.mono fun _ => Attended.not_renews⟩
  | @among ks p w hs hx _ _ _ hl _ h =>
    subst hs
    exact ⟨hx.lawful.patient, ho, w, [], hl, by simp, h.mono fun _ => Heeded.not_renews⟩

/-! ### What is delivered is what arose -/

lemma Leads.eq_or_moves (h : c.Leads ps t) (hps : ps = []) :
    t = c ∨ ∃ c', c.Moves c' ∧ c.given = [] ∧ c'.Leads [] t := by
  cases h with
  | refl => exact .inl rfl
  | @step _ c' _ qs hm h =>
    obtain ⟨hgiven, rfl⟩ := List.append_eq_nil_iff.1 hps
    exact .inr ⟨c', hm, hgiven, h⟩

lemma Leads.since (h : c.Leads ps d) : Since (fun _ => True) c ps d := by
  induction h with
  | refl c => exact .refl c
  | @step c _ _ _ hm _ ih => exact ((Since.refl c).move trivial hm).trans ih

/-- A run that goes on from where an error arose comes to its delivery, unless it is on the way
there. -/
lemma Since.leads_or (h : Since ok d ps c) (ht : d.Leads [] t) :
    c.Leads [] t ∨ ∃ ps₀ ps', ps = ps₀ ++ ps' ∧ Since ok t ps' c := by
  induction h with
  | refl => exact .inl ht
  | @move c c' ps h hok hm ih =>
    rcases ih with hleads | ⟨ps₀, ps', rfl, hsince⟩
    · rcases hleads.eq_or_moves rfl with rfl | ⟨c₁, hm₁, -, hleads⟩
      · exact .inr ⟨ps, t.given, rfl, by simpa using (Since.refl t).move hok hm⟩
      · obtain rfl := hm.unique hm₁
        exact .inl hleads
    · exact .inr ⟨ps₀, _, List.append_assoc .., hsince.move hok hm⟩
  | @next c ps h hf z ih =>
    rcases ih with hleads | ⟨ps₀, ps', rfl, hsince⟩
    · rcases hleads.eq_or_moves rfl with rfl | ⟨c₁, hm₁, -⟩
      · exact .inr ⟨ps, [], (List.append_nil ps).symm, (Since.refl t).next hf z⟩
      · cases hf.symm.trans hm₁
    · exact .inr ⟨ps₀, ps', rfl, hsince.next hf z⟩

/-- What is delivered is listed from then on. -/
lemma Since.eq_or_mem (h : Since ok t ps c) (ht : t.control = .complete o v)
    (ho : o.isChild = false) : c = t ∨ (o, v) ∈ ps := by
  induction h with
  | refl => exact .inl rfl
  | move _ _ _ ih =>
    rcases ih with rfl | hmem
    · exact .inr (List.mem_append_right _ (by simp [given, ht, ho]))
    · exact .inr (List.mem_append_left _ hmem)
  | @next c _ _ hf _ ih =>
    rcases ih with rfl | hmem
    · obtain ⟨w, control, K⟩ := c
      obtain rfl : control = .complete o v := ht
      cases hf
    · exact .inr hmem

/-- Each error that arises is delivered to the final receiver, under the tags of the way to the
place in the sender that it comes from, and reads like that. -/
def Reports (x : Sender) (o : Receiver) (s : Site) (c : Config) : Prop :=
  ∀ path e, c.Begets x o s path e → x.MayFail path e ∧ ∃ f, c.Delivers o f ∧ e.Spells path f

/-- Whatever error has arisen at any moment of the run so far, the one that is delivered now is that
under the tags of the way to the place in the sender that it came from, and reads like that. -/
def Recounts (x : Sender) (o : Receiver) (s : Site) (ps : List Parcel) (f : Failure)
    (c : Config) : Prop :=
  ∀ (d : Config) (ps₁ ps₂ : List Parcel) (ok : Config → Prop), d.Houses x o s ps₁ →
    Since ok d ps₂ c → ps₁ ++ ps₂ = ps →
      ∀ path e, d.Begets x o s path e → x.MayFail path e ∧ e.Spells path f

/-- The error that is delivered now has arisen at a moment of the run, and was passed on since. -/
def Originates (x : Sender) (o : Receiver) (s : Site) (ps : List Parcel) (f : Failure)
    (c : Config) : Prop :=
  ∃ (d : Config) (path : List Role) (e : Failure), d.Behaves x o s ps ∧ d.Begets x o s path e ∧
    d.Leads [] c ∧ x.MayFail path e ∧ e.Spells path f

lemma Houses.reports (hc : c.Houses x o s ps) (hps : ∀ g ∈ ps, g.1 ≠ o) : c.Reports x o s := by
  intro path e h
  exact ⟨h.mayFail, _, h.delivers (hc.whole hps) hc.ends.isChild_eq, Failure.spells_under path e⟩

/-- What has arisen is what is delivered, if that is the first to be. -/
lemma Houses.recounts (hc : c.Houses x o s ps) (hps : ∀ g ∈ ps, g.1 ≠ o)
    (hf : c.control = .complete o (.error f)) : c.Recounts x o s ps f := by
  rintro d ps₁ ps₂ ok hd h rfl path e hbegets
  obtain ⟨hpath, f', ⟨w, K, hleads⟩, hspells⟩ :=
    hd.reports (fun g hg => hps g (List.mem_append_left _ hg)) path e hbegets
  refine ⟨hpath, ?_⟩
  suffices heq : c = ⟨w, .complete o (.error f'), K⟩ by
    subst heq
    obtain rfl : f' = f := by simpa using hf
    exact hspells
  rcases h.leads_or hleads with hrest | ⟨ps₀, ps', rfl, hsince⟩
  · rcases hrest.eq_or_moves rfl with rfl | ⟨c', -, hgiven, -⟩
    · exact rfl
    · simp [given, hf, hc.ends.isChild_eq] at hgiven
  · rcases hsince.eq_or_mem rfl hc.ends.isChild_eq with heq | hmem
    · exact heq
    · have hnever := hps _ (List.mem_append_right _ (List.mem_append_right _ hmem))
      exact absurd rfl hnever

lemma Behaves.originates (hc : c.Behaves x o (.place p) ps) (ho : o.Ends (.place p))
    (hf : c.control = .complete o (.error f)) : c.Originates x o (.place p) ps f := by
  obtain ⟨d, path, e, hd, hbegets, hleads⟩ := hc.arose hf ho.site_eq
  have hnever := hc.not_given_of_engaged (.complete hf ho.site_eq)
  obtain ⟨hpath, hspells⟩ := (hc.houses ho).recounts hnever hf d ps [] _ (hd.houses ho)
    hleads.since (List.append_nil ps) path e hbegets
  exact ⟨d, path, e, hd, hbegets, hleads, hpath, hspells⟩

/-- **Errors stay readable.** A sender was connected to a final receiver at a site, and nothing was
given to that so far. If an error arises now, in a leaf or amid a handoff at any depth, it is
delivered under the tags of the way to the place that it comes from; and if an error is delivered
now, then it is whatever has arisen so on the way. In runs that keep the rules this is so at every
moment, and what is delivered has arisen so. -/
theorem errors_stay_readable (hc : c.Houses x o s ps) :
    ((∀ g ∈ ps, g.1 ≠ o) → c.Reports x o s ∧
      ∀ f, c.control = .complete o (.error f) → c.Recounts x o s ps f) ∧
    (c.Behaves x o s ps → c.Reports x o s ∧
      ∀ f, c.control = .complete o (.error f) → c.Recounts x o s ps f ∧
        ∀ p, s = .place p → c.Originates x o s ps f) := by
  constructor
  · intro hps
    exact ⟨hc.reports hps, fun f hf => hc.recounts hps hf⟩
  · intro hbehaves
    constructor
    · intro path e h
      exact hc.reports (hbehaves.not_given_of_engaged (h.engaged hc.ends)) path e h
    · intro f hf
      have hps := hbehaves.not_given_of_engaged (.complete hf hc.ends.site_eq)
      refine ⟨hc.recounts hps hf, ?_⟩
      rintro p rfl
      exact hbehaves.originates hc.ends hf

/-! ### Two bindings, one in the successor of the other -/

/-- A factory that may raise a payload, and does nothing else. -/
def raising (raised : Option Payload) : Factory := { call := fun env => { env, raised } }

/-- A leaf that fails from a task. -/
def boom : Leaf := { label := "boom", completion := .error (.leaf "boom"), deferred := true }

/-- A leaf fails below both bindings. -/
def failing : Sender :=
  .bind (.ready (.value { n := 1 })) (raising none) fun _ =>
    .bind (.leaf boom) (raising none) fun _ => .ready .done

/-- The factory of the inner binding raises a payload. -/
def breaking : Sender :=
  .bind (.ready (.value { n := 1 })) (raising none) fun _ =>
    .bind (.ready (.value { n := 2 })) (raising (some (.text "no"))) fun _ => .ready .done

/-- The receiver of either. -/
def listener : Receiver := .recorder (.place 0) none

/-- The outer operation, when its predecessor is through. -/
def outermost : Binding :=
  { serial := 0, factory := none, receiver := some listener, value := some { n := 1 },
    storage := .successor, cleanup := .successor }

/-- A sender is connected. -/
def connecting (x : Sender) (n : Nat) : Config :=
  .run n ⟨{}, .connect x listener (.place 0) 0, []⟩

/-- It is started. -/
def starting (x : Sender) (n : Nat) : Config :=
  .run n ⟨(connecting x 3).world, .call (.start 0), []⟩

/-- A task is run. -/
def ticking (x : Sender) (n : Nat) : Config :=
  .run n ⟨(starting x 11).world, .call .tick, []⟩

/-- A run goes on by a number of moves that give nothing. -/
lemma Since.run (h : Since ok c ps d) (n : Nat) (hok : ∀ k < n, ok (d.run k))
    (hgifts : d.gifts n = []) : Since ok c ps (d.run n) := by
  have hrun := h.trans (since_run n d hok)
  rwa [hgifts, List.append_nil] at hrun

lemma since_connecting (hx : x = failing ∨ x = breaking) :
    Since (Attended (.place 0) ·) (connecting x 0) [] (starting x 0) := by
  refine ((Since.refl (connecting x 0)).run 3 ?_ ?_).next ?_ (.start 0)
  · intro k hk
    rcases hx with rfl | rfl <;> interval_cases k <;> rintro z hz <;> cases hz
  · rcases hx with rfl | rfl <;> rfl
  · rcases hx with rfl | rfl <;> rfl

lemma behaves_of_since (hx : x = failing ∨ x = breaking)
    (h : Since (Attended (.place 0) ·) (connecting x 0) [] c) :
    c.Behaves x listener (.place 0) [] := by
  refine .alone ?_ trivial rfl (by simp) h
  rcases hx with rfl | rfl <;> exact ⟨trivial, fun _ => ⟨trivial, fun _ => trivial⟩⟩

lemma behaves_failing (hn : n ≤ 4) :
    (ticking failing n).Behaves failing listener (.place 0) [] := by
  refine behaves_of_since (.inl rfl) ?_
  refine (((since_connecting (.inl rfl)).run 11 ?_ rfl).next rfl .tick).run n ?_ ?_
  · intro k hk
    interval_cases k <;> rintro z hz <;> cases hz
    rfl
  · intro k hk
    have hk : k < 4 := by omega
    interval_cases k <;> rintro z hz <;> cases hz
    trivial
  · interval_cases n <;> rfl

lemma behaves_breaking (hn : n ≤ 15) :
    (starting breaking n).Behaves breaking listener (.place 0) [] := by
  refine behaves_of_since (.inr rfl) ((since_connecting (.inr rfl)).run n ?_ ?_)
  · intro k hk
    have hk : k < 15 := by omega
    interval_cases k <;> rintro z hz <;> cases hz
    rfl
  · interval_cases n <;> rfl

lemma begets_failing : (ticking failing 2).Begets failing listener (.place 0)
    [.predecessor, .successor] (.leaf "boom") := by
  let inner : Binding :=
    { serial := 2, factory := some (raising none, fun _ => .ready .done),
      receiver := some (.child .successor (.place 0) 0) }
  have hline : Layer.Line failing listener (.place 0) ([.bind outermost] ++ [.bind inner])
      [.predecessor, .successor] (.leaf boom) (.child .predecessor (.place 0) 1) :=
    .bind (.bind .nil (.bind (.inr rfl) (.inl rfl)) rfl (.successor _ _ _ []))
      (.bind (.inr rfl) (.inr rfl)) rfl (.predecessor _ _ _)
  have hseats : Layer.Seats failing listener (.place 0)
      ((ticking failing 2).world.layers (.place 0)) [.predecessor, .successor] (.leaf boom)
      (.child .predecessor (.place 0) 1) :=
    .mk (l := .leaf 3 boom none) hline (.leaf (.inl rfl))
  exact .leaf (.mk hseats (.leaf boom))

lemma begets_breaking : (starting breaking 13).Begets breaking listener (.place 0) [.successor]
    (.panicked (.text "no")) := by
  have hline : Layer.Line breaking listener (.place 0) [.bind outermost] [.successor]
      (.bind (.ready (.value { n := 2 })) (raising (some (.text "no"))) fun _ => .ready .done)
      (.child .successor (.place 0) 0) :=
    .bind .nil (.bind (.inr rfl) (.inl rfl)) rfl (.successor _ _ _ [])
  obtain ⟨b, hl, hr, hf⟩ : ∃ b, (starting breaking 13).world.layers (.place 0) =
      [.bind outermost] ++ .bind b :: [] ∧ b.receiver = some (.child .successor (.place 0) 0) ∧
        b.factory = none := ⟨_, rfl, rfl, rfl⟩
  exact .handoff (.mk hl hline (.bind (.inr hr) (.inl hf)) List.mem_cons_self)

theorem errors_stay_readable_nested :
    let deep : Failure := .successor (.predecessor (.leaf "boom"))
    let caught : Failure := .successor (.panicked (.text "no"))
    (ticking failing 4).control = .complete listener (.error deep) ∧
    (Failure.leaf "boom").Spells [.predecessor, .successor] deep ∧
    (ticking failing 4).Originates failing listener (.place 0) [] deep ∧
    (starting breaking 15).control = .complete listener (.error caught) ∧
    (Failure.panicked (.text "no")).Spells [.successor] caught ∧
    ∃ f, (starting breaking 13).Delivers listener f := by
  intro deep caught
  have hends : listener.Ends (.place 0) := ⟨rfl, rfl⟩
  have hfailing : (ticking failing 4).Behaves failing listener (.place 0) [] :=
    behaves_failing (Nat.le_refl 4)
  have hbreaking : (starting breaking 15).Behaves breaking listener (.place 0) [] :=
    behaves_breaking (Nat.le_refl 15)
  obtain ⟨hdeep, hfrom⟩ := ((errors_stay_readable (hfailing.houses hends)).2 hfailing).2 deep rfl
  have hcaught := ((errors_stay_readable (hbreaking.houses hends)).1 (by simp)).2 caught rfl
  refine ⟨rfl, ?_, hfrom 0 rfl, rfl, ?_, ?_⟩
  · have hsince : Since (fun _ => True) (ticking failing 2) [] (ticking failing 4) :=
      (Since.refl (ticking failing 2)).run 2 (fun _ _ => trivial) rfl
    have hbegun := (behaves_failing (n := 2) (by decide)).houses hends
    exact (hdeep _ [] [] _ hbegun hsince rfl _ _ begets_failing).2
  · have hsince : Since (fun _ => True) (starting breaking 13) [] (starting breaking 15) :=
      (Since.refl (starting breaking 13)).run 2 (fun _ _ => trivial) rfl
    have hbegun := (behaves_breaking (n := 13) (by decide)).houses hends
    exact (hcaught _ [] [] _ hbegun hsince rfl _ _ begets_breaking).2
  · have hbegun := (behaves_breaking (n := 13) (by decide)).houses hends
    obtain ⟨-, f, hf, -⟩ := ((errors_stay_readable hbegun).1 (by simp)).1 _ _ begets_breaking
    exact ⟨f, hf⟩

end Config

end Handoff
