import Handoff.Proofs.Lifetime.Destruction
import Handoff.Proofs.Panic.Unwinding

/-!
# The boundary of what is caught

A binding operation catches what is raised while it drops its predecessor, calls its factory and
connects its successor, and nothing else. `Boundary` states both sides for a moment of a run. The
main statement is that they hold at every moment of every run in which a lawful sender is connected
to a calm receiver in a vacant place, and a host then starts it, requests stops and runs tasks as it
likes.
-/

namespace Handoff

open Machine
open Layer (offer Open)

/-- A host makes calls one after another that attend to what is connected at a site. What final
receivers are given on the way is listed. -/
inductive Config.Goes (s : Site) : Config → List Parcel → Config → Prop where
  | refl (c : Config) : Goes s c [] c
  | move {c c' c'' : Config} {ps : List Parcel} (h : Goes s c ps c') (hm : c'.Moves c'') :
      Goes s c (ps ++ c'.given) c''
  | next {c c' : Config} {ps : List Parcel} (h : Goes s c ps c') (hf : c'.IsFinal) {x : Call}
      (hx : x.Attends s) : Goes s c ps ⟨c'.world, .call x, []⟩

/-- The operation of a serial number is through: as long as it stands at a height, its receiver is
used up, its factory is not called and its successor not started. -/
def Config.Through (s : Site) (i k : Nat) (c : Config) : Prop :=
  ∀ b, c.world.binding? s i = some b → b.serial = k →
    b.receiver = none ∧ c.control ≠ .build s i ∧ c.control ≠ .start s (i + 1)

/-- A payload becomes the completion of the operation at a height, which is through from then on,
and goes no further than to its handoff. -/
def Config.Captures (s : Site) (i : Nat) (m : Payload) (c : Config) : Prop :=
  ∃ b r w' gs K, c.world.binding? s i = some b ∧ b.receiver = some r ∧
    c.stack = gs ++ .handoff s i :: K ∧ (∀ s' j, .handoff s' j ∉ K) ∧
    c.Leads [] ⟨w', .complete r (.error (.panicked m)), K⟩ ∧
    w'.binding? s i = some b.spend ∧
    ∀ ps c', Goes s ⟨w', .complete r (.error (.panicked m)), K⟩ ps c' → c'.Through s i b.serial

/-- What is caught at a moment of a run at a numbered place and what is not. Final receivers have
been given the completions listed. -/
structure Boundary (p : Int) (o : Receiver) (ps : List Parcel) (c : Config) : Prop where
  /-- The final receiver is given one completion at most, and no other is given any. -/
  given_le : ps.length ≤ 1
  given_to (q : Parcel) (hq : q ∈ ps) : q.1 = o
  /-- A payload raised amid a handoff becomes an error of the operation that hands over. -/
  captured {s : Site} {i : Nat} {m : Payload} (hc : c.control = .raised m)
    (hK : .handoff s i ∈ c.stack) : s = .place p ∧ c.Captures s i m
  /-- Past all that does not catch, a payload goes unchanged to whoever made the call. -/
  passed {m : Payload} {K K' : List Frame} (hc : c.control = .raised m) (hK : c.stack = K ++ K')
    (hf : ∀ f ∈ K, f.catches = false) : ∃ w', c.Leads [] ⟨w', .raised m, K'⟩
  /-- What is raised outside of handoffs, and not by the drop of a predecessor, reaches whoever made
  the call, unless a script catches what its own completions raise. -/
  escaped {c' : Config} {m : Payload} (hm : c.Moves c') (hc' : c'.control = .raised m)
    (hout : c.control.isHanding = false)
    (hdrop : ∀ s i v, c.control ≠ .complete (.child .predecessor s i) (.value v))
    (hf : ∀ r rest, .attempt r rest ∉ c'.stack) : ∃ w', c'.Leads [] ⟨w', .raised m, []⟩
  /-- Amid a handoff nothing is started, completed or run, and no script or receiver followed. -/
  handing {s : Site} {i : Nat} (hK : .handoff s i ∈ c.stack) : c.control.isHanding = true
  /-- A handoff begins with the value of the predecessor, and the drop of that is part of it. -/
  begun {c' : Config} {s : Site} {i : Nat} (hm : c.Moves c') (hK : .handoff s i ∈ c'.stack) :
    .handoff s i ∈ c.stack ∨ ∃ v, c.control = .complete (.child .predecessor s i) (.value v)
  dropping {s : Site} {i : Nat} {v : Value}
    (hc : c.control = .complete (.child .predecessor s i) (.value v)) :
    ∃ c', c.Moves c' ∧ c'.stack = .handoff s i :: c.stack ∧
      (c'.control = .build s i ∨ ∃ m, c'.control = .raised m)
  /-- The factory is called amid the handoff. -/
  building {s : Site} {i : Nat} (hc : c.control = .build s i) :
    ∃ K, c.stack = .handoff s i :: K
  /-- All but what the host connects is connected amid the handoff of an operation further out. -/
  connecting {x : Sender} {r : Receiver} {s : Site} {j : Nat} (hc : c.control = .connect x r s j) :
    (∀ f ∈ c.stack, ∃ i, f = .guard s i) ∨ ∃ i, i < j ∧ .handoff s i ∈ c.stack
  /-- Whatever was raised before, once the place is cleared all that was built is accounted for. -/
  cleared (hf : c.IsFinal) : ∃ w' control,
    Config.Moves ⟨c.world, .call (.clear p), []⟩ ⟨w', control, []⟩ ∧
      ((∃ r, control = .done r) ∨ ∃ m, control = .raised m) ∧
      w'.layers (.place p) = [] ∧ Config.Accounted w' p

variable {o r : Receiver} {s s' : Site} {n i j : Nat} {w w' : World} {K : List Frame}
  {m : Payload} {ps ps' : List Parcel} {b : Binding} {c c' c'' : Config}

/-! ### Runs -/

namespace Config

lemma Goes.trans (h : Goes s c ps c') (h' : Goes s c' ps' c'') : Goes s c (ps ++ ps') c'' := by
  induction h' with
  | refl => simpa using h
  | move _ hm ih =>
    rw [← List.append_assoc]
    exact ih.move hm
  | next _ hf hx ih => exact ih.next hf hx

lemma Leads.goes (h : c.Leads ps c') (s : Site) : Goes s c ps c' := by
  induction h with
  | refl c => exact .refl c
  | @step c _ _ _ hm _ ih => exact ((Goes.refl c).move hm).trans ih

lemma Goes.arises (h : Goes s c ps c') (hc : c.Arises) : c'.Arises := by
  induction h with
  | refl => exact hc
  | move _ hm ih => exact ih.move hm
  | next _ hf _ ih => exact ih.next hf _

end Config

open Config

/-- What stands in a place after a host has connected there, or has failed to. -/
lemma bears_offer {inner : List Layer} (hl : w.layers s = inner) (hq : w.spare = [])
    (hr : ∀ r, offer inner = some r → Open o s inner r) :
    w.Bears o s 1 (offer (w.layers s)).toList := by
  subst hl
  constructor
  · rw [hq, List.append_nil]
    exact Option.length_toList_le
  · intro r hmem
    refine hr r ?_
    simpa [hq] using hmem

/-- A host may make its next call when the one before has come to its end. -/
lemma Thread.next (h : Thread o s n c) (hf : c.IsFinal) {x : Call} (hx : x.Attends s) :
    Thread o s n ⟨c.world, .call x, []⟩ := by
  cases h with
  | @loose _ w control K hw hc hK hb =>
    cases control with
    | done r => exact .loose hw hx (by simp) hb
    | raised m => exact .loose hw hx (by simp) hb
    | _ => cases hf
  | @connected w reply base settled inner K k hw hbase hl hq hr =>
    cases hbase with
    | vacant => exact .loose hw hx (by simp) (bears_offer hl hq hr)
    | handoff hb hK => cases k <;> cases hf
  | @failed w m base settled outer inner K hw hbase hl ho hq hr =>
    cases hbase with
    | vacant =>
      cases outer with
      | nil => exact .loose hw hx (by simp) (bears_offer hl hq hr)
      | cons l outer => cases hf
    | handoff hb hK => cases outer <;> cases hf
  | _ => cases hf

/-- A run goes from phase to phase, and gives the final receiver no more than is to be given. -/
lemma Thread.goes (h : Thread o s n c) (hn : n ≤ 1) (ho : o.Calm) (hg : Goes s c ps c') :
    ∃ n', Thread o s n' c' ∧ ps.length + n' ≤ n ∧ (∀ q ∈ ps, q.1 = o) ∧
      c.world.Ages s c'.world := by
  induction hg with
  | refl => exact ⟨n, h, by simp, by simp, .refl s _⟩
  | @move c' c'' ps _ hm ih =>
    obtain ⟨n', h', hlen, hto, hages⟩ := ih
    obtain ⟨n'', h'', hlen', hto', hages'⟩ := h'.move (by omega) ho hm
    refine ⟨n'', h'', ?_, ?_, hages.trans hages'⟩
    · rw [List.length_append]
      omega
    · intro q hq
      rcases List.mem_append.1 hq with hq | hq
      · exact hto q hq
      · exact hto' q hq
  | next _ hf hx ih =>
    obtain ⟨n', h', hlen, hto, hages⟩ := ih
    exact ⟨n', h'.next hf hx, hlen, hto, hages⟩

/-! ### The parts of the boundary -/

/-- An operation that was given an error amid its handoff neither hands over again nor starts a
successor. -/
lemma Thread.through (h : Thread o s n c) (hget : c.world.binding? s i = some b)
    (hr : b.receiver = none) (hs : b.storage ≠ .predecessor) (hcleanup : b.cleanup ≠ .successor) :
    c.control ≠ .build s i ∧ c.control ≠ .start s (i + 1) := by
  rw [World.binding?_eq_some_iff] at hget
  constructor
  · intro hc
    cases h with
    | loose hw hfit hK hb =>
      subst hc
      exact hfit
    | @building w below b' K hw hb hl hK hq =>
      simp only [Control.build.injEq, true_and] at hc
      subst hc
      rw [hl] at hget
      obtain rfl : b' = b := by simpa using hget
      obtain ⟨r, hreceiver, -⟩ := hb.exists_receiver
      simp [hr] at hreceiver
    | _ => cases hc
  · intro hc
    cases h with
    | loose hw hfit hK hb =>
      subst hc
      exact hfit
    | @starting _ w outer inner K hw hl ho hlast hK hb =>
      simp only [Control.start.injEq, true_and] at hc
      have hlt : i < outer.length := by omega
      rw [hl, List.getElem?_append_left hlt] at hget
      rcases hlast b (by rwa [List.getLast?_eq_getElem?, hc]) with hp | hp
      · exact hs hp
      · exact hcleanup hp
    | _ => cases hc

lemma Thread.captures {p : Int} (h : Thread o (.place p) n c) (ho : o.Calm)
    (hc : c.control = .raised m) (hK : .handoff s i ∈ c.stack) (harises : c.Arises) :
    s = .place p ∧ c.Captures s i m := by
  obtain ⟨rfl, rfl, b, K, hover⟩ := h.exists_handsOver hK
  obtain ⟨w', below, inner, r, hlen, hr, hleads, hl⟩ := hover.leads hc
  obtain ⟨below', inner', hlen', hl', hamid⟩ := hover.exists_layers
  obtain ⟨gs, hstack, -⟩ := hover.exists_stack
  have hget : w'.binding? (.place p) i = some b.spend := hlen ▸ World.binding?_of_layers hl
  have hget₀ : c.world.binding? (.place p) i = some b := hlen' ▸ World.binding?_of_layers hl'
  refine ⟨rfl, b, r, w', gs, K, hget₀, hr, hstack, ?_, hleads, hget, ?_⟩
  · exact fun s' j hmem => (hover.idle _ hmem).ne_handoff s' j rfl
  intro ps c' hgoes b' hb' hserial
  obtain ⟨n₁, h₁, hlen₁, -⟩ := h.goes (Nat.le_refl 1) ho (hleads.goes _)
  obtain ⟨n₂, h₂, -, -, hages⟩ := h₁.goes (by omega) ho hgoes
  have hsound := ((hleads.goes (.place p)).arises harises).booked.1 p
  rw [World.binding?_eq_some_iff] at hb' hget
  rcases hages.binding hb' with hnew | ⟨b₁, hb₁, haged⟩
  · -- an operation that came later has another number
    have hold : (Layer.bind b.spend).serial < w'.nextSerial (.place p) :=
      hsound.serial_lt _ (List.mem_of_getElem? hget)
    have hnew' : w'.nextSerial (.place p) ≤ b'.serial := hnew
    simp only [Layer.serial, Binding.serial_spend] at hold
    omega
  · obtain rfl : b₁ = b.spend := by
      have := hb₁.symm.trans hget
      simpa using this
    obtain ⟨hnone, hs, hcleanup⟩ := haged.of_spent rfl
    refine ⟨hnone, h₂.through (World.binding?_eq_some_iff.2 hb') hnone ?_ ?_⟩
    · rw [hs]
      exact hamid.storage_ne
    · rw [hcleanup, Binding.cleanup_spend]
      rcases hamid.cleanup_eq with heq | heq <;> simp [heq]

lemma leads_raised {K' : List Frame} (hc : c.control = .raised m) (hK : c.stack = K ++ K')
    (hf : ∀ f ∈ K, f.catches = false) : ∃ w', c.Leads [] ⟨w', .raised m, K'⟩ := by
  obtain ⟨w, control, stack⟩ := c
  obtain rfl : control = .raised m := hc
  obtain rfl : stack = K ++ K' := hK
  exact leads_unwind hf w m K'

lemma Thread.escapes (h : Thread o s n c) (hm : c.Moves c') (hc' : c'.control = .raised m)
    (hout : c.control.isHanding = false)
    (hdrop : ∀ s i v, c.control ≠ .complete (.child .predecessor s i) (.value v))
    (hf : ∀ r rest, .attempt r rest ∉ c'.stack) : ∃ w', c'.Leads [] ⟨w', .raised m, []⟩ := by
  refine leads_raised hc' (List.append_nil _).symm ?_
  intro f hmem
  cases f with
  | handoff s' i =>
    rcases handoff_mem_of_moves hm hmem with hK | ⟨v, hv⟩
    · obtain ⟨-, -, b, K, hover⟩ := h.exists_handsOver hK
      exact absurd hover.isHanding (by simp [hout])
    · exact absurd hv (hdrop s' i v)
  | attempt r rest => exact absurd hmem (hf r rest)
  | _ => rfl

lemma Thread.dropping {v : Value} (h : Thread o s n c) (hn : n ≤ 1) (ho : o.Calm)
    (hc : c.control = .complete (.child .predecessor s' i) (.value v)) :
    ∃ c', c.Moves c' ∧ c'.stack = .handoff s' i :: c.stack ∧
      (c'.control = .build s' i ∨ ∃ m, c'.control = .raised m) := by
  cases h with
  | @loose _ w control K hw hfit hK hb =>
    subst hc
    have hb' : w.Bears o s n (.child .predecessor s' i :: (offer (w.layers s)).toList) := hb
    obtain ⟨rfl, -, -, hopen⟩ := hb'.single hn
    obtain ⟨rfl, below, b, above, r, hl, rfl, hcleanup, -, -⟩ := hopen.split ho.isChild_eq
    have hmove : Config.next ⟨w, .complete (.child .predecessor s' below.length) (.value v), K⟩ =
        some (accept (w.note s' [.logged b.serial .produced, .stored b.serial]) s' below.length b v
          K) := by
      simp [Config.next, complete, World.binding?_of_layers hl, hcleanup, receive]
    refine ⟨_, hmove, rfl, ?_⟩
    simp only [accept]
    cases (((w.note s' [.logged b.serial .produced, .stored b.serial]).setBinding s' below.length
      (b.store v)).dropAbove s' (below.length + 1) false).2 with
    | none => exact .inl rfl
    | some m => exact .inr ⟨m, rfl⟩
  | _ => cases hc

lemma Thread.building_stack (h : Thread o s n c) (hc : c.control = .build s' i) :
    ∃ K, c.stack = .handoff s' i :: K := by
  cases h with
  | loose hw hfit hK hb =>
    subst hc
    exact hfit.elim
  | @building w below b K hw hb hl hK hq =>
    obtain ⟨rfl, rfl⟩ : s = s' ∧ below.length = i := by simpa using hc
    exact ⟨K, rfl⟩
  | _ => cases hc

lemma Thread.connecting_stack {x : Sender} (h : Thread o s n c)
    (hc : c.control = .connect x r s' j) :
    (∀ f ∈ c.stack, ∃ i, f = .guard s' i) ∨ ∃ i, i < j ∧ .handoff s' i ∈ c.stack := by
  cases h with
  | loose hw hfit hK hb =>
    subst hc
    exact hfit.elim
  | @connecting w y r' base settled outer K hw hf hl ho hq hx hr =>
    obtain ⟨-, -, rfl, rfl⟩ : y = x ∧ r' = r ∧ s = s' ∧ base.length + outer.length = j := by
      simpa using hc
    cases hf with
    | vacant =>
      refine .inl ?_
      intro f hmem
      rw [List.append_nil] at hmem
      obtain ⟨i, rfl, -⟩ := Frame.exists_of_mem_guards hmem
      exact ⟨i, rfl⟩
    | @handoff below b K hb hK =>
      refine .inr ⟨below.length, ?_, ?_⟩
      · simp only [List.length_append, List.length_singleton]
        omega
      · exact List.mem_append_right _ List.mem_cons_self
  | _ => cases hc

/-- **The boundary of what is caught.** A lawful sender, with operations nested to any depth, is
connected to a calm receiver in a vacant place, and the host then makes calls as it likes: at every
moment of every such run the payloads raised amid handoffs, and only those, become errors. -/
theorem Config.boundary_of_goes {w : World} {p : Int} {x : Sender} {o : Receiver}
    (hx : x.Lawful) (ho : o.Calm) (hq : ∀ t ∈ w.queue, ∃ j, t = .job j)
    (hl : w.layers (.place p) = [])
    (harises : Arises ⟨w, .call (.connect p x o), []⟩) {ps : List Parcel} {c : Config}
    (hgoes : Goes (.place p) ⟨w, .call (.connect p x o), []⟩ ps c) : Boundary p o ps c := by
  have hlaw : w.Lawful (.place p) := by
    constructor
    · intro l hmem
      simp [hl] at hmem
    · intro t ht
      obtain ⟨j, rfl⟩ := hq t ht
      trivial
  have hspare : w.spare = [] := by
    refine List.filterMap_eq_nil_iff.2 ?_
    intro t ht
    obtain ⟨j, rfl⟩ := hq t ht
    rfl
  have hstart : Thread o (.place p) 1 ⟨w, .call (.connect p x o), []⟩ :=
    .called hlaw rfl hl hspare hx
  obtain ⟨n, h, hlen, hto, -⟩ := hstart.goes (Nat.le_refl 1) ho hgoes
  have hc := hgoes.arises harises
  constructor
  · omega
  · exact hto
  · exact fun hraised hK => h.captures ho hraised hK hc
  · exact leads_raised
  · exact h.escapes
  · intro s i hK
    obtain ⟨-, -, b, K, hover⟩ := h.exists_handsOver hK
    exact hover.isHanding
  · exact handoff_mem_of_moves
  · exact h.dropping (by omega) ho
  · exact h.building_stack
  · exact h.connecting_stack
  · exact fun hf => (hc.next hf (.clear p)).exists_clear

/-- A binding whose factory raises a payload. -/
def raisingSender : Sender :=
  .bind (.ready (.value { n := 1 })) { call := fun env => { env, raised := some (.number 7) } }
    fun _ => .ready .done

/-- The moment after the factory of such a sender has raised its payload. -/
def raisingFactory : Config :=
  let connected := Config.run 4
    ⟨{}, .call (.connect 0 raisingSender (.recorder (.place 0) none)), []⟩
  Config.run 5 ⟨connected.world, .call (.start 0), []⟩

theorem Config.boundary_of_goes_raising :
    raisingFactory.control = .raised (.number 7) ∧
    .handoff (.place 0) 0 ∈ raisingFactory.stack ∧
    ∃ ps, Goes (.place 0) ⟨{}, .call (.connect 0 raisingSender (.recorder (.place 0) none)), []⟩ ps
        raisingFactory ∧
      Boundary 0 (.recorder (.place 0) none) ps raisingFactory := by
  obtain ⟨ps, hconnect⟩ := (reaches_run 4
    ⟨{}, .call (.connect 0 raisingSender (.recorder (.place 0) none)), []⟩).exists_leads
  obtain ⟨ps', hstart⟩ := (reaches_run 5 ⟨(run 4 ⟨{}, .call (.connect 0 raisingSender
    (.recorder (.place 0) none)), []⟩).world, .call (.start 0), []⟩).exists_leads
  have hgoes := ((hconnect.goes (.place 0)).next rfl (x := .start 0) rfl).trans
    (hstart.goes (.place 0))
  refine ⟨rfl, List.mem_cons_self, ps ++ ps', hgoes, ?_⟩
  refine boundary_of_goes ?_ ?_ ?_ rfl (.first _) hgoes
  · exact ⟨trivial, fun _ => trivial⟩
  · trivial
  · simp

end Handoff
