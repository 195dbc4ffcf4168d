import Handoff.Proofs.Agreement.Record
import Handoff.Proofs.Agreement.Steps
import Handoff.Proofs.Panic.Boundary
import Handoff.Proofs.Prompt.Unaided

/-!
# Waiting comes to the same as connecting and starting

A host may connect a sender at a vacant place, to a receiver that records its completion, start it
and clear the place again; or it may make the one call that blocks until the sender completes. If
the sender puts nothing off, the two agree: what was recorded is what the blocked caller gets, a
payload raised on the way is raised to it, and the record of its frame is that of the place. This is
`Sender.wait_agrees`. It rests on the two courses being twins of each other up to the point at which
the caller's operation is dropped, which the clear does at the place.
-/

namespace Handoff

open Config Machine

/-! ### What a call comes to -/

/-- What a blocked caller gets as a result, if it gets one. -/
def Outcome.result? : Outcome → Option (Except Failure (Option Int64))
  | answered (.completion c) => some c.toResult
  | _ => none

/-- Waiting for a sender agrees with connecting it at a place, to a receiver that records its
completion and to which no stop request comes, and starting it and clearing the place. -/
structure Agrees (p : Int) (s : Sender) (w : World) : Prop where
  /-- What connecting raises, the blocked caller raises. -/
  connect_raised {m : Payload} {ps : List Parcel} {w₁ : World}
    (h : w.Runs [.connect p s (.recorder (.place p) none)] [.raised m] ps w₁) :
    ∃ ps' w' more, w.Runs [.wait s] [.raised m] ps' w' ∧ w.Echoes p w₁ w' more
  /-- What starting raises, the blocked caller raises, whatever was recorded. -/
  start_raised {a : Reply} {m : Payload} {ps : List Parcel} {w₁ : World}
    (h : w.Runs [.connect p s (.recorder (.place p) none), .start p]
      [.answered a, .raised m] ps w₁) :
    ∃ ps' w' more, w.Runs [.wait s] [.raised m] ps' w' ∧ w.Echoes p w₁ w' more
  /-- What the clear after a completion raises, the blocked caller raises. -/
  clear_raised {a b : Reply} {m : Payload} {c : Completion Int64 Failure} {ps : List Parcel}
    {w₁ : World} (h : w.Runs [.connect p s (.recorder (.place p) none), .start p, .clear p]
      [.answered a, .answered b, .raised m] ps w₁) (hc : w₁.recorded = w.recorded ++ [c]) :
    ∃ ps' w', w.Runs [.wait s] [.raised m] ps' w' ∧ w.Echoes p w₁ w' []
  /-- If all goes well the blocked caller gets what was recorded, and all is dropped as the clear
  drops it, and then what the completion carries. -/
  returned {a b e : Reply} {c : Completion Int64 Failure} {ps : List Parcel} {w₁ : World}
    (h : w.Runs [.connect p s (.recorder (.place p) none), .start p, .clear p]
      [.answered a, .answered b, .answered e] ps w₁) (hc : w₁.recorded = w.recorded ++ [c]) :
    ∃ o ps' w' x, w.Runs [.wait s] [o] ps' w' ∧ o.result? = some c.toResult ∧
      x.map Value.n = c ∧ w.Echoes p w₁ w' (dropCarried x)

namespace World.Runs

variable {w w' : World} {x : Call} {xs : List Call} {o : Outcome} {os : List Outcome}
  {ps : List Parcel}

/-- The first of several calls, and the rest. -/
lemma uncons (h : w.Runs (x :: xs) (o :: os) ps w') :
    ∃ c ps₁ ps₂, Leads ⟨w, .call x, []⟩ ps₁ c ∧ c.IsFinal ∧ c.outcome = o ∧ ps = ps₁ ++ ps₂ ∧
      c.world.Runs xs os ps₂ w' := by
  generalize hos : o :: os = os' at h
  cases h with
  | cons h hf h' =>
    obtain ⟨rfl, rfl⟩ := List.cons.inj hos
    exact ⟨_, _, _, h, hf, rfl, rfl, h'⟩

/-- A call that comes to an end within a number of moves. -/
lemma of_run {n : Nat} {c : Config} (hrun : run n ⟨w, .call x, []⟩ = c) (hf : c.IsFinal)
    (h : c.world.Runs xs os ps w') : ∃ ps', w.Runs (x :: xs) (c.outcome :: os) ps' w' := by
  subst hrun
  obtain ⟨ps₁, hleads⟩ := (reaches_run n ⟨w, .call x, []⟩).exists_leads
  exact ⟨_, .cons hleads hf h⟩

lemma eq_of_nil (h : w.Runs [] os ps w') : ps = [] ∧ w' = w := by
  cases h
  exact ⟨rfl, rfl⟩

end World.Runs

namespace Config

variable {c d : Config} {ps : List Parcel} {m : Payload} {a : Reply}

lemma eq_of_outcome_raised (h : c.outcome = .raised m) : c = ⟨c.world, .raised m, []⟩ := by
  obtain ⟨w, x, K⟩ := c
  unfold outcome at h
  split at h <;> simp_all

lemma eq_of_outcome_answered (h : c.outcome = .answered a) : c = ⟨c.world, .done a, []⟩ := by
  obtain ⟨w, x, K⟩ := c
  unfold outcome at h
  split at h <;> simp_all

/-- A course to the end goes on after its first move. -/
lemma Leads.tail {c' : Config} (h : Leads c ps c') (hf : c'.IsFinal) (hd : c.next = some d)
    (hg : c.given = []) : Leads d ps c' := by
  cases h with
  | refl => exact absurd (hd.symm.trans hf) (by simp)
  | step hm h' =>
    obtain rfl := Option.some.inj (hd.symm.trans hm)
    rwa [hg, List.nil_append]

end Config

namespace Sender

variable {s : Sender} {p : Int} {w : World} {c : Config} {ps : List Parcel}

/-! ### The two courses -/

/-- A blocked caller's connect is the twin of that at a vacant place. -/
lemma twin_wait (hi : s.Immediate) (hl : w.layers (.place p) = []) (hq : w.queue = []) :
    ∃ c d, Config.next ⟨w, .call (.connect p s (.recorder (.place p) none)), []⟩ = some c ∧
      Config.next ⟨w, .call (.wait s), []⟩ = some d ∧
      c.Twin w p [.waitConnected, .waitOver] none d := by
  let w₀ : World := { w with waiter := some { id := w.waits }, waits := w.waits + 1 }
  have hworld : World.Twin w p none (w.setLayers (.place p) [])
      ((w₀.setLayers .wait []).note .wait [.waitStarted]) := by
    constructor
    · simp [World.setLayers, World.put]
    · simp
    · have hplace : w₀.place .wait = w.place .wait := rfl
      simpa [World.nextSerial, World.setLayers, hplace] using Paired.first w p
    · rfl
    · rfl
    · exact hq
    · rfl
    · simp [World.setLayers, World.put]
    · exact ⟨[], [], by simp [World.setLayers], World.actsAt_note, .nil⟩
  refine ⟨⟨w.setLayers (.place p) [], .connect s (.recorder (.place p) none) (.place p) 0, []⟩,
    ⟨(w₀.setLayers .wait []).note .wait [.waitStarted], .connect s (.waiter w.waits) .wait 0,
      [.waitConnected, .waitOver]⟩, ?_, rfl, hworld, .connect hi .final 0, .base⟩
  simp [Config.next, Machine.call, connectPlace, hl]

lemma leads_connect_twin (hi : s.Immediate) (hl : w.layers (.place p) = []) (hq : w.queue = [])
    (h : Leads ⟨w, .call (.connect p s (.recorder (.place p) none)), []⟩ ps c) (hf : c.IsFinal)
    (hn : ps.length ≤ 1) :
    ∃ d g, Leads ⟨w, .call (.wait s), []⟩ (ps.map fun q => (.waiter w.waits, q.2)) d ∧
      g.toList = ps.map Prod.snd ∧ c.Twin w p [.waitConnected, .waitOver] g d := by
  obtain ⟨c₀, d₀, hc₀, hd₀, ht₀⟩ := twin_wait hi hl hq
  obtain ⟨d, g, hleads, hg, ht⟩ := ht₀.leads (h.tail hf hc₀ rfl) (by simpa using hn)
  exact ⟨d, g, .quiet hd₀ rfl hleads, by simpa using hg, ht⟩

/-- Once the connect has returned, the starts are twins. -/
lemma leads_start_twin {w₁ : World} {a : Reply} {g : Option (Completion Value Failure)} {d : Config}
    (ht : Config.Twin w p [.waitConnected, .waitOver] g ⟨w₁, .done a, []⟩ d)
    (h : Leads ⟨w₁, .call (.start p), []⟩ ps c) (hf : c.IsFinal)
    (hn : g.toList.length + ps.length ≤ 1) :
    ∃ d' g', Leads d (ps.map fun q => (.waiter w.waits, q.2)) d' ∧
      g'.toList = g.toList ++ ps.map Prod.snd ∧ c.Twin w p [.waitStarted, .waitOver] g' d' := by
  obtain ⟨u, y, L⟩ := d
  obtain ⟨hw, hy, hL⟩ := ht
  cases hy
  cases hL
  obtain ⟨q, hknown⟩ := Option.isSome_iff_exists.1 hw.known
  have hstart : Config.next ⟨w₁, .call (.start p), []⟩ = some ⟨w₁, .start (.place p) 0, []⟩ := by
    simp [Config.next, Machine.call, withPlace, hknown]
  have ht₀ : Config.Twin w p [.waitStarted, .waitOver] g ⟨w₁, .start (.place p) 0, []⟩
      ⟨u, .start .wait 0, [.waitStarted, .waitOver]⟩ := ⟨hw, .start 0, .base⟩
  obtain ⟨d', g', hleads, hg, ht⟩ := ht₀.leads (h.tail hf hstart rfl) hn
  exact ⟨d', g', .quiet rfl rfl hleads, hg, ht⟩

end Sender

namespace Config

variable {w w₁ : World} {p : Int} {g : Option (Completion Value Failure)} {d : Config}
  {m : Payload}

/-- A payload goes out of the frame of a blocked caller. -/
lemma Twin.leads_unwound {f : Frame} (hpass : ∀ u K, unwind u m f K = ⟨u, .raised m, K⟩)
    (ht : Config.Twin w p [f, .waitOver] g ⟨w₁, .raised m, []⟩ d) :
    Leads d [] ⟨d.world.unwound, .raised m, []⟩ := by
  obtain ⟨u, y, L⟩ := d
  obtain ⟨-, hy, hL⟩ := ht
  cases hy
  cases hL
  exact .quiet (congrArg some (hpass u _)) rfl (.quiet rfl rfl (.refl _))

/-- Clearing a place comes to an end at once. -/
lemma leads_clear {c : Config} {ps : List Parcel} (hknown : (w.places.get? (.place p)).isSome)
    (h : Leads ⟨w, .call (.clear p), []⟩ ps c) (hf : c.IsFinal) :
    c = finishOr (w.dropAbove (.place p) 0 false).1 (w.dropAbove (.place p) 0 false).2 [] := by
  obtain ⟨q, hknown⟩ := Option.isSome_iff_exists.1 hknown
  have hclear : Config.next ⟨w, .call (.clear p), []⟩ = some (finishOr
      (w.dropAbove (.place p) 0 false).1 (w.dropAbove (.place p) 0 false).2 []) := by
    simp [Config.next, Machine.call, withPlace, hknown]
  have hend : (finishOr (w.dropAbove (.place p) 0 false).1
      (w.dropAbove (.place p) 0 false).2 []).IsFinal := by
    cases (w.dropAbove (.place p) 0 false).2 <;> rfl
  exact ((h.tail hf hclear rfl).unique (.refl _) hf hend).2

end Config

/-! ### Side by side -/

/-- A host has come to the end of a call, and the blocked caller is as far: it is left with what the
frames below stand for. At most one completion is given in all. -/
inductive Abreast (p : Int) (s : Sender) (w : World) (bottom : List Frame) (c : Config) : Prop
  | intro {n : Nat} {g : Option (Completion Value Failure)} {d : Config} {ps : List Parcel}
      (thread : Thread (.recorder (.place p) none) (.place p) n c)
      (given_le : g.toList.length + n ≤ 1) (arises : c.Arises) (final : c.IsFinal)
      (leads : Leads ⟨w, .call (.wait s), []⟩ ps d) (twin : c.Twin w p bottom g d)

namespace Abreast

variable {p : Int} {s : Sender} {w w₀ w₁ : World} {ps : List Parcel} {a : Reply} {m : Payload}
  {x : Completion Int64 Failure} {xs : List Call} {o : Outcome} {os : List Outcome}

/-- A host connects at a vacant place, and has its further calls yet to make. -/
lemma connect (hs : s.Lawful) (hi : s.Immediate) (hl : w.layers (.place p) = [])
    (hq : w.queue = [])
    (harises : Arises ⟨w, .call (.connect p s (.recorder (.place p) none)), []⟩)
    (h : w.Runs (.connect p s (.recorder (.place p) none) :: xs) (o :: os) ps w₁) :
    ∃ c ps', Abreast p s w [.waitConnected, .waitOver] c ∧ c.outcome = o ∧
      c.world.Runs xs os ps' w₁ := by
  obtain ⟨c, ps₁, ps₂, h, hf, ho, -, hrest⟩ := h.uncons
  have hlaw : w.Lawful (.place p) := by
    constructor
    · simp [hl]
    · simp [hq]
  have hthread : Thread (.recorder (.place p) none) (.place p) 1
      ⟨w, .call (.connect p s (.recorder (.place p) none)), []⟩ :=
    .called hlaw rfl hl (by simp [World.spare, hq]) hs
  obtain ⟨n, hthread, hlen, -, -⟩ := hthread.goes (Nat.le_refl 1) trivial (h.goes _)
  obtain ⟨d, g, hleads, hg, ht⟩ := Sender.leads_connect_twin hi hl hq h hf (by omega)
  refine ⟨c, ps₂, .intro hthread ?_ ((h.goes (.place p)).arises harises) hf hleads ht, ho, hrest⟩
  rwa [hg, List.length_map]

/-- A host starts what it has connected. -/
lemma start (hab : Abreast p s w [.waitConnected, .waitOver] ⟨w₀, .done a, []⟩)
    (h : w₀.Runs (.start p :: xs) (o :: os) ps w₁) :
    ∃ c ps', Abreast p s w [.waitStarted, .waitOver] c ∧ c.outcome = o ∧
      c.world.Runs xs os ps' w₁ := by
  obtain ⟨hthread, hle, harises, hfinal, hleads, ht⟩ := hab
  obtain ⟨c, ps₁, ps₂, h, hf, ho, -, hrest⟩ := h.uncons
  obtain ⟨n, hthread', hlen, -, -⟩ :=
    (hthread.next hfinal (x := .start p) rfl).goes (by omega) trivial (h.goes _)
  obtain ⟨d, g, hleads', hg, ht'⟩ := Sender.leads_start_twin ht h hf (by omega)
  refine ⟨c, ps₂, .intro hthread' ?_ ((h.goes (.place p)).arises (harises.next hfinal _)) hf
    (hleads.trans hleads') ht', ho, hrest⟩
  rw [hg, List.length_append, List.length_map]
  omega

/-- A payload that a call raises to the host is raised to the blocked caller. -/
lemma raises {f : Frame} (hab : Abreast p s w [f, .waitOver] ⟨w₁, .raised m, []⟩)
    (hpass : ∀ u K, unwind u m f K = ⟨u, .raised m, K⟩) (hbefore : Accounted w p) :
    ∃ ps' w' more, w.Runs [.wait s] [.raised m] ps' w' ∧ w.Echoes p w₁ w' more := by
  obtain ⟨-, -, harises, -, hleads, ht⟩ := hab
  obtain ⟨hsound, hbooked, -⟩ := harises.booked
  obtain ⟨more, hechoes⟩ := ht.world.echoes_unwound hbefore hsound hbooked
  exact ⟨_, _, more, .cons (hleads.trans (ht.leads_unwound hpass)) rfl (.nil _), hechoes⟩

/-- What was recorded, the blocked caller was given, and it drops its operation next. -/
lemma unblocks (hab : Abreast p s w [.waitStarted, .waitOver] ⟨w₀, .done a, []⟩)
    (hx : w₀.recorded = w.recorded ++ [x]) :
    ∃ y u ps', y.map Value.n = x ∧ World.Twin w p (some y) w₀ u ∧
      Leads ⟨w, .call (.wait s), []⟩ ps' (release u (.sent y) []) := by
  obtain @⟨n, g, ⟨u, control, stack⟩, ps', -, -, -, -, hleads, ⟨hw, hcontrol, hstack⟩⟩ := hab
  cases hcontrol
  cases hstack
  have hrecorded : w.recorded ++ [x] = w.recorded ++ (g.map (·.map Value.n)).toList :=
    hx.symm.trans hw.recorded_eq
  cases g with
  | none => simp at hrecorded
  | some y =>
    have hy : y.map Value.n = x := by simpa using hrecorded.symm
    exact ⟨y, u, ps', hy, hw,
      hleads.append_quiet (leads_release hw.waiter_eq hw.queue_eq a [])⟩

/-- A host clears the place after a completion, and the blocked caller goes on. -/
lemma clear (hab : Abreast p s w [.waitStarted, .waitOver] ⟨w₀, .done a, []⟩)
    (hbefore : Accounted w p) (h : w₀.Runs [.clear p] [o] ps w₁)
    (hx : w₁.recorded = w.recorded ++ [x]) :
    (∃ ps' w' y, o = .answered .nothing ∧ y.map Value.n = x ∧
      w.Runs [.wait s] [.answered (.completion x)] ps' w' ∧ w.Echoes p w₁ w' (dropCarried y)) ∨
    ∃ ps' w' m, o = .raised m ∧ w.Runs [.wait s] [.raised m] ps' w' ∧ w.Echoes p w₁ w' [] := by
  obtain ⟨c, ps₁, ps₂, hclear, hf, rfl, -, hrest⟩ := h.uncons
  obtain ⟨-, rfl⟩ := hrest.eq_of_nil
  have hknown : (w₀.places.get? (.place p)).isSome := by
    obtain ⟨-, -, -, -, -, ht⟩ := hab
    exact ht.world.known
  have hc := leads_clear hknown hclear hf
  have hworld : c.world = (w₀.dropAbove (.place p) 0 false).1 := by
    rw [hc]
    cases (w₀.dropAbove (.place p) 0 false).2 <;> rfl
  obtain ⟨y, u, ps', rfl, hw, hleads⟩ := hab.unblocks (hworld ▸ hx)
  obtain ⟨-, -, harises, hfinal, -, -⟩ := hab
  have hafter : Accounted c.world p := by
    have hcarises : c.Arises := (hclear.goes (.place p)).arises (harises.next hfinal _)
    exact hcarises.accounted (by simp [hworld, World.layers_dropAbove])
  have hechoes {more : List Act} (hmore : ∀ a ∈ more, a.isPlain = true) :
      w.Echoes p c.world ((u.dropAbove .wait 0 false).1.leave.note .wait more) more :=
    World.Twin.echoes (hworld ▸ hw.dropAbove 0 false) hbefore hafter hmore
  rw [release_sent, hw.dropAbove_raised_eq] at hleads
  cases hraised : (w₀.dropAbove (.place p) 0 false).2 with
  | none =>
    simp only [hraised] at hc hleads
    exact .inl ⟨_, _, y, by rw [hc]; rfl, rfl, .cons hleads rfl (.nil _),
      hechoes (World.isPlain_dropCarried y)⟩
  | some m =>
    simp only [hraised] at hc hleads
    refine .inr ⟨_, _, m, by rw [hc]; rfl, .cons hleads rfl (.nil _), ?_⟩
    have hleft := hechoes (List.forall_mem_nil _)
    rwa [World.note_nil] at hleft

end Abreast

/-! ### Agreement -/

namespace Sender

variable {s : Sender} {p : Int} {w : World}

/-- **Waiting agrees with connecting and starting.** A sender whose leaves put nothing off, and
complete their receiver at most once, is connected at a vacant place and started, and the place is
cleared; or a caller blocks until it completes, all else being equal. However the one ends, so does
the other. -/
theorem wait_agrees (hs : s.Lawful) (hi : s.Immediate) (hl : w.layers (.place p) = [])
    (hq : w.queue = [])
    (harises : Arises ⟨w, .call (.connect p s (.recorder (.place p) none)), []⟩) :
    Agrees p s w := by
  have hbefore : Accounted w p := harises.accounted hl
  have hcleared {a b : Reply} {o : Outcome} {x : Completion Int64 Failure} {ps : List Parcel}
      {w₁ : World} (h : w.Runs [.connect p s (.recorder (.place p) none), .start p, .clear p]
        [.answered a, .answered b, o] ps w₁) (hx : w₁.recorded = w.recorded ++ [x]) :
      (∃ ps' w' y, o = .answered .nothing ∧ y.map Value.n = x ∧
        w.Runs [.wait s] [.answered (.completion x)] ps' w' ∧
        w.Echoes p w₁ w' (dropCarried y)) ∨
      ∃ ps' w' m, o = .raised m ∧ w.Runs [.wait s] [.raised m] ps' w' ∧
        w.Echoes p w₁ w' [] := by
    obtain ⟨c, ps', hab, ho, hrest⟩ := Abreast.connect hs hi hl hq harises h
    rw [eq_of_outcome_answered ho] at hab
    obtain ⟨c', ps'', hab', ho', hrest'⟩ := hab.start hrest
    rw [eq_of_outcome_answered ho'] at hab'
    exact hab'.clear hbefore hrest' hx
  constructor
  · intro m ps w₁ h
    obtain ⟨c, ps', hab, ho, hrest⟩ := Abreast.connect hs hi hl hq harises h
    obtain ⟨-, rfl⟩ := hrest.eq_of_nil
    rw [eq_of_outcome_raised ho] at hab
    exact hab.raises (fun _ _ => rfl) hbefore
  · intro a m ps w₁ h
    obtain ⟨c, ps', hab, ho, hrest⟩ := Abreast.connect hs hi hl hq harises h
    rw [eq_of_outcome_answered ho] at hab
    obtain ⟨c', ps'', hab', ho', hrest'⟩ := hab.start hrest
    obtain ⟨-, rfl⟩ := hrest'.eq_of_nil
    rw [eq_of_outcome_raised ho'] at hab'
    exact hab'.raises (fun _ _ => rfl) hbefore
  · intro a b m x ps w₁ h hx
    obtain ⟨_, _, _, ho, -⟩ | ⟨ps', w', m', ho, hwait, hechoes⟩ := hcleared h hx
    · cases ho
    · cases ho
      exact ⟨ps', w', hwait, hechoes⟩
  · intro a b e x ps w₁ h hx
    obtain ⟨ps', w', y, -, hy, hwait, hechoes⟩ | ⟨_, _, _, ho, -⟩ := hcleared h hx
    · exact ⟨_, ps', w', y, hwait, rfl, hy, hechoes⟩
    · cases ho

/-- A binding whose factory builds an inline value from the one that is stored. -/
def incrementing : Sender :=
  .bind (.ready (.value { n := 1 })) { call := fun env => { env } }
    fun env => .ready (.value { n := innermost env + 1 })

/-- A leaf that completes with done, and whose drop raises a payload. -/
def bursting : Sender :=
  .script { label := "leaf", connecting := .fill, start := [.complete .done],
            explode := some (.number 7), peekOnDrop := none }

/-- A blocked caller gets the value of the one, and the payload of the other. -/
theorem wait_agrees_incrementing_bursting :
    (∃ o ps w', World.Runs {} [.wait incrementing] [o] ps w' ∧
      o.result? = some (.ok (some 2))) ∧
    ∃ ps w', World.Runs {} [.wait bursting] [.raised (.number 7)] ps w' := by
  have hcourse {s : Sender} {w₁ w₂ : World} {c : Config}
      (h₁ : run 10 ⟨{}, .call (.connect 0 s (.recorder (.place 0) none)), []⟩ =
        ⟨w₁, .done .nothing, []⟩)
      (h₂ : run 20 ⟨w₁, .call (.start 0), []⟩ = ⟨w₂, .done .nothing, []⟩)
      (h₃ : run 2 ⟨w₂, .call (.clear 0), []⟩ = c) (hf : c.IsFinal) :
      ∃ ps, World.Runs {} [.connect 0 s (.recorder (.place 0) none), .start 0, .clear 0]
        [.answered .nothing, .answered .nothing, c.outcome] ps c.world := by
    obtain ⟨ps₃, hclear⟩ := World.Runs.of_run h₃ hf (.nil _)
    obtain ⟨ps₂, hstart⟩ := World.Runs.of_run h₂ rfl hclear
    exact World.Runs.of_run h₁ rfl hstart
  constructor
  · obtain ⟨ps, h⟩ := hcourse (s := incrementing) rfl rfl rfl rfl
    have hagrees : Agrees 0 incrementing {} :=
      wait_agrees ⟨trivial, fun _ => trivial⟩ ⟨trivial, fun _ => trivial⟩ rfl rfl (.first _)
    obtain ⟨o, ps', w', x, hwait, ho, -⟩ := hagrees.returned (c := .value 2) h rfl
    exact ⟨o, ps', w', hwait, ho⟩
  · obtain ⟨ps, h⟩ := hcourse (s := bursting) rfl rfl rfl rfl
    have hlaw : bursting.Lawful := ⟨by simp [Instr.spendsAll, Instr.spends], by simp⟩
    have himmediate : bursting.Immediate := by
      intro i hi
      obtain rfl : i = .complete .done := by simpa using hi
      rfl
    have hagrees : Agrees 0 bursting {} := wait_agrees hlaw himmediate rfl rfl (.first _)
    obtain ⟨ps', w', hwait, -⟩ := hagrees.clear_raised (c := .done) h rfl
    exact ⟨ps', w', hwait⟩

end Sender

end Handoff
