import Handoff.Proofs.Wiring.Wired

/-!
# Receivers that were not used up

A binding operation uses up its receiver when it passes a completion on, and the operation around it
does the same then or takes the completion for a value. So as long as the final receiver of a site
was not given anything, every binding operation there has its receiver still, except at moments when
a completion is on its way. `Config.Whole` lists the phases of a run in which this is so, and
`Config.Whole.move` says that a move leads from one to another.
-/

namespace Handoff

open Machine

namespace Layer

variable {l l' : Layer} {ls ls' base rest : List Layer} {b : Binding} {x : Sender} {r : Receiver}
  {k : Nat}

lemma rests_bare : l.bare.Rests ↔ l.Rests := by
  cases l <;> rfl

lemma rests_of_bare (h : ∀ l ∈ ls, l.Rests) (hls : ls'.map bare = ls.map bare) :
    ∀ l ∈ ls', l.Rests := by
  intro l' hl'
  have hmem : l'.bare ∈ ls.map bare := hls ▸ List.mem_map_of_mem hl'
  obtain ⟨l, hl, heq⟩ := List.mem_map.1 hmem
  rw [← rests_bare, ← heq, rests_bare]
  exact h l hl

lemma Releases.rests (h : l.Releases l') : l'.Rests := by
  cases h <;> trivial

end Layer

lemma Sender.Lays.rests {l : Layer} {x : Sender} {r : Receiver} {k : Nat} (h : x.Lays r k l) :
    l.Rests := by
  cases h with
  | bind => exact ⟨nofun, .predecessor, rfl, rfl⟩
  | _ => trivial

namespace Config

open Layer (Line Rests)

/-- What is being connected at a site stands on nothing, or on the operation whose handoff it is
part of. -/
inductive Ground (s : Site) : List Layer → List Frame → Prop where
  | host {K : List Frame} (hK : ∀ h, .handoff s h ∉ K) : Ground s [] K
  | handoff {base : List Layer} {b : Binding} {K : List Frame} (hbase : ∀ l ∈ base, l.Rests)
      (hr : b.receiver ≠ none) (hs : b.storage = .successor) (hK : ∀ h, .handoff s h ∉ K) :
      Ground s (base ++ [.bind b]) (.handoff s base.length :: K)

/-- Guards of operations that stand above a height. -/
def Guards (s : Site) (n : Nat) (gs : List Frame) : Prop :=
  ∀ f ∈ gs, ∃ i, f = .guard s i ∧ n ≤ i

/-- The phases of a run at a site where the sender `x` was connected to `o`, for as long as that
was not given anything. -/
inductive Whole (x : Sender) (o : Receiver) (s : Site) : Config → Prop where
  /-- Nothing is being connected at the site, unless the slot is occupied. -/
  | resting {c : Config} (hl : ∀ l ∈ c.world.layers s, l.Rests)
      (hK : ∀ h, .handoff s h ∉ c.stack) (hbuild : ∀ h, c.control ≠ .build s h)
      (hconnect : ∀ y r h, c.control = .connect y r s h →
        h < (c.world.layers s).length) : Whole x o s c
  | building {w : World} {base : List Layer} {b : Binding} {K : List Frame}
      (hl : w.layers s = base ++ [.bind b]) (hbase : ∀ l ∈ base, l.Rests)
      (hr : b.receiver ≠ none) (hK : ∀ h, .handoff s h ∉ K) :
      Whole x o s ⟨w, .build s base.length, .handoff s base.length :: K⟩
  | connecting {w : World} {y : Sender} {r : Receiver} {h : Nat} {ground inner : List Layer}
      {gs K : List Frame} (hg : Ground s ground K)
      (hl : w.layers s = ground ++ inner) (hinner : ∀ l ∈ inner, l.Rests)
      (hgs : Guards s ground.length gs) (hh : ground.length ≤ h) (hy : y.Patient) :
      Whole x o s ⟨w, .connect y r s h, gs ++ K⟩
  | connected {w : World} {a : Reply} {base inner : List Layer} {b : Binding} {gs K : List Frame}
      (hl : w.layers s = base ++ .bind b :: inner) (hbase : ∀ l ∈ base, l.Rests)
      (hinner : ∀ l ∈ inner, l.Rests) (hr : b.receiver ≠ none) (hs : b.storage = .successor)
      (hgs : Guards s (base.length + 1) gs) (hK : ∀ h, .handoff s h ∉ K) :
      Whole x o s ⟨w, .done a, gs ++ .handoff s base.length :: K⟩
  | failed {w : World} {m : Payload} {base inner : List Layer} {b : Binding} {gs K : List Frame}
      (hl : w.layers s = base ++ .bind b :: inner) (hbase : ∀ l ∈ base, l.Rests)
      (hinner : ∀ l ∈ inner, l.Rests) (hr : b.receiver ≠ none)
      (hgs : Guards s (base.length + 1) gs) (hK : ∀ h, .handoff s h ∉ K) :
      Whole x o s ⟨w, .raised m, gs ++ .handoff s base.length :: K⟩
  /-- A completion is on its way: the operations that it has passed have used up their receivers. -/
  | passing {w : World} {base rest : List Layer} {path : List Role} {z : Sender} {r : Receiver}
      {v : Completion Value Failure} {K : List Frame}
      (hl : w.layers s = base ++ rest) (hline : Line x o s base path z r)
      (hbase : ∀ l ∈ base, l.Rests) (hK : ∀ h, .handoff s h ∉ K) :
      Whole x o s ⟨w, .complete r v, K⟩

variable {x y : Sender} {o r : Receiver} {c c' : Config} {w : World} {s : Site}
  {base rest ground inner : List Layer} {b : Binding} {gs K : List Frame} {h n : Nat}

lemma guards_nil : Guards s n [] := by
  intro f hf
  cases hf

lemma Guards.ne_handoff (hgs : Guards s n gs) : .handoff s h ∉ gs := by
  intro hmem
  obtain ⟨i, hi, -⟩ := hgs _ hmem
  cases hi

lemma Idles.unhanded (hi : c.Idles s c') (hK : ∀ h, .handoff s h ∉ c.stack) :
    ∀ h, .handoff s h ∉ c'.stack := by
  intro h hmem
  exact hK h (hi.minded hmem (by simp [Frame.minds]))

lemma Whole.of_fills (hl : ∀ l ∈ c.world.layers s, l.Rests)
    (hK : ∀ h, .handoff s h ∉ c.stack) (hc : c.control.fills s = false) :
    c.Whole x o s := by
  refine .resting hl hK ?_ ?_
  · intro h hc'
    simp [hc', Control.fills] at hc
  · intro y r h hc'
    simp [hc', Control.fills] at hc

/-! ### From phase to phase -/

lemma Ground.of_bare {ground' : List Layer} (hg : Ground s ground K)
    (h : ground'.map Layer.bare = ground.map Layer.bare) : Ground s ground' K := by
  cases hg with
  | host hK =>
    obtain rfl : ground' = [] := List.map_eq_nil_iff.1 h
    exact .host hK
  | @handoff base b K hbase hr hs hK =>
    obtain ⟨base', b', rest', rfl, hbare, hrest, -, -, hreceiver, hstorage, -⟩ :=
      Layer.exists_of_map_bare_eq h
    obtain rfl : rest' = [] := List.map_eq_nil_iff.1 hrest
    have hlen : base'.length = base.length := by simpa using congrArg List.length hbare
    rw [← hlen]
    refine .handoff (Layer.rests_of_bare hbase hbare) ?_ (hstorage.trans hs) hK
    rw [hreceiver]
    exact hr

/-- What is being connected has been connected. -/
lemma Ground.connected (hg : Ground s ground K)
    (hl : w.layers s = ground ++ inner) (hinner : ∀ l ∈ inner, l.Rests)
    (hgs : Guards s ground.length gs) (a : Reply) :
    Whole x o s ⟨w, .done a, gs ++ K⟩ := by
  cases hg with
  | host hK =>
    refine .of_fills (by simpa [hl] using hinner) ?_ rfl
    exact fun h hmem => (List.mem_append.1 hmem).elim hgs.ne_handoff (hK h)
  | @handoff base b K hbase hr hs hK =>
    rw [List.append_assoc, List.singleton_append] at hl
    exact .connected hl hbase hinner hr hs (by simpa using hgs) hK

/-- What was being connected has failed. -/
lemma Ground.failed (hg : Ground s ground K)
    (hl : w.layers s = ground ++ inner) (hinner : ∀ l ∈ inner, l.Rests)
    (hgs : Guards s ground.length gs) (m : Payload) :
    Whole x o s ⟨w, .raised m, gs ++ K⟩ := by
  cases hg with
  | host hK =>
    refine .of_fills (by simpa [hl] using hinner) ?_ rfl
    exact fun h hmem => (List.mem_append.1 hmem).elim hgs.ne_handoff (hK h)
  | @handoff base b K hbase hr hs hK =>
    rw [List.append_assoc, List.singleton_append] at hl
    exact .failed hl hbase hinner hr (by simpa using hgs) hK

/-- A binding operation passes a completion on. -/
lemma whole_pass (hl : w.layers s = base ++ .bind b :: rest)
    (hbase : ∀ l ∈ base, l.Rests) (hr : b.receiver ≠ none)
    (hwired : Layer.Wired x o s (w.layers s))
    (hK : ∀ h, .handoff s h ∉ K) (v : Completion Value Failure) :
    Whole x o s (pass w s base.length b v K) := by
  obtain ⟨r, hb⟩ := Option.ne_none_iff_exists'.1 hr
  obtain ⟨path, z, r', hline, hz⟩ := hwired base (.bind b) rest hl
  obtain rfl := hz.receiver_eq hb
  have hpass : pass w s base.length b v K =
      ⟨w.setBinding s base.length b.spend, .complete r v, K⟩ := by
    simp [Machine.pass, hb]
  rw [hpass]
  exact .passing (World.layers_setBinding hl b.spend) hline hbase hK

/-- A binding operation takes the value of its predecessor. -/
lemma whole_accepted {control : Control} (hl : w.layers s = base ++ [.bind b])
    (hbase : ∀ l ∈ base, l.Rests) (hr : b.receiver ≠ none)
    (hc : control = .build s base.length ∨ ∃ m, control = .raised m)
    (hK : ∀ h, .handoff s h ∉ K) :
    Whole x o s ⟨w, control, .handoff s base.length :: K⟩ := by
  rcases hc with rfl | ⟨m, rfl⟩
  · exact .building hl hbase hr hK
  · exact .failed hl hbase (by simp) hr guards_nil hK

lemma rests_replace {l₀ l₁ : Layer} (h : ∀ l ∈ base ++ l₀ :: rest, l.Rests) (hl₁ : l₁.Rests) :
    ∀ l ∈ base ++ l₁ :: rest, l.Rests := by
  intro l hl
  simp only [List.mem_append, List.mem_cons] at h hl
  rcases hl with hl | rfl | hl
  · exact h l (.inl hl)
  · exact hl₁
  · exact h l (.inr (.inr hl))

lemma Whole.move_resting (hl : ∀ l ∈ c.world.layers s, l.Rests)
    (hK : ∀ h, .handoff s h ∉ c.stack) (hbuild : ∀ h, c.control ≠ .build s h)
    (hconnect : ∀ y r h, c.control = .connect y r s h →
      h < (c.world.layers s).length)
    (hwired : c.Wired x o s) (hm : c.Moves c') (hr : ¬c.Renews s) : c'.Whole x o s := by
  have hraised (hw : c.world.Like s c'.world) (hc' : ∃ m, c'.control = .raised m)
      (hstack : c'.stack = c.stack) : c'.Whole x o s := by
    obtain ⟨m, hc'⟩ := hc'
    exact .of_fills (Layer.rests_of_bare hl hw.layers_eq) (hstack ▸ hK)
      (by simp [hc', Control.fills])
  cases hm.touches s with
  | like hc hw hi =>
    exact .of_fills (Layer.rests_of_bare hl hw.layers_eq) (hi.unhanded hK) hi.fills_eq
  | asked hc hs hw hc' hstack =>
    have hl' := Layer.rests_of_bare hl hw.layers_eq
    refine .resting hl' (hstack ▸ hK) ?_ ?_
    · intro h hc''
      cases hc'.symm.trans hc''
    · intro y r h hc''
      obtain ⟨-, -, -, rfl⟩ := Control.connect.inj (hc'.symm.trans hc'')
      rw [List.length_pos_iff]
      exact hw.layers_ne fun hnil => hr (.place hs hnil hc)
  | released hc hl₀ hl' hn hrel hi =>
    refine .of_fills ?_ (hi.unhanded hK) hi.fills_eq
    rw [hl₀] at hl
    rw [hl']
    exact rests_replace hl hrel.rests
  | @spent base rest b r v hl₀ hl' hn hb hc hc' hi =>
    obtain ⟨w', control', K'⟩ := c'
    obtain rfl : control' = .complete r v := hc'
    obtain ⟨path, z, r', hline, hz⟩ := hwired.layers base (.bind b) rest hl₀
    obtain rfl := hz.receiver_eq hb
    refine .passing hl' hline ?_ (hi.unhanded hK)
    intro l hmem
    exact hl l (hl₀ ▸ List.mem_append_left _ hmem)
  | settled hc hmem => exact absurd hmem (hK _)
  | @accepted base rest b v hc hb hl₀ hl' hn hc' hstack =>
    obtain ⟨w', control', K'⟩ := c'
    obtain rfl : K' = _ := hstack
    rw [hl₀] at hl
    have hrests : (Layer.bind b).Rests := hl _ (by simp)
    exact whole_accepted hl' (fun l hmem => hl l (by simp [hmem])) hrests.1 hc' hK
  | called hc => exact absurd hc (hbuild _)
  | missed hc => exact absurd hc (hbuild _)
  | built hc => exact absurd hc (hbuild _)
  | filled hc hh => exact absurd (hconnect _ _ _ hc) (Nat.not_lt.2 hh)
  | nested hc hh => exact absurd (hconnect _ _ _ hc) (Nat.not_lt.2 hh)
  | refused hc hw hc' hstack => exact hraised hw hc' hstack
  | delivered hc hx hw hc' hi =>
    exact .of_fills (Layer.rests_of_bare hl hw.layers_eq) (hi.unhanded hK) hi.fills_eq
  | cut hl' hn hc hi =>
    refine .of_fills ?_ (hi.unhanded hK) hi.fills_eq
    intro l hmem
    exact hl l (List.mem_of_mem_take (hl' ▸ hmem))
  | blocked hc hs => exact absurd (.wait hs hc) hr

lemma Whole.move_building (hl : w.layers s = base ++ [.bind b])
    (hbase : ∀ l ∈ base, l.Rests) (hr : b.receiver ≠ none)
    (hK : ∀ h, .handoff s h ∉ K) (hx : x.Patient)
    (hwired : Layer.Wired x o s (w.layers s))
    (hm : Moves ⟨w, .build s base.length, .handoff s base.length :: K⟩ c') :
    c'.Whole x o s := by
  obtain ⟨w', control', K'⟩ := c'
  have hsame {base' rest' : List Layer} {b' : Binding} (hlen : base'.length = base.length)
      (hl' : w.layers s = base' ++ .bind b' :: rest') :
      base' = base ∧ b' = b ∧ rest' = [] := by
    obtain ⟨rfl, htop⟩ := List.append_inj (hl'.symm.trans hl) hlen
    simpa using htop
  cases hm.touches s with
  | @called base₀ rest b₀ hc hl₀ hl' hn hc' hstack =>
    obtain ⟨-, hlen⟩ := Control.build.inj hc
    obtain ⟨rfl, rfl, rfl⟩ := hsame hlen.symm hl₀
    obtain ⟨base', b', rest', hl'', hbare, hrest, -, -, hreceiver, -⟩ :=
      Layer.exists_of_map_bare_eq hl'
    obtain rfl : rest' = [] := List.map_eq_nil_iff.1 hrest
    obtain rfl : K' = _ := hstack
    have hlen' : base'.length = base₀.length := by simpa using congrArg List.length hbare
    rw [← hlen']
    refine whole_accepted hl'' (Layer.rests_of_bare hbase hbare) ?_ (.inr hc') hK
    rw [hreceiver]
    exact hr
  | missed hc hb =>
    obtain ⟨-, rfl⟩ := Control.build.inj hc
    simp [World.binding?, hl] at hb
  | @built base₀ rest b₀ f next env hc hl₀ hf hl' hn hc' hstack =>
    obtain ⟨-, hlen⟩ := Control.build.inj hc
    obtain ⟨rfl, rfl, rfl⟩ := hsame hlen.symm hl₀
    obtain ⟨base', b', rest', hl'', hbare, hrest, -, -, hreceiver, hstorage, -⟩ :=
      Layer.exists_of_map_bare_eq hl'
    obtain rfl : rest' = [] := List.map_eq_nil_iff.1 hrest
    obtain rfl : K' = _ := hstack
    obtain rfl : control' = _ := hc'
    have hlen' : base'.length = base₀.length := by simpa using congrArg List.length hbare
    obtain ⟨path, z, r, hline, hz⟩ := hwired base₀ (.bind b₀) [] hl
    have hy : (next env).Patient := (hz.part hf env).patient (hline.lies.patient hx)
    have hg : Ground s (base' ++ [.bind b']) (.handoff s base'.length :: K) :=
      .handoff (Layer.rests_of_bare hbase hbare) (hreceiver ▸ hr) hstorage hK
    have hl₁ : w'.layers s = (base' ++ [.bind b']) ++ [] := by simpa using hl''
    rw [← hlen', ← List.nil_append (_ :: K)]
    exact .connecting hg hl₁ (by simp) guards_nil (by simp) hy
  | like hc => simp [Control.fills] at hc
  | spent _ _ _ _ hc => simp at hc
  | settled hc => simp at hc
  | cut _ _ hc =>
    have hfills := hc.fills_eq
    simp [Control.fills] at hfills
  | _ hc => cases hc

lemma Whole.move_connecting {y : Sender} {r : Receiver} {h : Nat}
    (hg : Ground s ground K) (hl : w.layers s = ground ++ inner)
    (hinner : ∀ l ∈ inner, l.Rests) (hgs : Guards s ground.length gs)
    (hh : ground.length ≤ h) (hy : y.Patient)
    (hm : Moves ⟨w, .connect y r s h, gs ++ K⟩ c') : c'.Whole x o s := by
  obtain ⟨w', control', K'⟩ := c'
  cases hm.touches s with
  | filled hc hh' hx hl' hn hc' hstack =>
    rw [hl, List.append_assoc] at hl'
    obtain rfl : K' = gs ++ K := hstack
    have hinner' := List.forall_mem_append.2 ⟨hinner, List.forall_mem_singleton.2 hx.rests⟩
    rcases hc' with ⟨a, rfl⟩ | ⟨m, rfl⟩
    · exact hg.connected hl' hinner' hgs a
    · exact hg.failed hl' hinner' hgs m
  | nested hc hh' hx hy' hl' hn hc' hstack =>
    obtain ⟨rfl, rfl, -, rfl⟩ := Control.connect.inj hc
    rw [hl, List.append_assoc] at hl'
    obtain rfl : control' = _ := hc'
    obtain rfl : K' = .guard s h :: gs ++ K := hstack
    refine .connecting hg hl' ?_ ?_ (Nat.le_succ_of_le hh) (hy'.patient hy)
    · exact List.forall_mem_append.2 ⟨hinner, List.forall_mem_singleton.2 hx.rests⟩
    · exact List.forall_mem_cons.2 ⟨⟨h, rfl, hh⟩, hgs⟩
  | refused hc hw hc' hstack =>
    obtain ⟨m, rfl⟩ := hc'
    obtain rfl : K' = gs ++ K := hstack
    have hbare := hw.layers_eq
    rw [show w.layers s = ground ++ inner from hl, List.map_append] at hbare
    obtain ⟨ground', inner', hl', hground, hinner'⟩ := List.map_eq_append_iff.1 hbare
    have hlen : ground'.length = ground.length := by simpa using congrArg List.length hground
    exact (hg.of_bare hground).failed hl' (Layer.rests_of_bare hinner hinner') (hlen ▸ hgs) m
  | delivered hc hx =>
    obtain ⟨rfl, -⟩ := Control.connect.inj hc
    exact absurd hx (hy _ _)
  | like hc => simp [Control.fills] at hc
  | spent _ _ _ _ hc => simp at hc
  | settled hc => simp at hc
  | cut _ _ hc =>
    have hfills := hc.fills_eq
    simp [Control.fills] at hfills
  | _ hc => cases hc

/-- What a handoff was waiting for has returned. -/
lemma Whole.move_connected {a : Reply} (hl : w.layers s = base ++ .bind b :: inner)
    (hbase : ∀ l ∈ base, l.Rests) (hinner : ∀ l ∈ inner, l.Rests) (hr : b.receiver ≠ none)
    (hs : b.storage = .successor) (hgs : Guards s (base.length + 1) gs)
    (hK : ∀ h, .handoff s h ∉ K)
    (hm : Moves ⟨w, .done a, gs ++ .handoff s base.length :: K⟩ c') :
    c'.Whole x o s := by
  cases gs with
  | nil =>
    obtain rfl : resume w a (.handoff s base.length) K = c' := Option.some.inj hm
    have hb : w.binding? s base.length = some b := World.binding?_of_layers hl
    simp only [resume, hb]
    refine .of_fills ?_ hK rfl
    rw [World.layers_setBinding hl]
    intro l hmem
    simp only [List.mem_append, List.mem_cons] at hmem
    rcases hmem with hmem | rfl | hmem
    · exact hbase l hmem
    · exact ⟨hr, .successor, hs, rfl⟩
    · exact hinner l hmem
  | cons f gs =>
    obtain ⟨⟨i, rfl, -⟩, hgs'⟩ := List.forall_mem_cons.1 hgs
    obtain rfl := Option.some.inj hm
    exact .connected hl hbase hinner hr hs hgs' hK

/-- What a handoff was waiting for has raised a payload. -/
lemma Whole.move_failed {m : Payload} (hl : w.layers s = base ++ .bind b :: inner)
    (hbase : ∀ l ∈ base, l.Rests) (hinner : ∀ l ∈ inner, l.Rests) (hr : b.receiver ≠ none)
    (hgs : Guards s (base.length + 1) gs) (hK : ∀ h, .handoff s h ∉ K)
    (hwired : Layer.Wired x o s (w.layers s))
    (hm : Moves ⟨w, .raised m, gs ++ .handoff s base.length :: K⟩ c') :
    c'.Whole x o s := by
  cases gs with
  | nil =>
    obtain rfl : unwind w m (.handoff s base.length) K = c' := Option.some.inj hm
    have hb : w.binding? s base.length = some b := World.binding?_of_layers hl
    simp only [unwind, hb]
    have hl' : (w.note s [.logged b.serial (.buildFailed m)]).layers s =
        base ++ .bind b :: inner := hl
    exact whole_pass hl' hbase hr hwired hK _
  | cons f gs =>
    obtain ⟨⟨i, rfl, hi⟩, hgs'⟩ := List.forall_mem_cons.1 hgs
    obtain rfl := Option.some.inj hm
    obtain ⟨n, rfl⟩ := Nat.exists_eq_add_of_le hi
    have hl' : (w.dropAbove s (base.length + 1 + n) true).1.layers s =
        base ++ .bind b :: inner.take n := by
      rw [World.layers_dropAbove, hl, Nat.add_assoc, Nat.add_comm 1, List.take_length_add_append,
        List.take_succ_cons]
    refine .failed hl' hbase ?_ hr hgs' hK
    exact fun l hmem => hinner l (List.mem_of_mem_take hmem)

/-- A completion on its way comes to the next operation, or to the final receiver. -/
lemma Whole.move_passing {path : List Role} {z : Sender} {r : Receiver}
    {v : Completion Value Failure} (hl : w.layers s = base ++ rest)
    (hline : Line x o s base path z r) (hbase : ∀ l ∈ base, l.Rests)
    (hK : ∀ h, .handoff s h ∉ K)
    (hwired : Layer.Wired x o s (w.layers s)) (hne : r ≠ o)
    (hm : Moves ⟨w, .complete r v, K⟩ c') : c'.Whole x o s := by
  obtain ⟨base₀, b, more, role, rfl, rfl, hs⟩ := hline.split hne
  have hrests : (Layer.bind b).Rests := hbase _ (by simp)
  rw [List.append_assoc, List.cons_append] at hl
  have hbase₀ : ∀ l ∈ base₀, l.Rests := fun l hmem => hbase l (by simp [hmem])
  have hb : w.binding? s base₀.length = some b := World.binding?_of_layers hl
  have hcomplete : complete w (.child role s base₀.length) v K =
      receive w role s base₀.length b v K := by
    simp [complete, hb, hrests.cleanup_eq hs]
  obtain rfl : complete w (.child role s base₀.length) v K = c' := Option.some.inj hm
  rw [hcomplete]
  have hpass (acts : List Act) (u : Completion Value Failure) :
      Whole x o s (pass (w.note s acts) s base₀.length b u K) :=
    whole_pass (w := w.note s acts) hl hbase₀ hrests.1 hwired hK u
  cases role with
  | predecessor =>
    cases v with
    | value v =>
      obtain ⟨w', control, haccept, hcontrol, hl', -⟩ := exists_accept
        (w := w.note s [.logged b.serial .produced, .stored b.serial]) hl v K
      simp only [receive, haccept]
      exact whole_accepted hl' hbase₀ hrests.1 hcontrol hK
    | error e => exact hpass [.logged b.serial .failed] _
    | done => exact hpass [.logged b.serial .stopped] _
  | successor => simpa [receive] using hpass [] (v.mapError .successor)

/-- As long as the final receiver is not given anything, one phase leads to another. -/
theorem Whole.move (h : c.Whole x o s) (hwired : c.Wired x o s) (hx : x.Patient)
    (ho : o.isChild = false) (hm : c.Moves c') (hr : ¬c.Renews s)
    (hgiven : ∀ g ∈ c.given, g.1 ≠ o) : c'.Whole x o s := by
  cases h with
  | resting hl hK hbuild hconnect =>
    exact .move_resting hl hK hbuild hconnect hwired hm hr
  | building hl hbase hb hK => exact .move_building hl hbase hb hK hx hwired.layers hm
  | connecting hg hl hinner hgs hh hy => exact .move_connecting hg hl hinner hgs hh hy hm
  | connected hl hbase hinner hb hs hgs hK =>
    exact .move_connected hl hbase hinner hb hs hgs hK hm
  | failed hl hbase hinner hb hgs hK =>
    exact .move_failed hl hbase hinner hb hgs hK hwired.layers hm
  | @passing w base rest path z r v K hl hline hbase hK =>
    refine .move_passing hl hline hbase hK hwired.layers ?_ hm
    rintro rfl
    exact hgiven (r, v) (by simp [given, ho]) rfl

/-! ### From the connect on -/

/-- A completion is on its way at a site. -/
def Passing (s : Site) (c : Config) : Prop :=
  ∃ r v, c.control = .complete r v ∧ r.site = some s

lemma whole_of_connect (hl : w.layers s = []) (hx : x.Patient)
    (hK : ∀ h, .handoff s h ∉ K) : Whole x o s ⟨w, .connect x o s 0, K⟩ := by
  have hl' : w.layers s = [] ++ [] := hl
  rw [← List.nil_append K]
  exact .connecting (.host hK) hl' (by simp) guards_nil (Nat.le_refl 0) hx

lemma Since.whole {d : Config} {ps : List Parcel} (h : Since (¬Renews s ·) c ps d)
    (hwired : c.Wired x o s) (hc : c.Whole x o s) (hx : x.Patient) (ho : o.isChild = false)
    (hps : ∀ g ∈ ps, g.1 ≠ o) : d.Whole x o s := by
  refine ((h.giving hps).keeps (I := fun c => c.Wired x o s ∧ c.Whole x o s) ⟨hwired, hc⟩
    ?_ ?_).2
  · rintro c c' ⟨hwired, hc⟩ ⟨hr, hgiven⟩ hm
    exact ⟨(hwired.move hm hr).1, hc.move hwired hx ho hm hr hgiven⟩
  · rintro c z ⟨hwired, hc⟩ hf
    refine ⟨.of_layers hwired.layers rfl, ?_⟩
    cases hc with
    | resting hl hK => exact .of_fills hl (by simp) rfl
    | @connected _ _ _ _ _ gs => cases gs <;> cases hf
    | @failed _ _ _ _ _ gs => cases gs <;> cases hf
    | _ => cases hf

/-- Unless a completion is on its way, the binding operations have their receivers. -/
lemma Whole.receiver_ne (h : c.Whole x o s) (ho : o.Ends s) (hp : ¬c.Passing s)
    (hb : .bind b ∈ c.world.layers s) : b.receiver ≠ none := by
  have hrests {ls : List Layer} (hls : ∀ l ∈ ls, l.Rests) (hmem : .bind b ∈ ls) :
      b.receiver ≠ none := by
    have hb : (Layer.bind b).Rests := hls _ hmem
    exact hb.1
  have hamid {base inner : List Layer} {b' : Binding} {w : World}
      (hl : w.layers s = base ++ .bind b' :: inner) (hbase : ∀ l ∈ base, l.Rests)
      (hinner : ∀ l ∈ inner, l.Rests) (hr : b'.receiver ≠ none)
      (hmem : .bind b ∈ w.layers s) : b.receiver ≠ none := by
    rw [hl, List.mem_append, List.mem_cons] at hmem
    rcases hmem with hmem | heq | hmem
    · exact hrests hbase hmem
    · obtain rfl := Layer.bind.inj heq
      exact hr
    · exact hrests hinner hmem
  cases h with
  | resting hl => exact hrests hl hb
  | building hl hbase hr => exact hamid hl hbase (by simp) hr hb
  | connecting hg hl hinner =>
    cases hg with
    | host => exact hrests hinner (by simpa [hl] using hb)
    | handoff hbase hr =>
      rw [List.append_assoc, List.singleton_append] at hl
      exact hamid hl hbase hinner hr hb
  | connected hl hbase hinner hr => exact hamid hl hbase hinner hr hb
  | failed hl hbase hinner hr => exact hamid hl hbase hinner hr hb
  | passing hl hline => exact absurd ⟨_, _, rfl, hline.site_eq ho⟩ hp

/-- A patient sender was connected to a final receiver at a vacant site, and the run has come here
since. So far nothing has been connected there anew. Listed is what was given to final receivers. -/
structure Houses (x : Sender) (o : Receiver) (s : Site) (ps : List Parcel) (c : Config) : Prop where
  patient : x.Patient
  ends : o.Ends s
  exists_since : ∃ w K, w.layers s = [] ∧ (∀ h, .handoff s h ∉ K) ∧
    Since (¬Renews s ·) ⟨w, .connect x o s 0, K⟩ ps c

variable {d : Config} {ps ps' : List Parcel}

lemma Houses.wired (h : c.Houses x o s ps) : c.Wired x o s := by
  obtain ⟨w, K, hl, -, hsince⟩ := h.exists_since
  exact hsince.wired (wired_of_connect hl)

lemma Houses.whole (h : c.Houses x o s ps) (hps : ∀ g ∈ ps, g.1 ≠ o) : c.Whole x o s := by
  obtain ⟨w, K, hl, hK, hsince⟩ := h.exists_since
  exact hsince.whole (wired_of_connect hl) (whole_of_connect hl h.patient hK) h.patient
    h.ends.isChild_eq hps

lemma Houses.since (h : c.Houses x o s ps) (hd : Since (¬Renews s ·) c ps' d) :
    d.Houses x o s (ps ++ ps') := by
  obtain ⟨w, K, hl, hK, hsince⟩ := h.exists_since
  exact ⟨h.patient, h.ends, w, K, hl, hK, hsince.trans hd⟩

lemma Houses.move (h : c.Houses x o s ps) (hm : c.Moves c') (hr : ¬c.Renews s) :
    c'.Houses x o s (ps ++ c.given) := by
  simpa using h.since ((Since.refl c).move hr hm)

end Config

end Handoff
