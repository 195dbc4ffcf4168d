import Handoff.Proofs.Since
import Handoff.Proofs.Touching
import Handoff.Proofs.Trail

/-!
# Where an operation belongs

What stands at a site stems from the sender that was connected there: `Config.Wired` says that each
operation stems from a place in that sender and stands on the line to it, as does what is being
connected. It is kept by every move until something else is connected in the place, be it that
operations have used up their receivers or that a handoff has failed, and what stood before is
followed from move to move by `Config.Evolves`.
-/

namespace Handoff

open Machine

/-! ### Places in a sender -/

namespace Sender

variable {x y z : Sender} {r : Receiver} {role : Role} {path : List Role} {k : Nat} {l : Layer}

lemma Part.patient (hy : z.Part role y) (hz : z.Patient) : y.Patient := by
  cases hy with
  | predecessor => exact hz.1
  | successor x f next env => exact hz.2 env

lemma Lies.patient (hy : x.Lies path y) (hx : x.Patient) : y.Patient := by
  induction hy with
  | here => exact hx
  | either _ ih => exact ih
  | part _ hpart ih => exact hpart.patient ih

lemma Lays.yields (h : x.Lays r k l) : x.Yields r l := by
  cases h with
  | ready => exact .ready (.inr rfl)
  | leaf => exact .leaf (.inr rfl)
  | exploding => exact .exploding (.inr rfl)
  | script => exact .script (.inr rfl)
  | either => exact .either
  | bind => exact .bind (.inr rfl) (.inr rfl)

end Sender

/-! ### Operations in the course of time -/

namespace Layer

open Sender (Yields Part Lies Lays Nests)

variable {x y z : Sender} {o r r' : Receiver} {role : Role} {path : List Role} {s : Site}
  {n i h k : Nat} {l l' : Layer} {b b' : Binding} {base base' rest ls ls' : List Layer}

lemma bare_eq_self (hl : l.storage? = none) : l.bare = l := by
  cases l with
  | bind b => simp [storage?] at hl
  | _ => rfl

lemma storage?_bare (l : Layer) : l.bare.storage? = l.storage? := by
  cases l <;> rfl

lemma persists_of_bare (h : l'.bare = l.bare) : l.Persists l' := by
  have hs : l'.storage? = l.storage? := by rw [← storage?_bare, h, storage?_bare]
  cases hl : l.storage? with
  | none =>
    rw [bare_eq_self hl, bare_eq_self (hs.trans hl)] at h
    exact h ▸ .refl l
  | some storage =>
    cases l with
    | bind b =>
      obtain ⟨b', rfl, hserial, hfactory, hreceiver, hstorage, -⟩ := bare_eq_bind h
      exact .bind hserial (.inr hreceiver) (.inr hfactory) hstorage
    | _ => simp [storage?] at hl

lemma forall₂_persists_of_bare (h : ls'.map bare = ls.map bare) :
    List.Forall₂ Persists ls ls' := by
  have hbare : List.Forall₂ (· = ·) (ls.map bare) (ls'.map bare) := by
    rw [List.forall₂_eq_eq_eq, h]
  rw [List.forall₂_map_left_iff, List.forall₂_map_right_iff] at hbare
  exact hbare.imp fun l l' hl => persists_of_bare hl.symm

lemma forall₂_persists_replace (hl : l.Persists l') (base rest : List Layer) :
    List.Forall₂ Persists (base ++ l :: rest) (base ++ l' :: rest) := by
  have hrefl (ls : List Layer) : List.Forall₂ Persists ls ls :=
    List.forall₂_same.2 fun l _ => .refl l
  exact List.rel_append (hrefl base) (.cons hl (hrefl rest))

/-- From a receiver outwards, if all operations on the line have theirs: one handle for each part
that it leads through, and the final receiver. -/
lemma Line.exists_awaits (h : Line x o s base path y r) (ho : o.isChild = false)
    (hb : ∀ b, .bind b ∈ base → b.receiver ≠ none) :
    ∃ rest handles, Awaits s base r rest ∧ r :: rest = handles ++ [o] ∧
      handles.length = path.length ∧ handles.flatMap Receiver.ownNames = path.map Role.handle := by
  induction h with
  | nil => exact ⟨[], [], .final ho, rfl, rfl, rfl⟩
  | @either base path k which y r _ ih =>
    obtain ⟨rest, handles, hawaits, hrest⟩ := ih fun b hmem => hb b (by simp [hmem])
    exact ⟨rest, handles, hawaits.append _, hrest⟩
  | @bind base path b role y z r _ hz _ _ ih =>
    obtain ⟨rest, handles, hawaits, hrest, hlen, hnames⟩ := ih fun b hmem => hb b (by simp [hmem])
    obtain ⟨r', hr'⟩ := Option.ne_none_iff_exists'.1 (hb b (by simp))
    obtain rfl := hz.receiver_eq hr'
    refine ⟨r' :: rest, .child role s base.length :: handles, hawaits.top role hr', ?_, ?_, ?_⟩
    · rw [hrest, List.cons_append]
    · simp [hlen]
    · simp only [List.flatMap_cons, hnames, List.map_cons]
      cases role <;> rfl

/-- What is connected inside an operation stands on the line to it and on that operation. -/
lemma Line.nest (h : Line x o s base path z r) (hl : z.Lays r k l)
    (hy : z.Nests r s base.length y r') : ∃ path', Line x o s (base ++ [l]) path' y r' := by
  cases hy with
  | either which y =>
    cases hl with
    | either => exact ⟨path, .either h⟩
  | bind y f next =>
    have hyields := hl.yields
    cases hl with
    | bind => exact ⟨_, .bind h hyields rfl (.predecessor y f next)⟩

/-- Each operation stems from a place in the sender `x` that was connected to `o`, and stands on the
line to it. -/
def Wired (x : Sender) (o : Receiver) (s : Site) (ls : List Layer) : Prop :=
  ∀ base l rest, ls = base ++ l :: rest →
    ∃ path z r, Line x o s base path z r ∧ z.Yields r l

lemma wired_nil : Wired x o s [] := by
  intro base l rest h
  simp at h

lemma Wired.take (h : Wired x o s ls) (i : Nat) : Wired x o s (ls.take i) := by
  intro base l rest hl
  refine h base l (rest ++ ls.drop i) ?_
  rw [← List.cons_append, ← List.append_assoc, ← hl, List.take_append_drop]

lemma Wired.concat (h : Wired x o s ls) (hline : Line x o s ls path z r) (hl : z.Yields r l) :
    Wired x o s (ls ++ [l]) := by
  intro base l₁ rest heq
  obtain rfl | ⟨rest, l₂, rfl⟩ := rest.eq_nil_or_concat'
  · obtain ⟨rfl, hlast⟩ := List.append_inj' heq rfl
    obtain rfl : l = l₁ := by simpa using hlast
    exact ⟨path, z, r, hline, hl⟩
  · rw [← List.cons_append, ← List.append_assoc] at heq
    exact h base l₁ rest (List.append_inj_left' heq rfl)

lemma exists_of_forall₂_append {R : Layer → Layer → Prop}
    (h : List.Forall₂ R ls (base ++ l :: rest)) :
    ∃ base₀ l₀ rest₀, ls = base₀ ++ l₀ :: rest₀ ∧ List.Forall₂ R base₀ base ∧ R l₀ l := by
  obtain ⟨l₀, rest₀, hl, -, hdrop⟩ :=
    List.forall₂_cons_right_iff.1 (List.forall₂_drop_append ls base (l :: rest) h)
  refine ⟨ls.take base.length, l₀, rest₀, ?_, List.forall₂_take_append ls base (l :: rest) h, hl⟩
  rw [← hdrop, List.take_append_drop]

lemma Wired.persists (h : Wired x o s ls) (hls : List.Forall₂ Persists ls ls') :
    Wired x o s ls' := by
  rintro base l rest rfl
  obtain ⟨base₀, l₀, rest₀, rfl, hbase, hl⟩ := exists_of_forall₂_append hls
  obtain ⟨path, z, r, hline, hz⟩ := h base₀ l₀ rest₀ rfl
  exact ⟨path, z, r, hline.persists hbase, hl.ensues.yields hz⟩

lemma exists_of_forall₂_getElem? {R : Layer → Layer → Prop} (h : List.Forall₂ R ls ls')
    (hl' : ls'[i]? = some l') : ∃ l, ls[i]? = some l ∧ R l l' := by
  obtain ⟨hlt, rfl⟩ := List.getElem?_eq_some_iff.1 hl'
  have hlt₀ : i < ls.length := h.length_eq ▸ hlt
  exact ⟨_, List.getElem?_eq_getElem hlt₀, h.get hlt₀ hlt⟩

/-- Operations stay, but for what they let go of; or the last of them changes what its storage
holds; or the last are dropped. -/
inductive Remains (ls : List Layer) : List Layer → Prop where
  | same {ls' : List Layer} (h : List.Forall₂ Persists ls ls') : Remains ls ls'
  | turned {base rest base' : List Layer} {l l' : Layer} (hl : ls = base ++ l :: rest)
      (hbase : List.Forall₂ Persists base base') (hl' : l.Ensues l') : Remains ls (base' ++ [l'])
  | cut (i : Nat) : Remains ls (ls.take i)

lemma Remains.of_bare (h : ls'.map bare = ls.map bare) : Remains ls ls' :=
  .same (forall₂_persists_of_bare h)

lemma Remains.replace (hl : l.Persists l') (base rest : List Layer) :
    Remains (base ++ l :: rest) (base ++ l' :: rest) :=
  .same (forall₂_persists_replace hl base rest)

lemma Wired.remains (h : Wired x o s ls) (hls : Remains ls ls') : Wired x o s ls' := by
  cases hls with
  | same hls => exact h.persists hls
  | @turned base rest base' l l' hl hbase hensues =>
    obtain ⟨path, z, r, hline, hz⟩ := h base l rest hl
    have hwired : Wired x o s base := by
      have htake := h.take base.length
      rwa [hl, List.take_left] at htake
    exact (hwired.persists hbase).concat (hline.persists hbase) (hensues.yields hz)
  | cut i => exact h.take i

/-- What stands stood before, on operations that have not changed hands. -/
lemma Remains.stood (h : Remains ls ls') (hl' : ls'[i]? = some l') :
    ∃ l, ls[i]? = some l ∧ l.Ensues l' ∧ List.Forall₂ Persists (ls.take i) (ls'.take i) := by
  cases h with
  | same h =>
    obtain ⟨l, hl, hpersists⟩ := exists_of_forall₂_getElem? h hl'
    exact ⟨l, hl, hpersists.ensues, List.forall₂_take i h⟩
  | @turned base rest base' l₀ l₁ hl hbase hensues =>
    subst hl
    have hlen := hbase.length_eq
    rcases Nat.lt_trichotomy i base'.length with hi | rfl | hi
    · rw [List.getElem?_append_left hi] at hl'
      obtain ⟨l, hl, hpersists⟩ := exists_of_forall₂_getElem? hbase hl'
      refine ⟨l, ?_, hpersists.ensues, ?_⟩
      · rwa [List.getElem?_append_left (by omega)]
      · rw [List.take_append_of_le_length (by omega), List.take_append_of_le_length (by omega)]
        exact List.forall₂_take i hbase
    · obtain rfl : l₁ = l' := by simpa using hl'
      refine ⟨l₀, by simp [← hlen], hensues, ?_⟩
      rw [← hlen, List.take_left, hlen, List.take_left]
      exact hbase
    · rw [List.getElem?_eq_none (by simp; omega)] at hl'
      cases hl'
  | cut j =>
    rw [List.getElem?_take] at hl'
    split_ifs at hl' with hi
    refine ⟨l', hl', .refl l', ?_⟩
    rw [List.take_take, Nat.min_eq_left (Nat.le_of_lt hi)]
    exact List.forall₂_same.2 fun l _ => .refl l

/-- Operations that are alike but for a stored value. -/
lemma exists_of_map_bare_eq (h : ls'.map bare = (base ++ .bind b :: rest).map bare) :
    ∃ base' b' rest', ls' = base' ++ .bind b' :: rest' ∧ base'.map bare = base.map bare ∧
      rest'.map bare = rest.map bare ∧ b'.serial = b.serial ∧ b'.factory = b.factory ∧
      b'.receiver = b.receiver ∧ b'.storage = b.storage ∧ b'.cleanup = b.cleanup := by
  rw [List.map_append, List.map_cons] at h
  obtain ⟨base', ls', rfl, hbase, hls'⟩ := List.map_eq_append_iff.1 h
  obtain ⟨l', rest', rfl, hl', hrest⟩ := List.map_eq_cons_iff.1 hls'
  obtain ⟨b', rfl, hb'⟩ := bare_eq_bind hl'
  exact ⟨base', b', rest', rfl, hbase, hrest, hb'⟩

end Layer

/-! ### From move to move -/

namespace Config

open Layer (Line Remains Persists Ensues)

/-- What may become of the operations of a site in one move: they stay, or there is a new one. -/
inductive Evolves (s : Site) (c c' : Config) : Prop where
  | remains (hl : Remains (c.world.layers s) (c'.world.layers s))
      (hn : c'.world.nextSerial s = c.world.nextSerial s)
  | grown {l : Layer} (hl : c'.world.layers s = c.world.layers s ++ [l])
      (hserial : l.serial = c.world.nextSerial s)
      (hn : c'.world.nextSerial s = c.world.nextSerial s + 1)

/-- What comes to stand at a site from here on has nothing to do with what stood there: a host
connects in a place that is empty, or another caller blocks. -/
inductive Renews (s : Site) (c : Config) : Prop where
  | place {p : Int} {y : Sender} {r : Receiver} (hs : .place p = s) (hl : c.world.layers s = [])
      (hc : c.control = .call (.connect p y r))
  | wait {y : Sender} (hs : s = .wait) (hc : c.control = .call (.wait y))

/-- All that stands at a site stems from the sender `x` that was connected to `o` there, and what is
about to be connected does. -/
structure Wired (x : Sender) (o : Receiver) (s : Site) (c : Config) : Prop where
  layers : Layer.Wired x o s (c.world.layers s)
  connecting {y : Sender} {r : Receiver} {h : Nat} (hc : c.control = .connect y r s h)
    (hh : (c.world.layers s).length ≤ h) :
    (c.world.layers s).length = h ∧
      ∃ path, Line x o s (c.world.layers s) path y r
  building {h : Nat} (hc : c.control = .build s h) :
    (c.world.layers s).length ≤ h + 1

variable {x y z : Sender} {o r r' : Receiver} {s : Site} {c c' d : Config} {h i k : Nat}
  {l l' : Layer} {b : Binding} {base rest : List Layer}

/-- Where nothing was connected yet. -/
lemma wired_of_connect {w : World} {K : List Frame} (hl : w.layers s = []) :
    Wired x o s ⟨w, .connect x o s 0, K⟩ := by
  constructor
  · exact hl ▸ Layer.wired_nil
  · intro y r h hc hh
    obtain ⟨rfl, rfl, -, rfl⟩ := Control.connect.inj hc
    exact ⟨by simp [hl], [], hl ▸ .nil⟩
  · exact nofun

lemma Wired.of_layers (hl : Layer.Wired x o s (c.world.layers s))
    (hc : c.control.fills s = false) : c.Wired x o s := by
  refine ⟨hl, ?_, ?_⟩
  · intro y r h hc'
    simp [hc', Control.fills] at hc
  · intro h hc'
    simp [hc', Control.fills] at hc

/-- What stays or goes was wired before. -/
lemma Wired.of_remains (hwired : c.Wired x o s)
    (hl : Remains (c.world.layers s) (c'.world.layers s))
    (hn : c'.world.nextSerial s = c.world.nextSerial s) (hc : c'.control.fills s = false) :
    c'.Wired x o s ∧ c.Evolves s c' :=
  ⟨.of_layers (hwired.layers.remains hl) hc, .remains hl hn⟩

lemma Wired.of_like (hwired : c.Wired x o s) (hw : c.world.Like s c'.world)
    (hc : c'.control.fills s = false) : c'.Wired x o s ∧ c.Evolves s c' :=
  hwired.of_remains (.of_bare hw.layers_eq) hw.count_eq hc

lemma Wired.of_replaced (hwired : c.Wired x o s) (hl : c.world.layers s = base ++ l :: rest)
    (hl' : c'.world.layers s = base ++ l' :: rest) (h : l.Persists l')
    (hn : c'.world.nextSerial s = c.world.nextSerial s) (hc : c'.control.fills s = false) :
    c'.Wired x o s ∧ c.Evolves s c' := by
  refine hwired.of_remains ?_ hn hc
  rw [hl, hl']
  exact .replace h base rest

/-- Nothing will be laid down at the bottom of a place that is occupied. -/
lemma Wired.asked (hwired : c.Wired x o s) (hl : c.world.layers s ≠ [])
    (hw : c.world.Like s c'.world) (hc : c'.control = .connect y r s 0) :
    c'.Wired x o s ∧ c.Evolves s c' := by
  have hremains : Remains (c.world.layers s) (c'.world.layers s) := .of_bare hw.layers_eq
  refine ⟨⟨hwired.layers.remains hremains, ?_, ?_⟩, .remains hremains hw.count_eq⟩
  · intro y' r' h hc' hh
    obtain ⟨-, -, -, rfl⟩ := Control.connect.inj (hc.symm.trans hc')
    exact absurd (List.length_eq_zero_iff.1 (Nat.le_zero.1 hh)) (hw.layers_ne hl)
  · intro h hc'
    cases hc.symm.trans hc'

/-- A binding operation that has taken a value is the last one, and may be about to build. -/
lemma Wired.accepted {v : Value} (hwired : c.Wired x o s)
    (hl : c.world.layers s = base ++ .bind b :: rest)
    (hl' : c'.world.layers s = base ++ [.bind (b.store v).vacate])
    (hn : c'.world.nextSerial s = c.world.nextSerial s)
    (hc : c'.control = .build s base.length ∨ ∃ m, c'.control = .raised m) :
    c'.Wired x o s ∧ c.Evolves s c' := by
  have hturned : Remains (c.world.layers s) (c'.world.layers s) := by
    rw [hl']
    exact .turned hl (List.forall₂_same.2 fun l _ => .refl l) (.bind rfl (.inr rfl) (.inr rfl))
  refine ⟨⟨hwired.layers.remains hturned, ?_, ?_⟩, .remains hturned hn⟩
  · intro y r h hc'
    rcases hc with hc | ⟨m, hc⟩ <;> cases hc.symm.trans hc'
  · intro h hc'
    rcases hc with hc | ⟨m, hc⟩
    · obtain ⟨-, rfl⟩ := Control.build.inj (hc.symm.trans hc')
      simp [hl']
    · cases hc.symm.trans hc'

lemma Wired.called (hwired : c.Wired x o s) (hl : c.world.layers s = base ++ .bind b :: rest)
    (hl' : (c'.world.layers s).map Layer.bare = (base ++ .bind b.call :: rest).map Layer.bare)
    (hn : c'.world.nextSerial s = c.world.nextSerial s) (hc : c'.control.fills s = false) :
    c'.Wired x o s ∧ c.Evolves s c' := by
  obtain ⟨base', b', rest', hl'', hbase, hrest, hserial, hfactory, hreceiver, hstorage, -⟩ :=
    Layer.exists_of_map_bare_eq hl'
  have hb : (Layer.bind b).Persists (.bind b') :=
    .bind hserial (.inr hreceiver) (.inl hfactory) hstorage
  refine hwired.of_remains ?_ hn hc
  rw [hl, hl'']
  exact .same (List.rel_append (Layer.forall₂_persists_of_bare hbase)
    (.cons hb (Layer.forall₂_persists_of_bare hrest)))

/-- What a factory has built is a successor of the binding, and stands on its operation. -/
lemma Wired.built {f : Factory} {next : Env → Sender} {env : Env} (hwired : c.Wired x o s)
    (hc : c.control = .build s base.length) (hl : c.world.layers s = base ++ .bind b :: rest)
    (hf : b.factory = some (f, next))
    (hl' : (c'.world.layers s).map Layer.bare =
      (base ++ .bind b.call.emplace :: rest).map Layer.bare)
    (hn : c'.world.nextSerial s = c.world.nextSerial s)
    (hc' : c'.control =
      .connect (next env) (.child .successor s base.length) s (base.length + 1)) :
    c'.Wired x o s ∧ c.Evolves s c' := by
  have hlen := hwired.building hc
  obtain rfl : rest = [] := by
    rw [hl, List.length_append, List.length_cons] at hlen
    exact List.length_eq_zero_iff.1 (by omega)
  obtain ⟨base', b', rest', hl'', hbare, hrest, hserial, hfactory, hreceiver, hstorage, -⟩ :=
    Layer.exists_of_map_bare_eq hl'
  obtain rfl : rest' = [] := List.map_eq_nil_iff.1 hrest
  obtain ⟨path, z, r, hline, hz⟩ := hwired.layers base (.bind b) [] hl
  have hbase : List.Forall₂ Persists base base' := Layer.forall₂_persists_of_bare hbare
  have hb : (Layer.bind b).Ensues (.bind b') := .bind hserial (.inr hreceiver) (.inl hfactory)
  have hturned : Remains (c.world.layers s) (c'.world.layers s) := by
    rw [hl'']
    exact .turned hl hbase hb
  refine ⟨⟨hwired.layers.remains hturned, ?_, ?_⟩, .remains hturned hn⟩
  · intro y r' h hc'' hh
    obtain ⟨rfl, rfl, -, rfl⟩ := Control.connect.inj (hc'.symm.trans hc'')
    rw [hl'', hbase.length_eq]
    exact ⟨by simp, _, (hline.persists hbase).bind (hb.yields hz) hstorage (hz.part hf env)⟩
  · intro h hc''
    cases hc'.symm.trans hc''

lemma Wired.filled (hwired : c.Wired x o s) (hc : c.control = .connect y r s h)
    (hh : (c.world.layers s).length ≤ h) (hx : y.Lays r (c.world.nextSerial s) l)
    (hl' : c'.world.layers s = c.world.layers s ++ [l])
    (hn : c'.world.nextSerial s = c.world.nextSerial s + 1)
    (hc' : c'.control.fills s = false) : c'.Wired x o s ∧ c.Evolves s c' := by
  obtain ⟨-, path, hline⟩ := hwired.connecting hc hh
  refine ⟨.of_layers ?_ hc', .grown hl' hx.serial_eq hn⟩
  rw [hl']
  exact hwired.layers.concat hline hx.yields

lemma Wired.nested (hwired : c.Wired x o s) (hc : c.control = .connect y r s h)
    (hh : (c.world.layers s).length ≤ h) (hx : y.Lays r (c.world.nextSerial s) l)
    (hy : y.Nests r s h z r') (hl' : c'.world.layers s = c.world.layers s ++ [l])
    (hn : c'.world.nextSerial s = c.world.nextSerial s + 1)
    (hc' : c'.control = .connect z r' s (h + 1)) : c'.Wired x o s ∧ c.Evolves s c' := by
  obtain ⟨rfl, path, hline⟩ := hwired.connecting hc hh
  refine ⟨⟨?_, ?_, ?_⟩, .grown hl' hx.serial_eq hn⟩
  · rw [hl']
    exact hwired.layers.concat hline hx.yields
  · intro y' r₁ h hc'' hh'
    obtain ⟨rfl, rfl, -, rfl⟩ := Control.connect.inj (hc'.symm.trans hc'')
    rw [hl']
    exact ⟨by simp, hline.nest hx hy⟩
  · intro h hc''
    cases hc'.symm.trans hc''

/-- What stands at a site stays wired, unless something else is to come there. -/
lemma Wired.move (hwired : c.Wired x o s) (hm : c.Moves c') (hr : ¬c.Renews s) :
    c'.Wired x o s ∧ c.Evolves s c' := by
  have hraised (hc' : ∃ m, c'.control = .raised m) : c'.control.fills s = false := by
    obtain ⟨m, hc'⟩ := hc'
    simp [hc', Control.fills]
  cases hm.touches s with
  | like hc hw hi => exact hwired.of_like hw hi.fills_eq
  | asked hc hs hw hc' hK => exact hwired.asked (fun hnil => hr (.place hs hnil hc)) hw hc'
  | released hc hl hl' hn hrel hi => exact hwired.of_replaced hl hl' hrel.persists hn hi.fills_eq
  | spent hl hl' hn hr hc hc' hi =>
    exact hwired.of_replaced hl hl' (.bind rfl (.inl rfl) (.inr rfl) rfl) hn hi.fills_eq
  | settled hc hK hl hl' hn hc' hi =>
    exact hwired.of_replaced hl hl' (.bind rfl (.inr rfl) (.inr rfl) rfl) hn hi.fills_eq
  | accepted hc hb hl hl' hn hc' hK => exact hwired.accepted hl hl' hn hc'
  | called hc hl hl' hn hc' hK => exact hwired.called hl hl' hn (hraised hc')
  | missed hc hb hw hi => exact hwired.of_like hw hi.fills_eq
  | built hc hl hf hl' hn hc' hK => exact hwired.built hc hl hf hl' hn hc'
  | filled hc hh hx hl' hn hc' hK =>
    refine hwired.filled hc hh hx hl' hn ?_
    rcases hc' with ⟨a, hc'⟩ | hc'
    · simp [hc', Control.fills]
    · exact hraised hc'
  | nested hc hh hx hy hl' hn hc' hK => exact hwired.nested hc hh hx hy hl' hn hc'
  | refused hc hw hc' hK => exact hwired.of_like hw (hraised hc')
  | delivered hc hx hw hc' hi => exact hwired.of_like hw hi.fills_eq
  | @cut height hl' hn hc hi =>
    refine hwired.of_remains ?_ hn hi.fills_eq
    rw [hl']
    exact .cut height
  | blocked hc hs => exact absurd (.wait hs hc) hr

/-- An operation that is not new stood there before. -/
lemma Evolves.stood (h : c.Evolves s c') (hl' : (c'.world.layers s)[i]? = some l')
    (hn : l'.serial < c.world.nextSerial s) :
    ∃ l, (c.world.layers s)[i]? = some l ∧ l.Ensues l' ∧ List.Forall₂ Persists
      ((c.world.layers s).take i) ((c'.world.layers s).take i) := by
  cases h with
  | remains hl => exact hl.stood hl'
  | @grown l₁ hl hserial =>
    have hi : i < (c.world.layers s).length := by
      by_contra hi
      rw [hl, List.getElem?_append_right (by omega), List.getElem?_singleton] at hl'
      split_ifs at hl'
      obtain rfl : l₁ = l' := by simpa using hl'
      omega
    rw [hl, List.getElem?_append_left hi] at hl'
    refine ⟨l', hl', .refl l', ?_⟩
    rw [hl, List.take_append_of_le_length (Nat.le_of_lt hi)]
    exact List.forall₂_same.2 fun l _ => .refl l

lemma Evolves.nextSerial_le (h : c.Evolves s c') :
    c.world.nextSerial s ≤ c'.world.nextSerial s := by
  cases h with
  | remains _ hn => exact Nat.le_of_eq hn.symm
  | grown _ _ hn => omega

lemma Since.wired {ps : List Parcel} (h : Since (¬Renews s ·) c ps d) (hc : c.Wired x o s) :
    d.Wired x o s := by
  refine h.keeps hc ?_ ?_
  · intro c c' hc hr hm
    exact (hc.move hm hr).1
  · intro c x hc _
    exact .of_layers hc.layers rfl

/-- Unless the operation of a number is gone from a height of a site, something is so of it and of
those that it stands on. -/
structure Upholds (s : Site) (i k : Nat) (P : List Layer → Layer → Prop) (c : Config) : Prop where
  serial_lt : k < c.world.nextSerial s
  holds {l : Layer} (hl : (c.world.layers s)[i]? = some l) (hk : l.serial = k) :
    P ((c.world.layers s).take i) l

/-- What does not depend on what operations let go of stays so. -/
lemma Since.upholds {P : List Layer → Layer → Prop} {ps : List Parcel}
    (hP : ∀ ls ls' l l', P ls l → List.Forall₂ Persists ls ls' → l.Ensues l' → P ls' l')
    (h : Since (¬Renews s ·) c ps d) (hwired : c.Wired x o s) (hc : c.Upholds s i k P) :
    d.Upholds s i k P := by
  refine (h.keeps (I := fun c => c.Wired x o s ∧ c.Upholds s i k P) ⟨hwired, hc⟩ ?_ ?_).2
  · rintro c c' ⟨hwired, hc⟩ hr hm
    obtain ⟨hwired', hevolves⟩ := hwired.move hm hr
    refine ⟨hwired', Nat.lt_of_lt_of_le hc.serial_lt hevolves.nextSerial_le, ?_⟩
    intro l' hl' hserial
    obtain ⟨l, hl, hensues, hbase⟩ := hevolves.stood hl' (hserial ▸ hc.serial_lt)
    exact hP _ _ _ _ (hc.holds hl (hensues.serial_eq ▸ hserial)) hbase hensues
  · rintro c x ⟨hwired, hc⟩ _
    exact ⟨.of_layers hwired.layers rfl, hc.serial_lt, hc.holds⟩

/-- An operation that is laid down stands on the line to the sender that it stems from. -/
lemma Wired.laid (hwired : c.Wired x o s) (hm : c.Moves c')
    (hc : c.control = .connect y r s h) (hh : (c.world.layers s).length ≤ h)
    (hl : (c'.world.layers s)[h]? = some l) :
    l.serial < c'.world.nextSerial s ∧ y.Yields r l ∧
      ∃ path, Line x o s ((c'.world.layers s).take h) path y r := by
  obtain ⟨rfl, path, hline⟩ := hwired.connecting hc hh
  have hvacant (hlen : (c'.world.layers s).length = (c.world.layers s).length) :
      False := by
    rw [List.getElem?_eq_none (Nat.le_of_eq hlen)] at hl
    cases hl
  have hgrown {l' : Layer} (hx : y.Lays r (c.world.nextSerial s) l')
      (hl' : c'.world.layers s = c.world.layers s ++ [l'])
      (hn : c'.world.nextSerial s = c.world.nextSerial s + 1) :
      l.serial < c'.world.nextSerial s ∧ y.Yields r l ∧ ∃ path, Line x o s
        ((c'.world.layers s).take (c.world.layers s).length) path y r := by
    rw [hl'] at hl ⊢
    obtain rfl : l' = l := by simpa using hl
    rw [hx.serial_eq, hn, List.take_left]
    exact ⟨Nat.lt_succ_self _, hx.yields, path, hline⟩
  cases hm.touches s with
  | filled hc' _ hx hl' hn =>
    obtain ⟨rfl, rfl, -⟩ := Control.connect.inj (hc.symm.trans hc')
    exact hgrown hx hl' hn
  | nested hc' _ hx _ hl' hn =>
    obtain ⟨rfl, rfl, -⟩ := Control.connect.inj (hc.symm.trans hc')
    exact hgrown hx hl' hn
  | like hc' => simp [hc, Control.fills] at hc'
  | refused _ hw => exact (hvacant (by simpa using congrArg List.length hw.layers_eq)).elim
  | delivered _ _ hw => exact (hvacant (by simpa using congrArg List.length hw.layers_eq)).elim
  | spent _ _ _ _ hc' => simp [hc] at hc'
  | settled hc' => simp [hc] at hc'
  | cut _ _ hc' =>
    have hfills := hc'.fills_eq
    simp [hc, Control.fills] at hfills
  | _ hc' => cases hc.symm.trans hc'

end Config

end Handoff
