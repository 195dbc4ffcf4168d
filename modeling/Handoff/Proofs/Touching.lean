import Handoff.Proofs.Holding.Strides
import Handoff.Proofs.Panic.Unwinding

/-!
# What a move does to the operations of a site

Whatever runs and whoever calls, a move can do few things to the operations of a site: it may lay
one down in a vacant slot, change one in one of the ways of `Binding`, take the receiver out of a
leaf, or drop all above some height. `Config.Touches` lists them, each with what the next control is
and what has become of the stack, and `Config.Moves.touches` says that there are no others. It makes
no assumption on the code that runs, so that an invariant of a site needs one short argument for
each way.
-/

namespace Handoff

open Machine

/-! ### Slots and what is laid down in them -/

/-- Whether a frame says what becomes of a slot of a site. -/
def Frame.minds (s : Site) : Frame → Bool
  | guard s' _ => s' = s
  | handoff s' _ => s' = s
  | _ => false

/-- Whether a control is about to connect in a site, or to call a factory there. -/
def Control.fills (s : Site) : Control → Bool
  | connect _ _ s' _ => s' = s
  | build s' _ => s' = s
  | _ => false

namespace Sender

/-- The operation that a sender lays down when it is connected to a receiver. -/
inductive Lays (r : Receiver) (k : Nat) : Sender → Layer → Prop where
  | ready (c : Completion Value Failure) : Lays r k (.ready c) (.ready k (some (c, r)))
  | leaf (l : Leaf) : Lays r k (.leaf l) (.leaf k l (some r))
  | exploding (label : String) :
      Lays r k (.exploding (some label)) (.leaf k { label, completion := .done } (some r))
  | script (x : Script) : Lays r k (.script x) (.script k x (some r))
  | either (which : Arm) (x : Sender) : Lays r k (.either which x) (.either k which)
  | bind (x : Sender) (f : Factory) (next : Env → Sender) :
      Lays r k (.bind x f next) (newBinding f next r k)

/-- The sender that is connected inside the operation of another, and its receiver. -/
inductive Nests (r : Receiver) (s : Site) (h : Nat) : Sender → Sender → Receiver → Prop where
  | either (which : Arm) (x : Sender) : Nests r s h (.either which x) x r
  | bind (x : Sender) (f : Factory) (next : Env → Sender) :
      Nests r s h (.bind x f next) x (.child .predecessor s h)

lemma Lays.serial_eq {r : Receiver} {k : Nat} {x : Sender} {l : Layer} (h : x.Lays r k l) :
    l.serial = k := by
  cases h <;> rfl

/-- A sender none of whose scripts completes while it is being connected, nor those of what its
factories build. -/
def Patient : Sender → Prop
  | ready _ => True
  | leaf _ => True
  | exploding _ => True
  | script x => ∀ d m, x.connecting ≠ .deliver d m
  | either _ x => x.Patient
  | bind x _ next => x.Patient ∧ ∀ env, (next env).Patient

lemma Lawful.patient {x : Sender} (h : x.Lawful) : x.Patient := by
  induction x with
  | script x => exact h.connecting_ne
  | either which x ih => exact ih h
  | bind x f next ih ihnext => exact ⟨ih h.1, fun env => ihnext env (h.2 env)⟩
  | _ => trivial

lemma Scriptless.lawful {x : Sender} (h : x.Scriptless) : x.Lawful := by
  induction x with
  | script x => exact h.elim
  | either which x ih => exact ih h
  | bind x f next ih ihnext => exact ⟨ih h.1, fun env => ihnext env (h.2 env)⟩
  | _ => trivial

lemma Nests.patient {r r' : Receiver} {s : Site} {h : Nat} {x y : Sender}
    (hy : x.Nests r s h y r') (hx : x.Patient) : y.Patient := by
  cases hy with
  | either => exact hx
  | bind => exact hx.1

end Sender

lemma Binding.emplace_restore (b : Binding) (env : Env) :
    (b.restore env).emplace = b.emplace.restore env := by
  cases env <;> rfl

@[simp] lemma Layer.bare_restore (b : Binding) (env : Env) :
    (Layer.bind (b.restore env)).bare = (Layer.bind b).bare := by
  cases env <;> rfl

/-! ### Worlds that are alike at a site -/

namespace World

variable {w w' w'' : World} {s s' : Site} {h : Nat}

lemma Like.layers_ne (hw : w.Like s w') (h : w.layers s ≠ []) : w'.layers s ≠ [] := by
  intro hnil
  have hbare := hw.layers_eq
  rw [hnil] at hbare
  exact h (List.map_eq_nil_iff.1 hbare.symm)

lemma Like.dropAbove_of_ne (hs : s' ≠ s) (h : Nat) (unwinding : Bool) :
    w.Like s (w.dropAbove s' h unwinding).1 :=
  (put_of_ne hs _).trans (.of_places rfl)

lemma Like.fill_of_ne (hs : s' ≠ s) (h : Nat) (make : Nat → Layer) :
    w.Like s (w.fill s' h make).1 := by
  unfold fill
  split
  · exact (put_of_ne hs _).trans (.of_places rfl)
  · exact .of_places rfl

lemma nextSerial_dropAbove (h : Nat) (unwinding : Bool) :
    (w.dropAbove s h unwinding).1.nextSerial s = w.nextSerial s := by
  simp [dropAbove, setLayers, nextSerial]

lemma exists_layers_of_binding? {b : Binding} (hb : w.binding? s h = some b) :
    ∃ base rest, w.layers s = base ++ .bind b :: rest ∧ base.length = h :=
  exists_layers_of_getElem? (binding?_eq_some_iff.1 hb)

/-- Filling a slot of another site changes nothing here; an occupied one keeps what it holds. -/
lemma fill_cases (w : World) (s s' : Site) (h : Nat) (make : Nat → Layer) :
    (w.Like s (w.fill s' h make).1 ∧ (s' = s → (w.fill s' h make).2 = false)) ∨
      s' = s ∧ (w.layers s).length ≤ h ∧ (w.fill s' h make).2 = true ∧
        (w.fill s' h make).1.layers s = w.layers s ++ [make (w.nextSerial s)] ∧
        (w.fill s' h make).1.nextSerial s = w.nextSerial s + 1 := by
  by_cases hs : s' = s
  · subst hs
    cases hv : w.isVacant s' h with
    | false =>
      rw [fill_of_not_isVacant hv]
      exact .inl ⟨.of_places rfl, fun _ => rfl⟩
    | true =>
      rw [fill_of_isVacant hv]
      refine .inr ⟨rfl, by simpa [isVacant] using hv, rfl, by simp, ?_⟩
      simp [nextSerial]
  · exact .inl ⟨.fill_of_ne hs h make, fun heq => absurd heq hs⟩

end World

/-! ### The ways of a move -/

namespace Config

/-- The next configuration is not about to build in a site, and no more frames mind slots of it. -/
structure Idles (s : Site) (c c' : Config) : Prop where
  fills_eq : c'.control.fills s = false
  minded {f : Frame} (hf : f ∈ c'.stack) (hm : f.minds s = true) : f ∈ c.stack

/-- All above a height of a site may be dropped. -/
inductive Cuts (s : Site) (c : Config) : Nat → Prop where
  | guard {h : Nat} {m : Payload} (hc : c.control = .raised m) (hK : .guard s h ∈ c.stack) :
      Cuts s c h
  | clear {p : Int} (hc : c.control = .call (.clear p)) (hs : .place p = s) : Cuts s c 0
  | unblocked (hc : (∃ a, c.control = .done a) ∨ ∃ m, c.control = .raised m) (hs : s = .wait) :
      Cuts s c 0

lemma Cuts.fills_eq {s : Site} {c : Config} {h : Nat} (hc : c.Cuts s h) :
    c.control.fills s = false := by
  cases hc with
  | guard hc => simp [hc, Control.fills]
  | clear hc => simp [hc, Control.fills]
  | unblocked hc => rcases hc with ⟨a, hc⟩ | ⟨m, hc⟩ <;> simp [hc, Control.fills]

/-- What a move from one configuration to another does to the operations of a site. -/
inductive Touches (s : Site) (c c' : Config) : Prop where
  /-- At most stored numbers are changed. -/
  | like (hc : c.control.fills s = false) (hw : c.world.Like s c'.world) (hi : c.Idles s c')
  /-- A host is about to connect. -/
  | asked {p : Int} {x : Sender} {r : Receiver} (hc : c.control = .call (.connect p x r))
      (hs : .place p = s) (hw : c.world.Like s c'.world) (hc' : c'.control = .connect x r s 0)
      (hK : c'.stack = c.stack)
  /-- A leaf is started. -/
  | released {base rest : List Layer} {l l' : Layer} (hc : c.control = .start s base.length)
      (hl : c.world.layers s = base ++ l :: rest) (hl' : c'.world.layers s = base ++ l' :: rest)
      (hn : c'.world.nextSerial s = c.world.nextSerial s) (hr : l.Releases l')
      (hi : c.Idles s c')
  /-- A binding operation uses up its receiver. -/
  | spent {base rest : List Layer} {b : Binding} {r : Receiver} {v : Completion Value Failure}
      (hl : c.world.layers s = base ++ .bind b :: rest)
      (hl' : c'.world.layers s = base ++ .bind b.spend :: rest)
      (hn : c'.world.nextSerial s = c.world.nextSerial s) (hr : b.receiver = some r)
      (hc : (∃ role u, c.control = .complete (.child role s base.length) u ∧
        b.cleanup = role.expects) ∨
          (∃ m, c.control = .raised m) ∧ .handoff s base.length ∈ c.stack)
      (hc' : c'.control = .complete r v) (hi : c.Idles s c')
  /-- The successor of a binding operation is complete. -/
  | settled {base rest : List Layer} {b : Binding} (hc : ∃ a, c.control = .done a)
      (hK : .handoff s base.length ∈ c.stack)
      (hl : c.world.layers s = base ++ .bind b :: rest)
      (hl' : c'.world.layers s = base ++ .bind b.settle :: rest)
      (hn : c'.world.nextSerial s = c.world.nextSerial s)
      (hc' : c'.control = .start s (base.length + 1)) (hi : c.Idles s c')
  /-- A binding operation takes the value of its predecessor, which is dropped. -/
  | accepted {base rest : List Layer} {b : Binding} {v : Value}
      (hc : c.control = .complete (.child .predecessor s base.length) (.value v))
      (hb : b.cleanup = .predecessor) (hl : c.world.layers s = base ++ .bind b :: rest)
      (hl' : c'.world.layers s = base ++ [.bind (b.store v).vacate])
      (hn : c'.world.nextSerial s = c.world.nextSerial s)
      (hc' : c'.control = .build s base.length ∨ ∃ m, c'.control = .raised m)
      (hK : c'.stack = .handoff s base.length :: c.stack)
  /-- A binding operation calls its factory, in vain. -/
  | called {base rest : List Layer} {b : Binding} (hc : c.control = .build s base.length)
      (hl : c.world.layers s = base ++ .bind b :: rest)
      (hl' : (c'.world.layers s).map Layer.bare = (base ++ .bind b.call :: rest).map Layer.bare)
      (hn : c'.world.nextSerial s = c.world.nextSerial s) (hc' : ∃ m, c'.control = .raised m)
      (hK : c'.stack = c.stack)
  /-- There is no binding operation whose factory could be called. -/
  | missed {h : Nat} (hc : c.control = .build s h) (hb : c.world.binding? s h = none)
      (hw : c.world.Like s c'.world) (hi : c.Idles s c')
  /-- A binding operation is about to connect what its factory has built. -/
  | built {base rest : List Layer} {b : Binding} {f : Factory} {next : Env → Sender} {env : Env}
      (hc : c.control = .build s base.length) (hl : c.world.layers s = base ++ .bind b :: rest)
      (hf : b.factory = some (f, next))
      (hl' : (c'.world.layers s).map Layer.bare =
        (base ++ .bind b.call.emplace :: rest).map Layer.bare)
      (hn : c'.world.nextSerial s = c.world.nextSerial s)
      (hc' : c'.control =
        .connect (next env) (.child .successor s base.length) s (base.length + 1))
      (hK : c'.stack = c.stack)
  /-- A leaf is connected. -/
  | filled {x : Sender} {r : Receiver} {h : Nat} {l : Layer} (hc : c.control = .connect x r s h)
      (hh : (c.world.layers s).length ≤ h) (hx : x.Lays r (c.world.nextSerial s) l)
      (hl' : c'.world.layers s = c.world.layers s ++ [l])
      (hn : c'.world.nextSerial s = c.world.nextSerial s + 1)
      (hc' : (∃ a, c'.control = .done a) ∨ ∃ m, c'.control = .raised m) (hK : c'.stack = c.stack)
  /-- An operation is laid down, and what it holds is about to be connected. -/
  | nested {x y : Sender} {r r' : Receiver} {h : Nat} {l : Layer}
      (hc : c.control = .connect x r s h) (hh : (c.world.layers s).length ≤ h)
      (hx : x.Lays r (c.world.nextSerial s) l) (hy : x.Nests r s h y r')
      (hl' : c'.world.layers s = c.world.layers s ++ [l])
      (hn : c'.world.nextSerial s = c.world.nextSerial s + 1)
      (hc' : c'.control = .connect y r' s (h + 1)) (hK : c'.stack = .guard s h :: c.stack)
  /-- A connect fails and lays nothing down. -/
  | refused {x : Sender} {r : Receiver} {h : Nat} (hc : c.control = .connect x r s h)
      (hw : c.world.Like s c'.world) (hc' : ∃ m, c'.control = .raised m) (hK : c'.stack = c.stack)
  /-- A script completes its receiver instead of being connected. -/
  | delivered {x : Script} {d : Delivery} {p : Option Payload} {r : Receiver} {h : Nat}
      {v : Completion Value Failure} (hc : c.control = .connect (.script x) r s h)
      (hx : x.connecting = .deliver d p) (hw : c.world.Like s c'.world)
      (hc' : c'.control = .complete r v) (hi : c.Idles s c')
  /-- All above a height is dropped. -/
  | cut {h : Nat} (hl' : c'.world.layers s = (c.world.layers s).take h)
      (hn : c'.world.nextSerial s = c.world.nextSerial s) (hc : c.Cuts s h) (hi : c.Idles s c')
  /-- A caller is about to block, and its site is set up anew. -/
  | blocked {x : Sender} (hc : c.control = .call (.wait x)) (hs : s = .wait)

end Config

namespace Machine

open Config (Touches Idles)
open World (Like)

variable {s s' : Site} {w w' : World} {K : List Frame} {h : Nat} {r : Receiver}
  {control : Control}

/-! ### Moves that end -/

lemma touches_finish (hc : control.fills s = false) (hw : w.Like s w') {K' : List Frame}
    (hK : K' ⊆ K) : Touches s ⟨w, control, K⟩ (finish w' K') :=
  .like hc hw ⟨rfl, fun hf _ => hK hf⟩

lemma touches_raised (hc : control.fills s = false) (hw : w.Like s w') {K' : List Frame}
    (hK : K' ⊆ K) (m : Payload) : Touches s ⟨w, control, K⟩ ⟨w', .raised m, K'⟩ :=
  .like hc hw ⟨rfl, fun hf _ => hK hf⟩

lemma touches_finishOr (hc : control.fills s = false) (hw : w.Like s w') {K' : List Frame}
    (hK : K' ⊆ K) (m : Option Payload) : Touches s ⟨w, control, K⟩ (finishOr w' m K') := by
  cases m with
  | none => exact touches_finish hc hw hK
  | some m => exact touches_raised hc hw hK m

/-- A move to another control that builds nothing in the site, perhaps under a new frame. -/
lemma touches_like {c' : Config} (hc : control.fills s = false) (hw : w.Like s c'.world)
    (hc' : c'.control.fills s = false)
    (hK : c'.stack = K ∨ ∃ f, f.minds s = false ∧ c'.stack = f :: K) :
    Touches s ⟨w, control, K⟩ c' := by
  refine .like hc hw ⟨hc', ?_⟩
  intro f hf hm
  rcases hK with hK | ⟨g, hg, hK⟩
  · exact hK ▸ hf
  · rw [hK, List.mem_cons] at hf
    rcases hf with rfl | hf
    · simp [hm] at hg
    · exact hf

/-- Nothing that stands anywhere is changed. -/
lemma touches_places {c' : Config} (hc : control.fills s = false)
    (hp : c'.world.places = w.places) (hc' : c'.control.fills s = false)
    (hK : c'.stack = K ∨ ∃ f, f.minds s = false ∧ c'.stack = f :: K) :
    Touches s ⟨w, control, K⟩ c' :=
  touches_like hc (.of_places hp) hc' hK

/-! ### Connecting -/

lemma fills_connect {x : Sender} : Control.fills s (.connect x r s' h) = decide (s' = s) :=
  rfl

/-- A connect that fails has changed nothing. -/
lemma touches_refused {x : Sender} (hw : w.Like s w') (m : Payload) :
    Touches s ⟨w, .connect x r s' h, K⟩ ⟨w', .raised m, K⟩ := by
  by_cases hs : s' = s
  · subst hs
    exact .refused rfl hw ⟨m, rfl⟩ rfl
  · exact touches_raised (by simp [fills_connect, hs]) hw (List.Subset.refl K) m

lemma touches_connectLeaf {x : Sender} {make : Nat → Layer} (hx : ∀ k, x.Lays r k (make k))
    (acts : List Act) (after : Option Payload) :
    Touches s ⟨w, .connect x r s' h, K⟩ (connectLeaf (w.note s' acts) s' h make after K) := by
  have hw : w.Like s (w.note s' acts) := .of_places rfl
  have hcases := World.fill_cases (w.note s' acts) s s' h make
  unfold connectLeaf
  generalize World.fill _ s' h make = q at hcases ⊢
  obtain ⟨w', filled⟩ := q
  rcases hcases with ⟨hlike, hsame⟩ | ⟨rfl, hh, hfilled, hl', hn⟩
  · cases filled with
    | false => exact touches_refused (hw.trans hlike) _
    | true =>
      have hs : s' ≠ s := fun hs => by simpa using hsame hs
      exact touches_finishOr (by simp [fills_connect, hs]) (hw.trans hlike)
        (List.Subset.refl K) after
  · obtain rfl : filled = true := hfilled
    cases after with
    | none => exact .filled rfl hh (hx _) hl' hn (.inl ⟨_, rfl⟩) rfl
    | some m => exact .filled rfl hh (hx _) hl' hn (.inr ⟨m, rfl⟩) rfl

lemma touches_nest {x y : Sender} {r' : Receiver} {make : Nat → Layer}
    (hx : ∀ k, x.Lays r k (make k)) (hy : x.Nests r s' h y r') (acts acts' : List Act) :
    Touches s ⟨w, .connect x r s' h, K⟩
      (match (w.note s' acts).fill s' h make with
      | (w, true) => ⟨w, .connect y r' s' (h + 1), .guard s' h :: K⟩
      | (w, false) => fault (w.note s' acts') .occupiedConnect K) := by
  have hw : w.Like s (w.note s' acts) := .of_places rfl
  have hcases := World.fill_cases (w.note s' acts) s s' h make
  generalize World.fill _ s' h make = q at hcases ⊢
  obtain ⟨w', filled⟩ := q
  rcases hcases with ⟨hlike, hsame⟩ | ⟨rfl, hh, hfilled, hl', hn⟩
  · cases filled with
    | false =>
      have hnote : w'.Like s (w'.note s' acts') := .of_places rfl
      exact touches_refused ((hw.trans hlike).trans hnote) _
    | true =>
      have hs : s' ≠ s := fun hs => by simpa using hsame hs
      refine touches_like (by simp [fills_connect, hs]) (hw.trans hlike) ?_ (.inr ?_)
      · simp [fills_connect, hs]
      · exact ⟨_, by simp [Frame.minds, hs], rfl⟩
  · obtain rfl : filled = true := hfilled
    exact .nested rfl hh (hx _) hy hl' hn rfl rfl

/-- A script that completes its receiver lays nothing down. -/
lemma touches_deliver {x : Script} {d : Delivery} {m : Option Payload}
    (hx : x.connecting = .deliver d m) (acts : List Act) (v : Completion Value Failure) :
    Touches s ⟨w, .connect (.script x) r s' h, K⟩
      ⟨w.note s' acts, .complete r v, .thenRaise m :: K⟩ := by
  have hw : w.Like s (w.note s' acts) := .of_places rfl
  have hidles : Idles s ⟨w, .connect (.script x) r s' h, K⟩
      ⟨w.note s' acts, .complete r v, .thenRaise m :: K⟩ := by
    refine ⟨rfl, ?_⟩
    intro f hf hm
    rcases List.mem_cons.1 hf with rfl | hf
    · simp [Frame.minds] at hm
    · exact hf
  by_cases hs : s' = s
  · subst hs
    exact .delivered rfl hx hw rfl hidles
  · exact .like (by simp [fills_connect, hs]) hw hidles

lemma touches_connect (x : Sender) :
    Touches s ⟨w, .connect x r s' h, K⟩ (connect w x r s' h K) := by
  have hfail (acts : List Act) (m : Payload) (x : Sender) :
      Touches s ⟨w, .connect x r s' h, K⟩ ⟨w.note s' acts, .raised m, K⟩ := by
    have hw : w.Like s (w.note s' acts) := .of_places rfl
    exact touches_refused hw m
  cases x with
  | ready c => simpa [connect] using touches_connectLeaf (fun k => .ready c) [] none
  | leaf l => exact touches_connectLeaf (fun k => .leaf l) [.connected l.label] none
  | exploding built =>
    cases built with
    | none => exact hfail r.drop _ _
    | some label => exact touches_connectLeaf (fun k => .exploding label) [.connected label] _
  | script x =>
    simp only [connect, connectScript]
    cases hx : x.connecting with
    | fill => exact touches_connectLeaf (fun k => .script x) [.connected x.label] none
    | half m => exact touches_connectLeaf (fun k => .script x) [.connected x.label] (some m)
    | raise m => simpa [World.note_note] using hfail (.connected x.label :: r.drop) m _
    | deliver d m => exact touches_deliver hx [.connected x.label] _
  | either which x =>
    have hnest := touches_nest (w := w) (s := s) (K := K) (fun k => .either which x)
      (.either (r := r) (s := s') (h := h) which x) [] (x.drop ++ r.drop)
    rw [World.note_nil] at hnest
    exact hnest
  | bind x f next =>
    exact touches_nest (fun k => .bind x f next) (.bind x f next) [.logged _ .connecting] x.drop

/-! ### Starting -/

/-- A frame that minds no slot of the site has been pushed, or none at all. -/
lemma minded_cons {f g : Frame} (hg : g.minds s = false) (hf : f ∈ g :: K)
    (hm : f.minds s = true) : f ∈ K := by
  rcases List.mem_cons.1 hf with rfl | hf
  · simp [hm] at hg
  · exact hf

lemma idles_startLeaf (s : Site) (w₀ w : World) (control : Control) (K : List Frame) (l : Leaf)
    (r : Receiver) (s' : Site) :
    Idles s ⟨w₀, control, K⟩ (startLeaf w l r s' K) ∧
      (startLeaf w l r s' K).world.places = w.places := by
  simp only [startLeaf]
  generalize (if l.inspecting then _ else _ : List Act) = acts
  split_ifs
  · exact ⟨⟨rfl, minded_cons rfl⟩, rfl⟩
  · exact ⟨⟨rfl, fun hf _ => hf⟩, rfl⟩
  · exact ⟨⟨rfl, fun hf _ => hf⟩, rfl⟩

/-- A leaf that is started lets go of what it holds. -/
lemma touches_release {l l' : Layer} {c' : Config} (hget : (w.layers s')[h]? = some l)
    (hr : l.Releases l') (acts : List Act)
    (hp : c'.world.places = ((w.note s' acts).setLayer s' h l').places)
    (hi : Idles s ⟨w, .start s' h, K⟩ c') : Touches s ⟨w, .start s' h, K⟩ c' := by
  by_cases hs : s' = s
  · subst hs
    obtain ⟨base, rest, hl, rfl⟩ := World.exists_layers_of_getElem? hget
    have hl₁ : (w.note s' acts).layers s' = base ++ l :: rest := hl
    have hl₂ := World.layers_setLayer hl₁ l'
    have hplace : c'.world.place s' = ((w.note s' acts).setLayer s' base.length l').place s' := by
      simp [World.place, hp]
    refine .released rfl hl ?_ ?_ hr hi
    · rw [World.layers, hplace]
      exact hl₂
    · rw [World.nextSerial, hplace]
      exact World.nextSerial_setLayer (w := w.note s' acts) _ _
  · have hnote : w.Like s (w.note s' acts) := .of_places rfl
    exact .like rfl ((hnote.trans (.setLayer_of_ne hs h l')).trans (.of_places hp)) hi

lemma touches_start : Touches s ⟨w, .start s' h, K⟩ (start w s' h K) := by
  have hsame : w.Like s w := .refl s w
  have hnote (acts : List Act) : w.Like s (w.note s' acts) := .of_places rfl
  have hfault (acts : List Act) (f : Fault) :
      Touches s ⟨w, .start s' h, K⟩ (fault (w.note s' acts) f K) :=
    touches_raised rfl (hnote acts) (List.Subset.refl K) _
  unfold start
  split
  · simpa using hfault [] .vacantStart
  · simpa using hfault [] .readyRestarted
  · next k c r hget =>
    refine touches_release hget (.ready k (c, r)) [] ?_ ⟨rfl, fun hf _ => hf⟩
    simp
  · exact hfault _ _
  · next k l r hget =>
    have hidles := idles_startLeaf s w
      ((w.note s' [.started l.label]).setLayer s' h (.leaf k l none)) (.start s' h) K l r s'
    exact touches_release hget (.leaf k l r) [.started l.label] hidles.2 hidles.1
  · exact hfault _ _
  · next k x r hget =>
    exact touches_release hget (.script k x r) [.started x.label] rfl
      ⟨rfl, fun hf _ => hf⟩
  · exact touches_like rfl hsame rfl (.inl rfl)
  · split_ifs
    · exact touches_like rfl (hnote _) rfl (.inl rfl)
    · exact hfault _ _

/-! ### Completing -/

variable {b : Binding} {K' : List Frame}

lemma touches_pass (hc : control.fills s = false) (hb : w.binding? s' h = some b)
    (hcause : (∃ role u, control = .complete (.child role s' h) u ∧ b.cleanup = role.expects) ∨
      (∃ m, control = .raised m) ∧ .handoff s' h ∈ K)
    (hK : K' ⊆ K) (acts : List Act) (v : Completion Value Failure) :
    Touches s ⟨w, control, K⟩ (Machine.pass (w.note s' acts) s' h b v K') := by
  have hnote : w.Like s (w.note s' acts) := .of_places rfl
  rw [Machine.pass]
  cases hr : b.receiver with
  | none =>
    have hdrop : w.Like s ((w.note s' acts).note s' (dropCarried v)) := .of_places rfl
    exact touches_raised hc hdrop hK _
  | some r =>
    have hidles : Idles s ⟨w, control, K⟩
        ⟨(w.note s' acts).setBinding s' h b.spend, .complete r v, K'⟩ :=
      ⟨rfl, fun hf _ => hK hf⟩
    by_cases hs : s' = s
    · subst hs
      obtain ⟨base, rest, hl, rfl⟩ := World.exists_layers_of_binding? hb
      have hl₁ : (w.note s' acts).layers s' = base ++ .bind b :: rest := hl
      have hn : ((w.note s' acts).setBinding s' base.length b.spend).nextSerial s' =
          w.nextSerial s' := by simp
      exact .spent hl (World.layers_setBinding hl₁ b.spend) hn hr hcause rfl hidles
    · exact .like hc (hnote.trans (.setBinding_of_ne hs h b.spend)) hidles

/-- Accepting a value leaves the binding operation the last one of its site, with a handoff to be
seen through. -/
lemma exists_accept {base rest : List Layer} (hl : w.layers s = base ++ .bind b :: rest) (v : Value)
    (K : List Frame) :
    ∃ w' control, accept w s base.length b v K =
        ⟨w', control, .handoff s base.length :: K⟩ ∧
      (control = .build s base.length ∨ ∃ m, control = .raised m) ∧
      w'.layers s = base ++ [.bind (b.store v).vacate] ∧ w'.nextSerial s = w.nextSerial s := by
  have hl₁ := World.layers_setBinding hl (b.store v)
  have hl₂ : ((w.setBinding s base.length (b.store v)).dropAbove s (base.length + 1)
      false).1.layers s = base ++ [.bind (b.store v)] := by
    rw [World.layers_dropAbove, hl₁, World.take_top]
  refine ⟨_, _, rfl, ?_, World.layers_setBinding hl₂ (b.store v).vacate, ?_⟩
  · cases ((w.setBinding s base.length (b.store v)).dropAbove s (base.length + 1) false).2 with
    | none => exact .inl rfl
    | some m => exact .inr ⟨m, rfl⟩
  · rw [World.nextSerial_setBinding, World.nextSerial_dropAbove, World.nextSerial_setBinding]

lemma touches_accept (hb : w.binding? s' h = some b) (hc : b.cleanup = .predecessor)
    (acts : List Act) (v : Value) :
    Touches s ⟨w, .complete (.child .predecessor s' h) (.value v), K⟩
      (accept (w.note s' acts) s' h b v K) := by
  have hnote : w.Like s (w.note s' acts) := .of_places rfl
  by_cases hs : s' = s
  · subst hs
    obtain ⟨base, rest, hl, rfl⟩ := World.exists_layers_of_binding? hb
    obtain ⟨w', control, haccept, hcontrol, hl', hn⟩ :=
      exists_accept (w := w.note s' acts) hl v K
    rw [haccept]
    exact .accepted rfl hc hl hl' (hn.trans (by simp)) hcontrol rfl
  · have hlike : w.Like s (accept (w.note s' acts) s' h b v K).world := by
      have hstore := Like.setBinding_of_ne (w := w.note s' acts) hs h (b.store v)
      have hdrop := hstore.trans (.dropAbove_of_ne hs (h + 1) false)
      exact (hnote.trans hdrop).trans (.setBinding_of_ne hs h _)
    have hframe : Frame.minds s (.handoff s' h) = false := by simp [Frame.minds, hs]
    refine touches_like rfl hlike ?_ (.inr ⟨_, hframe, rfl⟩)
    simp only [accept]
    cases (((w.note s' acts).setBinding s' h (b.store v)).dropAbove s' (h + 1) false).2 with
    | none => simp [Control.fills, hs]
    | some m => rfl

lemma touches_receive {role : Role} (hb : w.binding? s' h = some b)
    (hc : b.cleanup = role.expects) (v : Completion Value Failure) :
    Touches s ⟨w, .complete (.child role s' h) v, K⟩ (receive w role s' h b v K) := by
  have hpass (acts : List Act) (u : Completion Value Failure) :
      Touches s ⟨w, .complete (.child role s' h) v, K⟩
        (Machine.pass (w.note s' acts) s' h b u K) :=
    touches_pass rfl hb (.inl ⟨role, v, rfl, hc⟩) (List.Subset.refl K) acts u
  cases role with
  | predecessor =>
    cases v with
    | value v => exact touches_accept hb hc [.logged b.serial .produced, .stored b.serial] v
    | error e => exact hpass [.logged b.serial .failed] _
    | done => exact hpass [.logged b.serial .stopped] _
  | successor => simpa [receive] using hpass [] (v.mapError .successor)

lemma touches_complete (v : Completion Value Failure) :
    Touches s ⟨w, .complete r v, K⟩ (complete w r v K) := by
  cases r with
  | child role s' h =>
    simp only [complete]
    cases hb : w.binding? s' h with
    | none => exact touches_places rfl rfl rfl (.inl rfl)
    | some b =>
      dsimp only
      split_ifs with hc
      · exact touches_receive hb hc v
      · exact touches_places rfl rfl rfl (.inl rfl)
  | observer home o => exact touches_places rfl rfl rfl (.inr ⟨_, rfl, rfl⟩)
  | recorder home k => exact touches_places rfl rfl rfl (.inl rfl)
  | waiter id =>
    simp only [complete, completeWaiter]
    split_ifs
    · exact touches_places rfl rfl rfl (.inl rfl)
    · exact touches_places rfl rfl rfl (.inl rfl)

lemma touches_react (home : Site) (label : String) (actions : List Action) :
    Touches s ⟨w, .react home label actions, K⟩ (react w home label actions K) := by
  unfold react
  split
  · exact touches_places rfl rfl rfl (.inl rfl)
  · exact touches_places rfl rfl rfl (.inl rfl)
  · exact touches_places rfl rfl rfl (.inl rfl)
  · exact touches_places rfl rfl rfl (.inr ⟨_, rfl, rfl⟩)

/-! ### Following a script -/

lemma touches_deliverRun (run : Run) (steps : List Instr) (d : Delivery) {frame : Run → Frame}
    (hf : ∀ run, (frame run).minds s = false) (acts : List Act) :
    Touches s ⟨w, .follow run steps, K⟩ (deliver (w.note run.site acts) run d frame K) := by
  unfold deliver
  split
  · exact touches_places rfl rfl rfl (.inr ⟨_, hf run, rfl⟩)
  · exact touches_places rfl rfl rfl (.inr ⟨_, hf _, rfl⟩)

lemma touches_instruct (run : Run) (i : Instr) (rest : List Instr) :
    Touches s ⟨w, .follow run (i :: rest), K⟩ (instruct w run i rest K) := by
  have hdeliver (d : Delivery) (frame : Run → Frame) (hf : ∀ run, (frame run).minds s = false) :
      Touches s ⟨w, .follow run (i :: rest), K⟩ (deliver w run d frame K) := by
    simpa using touches_deliverRun run (i :: rest) d hf []
  cases i with
  | complete d => exact hdeliver d (.script · rest) fun _ => rfl
  | attempt d => exact hdeliver d (.attempt · rest) fun _ => rfl
  | stopDone =>
    simp only [instruct]
    split_ifs
    · exact touches_deliverRun run _ .done (fun _ => rfl) [.gaveUp run.label]
    · exact touches_places rfl rfl rfl (.inl rfl)
  | request k => exact touches_places rfl (places_request w k).1 rfl (.inl rfl)
  | poke d n => exact touches_like rfl (.setScope w s run.site run.reach _) rfl (.inl rfl)
  | _ => exact touches_places rfl rfl rfl (.inl rfl)

lemma touches_follow (run : Run) (steps : List Instr) :
    Touches s ⟨w, .follow run steps, K⟩ (follow w run steps K) := by
  unfold follow
  split
  · exact touches_places rfl rfl rfl (.inl rfl)
  · split_ifs
    · exact touches_instruct run _ _
    · split
      · exact touches_instruct run _ _
      · exact touches_instruct run _ _
      · exact touches_places rfl rfl rfl (.inl rfl)

/-! ### Calling a factory -/

lemma bare_setBinding {base rest : List Layer} {l : Layer}
    (hl : (w.layers s).map Layer.bare = (base ++ l :: rest).map Layer.bare) (b : Binding) :
    ((w.setBinding s base.length b).layers s).map Layer.bare =
      (base ++ .bind b :: rest).map Layer.bare := by
  simp only [World.setBinding, World.setLayer, World.layers_setLayers_self, List.map_set, hl]
  simp

/-- A factory is called, and stored numbers are written back. -/
lemma like_called (w : World) (s s' : Site) (h : Nat) (acts acts' : List Act) (env : Env) :
    w.Like s (((w.note s' acts).setScope s' h env).note s' acts') := by
  have hnote : w.Like s (w.note s' acts) := .of_places rfl
  have hscope := Like.setScope (w.note s' acts) s s' h env
  exact (hnote.trans hscope).trans (.of_places rfl)

lemma touches_build : Touches s ⟨w, .build s' h, K⟩ (build w s' h K) := by
  cases hb : w.binding? s' h with
  | none =>
    have hfinish : build w s' h K = finish w K := by simp [build, hb]
    rw [hfinish]
    by_cases hs : s' = s
    · subst hs
      exact .missed rfl hb (.refl s' w) ⟨rfl, fun hf _ => hf⟩
    · exact touches_finish (by simp [Control.fills, hs]) (.refl s w) (List.Subset.refl K)
  | some b =>
    obtain ⟨base, rest, hl, rfl⟩ := World.exists_layers_of_binding? hb
    have hbare {w' : World} (hs : s' = s) (hw : w.Like s w') (b' : Binding) :
        ((w'.setBinding s' base.length b').layers s).map Layer.bare =
          (base ++ .bind b' :: rest).map Layer.bare := by
      subst hs
      exact bare_setBinding (hw.layers_eq.trans (by rw [hl])) b'
    have hcount {w' : World} (hs : s' = s) (hw : w.Like s w') (b' : Binding) :
        (w'.setBinding s' base.length b').nextSerial s = w.nextSerial s := by
      subst hs
      rw [World.nextSerial_setBinding, hw.count_eq]
    have hfail {w' : World} (hw : w.Like s w') {b' : Binding} (hb' : (Layer.bind b').bare =
        (Layer.bind b.call).bare) (m : Payload) :
        Touches s ⟨w, .build s' base.length, K⟩
          ⟨w'.setBinding s' base.length b', .raised m, K⟩ := by
      by_cases hs : s' = s
      · refine .called (by rw [hs]) (hs ▸ hl) ?_ (hcount hs hw b') ⟨m, rfl⟩ rfl
        rw [hbare hs hw, List.map_append, List.map_cons, hb', List.map_append, List.map_cons]
      · exact touches_raised (by simp [Control.fills, hs]) (hw.trans (.setBinding_of_ne hs _ b'))
          (List.Subset.refl K) m
    cases hf : b.factory with
    | none => simpa [build, hb, hf, fault] using hfail (.refl s w) rfl _
    | some f =>
      obtain ⟨f, next⟩ := f
      simp only [build, hb, hf]
      generalize f.call (b.stored ++ w.scope s' base.length) = c
      set acts := b.stored.map (Act.called b.serial f.label) ++ c.remarks.map Act.remark
      have hlike (acts' : List Act) := like_called w s s' base.length acts acts'
        (c.env.drop b.stored.length)
      cases c.raised with
      | some m =>
        have hlike₀ := hlike []
        rw [World.note_nil] at hlike₀
        exact hfail hlike₀ (Layer.bare_restore _ _) m
      | none =>
        have hlike₁ := hlike [.logged (b.call.restore c.env).serial .connectingSuccessor]
        by_cases hs : s' = s
        · refine .built (by rw [hs]) (hs ▸ hl) hf ?_ (hcount hs hlike₁ _) (by rw [hs]) rfl
          rw [hbare hs hlike₁, List.map_append, List.map_cons, Binding.emplace_restore,
            Layer.bare_restore, List.map_append, List.map_cons]
        · refine touches_like ?_ (hlike₁.trans (.setBinding_of_ne hs _ _)) ?_ (.inl rfl)
          · simp [Control.fills, hs]
          · simp [fills_connect, hs]

/-! ### Calls and tasks -/

lemma touches_runTask (t : Task) : Touches s ⟨w, .task t, K⟩ (runTask w t K) := by
  cases t with
  | complete v r => exact touches_places rfl rfl rfl (.inl rfl)
  | resume run steps =>
    simp only [runTask]
    split_ifs
    · exact touches_places rfl rfl rfl (.inl rfl)
    · exact touches_places rfl rfl rfl (.inl rfl)
  | job j =>
    obtain ⟨label, spawned, raised⟩ := j
    have hlike : w.Like s ((spawned.map Task.job).foldl World.schedule
        (w.record none [.remark label])) := .of_places (places_foldl_schedule _ _).1
    exact touches_finishOr rfl hlike (List.Subset.refl K) raised

lemma touches_connectPlace (p : Int) (x : Sender) :
    Touches s ⟨w, .call (.connect p x r), K⟩ (connectPlace w (.place p) x r K) := by
  have hrefuse (acts : List Act) (why : String) :
      Touches s ⟨w, .call (.connect p x r), K⟩ (refuse (w.note (.place p) acts) why K) :=
    touches_places rfl rfl rfl (.inl rfl)
  have hgo {w' : World} (hw : w.Like s w') :
      Touches s ⟨w, .call (.connect p x r), K⟩ ⟨w', .connect x r (.place p) 0, K⟩ := by
    by_cases hs : .place p = s
    · exact .asked rfl hs hw (by rw [hs]) rfl
    · exact touches_like rfl hw (by simp [fills_connect, hs]) (.inl rfl)
  unfold connectPlace
  split
  · next hl =>
    refine hgo ?_
    by_cases hs : .place p = s
    · subst hs
      constructor
      · simp [hl]
      · simp [World.setLayers, World.nextSerial]
    · exact .put_of_ne hs _
  · split_ifs
    · exact hgo (.refl s w)
    · exact hrefuse x.drop _

lemma touches_withPlace {c' : Config} (hc : Touches s ⟨w, control, K⟩ c')
    (hcontrol : control.fills s = false) (s' : Site) :
    Touches s ⟨w, control, K⟩ (withPlace w s' c' K) := by
  unfold withPlace
  split
  · exact hc
  · exact touches_places hcontrol rfl rfl (.inl rfl)

/-- All that stands in a numbered place is dropped. -/
lemma touches_clear (p : Int) :
    Touches s ⟨w, .call (.clear p), K⟩
      (finishOr (w.dropAbove (.place p) 0 false).1 (w.dropAbove (.place p) 0 false).2 K) := by
  by_cases hs : .place p = s
  · subst hs
    have hidles (m : Option Payload) : Idles (.place p) ⟨w, .call (.clear p), K⟩
        (finishOr (w.dropAbove (.place p) 0 false).1 m K) := by
      cases m with
      | none => exact ⟨rfl, fun hf _ => hf⟩
      | some m => exact ⟨rfl, fun hf _ => hf⟩
    have hworld (m : Option Payload) : (finishOr (w.dropAbove (.place p) 0 false).1 m K).world =
        (w.dropAbove (.place p) 0 false).1 := by
      cases m <;> rfl
    refine .cut (h := 0) ?_ ?_ (.clear rfl rfl) (hidles _)
    · rw [hworld, World.layers_dropAbove]
    · rw [hworld, World.nextSerial_dropAbove]
  · exact touches_finishOr rfl (.dropAbove_of_ne hs 0 false) (List.Subset.refl K) _

lemma touches_wait (x : Sender) :
    Touches s ⟨w, .call (.wait x), K⟩ (call w (.wait x) K) := by
  by_cases hs : s = .wait
  · exact .blocked rfl hs
  · have hp : (call w (.wait x) K).world.place s = w.place s := by
      simp only [call, World.place_note]
      exact World.place_put_of_ne _ hs
    have hw : w.Like s (call w (.wait x) K).world := by
      constructor
      · rw [World.layers, hp, World.layers]
      · rw [World.nextSerial, hp, World.nextSerial]
    refine .like rfl hw ⟨?_, fun hf hm => ?_⟩
    · simpa [call, fills_connect] using Ne.symm hs
    · exact minded_cons (K := K) (g := .waitOver) rfl (minded_cons rfl hf hm) hm

lemma touches_call (x : Call) :
    Touches s ⟨w, .call x, K⟩ (call w x K) := by
  cases x with
  | connect p x r => exact touches_connectPlace p x
  | start p =>
    refine touches_withPlace ?_ rfl _
    exact touches_places rfl rfl rfl (.inl rfl)
  | clear p => exact touches_withPlace (touches_clear p) rfl _
  | tick =>
    simp only [call]
    split
    · exact touches_places rfl rfl rfl (.inl rfl)
    · exact touches_places rfl rfl rfl (.inr ⟨_, rfl, rfl⟩)
  | drain =>
    simp only [call]
    split
    · exact touches_places rfl rfl rfl (.inl rfl)
    · exact touches_places rfl rfl rfl (.inr ⟨_, rfl, rfl⟩)
  | request k => exact touches_places rfl (places_request w k).1 rfl (.inl rfl)
  | wait x => exact touches_wait x
  | _ => exact touches_places rfl rfl rfl (.inl rfl)

/-! ### Returning and unwinding -/

/-- A frame is popped, and another pushed in its place perhaps. -/
lemma touches_pop {c' : Config} (f : Frame) (hc : control.fills s = false)
    (hp : c'.world.places = w.places) (hc' : c'.control.fills s = false)
    (hK : c'.stack = K ∨ ∃ g, g.minds s = false ∧ c'.stack = g :: K) :
    Touches s ⟨w, control, f :: K⟩ c' := by
  refine .like hc (.of_places hp) ⟨hc', fun hg hm => .tail f ?_⟩
  rcases hK with hK | ⟨g', hg', hK⟩
  · exact hK ▸ hg
  · exact minded_cons hg' (hK ▸ hg) hm

/-- What a blocked caller holds is dropped. -/
lemma touches_dropWait {c' : Config} (f : Frame)
    (hc : (∃ a, control = .done a) ∨ ∃ m, control = .raised m) (unwinding : Bool)
    (hp : c'.world.places = (w.dropAbove .wait 0 unwinding).1.places)
    (hc' : c'.control.fills s = false) (hK : c'.stack = K) :
    Touches s ⟨w, control, f :: K⟩ c' := by
  have hidles : Idles s ⟨w, control, f :: K⟩ c' := ⟨hc', fun hg _ => .tail f (hK ▸ hg)⟩
  have hlike := Like.of_places (s := s) hp
  by_cases hs : s = .wait
  · subst hs
    refine .cut (h := 0) ?_ ?_ (.unblocked hc rfl) hidles
    · have hbare := hlike.layers_eq
      rw [World.layers_dropAbove, List.take_zero] at hbare
      rw [List.map_eq_nil_iff.1 hbare, List.take_zero]
    · rw [hlike.count_eq, World.nextSerial_dropAbove]
  · have hfills : control.fills s = false := by
      rcases hc with ⟨a, rfl⟩ | ⟨m, rfl⟩ <;> rfl
    exact .like hfills ((Like.dropAbove_of_ne (Ne.symm hs) 0 unwinding).trans hlike) hidles

lemma touches_unblock (a : Reply) (f : Frame) :
    Touches s ⟨w, .done a, f :: K⟩ (unblock w K) := by
  unfold unblock
  split
  · exact touches_dropWait f (.inl ⟨a, rfl⟩) true rfl rfl rfl
  · simp only [release]
    generalize hd : w.dropAbove .wait 0 false = d
    have hp := congrArg (·.1.places) hd
    obtain ⟨w', _ | m⟩ := d
    · exact touches_dropWait f (.inl ⟨a, rfl⟩) false hp.symm rfl rfl
    · exact touches_dropWait f (.inl ⟨a, rfl⟩) false hp.symm rfl rfl

lemma touches_abandon (a : Reply) (f : Frame) :
    Touches s ⟨w, .done a, f :: K⟩ (abandon w K) := by
  unfold abandon
  split
  · exact touches_finish rfl (.refl s w) (List.subset_cons_self f K)
  · generalize hd : (w.note .wait [.remark "abandoned"]).dropAbove .wait 0 false = d
    have hp := congrArg (·.1.places) hd
    obtain ⟨w', _ | m⟩ := d
    · exact touches_dropWait f (.inl ⟨a, rfl⟩) false hp.symm rfl rfl
    · exact touches_dropWait f (.inl ⟨a, rfl⟩) false hp.symm rfl rfl

/-- What a handoff was waiting for has returned. -/
lemma touches_settle (a : Reply) :
    Touches s ⟨w, .done a, .handoff s' h :: K⟩ (resume w a (.handoff s' h) K) := by
  simp only [resume]
  cases hb : w.binding? s' h with
  | none => exact touches_finish rfl (.refl s w) (List.subset_cons_self _ K)
  | some b =>
    have hidles : Idles s ⟨w, .done a, .handoff s' h :: K⟩
        ⟨w.setBinding s' h b.settle, .start s' (h + 1), K⟩ := ⟨rfl, fun hf _ => .tail _ hf⟩
    by_cases hs : s' = s
    · subst hs
      obtain ⟨base, rest, hl, rfl⟩ := World.exists_layers_of_binding? hb
      exact .settled ⟨a, rfl⟩ (by simp) hl (World.layers_setBinding hl b.settle)
        (World.nextSerial_setBinding _ _) rfl hidles
    · exact .like rfl (.setBinding_of_ne hs h b.settle) hidles

lemma touches_resume (a : Reply) (f : Frame) :
    Touches s ⟨w, .done a, f :: K⟩ (resume w a f K) := by
  cases f with
  | handoff s' h => exact touches_settle a
  | thenRaise m => exact touches_finishOr rfl (.refl s w) (List.subset_cons_self _ K) m
  | waitConnected => exact touches_pop _ rfl rfl rfl (.inr ⟨_, rfl, rfl⟩)
  | waitStarted => exact touches_pop _ rfl rfl rfl (.inr ⟨_, rfl, rfl⟩)
  | waitDrained => exact touches_abandon a _
  | waitOver => exact touches_unblock a _
  | _ => exact touches_pop _ rfl rfl rfl (.inl rfl)

/-- A payload takes down what a guard minds. -/
lemma touches_guard (m : Payload) :
    Touches s ⟨w, .raised m, .guard s' h :: K⟩
      ⟨(w.dropAbove s' h true).1, .raised m, K⟩ := by
  by_cases hs : s' = s
  · subst hs
    exact .cut (World.layers_dropAbove h true) (World.nextSerial_dropAbove h true)
      (.guard rfl (by simp)) ⟨rfl, fun hf _ => .tail _ hf⟩
  · exact touches_raised rfl (.dropAbove_of_ne hs h true) (List.subset_cons_self _ K) m

lemma touches_unwind (m : Payload) (f : Frame) :
    Touches s ⟨w, .raised m, f :: K⟩ (unwind w m f K) := by
  cases f with
  | guard s' h => exact touches_guard m
  | handoff s' h =>
    simp only [unwind]
    cases hb : w.binding? s' h with
    | none => exact touches_raised rfl (.refl s w) (List.subset_cons_self _ K) m
    | some b =>
      exact touches_pass rfl hb (.inr ⟨⟨m, rfl⟩, by simp⟩) (List.subset_cons_self _ K)
        [.logged b.serial (.buildFailed m)] _
  | waitOver => exact touches_dropWait _ (.inr ⟨m, rfl⟩) true rfl rfl rfl
  | _ => exact touches_pop _ rfl rfl rfl (.inl rfl)

end Machine

/-- A move does to the operations of a site what is listed, and nothing else. -/
theorem Config.Moves.touches {c c' : Config} (h : c.Moves c') (s : Site) : c.Touches s c' := by
  obtain ⟨w, control, K⟩ := c
  cases control with
  | connect x r s h' =>
    obtain rfl := Option.some.inj h
    exact touches_connect x
  | start s h' =>
    obtain rfl := Option.some.inj h
    exact touches_start
  | complete r v =>
    obtain rfl := Option.some.inj h
    exact touches_complete v
  | build s h' =>
    obtain rfl := Option.some.inj h
    exact touches_build
  | react home label actions =>
    obtain rfl := Option.some.inj h
    exact touches_react home label actions
  | follow r steps =>
    obtain rfl := Option.some.inj h
    exact touches_follow r steps
  | call x =>
    obtain rfl := Option.some.inj h
    exact touches_call x
  | task t =>
    obtain rfl := Option.some.inj h
    exact touches_runTask t
  | done a =>
    cases K with
    | nil => cases h
    | cons f K =>
      obtain rfl := Option.some.inj h
      exact touches_resume a f
  | raised m =>
    cases K with
    | nil => cases h
    | cons f K =>
      obtain rfl := Option.some.inj h
      exact touches_unwind m f

end Handoff
