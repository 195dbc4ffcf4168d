import Handoff.Proofs.Hearing
import Handoff.Proofs.Laying
import Handoff.Proofs.Separation.Only

/-!
# What belongs to a place

Operations, tasks and whatever is under way belong to a place if all receivers that they hold lead
to a final receiver of that place, one that is calm and whose stop requests come from a source of
the place. Scripts belong nowhere, since they may request stops of any source. `World.Divided` says
that all that stands at a place belongs to it, and every task to some place. `World.Minds` is what
may be done to a divided world on behalf of one place, with one lemma for each operation of the
world: nothing of it shows at another place.
-/

namespace Handoff

/-- The sources from which the receivers of each place are sent stop requests. -/
abbrev Sources := Int → List Int

section Belongs

variable (ks : Sources) (p : Int)

/-- A receiver that leads to a calm final receiver of a place. -/
structure Receiver.Belongs (r : Receiver) : Prop where
  site_eq : r.site = some (.place p)
  calm : r.isChild = false → r.Calm
  stop : ∀ k, r.ownStop = some k → k ∈ ks p

/-- A factory that builds no scripts, if there still is one. -/
def Binding.Scriptless (b : Binding) : Prop :=
  ∀ f next, b.factory = some (f, next) → ∀ env, (next env).Scriptless

/-- An operation that belongs to a place. -/
structure Layer.Belongs (l : Layer) : Prop where
  kind_ne : l.kind ≠ .script
  receiver : ∀ r, l.receiver? = some r → r.Belongs ks p
  factory : ∀ b, l = .bind b → b.Scriptless

/-- A task that completes a receiver of a place. -/
def Task.Belongs : Task → Prop
  | complete _ r => r.Belongs ks p
  | resume _ _ => False
  | job _ => False

end Belongs

variable {ks : Sources} {p q : Int}

lemma Receiver.Belongs.child (role : Role) (h : Nat) :
    Receiver.Belongs ks p (.child role (.place p) h) where
  site_eq := rfl
  calm h := by simp [isChild] at h
  stop k h := by simp [ownStop] at h

lemma Task.Belongs.site?_eq {t : Task} (h : t.Belongs ks p) : t.site? = some (.place p) := by
  cases t with
  | complete c r => exact Receiver.Belongs.site_eq h
  | resume r steps => exact h.elim
  | job j => exact h.elim

lemma Layer.Belongs.of_bind {b b' : Binding} (h : (Layer.bind b).Belongs ks p)
    (hr : ∀ r, b'.receiver = some r → b.receiver = some r)
    (hf : ∀ f, b'.factory = some f → b.factory = some f) : (Layer.bind b').Belongs ks p where
  kind_ne := by simp [kind]
  receiver r hb := h.receiver r (hr r hb)
  factory b'' hb f next hfactory := by
    cases hb
    exact h.factory b rfl f next (hf _ hfactory)

namespace World

/-- All that stands at a numbered place belongs to it, and every task to some place. -/
structure Divided (ks : Sources) (w : World) : Prop where
  layers : ∀ p, ∀ l ∈ w.layers (.place p), l.Belongs ks p
  queue : ∀ t ∈ w.queue, ∃ p, t.Belongs ks p

/-- What is done from one world to another is the business of one place. -/
structure Minds (ks : Sources) (p : Int) (w w' : World) : Prop where
  divided : w'.Divided ks
  elsewhere : ∀ q, q ≠ p → ∀ js, w'.only (.place q) js = w.only (.place q) js

variable {w w' : World} {h : Nat}

lemma divided_empty : ({} : World).Divided ks where
  layers p l hl := by simp [World.layers, World.place] at hl
  queue t ht := by simp at ht

lemma Divided.binding (hw : w.Divided ks) {b : Binding} (hb : w.binding? (.place p) h = some b) :
    (Layer.bind b).Belongs ks p :=
  hw.layers p _ (List.mem_of_getElem? (binding?_eq_some_iff.1 hb))

/-! ### Stop requests -/

lemma belongs_of_mem_trail {ls : List Layer} (hls : ∀ l ∈ ls, l.Belongs ks p) (n : Nat)
    {r r' : Receiver} (hr : r.Belongs ks p) (hmem : r' ∈ Layer.trail ls n r) :
    r'.Belongs ks p := by
  induction n generalizing r with
  | zero =>
    obtain rfl : r' = r := by cases r <;> simpa [Layer.trail] using hmem
    exact hr
  | succ n ih =>
    cases r with
    | child role s i =>
      simp only [Layer.trail] at hmem
      split at hmem
      · next b hb =>
        rcases List.mem_cons.1 hmem with rfl | hmem
        · exact hr
        · cases hreceiver : b.receiver with
          | none => simp [hreceiver] at hmem
          | some outer =>
            have houter : outer.Belongs ks p :=
              (hls _ (List.mem_of_getElem? hb)).receiver outer hreceiver
            exact ih houter (by simpa [hreceiver] using hmem)
      · obtain rfl : r' = _ := by simpa using hmem
        exact hr
    | _ =>
      obtain rfl : r' = _ := by simpa [Layer.trail] using hmem
      exact hr

/-- Stop requests for a receiver of a place come from the sources of that place. -/
lemma Divided.stopOf_mem (hw : w.Divided ks) {r : Receiver} (hr : r.Belongs ks p) (k : Int)
    (hk : w.stopOf r = some k) : k ∈ ks p := by
  simp only [stopOf, Option.bind_eq_some_iff] at hk
  obtain ⟨r', hlast, hstop⟩ := hk
  refine Receiver.Belongs.stop ?_ k hstop
  refine belongs_of_mem_trail ?_ _ hr (List.mem_of_getLast? hlast)
  rw [hr.site_eq]
  exact hw.layers p

/-! ### What may be done on behalf of a place -/

namespace Minds

lemma refl (hw : w.Divided ks) : Minds ks p w w := ⟨hw, fun _ _ _ => rfl⟩

lemma trans {w'' : World} (h : Minds ks p w w') (h' : Minds ks p w' w'') : Minds ks p w w'' :=
  ⟨h'.divided, fun q hq js => (h'.elsewhere q hq js).trans (h.elsewhere q hq js)⟩

variable (hm : Minds ks p w w')

include hm

lemma note (acts : List Act) : Minds ks p w (w'.note (.place p) acts) where
  divided := ⟨hm.divided.layers, hm.divided.queue⟩
  elsewhere q hq js := (only_note_of_ne (by simpa using hq.symm)).trans (hm.elsewhere q hq js)

lemma recorded (cs : List (Completion Int64 Failure)) :
    Minds ks p w { w' with recorded := cs } :=
  ⟨⟨hm.divided.layers, hm.divided.queue⟩, hm.elsewhere⟩

lemma schedule {t : Task} (ht : t.Belongs ks p) : Minds ks p w (w'.schedule t) where
  divided := by
    refine ⟨hm.divided.layers, fun t' ht' => ?_⟩
    rcases List.mem_append.1 ht' with ht' | ht'
    · exact hm.divided.queue t' ht'
    · obtain rfl : t' = t := by simpa using ht'
      exact ⟨p, ht⟩
  elsewhere q hq js := by
    refine (only_schedule_of_ne ?_).trans (hm.elsewhere q hq js)
    rw [ht.site?_eq]
    simpa using hq.symm

lemma put (ls : List Layer) (n : Nat) (hls : ∀ l ∈ ls, l.Belongs ks p) :
    Minds ks p w (w'.put (.place p) ⟨ls, n⟩) where
  divided := by
    refine ⟨fun q l hl => ?_, hm.divided.queue⟩
    by_cases hq : q = p
    · subst hq
      rw [layers_put_self] at hl
      exact hls l hl
    · rw [layers_put_of_ne _ (by simpa using hq)] at hl
      exact hm.divided.layers q l hl
  elsewhere q hq js := (only_put_of_ne (by simpa using hq.symm) _).trans (hm.elsewhere q hq js)

lemma setLayers {ls : List Layer} (hls : ∀ l ∈ ls, l.Belongs ks p) :
    Minds ks p w (w'.setLayers (.place p) ls) :=
  hm.put ls _ hls

lemma setLayer (h : Nat) {l : Layer} (hl : l.Belongs ks p) :
    Minds ks p w (w'.setLayer (.place p) h l) := by
  refine hm.setLayers fun l' hl' => ?_
  rcases List.mem_or_eq_of_mem_set hl' with hl' | rfl
  · exact hm.divided.layers p l' hl'
  · exact hl

lemma setBinding (h : Nat) {b : Binding} (hb : (Layer.bind b).Belongs ks p) :
    Minds ks p w (w'.setBinding (.place p) h b) :=
  hm.setLayer h hb

lemma setScope (h : Nat) (env : Env) : Minds ks p w (w'.setScope (.place p) h env) := by
  have hwrite : ∀ (ls : List Layer) (ns : Env), (∀ l ∈ ls, l.Belongs ks p) →
      ∀ l ∈ Layer.writeBack ns ls, l.Belongs ks p := by
    intro ls
    induction ls with
    | nil => exact fun _ hls => hls
    | cons x rest ih =>
      intro ns hls
      obtain ⟨hx, hrest⟩ := List.forall_mem_cons.1 hls
      simp only [Layer.writeBack]
      split
      · refine List.forall_mem_cons.2 ⟨hx.of_bind ?_ ?_, ih _ hrest⟩ <;> simp
      · exact List.forall_mem_cons.2 ⟨hx, ih _ hrest⟩
  refine hm.setLayers fun l hl => ?_
  rcases List.mem_append.1 hl with hl | hl
  · exact hwrite _ _ (fun x hx => hm.divided.layers p x (List.mem_of_mem_take hx)) l hl
  · exact hm.divided.layers p l (List.mem_of_mem_drop hl)

lemma fill (h : Nat) {make : Nat → Layer} (hmake : ∀ k, (make k).Belongs ks p) :
    Minds ks p w (w'.fill (.place p) h make).1 := by
  by_cases hv : w'.isVacant (.place p) h = true
  · rw [fill_of_isVacant hv]
    refine (hm.put _ _ fun l hl => ?_).note _
    rcases List.mem_append.1 hl with hl | hl
    · exact hm.divided.layers p l hl
    · obtain rfl : l = _ := by simpa using hl
      exact hmake _
  · rw [fill_of_not_isVacant (by simpa using hv)]
    exact hm.note _

lemma dropAbove (h : Nat) (unwinding : Bool) :
    Minds ks p w (w'.dropAbove (.place p) h unwinding).1 :=
  (hm.setLayers fun l hl => hm.divided.layers p l (List.mem_of_mem_take hl)).note _

end Minds

end World

end Handoff
