import Handoff.Proofs.Connecting.Waste
import Handoff.Proofs.Laying
import Handoff.Proofs.Lifetime.Recall
import Handoff.Proofs.Recounting.Gap

/-!
# A connect that fails

The leaf that connecting a sender ends at, through active alternatives and predecessors, may raise a
payload when it is connected, before or after its operation is built. What it raises is
`Sender.flaw`; it passes one guard for each operation around the leaf, and each drops one more of
them. What was recorded on the way down and up again is all undone, `undone_lay`, and the main
statement is that nothing of it is left behind, `World.connect_fails`.
-/

namespace Handoff

/-! ### The way down and up again -/

namespace Config

/-- Moves that start nothing, complete nothing and call no factory. -/
inductive Climbs : Config → Config → Prop where
  | refl (c : Config) : Climbs c c
  | step {c c' c'' : Config} (hm : c.Moves c') (hc : c.control.isConnecting = true)
      (h : Climbs c' c'') : Climbs c c''

variable {c c' c'' : Config}

/-- Nothing is given to a final receiver on the way. -/
lemma Climbs.leads (h : c.Climbs c') : c.Leads [] c' := by
  induction h with
  | refl c => exact .refl c
  | step hm hc _ ih => exact .quiet hm (given_of_isConnecting hc) ih

/-- Once a guard has let an operation stand, nothing is raised any more. -/
lemma Connects.exists_done {a : Reply} (h : c.Connects c') (hc : c.control = .done a) :
    ∃ a', c'.control = .done a' := by
  induction h generalizing a with
  | refl => exact ⟨a, hc⟩
  | climb _ hconnecting => simp [hc, Control.isConnecting] at hconnecting
  | keep _ ih => exact ih rfl

/-- No guard lets an operation stand where a payload is raised in the end. -/
lemma Connects.climbs (h : c.Connects c') (hc' : ∀ a, c'.control ≠ .done a) : c.Climbs c' := by
  induction h with
  | refl => exact .refl _
  | climb hm hc _ ih => exact .step hm hc (ih hc')
  | keep h _ =>
    obtain ⟨a, ha⟩ := h.exists_done rfl
    exact absurd ha (hc' a)

/-- Given enough moves a machine gets to its end, and gives what it is to give on the way. -/
lemma Leads.eventually {ps : List Parcel} (h : c.Leads ps c') (hf : c'.IsFinal) :
    ∃ k, ∀ n, k ≤ n → c.run n = c' ∧ c.gifts n = ps := by
  obtain ⟨k, hk⟩ := reaches_iff.1 h.reaches
  refine ⟨k, fun n hn => ?_⟩
  have hrun : c.run n = c' := by
    obtain ⟨j, rfl⟩ := Nat.exists_eq_add_of_le hn
    rw [run_add, hk, run_of_isFinal hf]
  have hgifts : c.Leads (c.gifts n) c' := hrun ▸ leads_run n c
  exact ⟨hrun, (hgifts.unique h hf hf).1⟩

end Config

/-! ### Nothing is left -/

/-- The number and the height of an operation that comes into being. -/
def Act.opened? : Act → Option (Nat × Nat)
  | opened k h => some (k, h)
  | _ => none

/-- The number of an operation that goes. -/
def Act.closed? : Act → Option Nat
  | closed k => some k
  | _ => none

/-- Acts in which operations come into being one inside the other, with numbers and heights from
given ones on, and all go again, the inner ones first; all that a sender and its receiver own is
dropped, each thing once, and nothing else happens. -/
structure Undone (x : Sender) (r : Receiver) (h k built : Nat) (acts : List Act) : Prop where
  opened : acts.filterMap Act.opened? = (List.range' k built).zip (List.range' h built)
  closed : acts.filterMap Act.closed? = (List.range' k built).reverse
  waste : (acts.filter Act.isWaste).Perm (x.drop ++ r.drop)
  idle : ∀ a ∈ acts, a.isIdle = true ∨ a.opened?.isSome = true ∨ a.closed?.isSome = true

section Undone

open Act (isWaste isIdle opened? closed?)

lemma opened?_of_isIdle {a : Act} (h : isIdle a = true) : a.opened? = none := by
  cases a <;> first | rfl | simp [isIdle, isWaste] at h

lemma closed?_of_isIdle {a : Act} (h : isIdle a = true) : a.closed? = none := by
  cases a <;> first | rfl | simp [isIdle, isWaste] at h

variable {x x' : Sender} {r r' : Receiver} {h k built : Nat}

/-- What neither opens nor closes an operation, and drops nothing that was unused. -/
def Mute (acts : List Act) : Prop := ∀ a ∈ acts, isIdle a = true ∧ isWaste a = false

lemma Mute.filters {acts : List Act} (hm : Mute acts) :
    acts.filterMap opened? = [] ∧ acts.filterMap closed? = [] ∧ acts.filter isWaste = [] :=
  ⟨List.filterMap_eq_nil_iff.2 fun a ha => opened?_of_isIdle (hm a ha).1,
    List.filterMap_eq_nil_iff.2 fun a ha => closed?_of_isIdle (hm a ha).1,
    List.filter_eq_nil_iff.2 fun a ha => by simp [(hm a ha).2]⟩

lemma filters_of_isWaste {acts : List Act} (hw : ∀ a ∈ acts, isWaste a = true) :
    acts.filterMap opened? = [] ∧ acts.filterMap closed? = [] ∧ acts.filter isWaste = acts :=
  ⟨List.filterMap_eq_nil_iff.2 fun a ha => opened?_of_isIdle (Act.isIdle_of_isWaste (hw a ha)),
    List.filterMap_eq_nil_iff.2 fun a ha => closed?_of_isIdle (Act.isIdle_of_isWaste (hw a ha)),
    List.filter_eq_self.2 hw⟩

/-- An operation around what is undone is undone after it, with what it owns itself. -/
lemma Undone.within {before mid post xs ys : List Act}
    (hu : Undone x' r' (h + 1) (k + 1) built (xs ++ ys))
    (hbefore : Mute before) (hmid : Mute mid) (hpost : ∀ a ∈ post, isWaste a = true)
    (hp : (x'.drop ++ r'.drop ++ post).Perm (x.drop ++ r.drop)) :
    Undone x r h k (built + 1)
      (before ++ [.opened k h] ++ xs ++ (mid ++ (ys ++ post) ++ [.closed k])) := by
  obtain ⟨hbo, hbc, hbw⟩ := hbefore.filters
  obtain ⟨hmo, hmc, hmw⟩ := hmid.filters
  obtain ⟨hpo, hpc, hpw⟩ := filters_of_isWaste hpost
  have hopened := hu.opened
  have hclosed := hu.closed
  have hwaste := hu.waste
  rw [List.filterMap_append] at hopened hclosed
  rw [List.filter_append] at hwaste
  refine ⟨?_, ?_, ?_, fun a ha => ?_⟩
  · have hself : [Act.opened k h].filterMap opened? = [(k, h)] := rfl
    have hother : [Act.closed k].filterMap opened? = [] := rfl
    simp only [List.filterMap_append, hbo, hmo, hpo, hself, hother, List.nil_append,
      List.append_nil, List.append_assoc, hopened]
    rfl
  · have hself : [Act.closed k].filterMap closed? = [k] := rfl
    have hother : [Act.opened k h].filterMap closed? = [] := rfl
    simp only [List.filterMap_append, hbc, hmc, hpc, hself, hother, List.nil_append,
      List.append_nil]
    rw [← List.append_assoc, hclosed, List.range'_succ, List.reverse_cons]
  · have hall : (xs.filter isWaste ++ (ys.filter isWaste ++ post)).Perm (x.drop ++ r.drop) := by
      rw [← List.append_assoc]
      exact (hwaste.append_right post).trans hp
    simpa [List.filter_append, hbw, hmw, hpw, isWaste] using hall
  · simp only [List.mem_append, List.mem_singleton] at ha
    obtain ((ha | rfl) | ha) | (ha | ha | ha) | rfl := ha
    · exact .inl (hbefore a ha).1
    · exact .inr (.inl rfl)
    · exact hu.idle a (List.mem_append_left _ ha)
    · exact .inl (hmid a ha).1
    · exact hu.idle a (List.mem_append_right _ ha)
    · exact .inl (Act.isIdle_of_isWaste (hpost a ha))
    · exact .inr (.inr rfl)

/-- A leaf that was not built is undone with the drop of its receiver. -/
lemma undone_unbuilt {before : List Act} (hbefore : Mute before) (hx : x.drop = []) :
    Undone x r h k 0 (before ++ r.drop) := by
  obtain ⟨hbo, hbc, hbw⟩ := hbefore.filters
  obtain ⟨hro, hrc, hrw⟩ := filters_of_isWaste (isWaste_drop_receiver r)
  refine ⟨by simp [hbo, hro], by simp [hbc, hrc], by simp [hbw, hrw, hx], fun a ha => .inl ?_⟩
  obtain ha | ha := List.mem_append.1 ha
  · exact (hbefore a ha).1
  · exact Act.isIdle_of_isWaste (isWaste_drop_receiver r a ha)

/-- The half-built operation of a leaf is undone. -/
lemma undone_half {label : String} {seen : Act} (hseen : Mute [seen]) (hx : x.drop = []) :
    Undone x r h k 1 ([.connected label, .opened k h] ++ (seen :: r.drop ++ [.closed k])) := by
  have hnothing :
      Undone (.exploding none) (.child .predecessor .wait 0) (h + 1) (k + 1) 0 ([] ++ []) :=
    undone_unbuilt (r := .child .predecessor .wait 0) (by simp [Mute]) rfl
  have hu : Undone x r h k 1
      ([.connected label] ++ [.opened k h] ++ [] ++ ([seen] ++ ([] ++ r.drop) ++ [.closed k])) :=
    hnothing.within (by simp [Mute, isIdle, isWaste]) hseen (isWaste_drop_receiver r)
      (by simp [Sender.drop, Receiver.drop, hx])
  simpa using hu

open Sender in
/-- A failing connect is undone, once the half-built operation of its leaf is dropped. -/
lemma undone_lay (s : Site) (env : Env) (x : Sender) (r : Receiver) (h k : Nat) {m : Payload}
    (hm : x.flaw = some m) :
    let y := x.lay s env r h k
    ∃ built, y.count = k + built ∧
      Undone x r h k built (y.acts ++ (Layer.dropAll true env y.layers).acts) := by
  induction x generalizing r h k with
  | ready c => simp [flaw] at hm
  | leaf l => simp [flaw] at hm
  | exploding built =>
    cases built with
    | none =>
      have hu : Undone (.exploding none) r h k 0 ([] ++ r.drop) :=
        undone_unbuilt (by simp [Mute]) rfl
      exact ⟨0, rfl, by simpa [lay] using hu⟩
    | some label =>
      have hu : Undone (.exploding (some label)) r h k 1
          ([.connected label, .opened k h] ++ (.dropped label :: r.drop ++ [.closed k])) :=
        undone_half (by simp [Mute, isIdle, isWaste]) rfl
      exact ⟨1, rfl, by simpa [lay, Layer.dropAll, Layer.drop, Layer.serial, dropHeld, dropCarried,
        Completion.value?] using hu⟩
  | script y =>
    cases hy : y.connecting with
    | fill => simp [flaw, hy, Connecting.flaw] at hm
    | deliver d m' => simp [flaw, hy, Connecting.flaw] at hm
    | raise m' =>
      have hu : Undone (.script y) r h k 0 ([.connected y.label] ++ r.drop) :=
        undone_unbuilt (by simp [Mute, isIdle, isWaste]) rfl
      exact ⟨0, by simp [lay, hy], by simpa [lay, hy] using hu⟩
    | half m' =>
      have hu (seen : Act) (hseen : Mute [seen]) : Undone (.script y) r h k 1
          ([.connected y.label, .opened k h] ++ (seen :: r.drop ++ [.closed k])) :=
        undone_half hseen rfl
      refine ⟨1, by simp [lay, hy], ?_⟩
      cases hd : y.peekOnDrop with
      | none =>
        simpa [lay, hy, Layer.dropAll, Layer.drop, Layer.serial, dropHeld, hd] using
          hu (.dropped y.label) (by simp [Mute, isIdle, isWaste])
      | some d =>
        simpa [lay, hy, Layer.dropAll, Layer.drop, Layer.serial, dropHeld, hd] using
          hu (.droppedSeeing y.label env[d]?) (by simp [Mute, isIdle, isWaste])
  | either which x ih =>
    have hm : x.flaw = some m := hm
    obtain ⟨built, hcount, hin⟩ := ih r (h + 1) (k + 1) hm
    have hx : Undone (.either which x) r h k (built + 1)
        ([] ++ [.opened k h] ++ _ ++ ([] ++ (_ ++ []) ++ [.closed k])) :=
      hin.within (by simp [Mute]) (by simp [Mute]) (by simp) (by simp [Sender.drop])
    refine ⟨built + 1, by simp [lay, hcount]; omega, ?_⟩
    rw [lay, Laid.inside_of_raised_eq_some ((raised_lay ..).trans hm)]
    simpa [Layer.dropAll, Layer.drop, Layer.lent, Layer.serial] using hx
  | bind p f next ih =>
    have hwaste : ∀ a ∈ f.drop ++ r.drop, isWaste a = true := by
      intro a ha
      obtain ha | ha := List.mem_append.1 ha
      · exact isWaste_drop_factory f a ha
      · exact isWaste_drop_receiver r a ha
    have hm : p.flaw = some m := hm
    obtain ⟨built, hcount, hin⟩ := ih (.child .predecessor s h) (h + 1) (k + 1) hm
    have hp : Undone (.bind p f next) r h k (built + 1)
        ([.logged k .connecting] ++ [.opened k h] ++ _ ++
          ([.logged k (.tearingDown .predecessor)] ++ (_ ++ (f.drop ++ r.drop)) ++ [.closed k])) :=
      hin.within (by simp [Mute, isIdle, isWaste]) (by simp [Mute, isIdle, isWaste]) hwaste
        (by simp [Sender.drop, Receiver.drop])
    refine ⟨built + 1, by simp [lay, hcount]; omega, ?_⟩
    rw [lay, Laid.inside_of_raised_eq_some ((raised_lay ..).trans hm)]
    simpa [Layer.dropAll, Layer.drop, Layer.lent, Layer.serial,
      Machine.newBinding, Binding.lent, Binding.drop, Binding.dropFactory, Binding.dropValue,
      dropHeld] using hp

end Undone

namespace World

/-- A host connects a binding or an alternative at a vacant place, and the leaf that this ends at
raises a payload before its operation is built or after. The call raises that payload. On the way
the machine only connects and unwinds, and what was built and recorded is undone; the place is
vacant and nothing else has changed. Whatever calls the host makes afterwards, they are served as in
the same world with the place vacant, and unless a script of an earlier operation is still waiting,
as in the same world with a new place. -/
theorem connect_fails {w : World} {p : Int} {x : Sender} {r : Receiver} {m : Payload}
    (harises : Config.Arises ⟨w, .call (.connect p x r), []⟩) (hv : w.layers (.place p) = [])
    (hx : x.kind = .bind ∨ x.kind = .either) (hm : x.flaw = some m) :
    ∃ w' acts built,
      w' = w.after (.place p) [] (w.nextSerial (.place p) + built) acts ∧
      Undone x r 0 (w.nextSerial (.place p)) built acts ∧
      Config.Climbs ⟨w, .call (.connect p x r), []⟩ ⟨w', .raised m, []⟩ ∧
      (∃ k, ∀ n, k ≤ n → w.call n (.connect p x r) = (w', .raised m) ∧
        Config.gifts n ⟨w, .call (.connect p x r), []⟩ = []) ∧
      (w.setLayers (.place p) []).Alike w' ∧
      ((∀ y steps, .resume y steps ∈ w.queue → y.site ≠ .place p) →
        (w.put (.place p) {}).Alike w') := by
  set k := w.nextSerial (.place p) with hk
  obtain ⟨built, hcount, hundone⟩ := undone_lay (.place p) [] x r 0 k hm
  have hway := Sender.connects_call (Sender.silent_of_flaw hm) r hv []
  rw [hm] at hway
  simp only [← hk, Sender.layers_lay_of_flaw hx hm, Layer.dropAll_nil, List.append_nil, hcount]
    at hundone hway
  generalize (x.lay (.place p) [] r 0 k).acts = acts at hundone hway
  have hclimbs := hway.climbs (by simp)
  have hserial : ∀ z steps, .resume z steps ∈ w.queue → z.site = .place p → z.serial < k :=
    fun z steps hz hsite => harises.recalls.queue _ hz p hsite
  obtain ⟨n₀, hrun⟩ := hclimbs.leads.eventually rfl
  refine ⟨_, acts, built, rfl, hundone, hclimbs, ⟨n₀, fun n hn => ?_⟩, ?_, fun hnone => ?_⟩
  · obtain ⟨hfinal, hgifts⟩ := hrun n hn
    exact ⟨by rw [call, hfinal]; rfl, hgifts⟩
  · have hbefore : w.after (.place p) [] k [] = w.put (.place p) ⟨[], k⟩ := note_nil
    rw [setLayers_eq_after, ← hk, hbefore]
    exact alike_put w (w.events ++ acts.map (Event.mk (some (.place p))))
      (Nat.le_add_right k built) hserial
  · exact alike_put w (w.events ++ acts.map (Event.mk (some (.place p)))) (Nat.zero_le _)
      fun z steps hz hsite => absurd hsite (hnone z steps hz)

/-- A binding of an alternative of a leaf whose connect raises a payload when its operation stands,
and a final receiver for it. -/
def halfway : Sender × Receiver :=
  (.bind (.either .left (.exploding (some "half")))
    { label := some "f", call := fun env => { env } } fun _ => .ready .done,
    .observer (.place 0) (.mk "r" true none [] []))

theorem connect_fails_halfway :
    ∃ w' acts built,
      w' = ({} : World).after (.place 0) [] (0 + built) acts ∧
      Undone halfway.1 halfway.2 0 0 built acts ∧
      Config.Climbs ⟨{}, .call (.connect 0 halfway.1 halfway.2), []⟩
        ⟨w', .raised (.text "connect exploded"), []⟩ ∧
      (∃ k, ∀ n, k ≤ n →
        World.call {} n (.connect 0 halfway.1 halfway.2) =
          (w', .raised (.text "connect exploded")) ∧
        Config.gifts n ⟨{}, .call (.connect 0 halfway.1 halfway.2), []⟩ = []) ∧
      (({} : World).setLayers (.place 0) []).Alike w' ∧
      ((∀ y steps, .resume y steps ∈ ({} : World).queue → y.site ≠ .place 0) →
        (({} : World).put (.place 0) {}).Alike w') :=
  connect_fails (.first _) rfl (.inl rfl) rfl

end World

end Handoff
