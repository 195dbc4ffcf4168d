import Handoff.Proofs.Exposure.Showing

/-!
# At most one completion, whatever the children do

The children of a binding operation may complete it as often as they like, too early, too late or
from inside its own handoff. The main statement is that its receiver is completed once at most all
the same, its factory called once and a value stored once, that its state only moves forward, and
that a completion which comes in the wrong state is refused and changes nothing. It holds for any
list of turns, and what the machine does to an operation from the move that builds it to the one
that drops it is such a list.
-/

namespace Handoff

/-- Whether something happens to an operation that is still to go on: its receiver is completed, a
value stored or the factory called. -/
def Act.isOngoing : Act → Bool
  | completed _ _ => true
  | stored _ => true
  | called _ _ _ => true
  | _ => false

lemma Receiver.isOngoing_drop {r : Receiver} {a : Act} (ha : a ∈ r.drop) :
    a.isOngoing = false := by
  cases r with
  | observer home o =>
    obtain ⟨label, -, rfl⟩ := List.mem_map.1 ha
    rfl
  | _ => simp [drop] at ha

/-- Dropping a binding operation goes on with nothing. -/
lemma Binding.mem_of_isOngoing {b : Binding} {child : Dropped} {a : Act}
    (ha : a ∈ (b.drop child).acts) (hongoing : a.isOngoing = true) : a ∈ child.acts := by
  have hfactory : a ∉ b.dropFactory := by
    intro hmem
    cases hf : b.factory with
    | none => simp [dropFactory, hf] at hmem
    | some f =>
      have hmem : a ∈ f.1.drop := by simpa [dropFactory, hf] using hmem
      cases hl : f.1.label with
      | none => simp [Factory.drop, hl] at hmem
      | some label =>
        obtain rfl : a = .uncalled label := by simpa [Factory.drop, hl] using hmem
        simp [Act.isOngoing] at hongoing
  have hreceiver : a ∉ dropHeld b.receiver := by
    intro hmem
    cases hr : b.receiver with
    | none => simp [dropHeld, hr] at hmem
    | some r =>
      have := Receiver.isOngoing_drop (r := r) (by simpa [dropHeld, hr] using hmem)
      simp [this] at hongoing
  have hvalue : a ∉ b.dropValue := by
    intro hmem
    cases hv : b.value with
    | none => simp [dropValue, hv] at hmem
    | some v =>
      rcases (by simpa [dropValue, hv, Value.drop] using hmem :
        a = .valueDropped v.dropText ∨ a = .released b.serial) with rfl | rfl <;>
        simp [Act.isOngoing] at hongoing
  have hlogged (k : Nat) (t : Record) : a ≠ .logged k t := by
    rintro rfl
    simp [Act.isOngoing] at hongoing
  unfold drop at ha
  split at ha
  · simp_all
  · simp_all
  all_goals
    split at ha <;> simp_all

/-- A binding operation that has just been built. -/
def Exposed.fresh (k : Nat) (f : Factory) (next : Env → Sender) (r : Receiver) : Exposed where
  binding := { serial := k, factory := some (f, next), receiver := some r }

namespace Config

open Machine

variable {s : Site} {h n : Nat} {w : World} {K : List Frame} {x : Exposed} {c : Config}

/-- As long as an operation is there, what the machine does to it is a list of turns, and shows what
they lead to. -/
lemma Shows.run (hx : c.Shows s h x)
    (hstays : ∀ i ≤ n, ((c.run i).world.binding? s h).isSome) :
    ∃ ts, (c.run n).Shows s h (x.run ts).1 ∧
      ∀ e ∈ (x.run ts).2, ∃ i < n, e.Seen s h (c.run i) (c.run (i + 1)) := by
  induction n with
  | zero => exact ⟨[], hx, by simp⟩
  | succ n ih =>
    obtain ⟨ts, hts, hseen⟩ := ih fun i hi => hstays i (by omega)
    have hlast := hstays (n + 1) (Nat.le_refl _)
    cases hc : (c.run n).next with
    | none =>
      rw [run_add, run_of_isFinal hc]
      refine ⟨ts, hts, fun e he => ?_⟩
      obtain ⟨i, hi, hsee⟩ := hseen e he
      exact ⟨i, by omega, hsee⟩
    | some c' =>
      have hnext : c.run (n + 1) = c' := by rw [run_add, run_succ_of_moves 0 hc, run_zero]
      rw [hnext] at hlast ⊢
      rcases hts.move hc with hnone | ⟨us, hus, hsee⟩
      · simp [hnone] at hlast
      · refine ⟨ts ++ us, by rwa [Exposed.run_append], fun e he => ?_⟩
        rw [Exposed.run_append] at he
        rcases List.mem_append.1 he with he | he
        · obtain ⟨i, hi, hsee⟩ := hseen e he
          exact ⟨i, by omega, hsee⟩
        · exact ⟨n, by omega, hnext ▸ hsee e he⟩

/-- What connecting a binding builds in the slot on top of a site is a binding operation that has
not had a turn. -/
lemma shows_connect (p : Sender) (f : Factory) (next : Env → Sender) (r : Receiver)
    (hl : (w.layers s).length = h) (hK : ∀ f ∈ K, f.isHandoff s h = false) :
    (connect w (.bind p f next) r s h K).Shows s h (.fresh (w.nextSerial s) f next r) := by
  have hv : (w.note s [.logged (w.nextSerial s) .connecting]).isVacant s h = true := by
    simp [World.isVacant, hl]
  have hcount : K.countP (Frame.isHandoff s h) = 0 :=
    List.countP_eq_zero.2 fun f hf => by simp [hK f hf]
  simp only [connect, World.fill_of_isVacant hv]
  refine .of_binding ?_ (by simp) ?_
  · simp [World.binding?, newBinding, ← hl]
    rfl
  · simp [Frame.handoffs, Frame.isHandoff, hcount]

end Config

namespace Exposed

open Machine

variable {x : Exposed} {k : Nat} {f : Factory} {next : Env → Sender} {r : Receiver}

lemma sound_fresh : (fresh k f next r).Sound := .waiting rfl rfl rfl

/-- Whatever its surroundings do to a binding operation, by any list of turns: its receiver is
completed at most once, its factory called at most once and a value stored at most once; its state
never moves but one stage forward. A completion in the wrong state raises a payload and changes
nothing; one in the right state, unless it begins a handoff, completes the receiver, or raises a
payload if that was completed already. Dropping the operation then goes on with nothing. All this
holds of every binding operation that the machine builds, from then on to its drop, since whatever
the machine does to it is such a list; and the machine refuses what comes in the wrong state. -/
theorem completes_at_most_once (k : Nat) (f : Factory) (next : Env → Sender) (r : Receiver)
    (ts : List Turn) :
    let x := ((fresh k f next r).run ts).1
    let es := ((fresh k f next r).run ts).2
    let b := x.binding
    (es.countP Effect.isCompletion ≤ 1 ∧ ∀ r' c, .completes r' c ∈ es → r' = r) ∧
    es.countP Effect.isCall ≤ 1 ∧ es.countP Effect.isStore ≤ 1 ∧
    (∀ t, b.cleanup.stage ≤ (x.take t).1.binding.cleanup.stage ∧
      (x.take t).1.binding.cleanup.stage ≤ b.cleanup.stage + 1) ∧
    (∀ role c, b.cleanup ≠ role.expects → x.take (.complete role c) =
      (x, some (.raises (Fault.wrongState b.cleanup role.expects).payload))) ∧
    (∀ role c, b.cleanup = role.expects → (∀ v, (role, c) ≠ (.predecessor, .value v)) →
      x.take (.complete role c) =
        if es.countP Effect.isCompletion = 0 then
          ({ x with binding := b.spend }, some (.completes r (role.tag c)))
        else (x, some (.raises Fault.bindCompleted.payload))) ∧
    (∀ child, ∀ a ∈ (b.drop child).acts, a.isOngoing = true → a ∈ child.acts) ∧
    (∀ w s h K role c, w.binding? s h = some b → b.cleanup ≠ role.expects →
      Machine.complete w (.child role s h) c K =
        Machine.fault (w.note s (dropCarried c)) (.wrongState b.cleanup role.expects) K) ∧
    ∀ (w : World) (s : Site) (p : Sender) (K : List Frame) (n : Nat),
      (∀ f ∈ K, f.isHandoff s (w.layers s).length = false) →
      let c := Machine.connect w (.bind p f next) r s (w.layers s).length K
      (∀ i ≤ n, ((c.run i).world.binding? s (w.layers s).length).isSome) →
      ∃ us, (c.run n).Shows s (w.layers s).length
          ((fresh (w.nextSerial s) f next r).run us).1 ∧
        ∀ e ∈ ((fresh (w.nextSerial s) f next r).run us).2,
          ∃ i < n, e.Seen s (w.layers s).length (c.run i) (c.run (i + 1)) := by
  intro x es b
  have hspends : Spends (fresh k f next r).binding es b := spends_run _ ts
  have hsound : x.Sound := sound_fresh.run ts
  have hreceiver : es.countP Effect.isCompletion + b.receiver.toList.length = 1 :=
    hspends.receiver
  refine ⟨⟨by omega, fun r' c hmem => ?_⟩, ?_, ?_, fun t => ?_, ?_, ?_, ?_, ?_, ?_⟩
  · have heq : some r = some r' := hspends.completes r' c hmem
    exact (Option.some.inj heq).symm
  · have hfactory : es.countP Effect.isCall + b.factory.toList.length = 1 := hspends.factory
    omega
  · have hvalue : es.countP Effect.isStore + 0 = b.value.toList.length :=
      sound_fresh.value_run ts
    have hle : b.value.toList.length ≤ 1 := Option.length_toList_le
    omega
  · exact ⟨(hsound.advances t).le, (hsound.advances t).le_succ⟩
  · intro role c hne
    have hne : x.binding.cleanup ≠ role.expects := hne
    simp only [take, complete, if_neg hne, b]
  · intro role c hexpects hhandoff
    have hturn : x.take (.complete role c) = x.pass (role.tag c) := by
      simp only [take, complete]
      rw [if_pos hexpects]
      split
      · exact absurd rfl (hhandoff _)
      · rfl
    rw [hturn]
    cases hr : b.receiver with
    | none =>
      have hcount : es.countP Effect.isCompletion = 1 := by simpa [hr] using hreceiver
      have hr' : x.binding.receiver = none := hr
      simp [pass, hr', hcount]
    | some r' =>
      have hcount : es.countP Effect.isCompletion = 0 := by simpa [hr] using hreceiver
      have heq : some r = some r' := hspends.receiver_eq r' hr
      obtain rfl := Option.some.inj heq
      have hr' : x.binding.receiver = some r := hr
      simp [pass, hr', hcount, b]
  · intro child a ha hongoing
    exact Binding.mem_of_isOngoing ha hongoing
  · intro w s h K role c hb hne
    simp [Machine.complete, hb, hne]
  · intro w s p K n hK c hstays
    exact (Config.shows_connect p f next r rfl hK).run hstays

/-- Turns of a predecessor that completes its operation again from inside its own drop and then with
an error, of a successor that completes before it is connected, and of one that completes twice. -/
def unruly : List Turn :=
  [.complete .predecessor (.value { n := 1 }), .complete .predecessor (.value { n := 2 }),
    .goOn none, .goOn none, .complete .successor .done, .goOn none, .start,
    .complete .predecessor (.error (.leaf "late")), .goOn none, .complete .successor .done,
    .complete .successor (.value { n := 3 })]

theorem unruly_completes_once :
    let f : Factory := { call := fun env => { env } }
    let next : Env → Sender := fun _ => .ready .done
    let r : Receiver := .recorder (.place 0) none
    let x := ((fresh 0 f next r).run unruly).1
    let es := ((fresh 0 f next r).run unruly).2
    es.map Effect.isCompletion =
        [false, false, false, false, false, false, false, false, true, false] ∧
      es.countP Effect.isCompletion ≤ 1 ∧ es.countP Effect.isCall ≤ 1 ∧
      es.countP Effect.isStore ≤ 1 ∧ x.binding.cleanup.stage = 3 := by
  intro f next r x es
  obtain ⟨⟨hcompletions, -⟩, hcalls, hstores, -⟩ := completes_at_most_once 0 f next r unruly
  exact ⟨by decide, hcompletions, hcalls, hstores, by decide⟩

end Exposed

end Handoff
