import Handoff.Slot
import Mathlib.Tactic.Common

/-!
# A slot is a faithful container

Whatever is called on a slot, and in whichever order, no operation handed to it is lost and none is
dropped twice. An operation that is offered has one of three fates (`Slot.Fate`): an occupied slot
refuses it and drops it there and then; or building it raises a payload and drops it there and then;
or it stays, untouched by anything but starts, until the first clear after it, the end of the slot
being such a clear. The books agree with this: at any moment the operations handed in are, up to
order, those dropped and the one inside (`Slot.drops_append_inside_perm`), which is by one induction
on the calls. Operations are told apart by their labels, which no slot ever reads.

The main result is `Slot.faithful`.
-/

namespace Handoff

namespace Counter

/-- Which operation an entry reports as dropped, if it reports that. -/
def Entry.gone? : Entry → Option String
  | .dropped l _ => some l
  | .started _ _ | .seen _ _ => none

/-- How often a building starts the operation, which is until it raises a payload. -/
def startsOf : List Build → Nat
  | [] => 0
  | .start :: how => startsOf how + 1
  | .see :: how => startsOf how
  | .raise _ :: _ => 0

/-- A counter after some more starts. -/
def afterStarts (c : Counter) (n : Nat) : Counter := { c with starts := c.starts + n }

@[simp] lemma label_afterStarts (c : Counter) (n : Nat) : (c.afterStarts n).label = c.label := rfl

@[simp] lemma explode_afterStarts (c : Counter) (n : Nat) :
    (c.afterStarts n).explode = c.explode := rfl

@[simp] lemma afterStarts_zero (c : Counter) : c.afterStarts 0 = c := rfl

lemma start_fst (c : Counter) : c.start.1 = c.afterStarts 1 := rfl

@[simp] lemma afterStarts_afterStarts (c : Counter) (m n : Nat) :
    (c.afterStarts m).afterStarts n = c.afterStarts (m + n) := by
  simp [afterStarts, Nat.add_assoc]

@[simp] lemma gone?_drop (c : Counter) : c.drop.gone? = some c.label := rfl

/-- Building starts an operation and changes nothing else about it. -/
lemma build_fst (c : Counter) (how : List Build) :
    (c.build how).1 = c.afterStarts (startsOf how) := by
  induction how generalizing c with
  | nil => rfl
  | cons b how ih =>
    cases b with
    | start =>
      simp only [build, ih, start_fst, startsOf, afterStarts_afterStarts, Nat.add_comm 1]
    | raise p => rfl
    | see => simp only [build, ih, startsOf]

/-- Building alone drops nothing. -/
lemma gone?_build (c : Counter) (how : List Build) :
    (c.build how).2.1.filterMap Entry.gone? = [] := by
  induction how generalizing c with
  | nil => rfl
  | cons b how ih =>
    cases b with
    | start => simpa [build, start, Entry.gone?] using ih c.start.1
    | raise p => rfl
    | see => simpa [build, Entry.gone?] using ih c

end Counter

namespace Slot

open Counter

open scoped List

variable {s : Slot} {c d : Counter} {how : List Build} {call : Step}

/-! ## What is handed in and what is dropped -/

/-- The operation that a call hands to the slot, and how it is built there. -/
def Step.offer? : Step → Option (Counter × List Build)
  | .fill c => some (c, [])
  | .fillAndBuild c how => some (c, how)
  | .start | .clear | .look => none

/-- The operations that some calls hand to the slot, by their labels. -/
def handed (calls : List Step) : List String :=
  calls.filterMap fun call => call.offer?.map fun o => o.1.label

/-- The operations that some calls dropped, by their labels. -/
def drops (outs : List Outcome) : List String :=
  outs.flatMap fun o => o.journal.filterMap Entry.gone?

lemma handed_cons (call : Step) (calls : List Step) :
    handed (call :: calls) = handed [call] ++ handed calls := by
  cases ho : call.offer? <;> simp [handed, ho]

lemma drops_run_cons (s : Slot) (call : Step) (calls : List Step) :
    drops (s.run (call :: calls))
      = drops [s.step call] ++ drops ((s.step call).slot.run calls) := by
  simp [drops, run]

/-- The operation inside, by its label. -/
def inside (s : Slot) : List String := s.content.toList.map Counter.label

@[simp] lemma inside_none : inside { content := none } = [] := rfl

@[simp] lemma inside_some : inside { content := some c } = [c.label] := rfl

lemma eq_of_isVacant (h : s.isVacant = true) : s = {} := by
  cases s with
  | mk content => cases content with
    | none => rfl
    | some c => cases h

lemma after_append (s : Slot) (calls more : List Step) :
    s.after (calls ++ more) = (s.after calls).after more := by
  simp [after]

/-! ## One call -/

/-- An occupied slot refuses what it is offered, runs none of its building and stays as it is. -/
lemma step_of_occupied (ho : call.offer? = some (c, how)) (hs : s.content = some d) :
    s.step call = { slot := s, journal := [c.drop],
                    result := .error Fault.occupiedConnect.payload } := by
  cases call with
  | fill c' =>
    obtain ⟨rfl, rfl⟩ : c' = c ∧ [] = how := by simpa [Step.offer?] using ho
    simp [step, fill, hs]
  | fillAndBuild c' how' =>
    obtain ⟨rfl, rfl⟩ : c' = c ∧ how' = how := by simpa [Step.offer?] using ho
    simp [step, fillAndBuild, fill, hs]
  | start => cases ho
  | clear => cases ho
  | look => cases ho

/-- A building that raises a payload leaves the slot vacant, and what was built is dropped. -/
lemma step_of_raises {p : Payload} (ho : call.offer? = some (c, how)) (hs : s.content = none)
    (hp : (c.build how).2.2 = some p) :
    s.step call = { slot := {}, journal := (c.build how).2.1 ++ [(c.build how).1.drop],
                    result := .error p } := by
  cases call with
  | fill c' =>
    obtain ⟨rfl, rfl⟩ : c' = c ∧ [] = how := by simpa [Step.offer?] using ho
    cases hp
  | fillAndBuild c' how' =>
    obtain ⟨rfl, rfl⟩ : c' = c ∧ how' = how := by simpa [Step.offer?] using ho
    rcases hb : c'.build how' with ⟨d, es, r⟩
    obtain rfl : r = some p := by simpa [hb] using hp
    simp [step, fillAndBuild, hs, hb]
  | start => cases ho
  | clear => cases ho
  | look => cases ho

/-- A building that succeeds leaves what was built inside. -/
lemma step_of_builds (ho : call.offer? = some (c, how)) (hs : s.content = none)
    (hp : (c.build how).2.2 = none) :
    (s.step call).slot = ⟨some (c.build how).1⟩ ∧
      (s.step call).journal = (c.build how).2.1 ∧ ∃ r, (s.step call).result = .ok r := by
  cases call with
  | fill c' =>
    obtain ⟨rfl, rfl⟩ : c' = c ∧ [] = how := by simpa [Step.offer?] using ho
    exact ⟨by simp [step, fill, hs, build], by simp [step, fill, hs, build], some c',
      by simp [step, fill, hs]⟩
  | fillAndBuild c' how' =>
    obtain ⟨rfl, rfl⟩ : c' = c ∧ how' = how := by simpa [Step.offer?] using ho
    rcases hb : c'.build how' with ⟨d, es, r⟩
    obtain rfl : r = none := by simpa [hb] using hp
    exact ⟨by simp [step, fillAndBuild, hs, hb], by simp [step, fillAndBuild, hs, hb], none,
      by simp [step, fillAndBuild, hs, hb]⟩
  | start => cases ho
  | clear => cases ho
  | look => cases ho

/-- What a clear answers that finds an operation inside. -/
def cleared (c : Counter) : Except Payload (Option Counter) :=
  match c.explode with
  | some p => .error p
  | none => .ok none

/-- A clear drops what is inside and passes on what that raises; the slot is vacant all the same. -/
lemma step_clear_of_occupied (hs : s.content = some c) :
    s.step .clear = { slot := {}, journal := [c.drop], result := cleared c } := by
  cases hx : c.explode <;> simp [step, clear, hs, cleared, hx]

/-- A call that hands nothing over and does not clear leaves the operation inside, perhaps started
once more. -/
lemma step_of_keeps (ho : call.offer? = none) (hc : call ≠ .clear) :
    (s.step call).slot.content = s.content.map (·.afterStarts (if call = .start then 1 else 0)) ∧
      (s.step call).journal.filterMap Entry.gone? = [] := by
  obtain ⟨_ | d⟩ := s <;> cases call <;>
    simp_all [Step.offer?, step, Slot.start, Counter.start, afterStarts, Entry.gone?]

/-- What one call owes to the books: what was inside and what is handed in comes out dropped or is
inside afterwards. -/
lemma drops_step_append_inside_perm (s : Slot) (call : Step) :
    drops [s.step call] ++ (s.step call).slot.inside ~ s.inside ++ handed [call] := by
  obtain ho | ⟨⟨c, how⟩, ho⟩ := call.offer?.eq_none_or_eq_some
  · by_cases hc : call = .clear
    · subst hc
      obtain ⟨_ | d⟩ := s <;> simp [drops, handed, ho, step, clear, inside]
    · obtain ⟨hcontent, hgone⟩ := step_of_keeps (s := s) ho hc
      have hinside : (s.step call).slot.inside = s.inside := by
        obtain ⟨_ | d⟩ := s <;> simp [inside, hcontent]
      simp [drops, handed, ho, hgone, hinside]
  · have hlabel : (c.build how).1.label = c.label := by rw [build_fst, label_afterStarts]
    cases hs : s.content with
    | some d =>
      simpa [step_of_occupied ho hs, handed, drops, inside, hs, ho]
        using List.Perm.swap d.label c.label []
    | none =>
      cases hp : (c.build how).2.2 with
      | some p => simp [step_of_raises ho hs hp, handed, drops, inside, hs, ho, gone?_build, hlabel]
      | none =>
        obtain ⟨hslot, hjournal, -⟩ := step_of_builds ho hs hp
        simp [hslot, hjournal, handed, drops, inside, hs, ho, gone?_build, hlabel]

/-! ## Many calls -/

/-- The books balance at every moment: up to order, what was inside at first and what was handed in
since are what was dropped since and what is inside now. -/
theorem drops_append_inside_perm (s : Slot) (calls : List Step) :
    drops (s.run calls) ++ (s.after calls).inside ~ s.inside ++ handed calls := by
  induction calls generalizing s with
  | nil => simp [drops, run, after, handed]
  | cons call calls ih =>
    rw [drops_run_cons, handed_cons, List.append_assoc, ← List.append_assoc s.inside]
    calc drops [s.step call] ++ (drops ((s.step call).slot.run calls)
          ++ ((s.step call).slot.after calls).inside)
        ~ drops [s.step call] ++ ((s.step call).slot.inside ++ handed calls) :=
          (ih (s.step call).slot).append_left _
      _ = (drops [s.step call] ++ (s.step call).slot.inside) ++ handed calls := by
          rw [List.append_assoc]
      _ ~ (s.inside ++ handed [call]) ++ handed calls :=
          (drops_step_append_inside_perm s call).append_right _

/-- An operation stays inside, changed by nothing but starts, until the slot is cleared. -/
lemma content_after (hs : s.content = some c) {calls : List Step} (hc : .clear ∉ calls) :
    (s.after calls).content = some (c.afterStarts (calls.count .start)) := by
  induction calls generalizing s c with
  | nil => simpa [after] using hs
  | cons call calls ih =>
    obtain ⟨hcall, hcalls⟩ : call ≠ .clear ∧ .clear ∉ calls := by simpa [eq_comm] using hc
    have hkeeps : (s.step call).slot.content
        = some (c.afterStarts (if call = .start then 1 else 0)) := by
      obtain ho | ⟨⟨d, how⟩, ho⟩ := call.offer?.eq_none_or_eq_some
      · simp [(step_of_keeps (s := s) ho hcall).1, hs]
      · have hne : call ≠ .start := by rintro rfl; cases ho
        simp [step_of_occupied ho hs, hs, hne]
    have hrest := ih hkeeps hcalls
    simpa [after, List.count_cons, Nat.add_comm] using hrest

/-- While an operation stays inside, what is dropped is what is refused, in the same order. -/
lemma drops_run_of_occupied (hs : s.content = some c) {calls : List Step} (hc : .clear ∉ calls) :
    drops (s.run calls) = handed calls := by
  induction calls generalizing s c with
  | nil => rfl
  | cons call calls ih =>
    obtain ⟨hcall, hcalls⟩ : call ≠ .clear ∧ .clear ∉ calls := by simpa [eq_comm] using hc
    have hkept : (s.after [call]).content = some _ :=
      content_after hs (by simpa using hcall.symm)
    have hrest : drops ((s.step call).slot.run calls) = handed calls := ih hkept hcalls
    rw [drops_run_cons, handed_cons, hrest]
    obtain ho | ⟨⟨d, how⟩, ho⟩ := call.offer?.eq_none_or_eq_some
    · simp [drops, handed, ho, (step_of_keeps (s := s) ho hcall).2]
    · simp [drops, handed, ho, step_of_occupied ho hs]

/-! ## The fates of operations -/

/-- What becomes of an operation that `call` hands to a slot, to be built there by `how`, when
`later` are the calls that follow until the slot ends. -/
inductive Fate (s : Slot) (call : Step) (c : Counter) (how : List Build) (later : List Step) : Prop
  /-- It is refused: dropped by the call that offered it, which builds nothing and leaves the slot
  and the operation inside as they were. -/
  | refused (d : Counter) (occupied : s.content = some d)
      (kept : (s.step call).slot = s)
      (dropped : (s.step call).journal = [c.drop])
      (raised : (s.step call).result = .error Fault.occupiedConnect.payload)
  /-- Building it raises a payload: it is dropped as far as it was built, the payload is passed on
  and the slot is vacant again. -/
  | unbuilt (p : Payload) (vacant : s.content = none) (raises : (c.build how).2.2 = some p)
      (left : (s.step call).slot.isVacant = true)
      (dropped : (s.step call).journal
        = (c.build how).2.1 ++ [(c.afterStarts (startsOf how)).drop])
      (once : drops [s.step call] = [c.label])
      (raised : (s.step call).result = .error p)
  /-- It stays inside until the first clear to follow, which may be the end of the slot. Until then
  it is only ever started, and only what is refused is dropped; that clear drops it, leaves the slot
  vacant and passes on the payload of its drop. -/
  | stayed (vacant : s.content = none) (builds : (c.build how).2.2 = none)
      (built : (s.step call).journal = (c.build how).2.1)
      (none_dropped : drops [s.step call] = [])
      (answered : ∃ r, (s.step call).result = .ok r)
      (during rest : List Step)
      (first : later ++ [.clear] = during ++ .clear :: rest) (stays : .clear ∉ during)
      (resident : ∀ sofar, sofar <+: during →
        ((s.step call).slot.after sofar).content
          = some (c.afterStarts (startsOf how + sofar.count .start)))
      (others : drops ((s.step call).slot.run during) = handed during)
      (dropped : (((s.step call).slot.after during).step .clear).journal
        = [(c.afterStarts (startsOf how + during.count .start)).drop])
      (left : (((s.step call).slot.after during).step .clear).slot.isVacant = true)
      (result : (((s.step call).slot.after during).step .clear).result = cleared c)

/-- Every operation handed to a slot has one of the three fates. -/
lemma fate (s : Slot) (ho : call.offer? = some (c, how)) (later : List Step) :
    Fate s call c how later := by
  cases hs : s.content with
  | some d =>
    have hstep := step_of_occupied ho hs
    exact .refused d hs (by rw [hstep]) (by rw [hstep]) (by rw [hstep])
  | none =>
    cases hp : (c.build how).2.2 with
    | some p =>
      have hstep := step_of_raises ho hs hp
      refine .unbuilt p hs hp (by rw [hstep]; rfl) (by rw [hstep, build_fst]) ?_ (by rw [hstep])
      simp [drops, hstep, gone?_build, build_fst]
    | none =>
      obtain ⟨hslot, hjournal, hresult⟩ := step_of_builds ho hs hp
      have hinside : (s.step call).slot.content = some (c.afterStarts (startsOf how)) := by
        rw [hslot, build_fst]
      obtain ⟨during, rest, hfirst, hstays⟩ := List.eq_append_cons_of_mem
        (List.mem_append_right later (List.mem_singleton_self Step.clear))
      have hresident : ∀ sofar, sofar <+: during →
          ((s.step call).slot.after sofar).content
            = some (c.afterStarts (startsOf how + sofar.count .start)) := by
        intro sofar hsome
        have hnone : .clear ∉ sofar := fun hmem => hstays (hsome.subset hmem)
        rw [content_after hinside hnone, afterStarts_afterStarts]
      have hclear := step_clear_of_occupied (hresident during List.prefix_rfl)
      refine .stayed hs hp hjournal ?_ hresult during rest hfirst hstays hresident
        (drops_run_of_occupied hinside hstays) (by rw [hclear]) (by rw [hclear]; rfl)
        (by rw [hclear]; rfl)
      simp [drops, hjournal, gone?_build]

/-- What a slot that was vacant at first owes to whoever has made some calls on it. -/
structure Faithful (calls : List Step) : Prop where
  /-- Every operation handed in was dropped once or is inside. -/
  balanced : drops (run {} calls) ++ (after {} calls).inside ~ handed calls
  /-- At most one of them is inside. -/
  single : (handed calls).length ≤ (drops (run {} calls)).length + 1
  /-- At the end of the slot every one of them was dropped, once. -/
  emptied : drops (run {} (calls ++ [.clear])) ~ handed calls
  /-- Whatever is handed in next has one of the three fates. -/
  next : ∀ {call c how}, call.offer? = some (c, how) →
    ∀ later, Fate (after {} calls) call c how later
  /-- A clear, or the end of the slot, passes on what the drop inside it raises, and the slot is
  vacant all the same. -/
  clears : ∀ {c}, (after {} calls).content = some c →
    ((after {} calls).step .clear).journal = [c.drop] ∧
      ((after {} calls).step .clear).result = cleared c ∧
      ((after {} calls).step .clear).slot.isVacant = true
  /-- Starting nothing raises a payload and does nothing. -/
  idle : (after {} calls).isVacant = true →
    (after {} calls).step .start
      = { slot := after {} calls, journal := [], result := .error Fault.vacantStart.payload }
  /-- A vacant slot is as good as new. -/
  renewed : (after {} calls).isVacant = true →
    ∀ more, (after {} calls).run more = run {} more ∧
      (after {} calls).after more = after {} more

/-- **A slot is a faithful container.** Over every sequence of calls and in whichever order they
fail, every operation handed to a slot is dropped exactly once, by the call that its fate says. -/
theorem faithful (calls : List Step) : Faithful calls := by
  have hbalanced : drops (run {} calls) ++ (after {} calls).inside ~ handed calls := by
    simpa using drops_append_inside_perm {} calls
  refine
    { balanced := hbalanced
      single := ?_
      emptied := ?_
      next := fun ho later => fate _ ho later
      clears := fun hs => by rw [step_clear_of_occupied hs]; exact ⟨rfl, rfl, rfl⟩
      idle := fun h => by rw [eq_of_isVacant h]; rfl
      renewed := fun h more => by rw [eq_of_isVacant h]; exact ⟨rfl, rfl⟩ }
  · have hone : (after {} calls).inside.length ≤ 1 := by
      obtain ⟨_ | c⟩ := after {} calls <;> simp [inside]
    have hlength := hbalanced.length_eq
    rw [List.length_append] at hlength
    omega
  · have hvacant : (after {} (calls ++ [.clear])).inside = [] := by
      rw [after_append]
      exact congrArg inside (eq_of_isVacant (isVacant_clear (after {} calls)))
    have hend : handed (calls ++ [.clear]) = handed calls := by simp [handed, Step.offer?]
    have hlast := drops_append_inside_perm {} (calls ++ [.clear])
    rw [hvacant, hend] at hlast
    simpa using hlast

end Slot

end Handoff
