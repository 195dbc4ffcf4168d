import Handoff.Proofs.Chain.Story

/-!
# The numbers of operations

The operations of a site are numbered in the order in which they are built, and the call of a
factory is recorded under the number of the binding operation that makes it. The story of a chain
speaks of its own operations only, `Chain.numbered_story`, and a chain whose first operation has the
next number has the same story with all numbers one up, `Chain.story_succ`.
-/

namespace Handoff

namespace Act

/-- Change the numbers of the binding operations that call their factories. -/
def renumber (σ : Nat → Nat) : Act → Act
  | called k label n => called (σ k) label n
  | a => a

/-- Factories are called by operations with numbers between these bounds. -/
def Within (lo hi : Nat) (acts : List Act) : Prop :=
  ∀ k label n, called k label n ∈ acts → lo ≤ k ∧ k < hi

variable {lo hi lo' hi' : Nat} {acts acts' : List Act}

lemma within_nil : Within lo hi [] := by
  simp [Within]

lemma Within.append (h : Within lo hi acts) (h' : Within lo hi acts') :
    Within lo hi (acts ++ acts') := by
  intro k label n hmem
  rcases List.mem_append.1 hmem with hmem | hmem
  · exact h k label n hmem
  · exact h' k label n hmem

lemma Within.mono (h : Within lo hi acts) (hlo : lo' ≤ lo) (hhi : hi ≤ hi') :
    Within lo' hi' acts := by
  intro k label n hmem
  have := h k label n hmem
  omega

lemma within_called {k : Nat} (hlo : lo ≤ k) (hhi : k < hi) (n : Int64) :
    Within lo hi [called k none n] := by
  intro k' label n' hmem
  obtain ⟨rfl, -, -⟩ : k' = k ∧ label = none ∧ n' = n := by simpa using hmem
  exact ⟨hlo, hhi⟩

/-- Changes that agree on the numbers between the bounds come to the same. -/
lemma Within.map_renumber (h : Within lo hi acts) {σ τ : Nat → Nat}
    (hσ : ∀ k, lo ≤ k → k < hi → σ k = τ k) :
    acts.map (renumber σ) = acts.map (renumber τ) := by
  refine List.map_congr_left fun a ha => ?_
  cases a with
  | called k label n =>
    obtain ⟨hlo, hhi⟩ := h k label n ha
    rw [renumber, renumber, hσ k hlo hhi]
  | _ => rfl

lemma map_renumber_id (acts : List Act) : acts.map (renumber id) = acts := by
  conv_rhs => rw [← List.map_id acts]
  refine List.map_congr_left fun a _ => ?_
  cases a <;> rfl

lemma map_renumber_map (σ τ : Nat → Nat) (acts : List Act) :
    (acts.map (renumber σ)).map (renumber τ) = acts.map (renumber (τ ∘ σ)) := by
  rw [List.map_map]
  refine List.map_congr_left fun a _ => ?_
  cases a <;> rfl

end Act

open Act (Within)

namespace Story

/-- The operations that call factories have numbers from the first bound on, and were built by the
time they do. So many operations as the second bound says were built at the outset. -/
def Numbered (lo : Nat) : Nat → Story → Prop
  | m, finished x _ => m ≤ x.count ∧ Within lo x.count x.seen
  | m, pending x _ resume =>
    m ≤ x.count ∧ Within lo x.count x.seen ∧ ∀ b, (resume b).Numbered lo x.count

variable {lo lo' m m' : Nat} {y : Story}

lemma Numbered.mono (h : y.Numbered lo m) (hlo : lo' ≤ lo) (hm : m' ≤ m) : y.Numbered lo' m' := by
  induction y generalizing m m' with
  | finished x v => exact ⟨Nat.le_trans hm h.1, h.2.mono hlo (Nat.le_refl _)⟩
  | pending x v resume ih =>
    exact ⟨Nat.le_trans hm h.1, h.2.1.mono hlo (Nat.le_refl _),
      fun b => ih b (h.2.2 b) (Nat.le_refl _)⟩

lemma Numbered.record (h : y.Numbered lo m) {acts : List Act} (ha : Within lo m acts) :
    (y.record acts).Numbered lo m := by
  cases y with
  | finished x v => exact ⟨h.1, (ha.mono (Nat.le_refl _) h.1).append h.2⟩
  | pending x v resume => exact ⟨h.1, (ha.mono (Nat.le_refl _) h.1).append h.2.1, h.2.2⟩

lemma Numbered.map_refuse (h : y.Numbered lo m)
    (g : Completion Value Failure → Completion Value Failure) :
    (y.map Page.refuse g).Numbered lo m := by
  induction y generalizing m with
  | finished x v => exact h
  | pending x v resume ih => exact ⟨h.1, h.2.1, fun b => ih b (h.2.2 b)⟩

lemma Numbered.within {go : Bool → Page → Completion Value Failure → Story} (h : y.Numbered lo m)
    (hlo : lo' ≤ lo) (hgo : ∀ b x v, m ≤ x.count → Within lo x.count x.seen →
      (go b x v).Numbered lo' x.count) (stopped : Bool) :
    (y.within go stopped).Numbered lo' m := by
  induction y generalizing m stopped with
  | finished x v => exact (hgo _ _ _ h.1 h.2).mono (Nat.le_refl _) h.1
  | pending x v resume ih =>
    refine ⟨h.1, h.2.1.mono hlo (Nat.le_refl _), fun b => ih b (h.2.2 b) ?_ b⟩
    exact fun b x' v hx' => hgo b x' v (Nat.le_trans h.1 hx')

end Story

namespace Chain

lemma numbered_tellTakeover {k lo : Nat} (hlo : lo ≤ k) {raises : Int64 → Option Payload}
    {next : Int64 → Chain} {successor : Bool → Int64 → Nat → Story}
    (hnext : ∀ b n m, (successor b n m).Numbered m m) (stopped : Bool) {x : Page}
    (hx : k < x.count) (hseen : Within lo x.count x.seen) (v : Completion Value Failure) :
    (tellTakeover k raises next successor stopped x v).Numbered lo x.count := by
  cases v with
  | error e => exact ⟨Nat.le_refl _, hseen⟩
  | done => exact ⟨Nat.le_refl _, hseen⟩
  | value v =>
    have hcalled := hseen.append (Act.within_called hlo hx v.n)
    rw [tellTakeover, tellHandover]
    cases raises v.n with
    | some m => exact ⟨Nat.le_refl _, hcalled⟩
    | none =>
      cases (next v.n).connectRaises with
      | some m =>
        have hle := Nat.le_add_right x.count (next v.n).built
        exact ⟨hle, hcalled.mono (Nat.le_refl _) hle⟩
      | none =>
        have hsucc := (hnext stopped v.n x.count).mono (Nat.le_trans hlo (Nat.le_of_lt hx))
          (Nat.le_refl _)
        exact (hsucc.record hcalled).map_refuse _

/-- A chain's story speaks of its own operations. -/
theorem numbered_story (c : Chain) (k : Nat) (stopped : Bool) :
    (c.story k stopped).Numbered k k := by
  induction c generalizing k stopped with
  | ready c => exact ⟨Nat.le_succ k, Act.within_nil⟩
  | exploding built => exact ⟨Nat.le_refl k, Act.within_nil⟩
  | leaf l =>
    rw [story]
    split_ifs
    · exact ⟨Nat.le_succ k, by simp [Within]⟩
    · exact ⟨Nat.le_succ k, by simp [Within], fun _ => ⟨Nat.le_refl _, Act.within_nil⟩⟩
    · exact ⟨Nat.le_succ k, by simp [Within]⟩
  | either which c other ih => exact (ih (k + 1) stopped).mono (Nat.le_succ k) (Nat.le_succ k)
  | bind p raises next promised ihp ih =>
    refine Story.Numbered.mono ?_ (Nat.le_refl k) (Nat.le_succ k)
    refine (ihp (k + 1) stopped).within (Nat.le_succ k) (fun b x v hx hseen => ?_) stopped
    have hseen := hseen.mono (Nat.le_succ k) (Nat.le_refl _)
    exact numbered_tellTakeover (Nat.le_refl k) (fun b n m => ih n m b) b hx hseen v

end Chain

/-! ### One operation more -/

/-- A page on which all numbers are one up. -/
def Page.shift (x : Page) : Page :=
  { x with seen := x.seen.map (Act.renumber (· + 1)), count := x.count + 1 }

namespace Story

/-- A story in which all numbers are one up. -/
abbrev shift (y : Story) : Story := y.map Page.shift id

lemma record_shift (y : Story) (acts : List Act) :
    y.shift.record (acts.map (Act.renumber (· + 1))) = (y.record acts).shift := by
  cases y <;> simp [record, map, Page.record, Page.shift]

lemma map_refuse_shift (y : Story) (g : Completion Value Failure → Completion Value Failure) :
    y.shift.map Page.refuse g = (y.map Page.refuse g).shift := by
  induction y with
  | finished x v => rfl
  | pending x v resume ih => simp only [map, ih]; rfl

lemma within_shift {go go' : Bool → Page → Completion Value Failure → Story}
    (hgo : ∀ b x v, go' b x.shift v = (go b x v).shift) (y : Story) (stopped : Bool) :
    y.shift.within go' stopped = (y.within go stopped).shift := by
  induction y generalizing stopped with
  | finished x v => exact hgo _ _ _
  | pending x v resume ih => simp only [map, within, ih]

end Story

namespace Chain

lemma tellTakeover_shift (k : Nat) (raises : Int64 → Option Payload) (next : Int64 → Chain)
    {successor : Bool → Int64 → Nat → Story}
    (hnext : ∀ b n m, successor b n (m + 1) = (successor b n m).shift) (b : Bool) (x : Page)
    (v : Completion Value Failure) :
    tellTakeover (k + 1) raises next successor b x.shift v =
      (tellTakeover k raises next successor b x v).shift := by
  cases v with
  | error e => rfl
  | done => rfl
  | value v =>
    have hcalled : x.shift.seen ++ [Act.called (k + 1) none v.n] =
        (x.seen ++ [Act.called k none v.n]).map (Act.renumber (· + 1)) := by
      simp [Page.shift, Act.renumber]
    simp only [tellTakeover, tellHandover, hcalled]
    cases raises v.n with
    | some m => rfl
    | none =>
      cases (next v.n).connectRaises with
      | some m => simp [Story.shift, Story.map, Page.shift, Page.refuse, Nat.add_right_comm]
      | none =>
        have hsucc : successor b v.n x.shift.count = (successor b v.n x.count).shift :=
          hnext b v.n x.count
        simp only [hsucc, Story.record_shift, Story.map_refuse_shift]

/-- One operation more at the outset only puts all numbers one up. -/
theorem story_succ (c : Chain) (k : Nat) (stopped : Bool) :
    c.story (k + 1) stopped = (c.story k stopped).shift := by
  induction c generalizing k stopped with
  | ready c => rfl
  | exploding built => rfl
  | leaf l =>
    simp only [story]
    split_ifs <;> rfl
  | either which c other ih => exact ih (k + 1) stopped
  | bind p raises next promised ihp ih =>
    simp only [story, ihp (k + 1) stopped]
    refine Story.within_shift (fun b x v => ?_) _ stopped
    exact tellTakeover_shift k raises next (fun b n m => ih n m b) b x v

end Chain

end Handoff
