import Handoff.Event
import Mathlib.Tactic.Common

/-!
# Keeping books on lives

The record of a site says when operations come and go and when binding operations store values and
let go of them. A `Ledger` keeps the operations that are alive, outermost first, and `Ledger.Posts`
says which acts are in order: operations come and go on top, a value goes amid the drop of the
operation that keeps it, when all inside that is gone, and a factory is called when there is nothing
inside its operation. The main statements say what a record is like that can be booked from the
beginning.
-/

namespace Handoff

/-- A live operation as the record of a site knows it. -/
structure Life where
  serial : Nat
  /-- Whether it keeps a stored value. -/
  holds : Bool := false
  /-- Whether its drop has begun. -/
  leaving : Bool := false

/-- The live operations of a site, outermost first, and how many were built so far. -/
structure Ledger where
  lives : List Life := []
  count : Nat := 0

/-- Whether an act matters to a ledger. -/
def Act.isBooked : Act → Bool
  | opened _ _ => true
  | closed _ => true
  | stored _ => true
  | released _ => true
  | called _ _ _ => true
  | logged _ .connectingSuccessor => true
  | logged _ (.tearingDown _) => true
  | _ => false

/-- Whether an act is the coming of the operation of a number. -/
def Act.opens (k : Nat) : Act → Bool
  | opened j _ => j = k
  | _ => false

/-- The number of the binding operation that an act asks to have nothing inside: its factory is
called, or its successor about to be connected. -/
def Act.topmost? : Act → Option Nat
  | called k _ _ => some k
  | logged k .connectingSuccessor => some k
  | _ => none

lemma Act.topmost?_eq_none {a : Act} (ha : a.isBooked = false) : a.topmost? = none := by
  cases a with
  | called k label n => simp [isBooked] at ha
  | logged k r => cases r <;> first | rfl | simp [isBooked] at ha
  | _ => rfl

namespace Ledger

/-- An act is in order, and leads from a ledger to another. -/
inductive Posts : Ledger → Act → Ledger → Prop where
  | opened (lives : List Life) (n : Nat) :
      Posts ⟨lives, n⟩ (.opened n lives.length) ⟨lives ++ [{ serial := n }], n + 1⟩
  | closed (below : List Life) (x : Life) (n : Nat) (hx : x.holds = false) :
      Posts ⟨below ++ [x], n⟩ (.closed x.serial) ⟨below, n⟩
  | stored (below above : List Life) (x : Life) (n : Nat) (hx : x.holds = false)
      (hl : x.leaving = false) :
      Posts ⟨below ++ x :: above, n⟩ (.stored x.serial)
        ⟨below ++ { x with holds := true } :: above, n⟩
  | released (below : List Life) (x : Life) (n : Nat) (hx : x.holds = true)
      (hl : x.leaving = true) :
      Posts ⟨below ++ [x], n⟩ (.released x.serial) ⟨below ++ [{ x with holds := false }], n⟩
  | leaving (below above : List Life) (x : Life) (n : Nat) (c : Cleanup) :
      Posts ⟨below ++ x :: above, n⟩ (.logged x.serial (.tearingDown c))
        ⟨below ++ { x with leaving := true } :: above, n⟩
  /-- An operation that was refused by its slot never came into being. -/
  | refused (lives : List Life) (k n : Nat) (c : Cleanup) (hk : ∀ x ∈ lives, x.serial ≠ k) :
      Posts ⟨lives, n⟩ (.logged k (.tearingDown c)) ⟨lives, n⟩
  | onTop (below : List Life) (x : Life) (n : Nat) (a : Act) (ha : a.topmost? = some x.serial) :
      Posts ⟨below ++ [x], n⟩ a ⟨below ++ [x], n⟩
  | other (l : Ledger) (a : Act) (ha : a.isBooked = false) : Posts l a l

/-- Acts are in order, one after the other. -/
inductive Takes : Ledger → List Act → Ledger → Prop where
  | nil (l : Ledger) : Takes l [] l
  | cons {l l' l'' : Ledger} {a : Act} {acts : List Act} (h : Posts l a l')
      (h' : Takes l' acts l'') : Takes l (a :: acts) l''

variable {l l' l'' : Ledger} {a : Act} {acts acts' : List Act}

lemma Takes.append (h : Takes l acts l') (h' : Takes l' acts' l'') :
    Takes l (acts ++ acts') l'' := by
  induction h with
  | nil => exact h'
  | cons h _ ih => exact .cons h (ih h')

lemma Takes.single (h : Posts l a l') : Takes l [a] l' := .cons h (.nil l')

lemma Takes.others (l : Ledger) (h : ∀ a ∈ acts, a.isBooked = false) : Takes l acts l := by
  induction acts with
  | nil => exact .nil l
  | cons a acts ih =>
    obtain ⟨ha, hacts⟩ := List.forall_mem_cons.1 h
    exact .cons (.other l a ha) (ih hacts)

/-- A booked record has been in order up to each of its acts. -/
lemma Takes.split (h : Takes l (acts ++ a :: acts') l'') :
    ∃ l₁ l₂, Takes l acts l₁ ∧ Posts l₁ a l₂ := by
  induction acts generalizing l with
  | nil =>
    cases h with
    | cons h _ => exact ⟨l, _, .nil l, h⟩
  | cons b acts ih =>
    cases h with
    | cons hb h =>
      obtain ⟨l₁, l₂, h₁, h₂⟩ := ih h
      exact ⟨l₁, l₂, .cons hb h₁, h₂⟩

/-! ### Births and deaths -/

/-- The numbers of the live operations, outermost first. -/
def serials (l : Ledger) : List Nat := l.lives.map Life.serial

/-- What a ledger says of the coming and going of operations in the record that led to it. -/
structure Births (acts : List Act) (l : Ledger) : Prop where
  /-- Inner operations are younger. -/
  increasing : l.serials.Pairwise (· < ·)
  lt_count : ∀ k ∈ l.serials, k < l.count
  countP_opens (k : Nat) : acts.countP (Act.opens k) = if k < l.count then 1 else 0
  count_closed (k : Nat) :
    acts.count (.closed k) = if k < l.count ∧ k ∉ l.serials then 1 else 0

lemma births_nil : Births [] {} := by
  refine ⟨.nil, ?_, ?_, ?_⟩ <;> simp [serials]

lemma Births.keep (h : Births acts l) (hs : l'.serials = l.serials) (hn : l'.count = l.count)
    (ho : ∀ k, a.opens k = false) (hc : ∀ k, a ≠ .closed k) : Births (acts ++ [a]) l' := by
  refine ⟨hs ▸ h.increasing, hs ▸ hn ▸ h.lt_count, fun k => ?_, fun k => ?_⟩
  · simp [ho, hn, h.countP_opens]
  · simp [hc, hs, hn, h.count_closed]

lemma Births.post (h : Births acts l) (hp : Posts l a l') : Births (acts ++ [a]) l' := by
  cases hp with
  | opened lives n =>
    obtain ⟨hincreasing, hlt, hopens, hclosed⟩ := h
    simp only [serials] at hincreasing hlt hclosed
    constructor
    · simpa [serials, List.pairwise_append] using ⟨by simpa using hincreasing, by simpa using hlt⟩
    · simp only [serials, List.map_append, List.mem_append]
      rintro k (hk | hk)
      · exact Nat.lt_succ_of_lt (hlt k hk)
      · simp_all
    · intro k
      simp only [List.countP_append, hopens, List.countP_singleton, Act.opens, decide_eq_true_eq]
      split_ifs <;> omega
    · intro k
      simp only [serials, List.count_append, hclosed, List.map_append, List.mem_append]
      have hn : n ∉ lives.map Life.serial := fun hn => Nat.lt_irrefl n (hlt n hn)
      by_cases hk : k = n
      · subst hk
        simp [hn]
      · have : k < n + 1 ↔ k < n := by omega
        simp [hk, this]
  | closed below x n hx =>
    obtain ⟨hincreasing, hlt, hopens, hclosed⟩ := h
    simp only [serials, List.map_append, List.map_cons, List.map_nil] at hincreasing hlt hclosed
    obtain ⟨hbelow, -, hlast⟩ := List.pairwise_append.1 hincreasing
    refine ⟨hbelow, fun k hk => hlt k (List.mem_append_left _ hk), fun k => ?_, fun k => ?_⟩
    · simp [Act.opens, hopens]
    · have hx : x.serial ∉ below.map Life.serial :=
        fun hmem => Nat.lt_irrefl _ (hlast _ hmem _ (by simp))
      have hxn : x.serial < n := hlt _ (by simp)
      simp only [List.count_append, hclosed, serials]
      by_cases hk : k = x.serial
      · subst hk
        simp [hx, hxn]
      · simp [hk, Ne.symm hk]
  | stored below above x n hx hl =>
    exact h.keep (by simp [serials]) rfl (fun _ => rfl) (by simp)
  | released below x n hx hl => exact h.keep (by simp [serials]) rfl (fun _ => rfl) (by simp)
  | leaving below above x n c => exact h.keep (by simp [serials]) rfl (fun _ => rfl) (by simp)
  | refused lives k n c hk => exact h.keep rfl rfl (fun _ => rfl) (by simp)
  | onTop below x n _ ha =>
    refine h.keep rfl rfl (fun k => ?_) fun k hk => ?_
    · cases a <;> simp_all [Act.topmost?, Act.opens]
    · simp [hk, Act.topmost?] at ha
  | other l _ ha =>
    refine h.keep rfl rfl (fun k => ?_) fun k hk => ?_
    · cases a <;> simp_all [Act.isBooked, Act.opens]
    · simp [hk, Act.isBooked] at ha

/-- Once no operation is alive, each has come and gone once. -/
lemma Births.count_closed_of_empty (h : Births acts l) (hl : l.lives = []) (k : Nat) :
    acts.count (.closed k) = acts.countP (Act.opens k) := by
  simp [h.countP_opens, h.count_closed, serials, hl]

/-- An operation that came before, and is younger than the innermost one alive, has gone. -/
lemma Births.closed_mem {below : List Life} {x : Life} {n : Nat}
    (h : Births acts ⟨below ++ [x], n⟩) {j height : Nat} (hj : x.serial < j)
    (ho : .opened j height ∈ acts) : .closed j ∈ acts := by
  have hn : j < n := by
    have hpos : 0 < acts.countP (Act.opens j) :=
      List.countP_pos_iff.2 ⟨_, ho, by simp [Act.opens]⟩
    rw [h.countP_opens] at hpos
    by_contra hn
    simp [hn] at hpos
  have hlive : j ∉ (⟨below ++ [x], n⟩ : Ledger).serials := by
    have hincreasing := h.increasing
    simp only [serials, List.map_append, List.map_cons, List.map_nil] at hincreasing ⊢
    obtain ⟨-, -, hlast⟩ := List.pairwise_append.1 hincreasing
    intro hmem
    rcases List.mem_append.1 hmem with hmem | hmem
    · exact absurd (hlast j hmem x.serial (by simp)) (by omega)
    · simp at hmem
      omega
  have hcount := h.count_closed j
  simp only [hn, hlive, not_false_iff, and_self, if_true] at hcount
  exact List.count_pos_iff.1 (by omega)

lemma Births.serial_ne {below above : List Life} {x : Life} {n : Nat}
    (h : Births acts ⟨below ++ x :: above, n⟩) {y : Life} (hy : y ∈ below ∨ y ∈ above) :
    y.serial ≠ x.serial := by
  have hincreasing := h.increasing
  simp only [serials, List.map_append, List.map_cons] at hincreasing
  obtain ⟨-, habove, hbelow⟩ := List.pairwise_append.1 hincreasing
  rcases hy with hy | hy
  · exact Nat.ne_of_lt (hbelow _ (List.mem_map_of_mem hy) _ (by simp))
  · exact (Nat.ne_of_lt ((List.pairwise_cons.1 habove).1 _ (List.mem_map_of_mem hy))).symm

/-! ### Stored values -/

/-- Whether the operation of a number is alive and keeps a value. -/
def keeps (l : Ledger) (k : Nat) : Bool := l.lives.any fun x => x.serial = k && x.holds

/-- The operation of a number has not kept a value so far: it does not keep one now, and nothing
has begun by which it could have lost one. -/
def Untouched (l : Ledger) (k : Nat) : Prop :=
  l.count ≤ k ∨ ∃ x ∈ l.lives, x.serial = k ∧ x.holds = false ∧ x.leaving = false

/-- What a ledger says of stored values in the record that led to it. -/
structure Values (acts : List Act) (l : Ledger) : Prop where
  count_stored (k : Nat) :
    acts.count (.stored k) = acts.count (.released k) + if l.keeps k then 1 else 0
  count_stored_le (k : Nat) : acts.count (.stored k) ≤ 1
  untouched (k : Nat) (hk : l.Untouched k) : acts.count (.stored k) = 0

lemma values_nil : Values [] {} := by
  refine ⟨?_, ?_, ?_⟩ <;> simp [keeps]

lemma Values.keep (h : Values acts l) (hk : ∀ k, l'.keeps k = l.keeps k)
    (hu : ∀ k, l'.Untouched k → l.Untouched k) (hs : ∀ k, a ≠ .stored k)
    (hr : ∀ k, a ≠ .released k) : Values (acts ++ [a]) l' := by
  constructor
  · intro k
    simp [hs, hr, hk, h.count_stored]
  · intro k
    simpa [hs] using h.count_stored_le k
  · intro k hl
    simpa [hs] using h.untouched k (hu k hl)

lemma untouched_of_change {below above : List Life} {x y : Life} {n k : Nat}
    (hserial : y.serial = x.serial)
    (hx : y.holds = false → y.leaving = false → x.holds = false ∧ x.leaving = false)
    (h : Untouched ⟨below ++ y :: above, n⟩ k) : Untouched ⟨below ++ x :: above, n⟩ k := by
  rcases h with h | ⟨z, hz, hk, hholds, hleaving⟩
  · exact .inl h
  · rcases List.mem_append.1 hz with hz | hz
    · exact .inr ⟨z, by simp [hz], hk, hholds, hleaving⟩
    · rcases List.mem_cons.1 hz with rfl | hz
      · exact .inr ⟨x, by simp, hserial ▸ hk, hx hholds hleaving⟩
      · exact .inr ⟨z, by simp [hz], hk, hholds, hleaving⟩

/-- Only the operation itself says whether it keeps a value. -/
lemma Births.keeps_self {below above : List Life} {x : Life} {n : Nat}
    (h : Births acts ⟨below ++ x :: above, n⟩) :
    keeps ⟨below ++ x :: above, n⟩ x.serial = x.holds := by
  have hothers : ∀ y, y ∈ below ∨ y ∈ above → (y.serial = x.serial && y.holds) = false := by
    intro y hy
    simp [h.serial_ne hy]
  simp only [keeps, List.any_append, List.any_cons, decide_true, Bool.true_and]
  rw [List.any_eq_false.2 fun y hy => by simpa using hothers y (.inl hy),
    List.any_eq_false.2 fun y hy => by simpa using hothers y (.inr hy)]
  simp

lemma Births.of_untouched_self {below above : List Life} {x : Life} {n : Nat}
    (h : Births acts ⟨below ++ x :: above, n⟩)
    (hx : Untouched ⟨below ++ x :: above, n⟩ x.serial) : x.holds = false ∧ x.leaving = false := by
  rcases hx with hx | ⟨y, hy, hserial, hy'⟩
  · have hlt : x.serial < n := h.lt_count x.serial (by simp [serials])
    exact absurd hlt (Nat.not_lt.2 hx)
  · rcases List.mem_append.1 hy with hy | hy
    · exact absurd hserial (h.serial_ne (.inl hy))
    · rcases List.mem_cons.1 hy with rfl | hy
      · exact hy'
      · exact absurd hserial (h.serial_ne (.inr hy))

lemma keeps_of_ne {below above : List Life} {x y : Life} {n k : Nat}
    (hserial : y.serial = x.serial) (hk : k ≠ x.serial) :
    keeps ⟨below ++ y :: above, n⟩ k = keeps ⟨below ++ x :: above, n⟩ k := by
  simp [keeps, hserial, Ne.symm hk]

lemma Values.post (h : Values acts l) (hb : Births acts l) (hb' : Births (acts ++ [a]) l')
    (hp : Posts l a l') : Values (acts ++ [a]) l' := by
  cases hp with
  | opened lives n =>
    refine h.keep (fun k => by simp [keeps]) ?_ (by simp) (by simp)
    rintro k (hk | ⟨x, hx, rfl, hx'⟩)
    · exact .inl (Nat.le_of_succ_le hk)
    · rcases List.mem_append.1 hx with hx | hx
      · exact .inr ⟨x, hx, rfl, hx'⟩
      · obtain rfl := List.mem_singleton.1 hx
        exact .inl (Nat.le_refl n)
  | closed below x n hx =>
    refine h.keep (fun k => by simp [keeps, hx]) ?_ (by simp) (by simp)
    rintro k (hk | ⟨y, hy, hy'⟩)
    · exact .inl hk
    · exact .inr ⟨y, List.mem_append_left _ hy, hy'⟩
  | stored below above x n hx hl =>
    have hnone : acts.count (.stored x.serial) = 0 :=
      h.untouched x.serial (.inr ⟨x, by simp, rfl, hx, hl⟩)
    have hself : keeps ⟨below ++ x :: above, n⟩ x.serial = false := hb.keeps_self.trans hx
    have hself' : keeps ⟨below ++ { x with holds := true } :: above, n⟩ x.serial = true :=
      hb'.keeps_self
    constructor
    · intro k
      by_cases hk : k = x.serial
      · subst hk
        simpa [hself, hself'] using h.count_stored x.serial
      · simpa [Ne.symm hk, keeps_of_ne (x := x) (y := { x with holds := true }) rfl hk] using
          h.count_stored k
    · intro k
      by_cases hk : k = x.serial
      · simp [hk, hnone]
      · simpa [Ne.symm hk] using h.count_stored_le k
    · intro k hk
      have hne : k ≠ x.serial := by
        rintro rfl
        simpa using (hb'.of_untouched_self (x := { x with holds := true }) hk).1
      simpa [hne.symm] using
        h.untouched k (untouched_of_change (y := { x with holds := true }) rfl (by simp) hk)
  | released below x n hx hl =>
    have hself : keeps ⟨below ++ [x], n⟩ x.serial = true := hb.keeps_self.trans hx
    have hself' : keeps ⟨below ++ [{ x with holds := false }], n⟩ x.serial = false :=
      hb'.keeps_self
    constructor
    · intro k
      by_cases hk : k = x.serial
      · subst hk
        simpa [hself, hself'] using h.count_stored x.serial
      · simpa [Ne.symm hk, keeps_of_ne (x := x) (y := { x with holds := false }) rfl hk] using
          h.count_stored k
    · intro k
      simpa using h.count_stored_le k
    · intro k hk
      have hne : k ≠ x.serial := by
        rintro rfl
        simpa [hl] using (hb'.of_untouched_self (x := { x with holds := false }) hk).2
      simpa using
        h.untouched k (untouched_of_change (y := { x with holds := false }) rfl (by simp [hl]) hk)
  | leaving below above x n c =>
    exact h.keep (fun k => by simp [keeps]) (fun k => untouched_of_change rfl (by simp)) (by simp)
      (by simp)
  | refused lives k n c hk => exact h.keep (fun k => rfl) (fun k => id) (by simp) (by simp)
  | onTop below x n _ ha =>
    refine h.keep (fun k => rfl) (fun k => id) ?_ ?_ <;> rintro k rfl <;> simp [Act.topmost?] at ha
  | other l _ ha =>
    refine h.keep (fun k => rfl) (fun k => id) ?_ ?_ <;> rintro k rfl <;> simp [Act.isBooked] at ha

/-! ### Drops that have begun -/

/-- The drop of the operation of a number has begun after the operation came into being. -/
def TornDown (acts : List Act) (k : Nat) : Prop :=
  ∃ xs ys c h, acts = xs ++ .logged k (.tearingDown c) :: ys ∧ .opened k h ∈ xs

lemma TornDown.append {k : Nat} (h : TornDown acts k) (acts' : List Act) :
    TornDown (acts ++ acts') k := by
  obtain ⟨xs, ys, c, h, rfl, ho⟩ := h
  exact ⟨xs, ys ++ acts', c, h, by simp, ho⟩

/-- What a ledger says of drops that have begun in the record that led to it. -/
def Drops (acts : List Act) (l : Ledger) : Prop :=
  ∀ x ∈ l.lives, x.leaving = true → TornDown acts x.serial

lemma Drops.post (h : Drops acts l) (hb : Births acts l) (hp : Posts l a l') :
    Drops (acts ++ [a]) l' := by
  have hold {x : Life} (hx : x ∈ l.lives) (hl : x.leaving = true) :
      TornDown (acts ++ [a]) x.serial := (h x hx hl).append [a]
  intro y hy hl
  cases hp with
  | opened lives n =>
    rcases List.mem_append.1 hy with hy | hy
    · exact hold hy hl
    · obtain rfl := List.mem_singleton.1 hy
      simp at hl
  | closed below x n hx => exact hold (List.mem_append_left _ hy) hl
  | stored below above x n hx hx' =>
    rcases List.mem_append.1 hy with hy | hy
    · exact hold (by simp [hy]) hl
    · rcases List.mem_cons.1 hy with rfl | hy
      · simp [hx'] at hl
      · exact hold (by simp [hy]) hl
  | released below x n hx hx' =>
    rcases List.mem_append.1 hy with hy | hy
    · exact hold (by simp [hy]) hl
    · obtain rfl := List.mem_singleton.1 hy
      exact hold (x := x) (by simp) hl
  | leaving below above x n c =>
    rcases List.mem_append.1 hy with hy | hy
    · exact hold (by simp [hy]) hl
    · rcases List.mem_cons.1 hy with rfl | hy
      · have hcount := hb.countP_opens x.serial
        rw [if_pos (hb.lt_count _ (by simp [serials]))] at hcount
        obtain ⟨b, hb, ho⟩ := List.countP_pos_iff.1 (hcount ▸ Nat.one_pos)
        cases b with
        | opened j height =>
          obtain rfl : j = x.serial := by simpa [Act.opens] using ho
          exact ⟨acts, [], c, height, rfl, hb⟩
        | _ => simp [Act.opens] at ho
      · exact hold (by simp [hy]) hl
  | refused lives k n c hk => exact hold hy hl
  | onTop below x n _ ha => exact hold hy hl
  | other l _ ha => exact hold hy hl

/-! ### Booked records -/

/-- All that a ledger says of the record that led to it. -/
structure Audit (acts : List Act) (l : Ledger) : Prop where
  births : Births acts l
  values : Values acts l
  drops : Drops acts l

lemma audit_nil : Audit [] {} := ⟨births_nil, values_nil, by simp [Drops]⟩

lemma Audit.takes (h : Audit acts l) (hp : Takes l acts' l') : Audit (acts ++ acts') l' := by
  induction hp generalizing acts with
  | nil => simpa using h
  | cons hp _ ih =>
    have hb := h.births.post hp
    have := ih ⟨hb, h.values.post h.births hb hp, h.drops.post h.births hp⟩
    simpa using this

/-- What a record is like in which operations and values come and go in order. All that was built
inside an operation has a greater number than that. -/
structure Orderly (acts : List Act) : Prop where
  /-- A factory is called, or its successor about to be connected, when all that was built inside
  the binding operation is gone, the predecessor operation above all. -/
  closed_of_topmost {xs ys : List Act} {a : Act} {k j h : Nat} (hacts : acts = xs ++ a :: ys)
    (ha : a.topmost? = some k) (hj : k < j) (ho : .opened j h ∈ xs) : .closed j ∈ xs
  /-- A stored value goes when all that was built inside the binding operation is gone, the
  successor operation above all. -/
  closed_of_released {xs ys : List Act} {k j h : Nat} (hacts : acts = xs ++ .released k :: ys)
    (hj : k < j) (ho : .opened j h ∈ xs) : .closed j ∈ xs
  /-- It does not go before the binding operation itself is being dropped. -/
  tornDown_of_released {xs ys : List Act} {k : Nat} (hacts : acts = xs ++ .released k :: ys) :
    TornDown xs k

/-- A record that can be booked from the beginning is orderly. -/
theorem Takes.orderly (h : Takes {} acts l) : Orderly acts := by
  have hsplit {xs ys : List Act} {a : Act} (hacts : acts = xs ++ a :: ys) :
      ∃ l₁ l₂, Audit xs l₁ ∧ Posts l₁ a l₂ := by
    subst hacts
    obtain ⟨l₁, l₂, htakes, hposts⟩ := h.split
    exact ⟨l₁, l₂, by simpa using audit_nil.takes htakes, hposts⟩
  constructor
  · intro xs ys a k j h hacts ha hj ho
    obtain ⟨l₁, l₂, haudit, hposts⟩ := hsplit hacts
    cases hposts with
    | onTop below x n _ ha' =>
      obtain rfl : x.serial = k := by simpa [ha] using ha'.symm
      exact haudit.births.closed_mem hj ho
    | other _ _ ha' => simp [Act.topmost?_eq_none ha'] at ha
    | _ => simp [Act.topmost?] at ha
  · intro xs ys k j h hacts hj ho
    obtain ⟨l₁, l₂, haudit, hposts⟩ := hsplit hacts
    cases hposts with
    | released below x n hx hl => exact haudit.births.closed_mem hj ho
    | onTop below x n _ ha => simp [Act.topmost?] at ha
    | other _ _ ha => simp [Act.isBooked] at ha
  · intro xs ys k hacts
    obtain ⟨l₁, l₂, haudit, hposts⟩ := hsplit hacts
    cases hposts with
    | released below x n hx hl => exact haudit.drops x (by simp) hl
    | onTop below x n _ ha => simp [Act.topmost?] at ha
    | other _ _ ha => simp [Act.isBooked] at ha

end Ledger

end Handoff
