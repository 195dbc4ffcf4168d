import Handoff.Proofs.Chain.Numbering
import Handoff.Proofs.Chain.Playing
import Mathlib.Logic.Equiv.Defs

/-!
# Bindings are associative

Binding `p` to `f` and the whole to `g` is as good as binding `p` to the factory that binds what `f`
builds to `g`. The operations are nested in different ways and do their handoffs in different
places: on the left the operation of `g` is the first to be built, on the right it is built during
the handoff of `f`. So the two differ in the numbers of operations, by a `rotation`, and in the tags
of errors, by `Failure.reassociate`. The main statement is `Chain.bind_assoc`: they promise the
same, and a host who drives them by the same calls, whatever these are, sees no other difference.
-/

namespace Handoff

/-! ### Numbers and tags -/

/-- The numbers from `k` to `k + m` in a circle: the first becomes the last, and all others move one
down. -/
def rotation (k m : Nat) : Equiv.Perm Nat where
  toFun i := if i = k then k + m else if k < i ∧ i ≤ k + m then i - 1 else i
  invFun i := if i = k + m then k else if k ≤ i ∧ i < k + m then i + 1 else i
  left_inv i := by
    dsimp only
    split_ifs <;> omega
  right_inv i := by
    dsimp only
    split_ifs <;> omega

section Rotation

variable {k m i : Nat}

lemma rotation_self (k m : Nat) : rotation k m k = k + m := if_pos rfl

lemma rotation_succ (h : k ≤ i) (h' : i < k + m) : rotation k m (i + 1) = i := by
  have hne : i + 1 ≠ k := by omega
  have hin : k < i + 1 ∧ i + 1 ≤ k + m := by omega
  simp [rotation, hne, hin]

lemma rotation_of_lt (h : k + m < i) : rotation k m i = i := by
  have hne : i ≠ k := by omega
  have hout : ¬(k < i ∧ i ≤ k + m) := by omega
  simp [rotation, hne, hout]

end Rotation

/-- The tags that an error gets on its way out of bindings nested to the right, from those that it
gets if they are nested to the left. A leaf's error passes two bindings at least, unless it comes
from the last successor; the others are paired off so as to leave none over. -/
def Failure.reassociate : Equiv.Perm Failure where
  toFun
    | leaf e => leaf e
    | predecessor (leaf e) => successor (leaf e)
    | predecessor (predecessor e) => predecessor e
    | predecessor (successor e) => successor (predecessor e)
    | predecessor (panicked m) => panicked m
    | successor e => successor (successor e)
    | panicked m => successor (panicked m)
  invFun
    | leaf e => leaf e
    | predecessor e => predecessor (predecessor e)
    | successor (leaf e) => predecessor (leaf e)
    | successor (predecessor e) => predecessor (successor e)
    | successor (successor e) => successor e
    | successor (panicked m) => panicked m
    | panicked m => predecessor (panicked m)
  left_inv e := by rcases e with e | (e | e | e | m) | e | m <;> rfl
  right_inv e := by rcases e with e | e | (e | e | e | m) | m <;> rfl

/-- A beat with other numbers of operations and other tags of errors. -/
def Beat.reassociate (σ : Equiv.Perm Nat) (b : Beat) : Beat where
  outcome := b.outcome
  given := b.given.map fun x => (x.1, x.2.mapError Failure.reassociate)
  seen := b.seen.map (Act.renumber σ)

/-! ### Stories that differ in numbers and tags -/

open Act (Within)

namespace Story

/-- Two stories that differ at most in numbers and tags. -/
inductive Renumbers (σ : Equiv.Perm Nat) : Story → Story → Prop where
  | finished {x x' : Page} {v : Completion Value Failure}
      (hseen : x'.seen = x.seen.map (Act.renumber σ)) (hrefusal : x'.refusal = x.refusal) :
      Renumbers σ (finished x v) (finished x' (v.mapError Failure.reassociate))
  | pending {x x' : Page} {v : Completion Value Failure} {resume resume' : Bool → Story}
      (hseen : x'.seen = x.seen.map (Act.renumber σ)) (hrefusal : x'.refusal = x.refusal)
      (h : ∀ b, Renumbers σ (resume b) (resume' b)) :
      Renumbers σ (pending x v resume) (pending x' v resume')

/-- Two stories that differ at most in numbers and tags, where it is open which operation is the
last in the circle of numbers until the factory of the first one builds it. So many operations are
built by then. -/
inductive Turns (k : Nat) : Nat → Story → Story → Prop where
  | settled {n m : Nat} {y y' : Story} (h : n ≤ k + m) (hy : Renumbers (rotation k m) y y') :
      Turns k n y y'
  | pending {n : Nat} {x x' : Page} {v : Completion Value Failure} {resume resume' : Bool → Story}
      (hn : n ≤ x'.count)
      (hseen : ∀ m, x'.count ≤ k + m → x'.seen = x.seen.map (Act.renumber (rotation k m)))
      (hrefusal : x'.refusal = x.refusal)
      (h : ∀ b, Turns k x'.count (resume b) (resume' b)) :
      Turns k n (pending x v resume) (pending x' v resume')

variable {σ : Equiv.Perm Nat} {k m lo hi : Nat} {y y' : Story}

lemma Turns.mono {n n' : Nat} (h : Turns k n y y') (hn : n' ≤ n) : Turns k n' y y' := by
  cases h with
  | settled h hy => exact .settled (Nat.le_trans hn h) hy
  | pending hn' hseen hrefusal h => exact .pending (Nat.le_trans hn hn') hseen hrefusal h

lemma Renumbers.record (h : Renumbers σ y y') {acts acts' : List Act}
    (ha : acts' = acts.map (Act.renumber σ)) :
    Renumbers σ (y.record acts) (y'.record acts') := by
  subst ha
  cases h with
  | finished hseen hrefusal =>
    exact .finished (by simp [Page.record, hseen]) hrefusal
  | pending hseen hrefusal h =>
    exact .pending (by simp [Page.record, hseen]) hrefusal h

lemma map_renumber_rotation {acts : List Act} (h : Within (k + m + 1) hi acts) :
    acts.map (Act.renumber (rotation k m)) = acts := by
  conv_rhs => rw [← Act.map_renumber_id acts]
  exact h.map_renumber fun i hi _ => rotation_of_lt hi

/-- Operations one after another that were numbered one up. -/
lemma map_renumber_shift {acts : List Act} (h : Within (k + 1) hi acts) (hm : hi ≤ k + m) :
    (acts.map (Act.renumber (· + 1))).map (Act.renumber (rotation k m)) = acts := by
  rw [Act.map_renumber_map]
  conv_rhs => rw [← Act.map_renumber_id acts]
  exact h.map_renumber fun i hlo hhi => rotation_succ (by omega) (by omega)

lemma record_append (y : Story) (acts acts' : List Act) :
    y.record (acts ++ acts') = (y.record acts').record acts := by
  cases y <;> simp [record, Page.record]

lemma map_record (y : Story) (acts : List Act)
    (g : Completion Value Failure → Completion Value Failure) :
    (y.record acts).map Page.refuse g = (y.map Page.refuse g).record acts := by
  cases y <;> rfl

/-- What comes after the handoffs of both bindings. -/
lemma renumbers_last (hy : y.Numbered (k + m + 1) lo) :
    Renumbers (rotation k m) (y.map Page.refuse (·.mapError .successor))
      ((y.map Page.refuse (·.mapError .successor)).map Page.refuse (·.mapError .successor)) := by
  induction y generalizing lo with
  | finished x v =>
    have hseen := (map_renumber_rotation hy.2).symm
    cases v with
    | value v => exact .finished (v := .value v) hseen rfl
    | error e => exact .finished (v := .error (.successor e)) hseen rfl
    | done => exact .finished (v := .done) hseen rfl
  | pending x v resume ih =>
    exact .pending (map_renumber_rotation hy.2.1).symm rfl fun b => ih b (hy.2.2 b)

end Story

namespace Chain

section Stories

variable {g : Int64 → Option Payload} {G : Int64 → Chain}

/-- The story of each sender that a factory builds. -/
abbrev tellNext (next : Int64 → Chain) (stopped : Bool) (n : Int64) (k : Nat) : Story :=
  (next n).story k stopped

/-- The handoff of the last binding: on the left its operation is the first of all, on the right the
last to be built so far. -/
lemma renumbers_tellTakeover {k m : Nat} (stopped : Bool) {x : Page} (hx : k + m < x.count)
    (hseen : Within (k + m + 1) x.count x.seen) (v : Completion Value Failure) :
    (tellTakeover k g G (tellNext G) stopped x.refuse (v.mapError .successor)).Renumbers
      (rotation k m)
      ((tellTakeover (k + m) g G (tellNext G) stopped x v).map Page.refuse
        (·.mapError .successor)) := by
  have hkeep := (Story.map_renumber_rotation hseen).symm
  cases v with
  | error e => exact .finished (v := .error (.predecessor (.successor e))) hkeep rfl
  | done => exact .finished (v := .done) hkeep rfl
  | value v =>
    have hcalled : x.seen ++ [Act.called (k + m) none v.n] =
        (x.seen ++ [Act.called k none v.n]).map (Act.renumber (rotation k m)) := by
      rw [List.map_append, ← hkeep]
      simp [Act.renumber, rotation_self]
    simp only [tellTakeover, Completion.mapError, tellHandover]
    cases g v.n with
    | some e => exact .finished (v := .error (.panicked e)) hcalled rfl
    | none =>
      cases (G v.n).connectRaises with
      | some e => exact .finished (v := .error (.panicked e)) hcalled rfl
      | none =>
        have hnumbered := (numbered_story (G v.n) x.count stopped).mono hx (Nat.le_refl _)
        simp only [Story.map_record]
        exact (Story.renumbers_last hnumbered).record hcalled

/-- What comes after the handoff of the first binding, up to the last. -/
lemma renumbers_middle {k m n : Nat} {y : Story} (hy : y.Numbered (k + m + 1) n)
    (hn : k + m < n) (stopped : Bool) :
    ((y.map Page.refuse (·.mapError .successor)).within
        (tellTakeover k g G (tellNext G)) stopped).Renumbers (rotation k m)
      ((y.within (tellTakeover (k + m) g G (tellNext G)) stopped).map Page.refuse
        (·.mapError .successor)) := by
  induction y generalizing n stopped with
  | finished x v => exact renumbers_tellTakeover stopped (Nat.lt_of_lt_of_le hn hy.1) hy.2 v
  | pending x v resume ih =>
    refine .pending (Story.map_renumber_rotation hy.2.1).symm rfl fun b => ?_
    exact ih b (hy.2.2 b) (Nat.lt_of_lt_of_le hn hy.1) b

lemma tellTakeover_record (k : Nat) (raises : Int64 → Option Payload) (next : Int64 → Chain)
    (successor : Bool → Int64 → Nat → Story) (b : Bool) (acts : List Act) (x : Page)
    (v : Completion Value Failure) :
    tellTakeover k raises next successor b (x.record acts) v =
      (tellTakeover k raises next successor b x v).record acts := by
  cases v with
  | error e => rfl
  | done => rfl
  | value v =>
    have hcount : (x.record acts).count = x.count := rfl
    have hseen : (x.record acts).seen = acts ++ x.seen := rfl
    simp only [tellTakeover, tellHandover, hcount, hseen, List.append_assoc]
    cases raises v.n with
    | some m => rfl
    | none =>
      cases (next v.n).connectRaises with
      | some m => rfl
      | none =>
        rw [← Story.map_record, ← Story.record_append]

lemma within_record (k : Nat) (raises : Int64 → Option Payload) (next : Int64 → Chain)
    (successor : Bool → Int64 → Nat → Story) (stopped : Bool) (acts : List Act) (y : Story) :
    (y.record acts).within (tellTakeover k raises next successor) stopped =
      (y.within (tellTakeover k raises next successor) stopped).record acts := by
  cases y with
  | finished x v => exact tellTakeover_record ..
  | pending x v resume => rfl

variable {f : Int64 → Option Payload} {F : Int64 → Chain} {Sg : Signature}

/-- The handoff of the first binding. -/
lemma turns_tellTakeover {k : Nat} (stopped : Bool) {x : Page} (hx : k < x.count)
    (hseen : Within (k + 1) x.count x.seen) (v : Completion Value Failure) :
    ((tellTakeover (k + 1) f F (tellNext F) stopped x.shift v).within
        (tellTakeover k g G (tellNext G)) stopped).Turns k x.count
      (tellTakeover k f (fun n => bind (F n) g G Sg) (tellNext fun n => bind (F n) g G Sg) stopped x
        v) := by
  -- Whatever the predecessor has built is there by now: the next number is the last of the circle.
  obtain ⟨m, hm⟩ : ∃ m, x.count = k + m := ⟨x.count - k, by omega⟩
  have hle : x.count ≤ k + m := Nat.le_of_eq hm
  have hkeep : x.seen = x.shift.seen.map (Act.renumber (rotation k m)) :=
    (Story.map_renumber_shift hseen hle).symm
  cases v with
  | error e =>
    exact .settled hle (.finished (v := .error (.predecessor (.predecessor e))) hkeep rfl)
  | done => exact .settled hle (.finished (v := .done) hkeep rfl)
  | value v =>
    have hcalled : x.seen ++ [Act.called k none v.n] =
        (x.shift.seen ++ [Act.called (k + 1) none v.n]).map (Act.renumber (rotation k m)) := by
      rw [List.map_append, ← hkeep]
      simp [Act.renumber, rotation_succ (Nat.le_refl k) (by omega : k < k + m)]
    simp only [tellTakeover, tellHandover]
    cases f v.n with
    | some e =>
      exact .settled hle (.finished (v := .error (.predecessor (.panicked e))) hcalled rfl)
    | none =>
      have hconnect : (bind (F v.n) g G Sg).connectRaises = (F v.n).connectRaises := rfl
      simp only [hconnect]
      cases (F v.n).connectRaises with
      | some e =>
        exact .settled hle (.finished (v := .error (.predecessor (.panicked e))) hcalled rfl)
      | none =>
        have hnumbered := numbered_story (F v.n) (k + m + 1) stopped
        have hmiddle := renumbers_middle (g := g) (G := G) hnumbered (Nat.lt_succ_self _) stopped
        simp only [Story.map_record, within_record]
        refine .settled hle (Story.Renumbers.record ?_ hcalled)
        simpa [tellNext, story, Page.shift, hm] using hmiddle

lemma turns_within {k n : Nat} {y : Story} (hy : y.Numbered (k + 1) n) (hn : k < n)
    (stopped : Bool) :
    ((y.shift.within (tellTakeover (k + 1) f F (tellNext F)) stopped).within
        (tellTakeover k g G (tellNext G)) stopped).Turns k n
      (y.within (tellTakeover k f (fun n => bind (F n) g G Sg)
        (tellNext fun n => bind (F n) g G Sg)) stopped) := by
  induction y generalizing n stopped with
  | finished x v =>
    exact (turns_tellTakeover stopped (Nat.lt_of_lt_of_le hn hy.1) hy.2 v).mono hy.1
  | pending x v resume ih =>
    refine .pending hy.1 (fun m hm => (Story.map_renumber_shift hy.2.1 hm).symm) rfl fun b => ?_
    exact ih b (hy.2.2 b) (Nat.lt_of_lt_of_le hn hy.1) b

/-- The stories of bindings nested to the left and to the right. -/
theorem turns_story (p : Chain) (Sf Sfg : Signature) (k : Nat) (stopped : Bool) :
    ((bind (bind p f F Sf) g G Sg).story k stopped).Turns k (k + 1)
      ((bind p f (fun n => bind (F n) g G Sg) Sfg).story k stopped) := by
  simp only [story, story_succ p (k + 1) stopped]
  exact turns_within (numbered_story p (k + 1) stopped) (Nat.lt_succ_self k) stopped

end Stories

end Chain

/-! ### Beats that differ in numbers and tags -/

/-- What the driver of a chain sees of a site at the outset of a story. -/
def Story.page : Story → Page
  | finished x _ => x
  | pending x _ _ => x

lemma Course.Tells.page_eq {x : Course} {y : Story} (h : x.Tells y) : x.stretch.page = y.page := by
  cases h with
  | finished hx hd => exact hx
  | pending hx h => exact hx

lemma Layer.map_renumber_refusal (ls : List Layer) (σ : Nat → Nat) :
    (Act.sights (refusal ls).acts).map (Act.renumber σ) = Act.sights (refusal ls).acts := by
  induction ls with
  | nil => rfl
  | cons l rest ih =>
    cases l with
    | either k which => exact ih
    | bind b => by_cases hb : b.storage = .predecessor <;> simp [refusal, hb, Act.isSight, ih]
    | _ => rfl

section Play

variable {r : Receiver} {σ : Equiv.Perm Nat} {k n : Nat} {x x' : Course} {y y' : Story}

lemma beat_pending {st st' : Stretch} (h : st'.page.seen = st.page.seen.map (Act.renumber σ))
    (r₁ r₁' : Receiver) (v : Completion Value Failure) (resume resume' : Bool → Course)
    (reply : Reply) :
    (Course.pending st' r₁' v resume').beat r reply =
      ((Course.pending st r₁ v resume).beat r reply).reassociate σ := by
  have hseen : Act.sights st'.acts = (Act.sights st.acts).map (Act.renumber σ) := h
  simp [Course.beat, Beat.reassociate, hseen]

lemma beat_reassociate (hx : x.Tells y) (hx' : x'.Tells y') (h : y.Renumbers σ y') (reply : Reply) :
    x'.beat r reply = (x.beat r reply).reassociate σ := by
  cases h with
  | finished hseen hrefusal =>
    obtain ⟨st, late, rfl, rfl⟩ := hx.of_finished
    obtain ⟨st', late', rfl, rfl⟩ := hx'.of_finished
    have hseen : Act.sights st'.acts = (Act.sights st.acts).map (Act.renumber σ) := hseen
    simp [Course.beat, Beat.reassociate, hseen]
  | pending hseen hrefusal h =>
    obtain ⟨st, r₁, resume, rfl, rfl, -⟩ := hx.of_pending
    obtain ⟨st', r₁', resume', rfl, rfl, -⟩ := hx'.of_pending
    exact beat_pending hseen ..

/-- A refusal names no binding operation. -/
lemma restart_reassociate (h : x'.stretch.page.refusal = x.stretch.page.refusal)
    (requested : List Int) :
    (Scene.start r ⟨.begun x', requested⟩).1 =
      (Scene.start r ⟨.begun x, requested⟩).1.reassociate σ := by
  obtain ⟨hacts, hfault⟩ := Refusal.mk.inj h
  have hacts : Act.sights (Layer.refusal x'.stretch.layers).acts = Act.sights _ := hacts
  have hfault : (Layer.refusal x'.stretch.layers).fault = Refusal.fault _ := hfault
  simp [Scene.start, Beat.reassociate, hacts, hfault, Layer.map_renumber_refusal]

lemma Story.Renumbers.refusal_eq (h : y.Renumbers σ y') : y'.page.refusal = y.page.refusal := by
  cases h with
  | finished hseen hrefusal => exact hrefusal
  | pending hseen hrefusal h => exact hrefusal

lemma Story.Turns.refusal_eq (h : y.Turns k n y') : y'.page.refusal = y.page.refusal := by
  cases h with
  | settled h hy => exact hy.refusal_eq
  | pending hn hseen hrefusal h => exact hrefusal

/-- Courses whose stories differ in numbers and tags go on with beats that do. -/
lemma play_renumbers (hx : x.Tells y) (hx' : x'.Tells y') (h : y.Renumbers σ y')
    (requested : List Int) (ds : List Drive) :
    (Scene.play r ⟨.begun x', requested⟩ ds).1 =
      (Scene.play r ⟨.begun x, requested⟩ ds).1.map (Beat.reassociate σ) := by
  induction ds generalizing x x' y y' requested with
  | nil => rfl
  | cons d ds ih =>
    cases d with
    | start =>
      have hrefusal : x'.stretch.page.refusal = x.stretch.page.refusal := by
        rw [hx.page_eq, hx'.page_eq, h.refusal_eq]
      exact congrArg₂ List.cons (restart_reassociate (r := r) hrefusal requested)
        (ih hx hx' h requested)
    | request s => exact congrArg₂ List.cons rfl (ih hx hx' h _)
    | task =>
      have hrest := ih hx hx' h requested
      cases h with
      | finished hseen hrefusal =>
        obtain ⟨st, late, rfl, -⟩ := hx.of_finished
        obtain ⟨st', late', rfl, -⟩ := hx'.of_finished
        exact congrArg₂ List.cons rfl hrest
      | pending hseen hrefusal h =>
        obtain ⟨st, r₁, resume, rfl, -, hresume⟩ := hx.of_pending
        obtain ⟨st', r₁', resume', rfl, -, hresume'⟩ := hx'.of_pending
        exact congrArg₂ List.cons (beat_reassociate (hresume _) (hresume' _) (h _) (.flag true))
          (ih (hresume _) (hresume' _) (h _) requested)

/-- Courses whose stories agree up to turning the numbers go on with beats that do, for one way of
turning them. -/
lemma play_turns (hx : x.Tells y) (hx' : x'.Tells y') (h : y.Turns k n y') (requested : List Int)
    (ds : List Drive) :
    ∃ m, n ≤ k + m ∧
      (∀ reply, x'.beat r reply = (x.beat r reply).reassociate (rotation k m)) ∧
      (Scene.play r ⟨.begun x', requested⟩ ds).1 =
        (Scene.play r ⟨.begun x, requested⟩ ds).1.map (Beat.reassociate (rotation k m)) := by
  induction ds generalizing x x' y y' n requested with
  | nil =>
    cases h with
    | settled h hy => exact ⟨_, h, beat_reassociate hx hx' hy, rfl⟩
    | pending hn hseen hrefusal h =>
      obtain ⟨st, r₁, resume, rfl, rfl, -⟩ := hx.of_pending
      obtain ⟨st', r₁', resume', rfl, rfl, -⟩ := hx'.of_pending
      -- The calls end before the last operation is built: any circle will do that holds the others.
      exact ⟨_, Nat.le_trans hn (Nat.le_add_left _ k),
        fun _ => beat_pending (hseen _ (Nat.le_add_left _ k)) .., rfl⟩
  | cons d ds ih =>
    have hrefusal : x'.stretch.page.refusal = x.stretch.page.refusal := by
      rw [hx.page_eq, hx'.page_eq, h.refusal_eq]
    cases d with
    | start =>
      obtain ⟨m, hm, hbeat, hplay⟩ := ih hx hx' h requested
      exact ⟨m, hm, hbeat, congrArg₂ List.cons (restart_reassociate (r := r) hrefusal _) hplay⟩
    | request s =>
      obtain ⟨m, hm, hbeat, hplay⟩ := ih hx hx' h _
      exact ⟨m, hm, hbeat, congrArg₂ List.cons rfl hplay⟩
    | task =>
      cases h with
      | settled h hy => exact ⟨_, h, beat_reassociate hx hx' hy, play_renumbers hx hx' hy _ _⟩
      | pending hn hseen hrefusal h =>
        obtain ⟨st, r₁, resume, rfl, rfl, hresume⟩ := hx.of_pending
        obtain ⟨st', r₁', resume', rfl, rfl, hresume'⟩ := hx'.of_pending
        obtain ⟨m, hm, hbeat, hplay⟩ := ih (hresume _) (hresume' _) (h _) requested
        exact ⟨m, Nat.le_trans hn hm, fun _ => beat_pending (hseen m hm) ..,
          congrArg₂ List.cons (hbeat _) hplay⟩

/-- The same holds of chains that are yet to be started. -/
lemma play_fresh {begin begin' : Bool → Course}
    (h : ∀ b, ∃ y y', (begin b).Tells y ∧ (begin' b).Tells y' ∧ y.Turns k n y')
    (requested : List Int) (ds : List Drive) :
    ∃ m, (Scene.play r ⟨.fresh begin', requested⟩ ds).1 =
      (Scene.play r ⟨.fresh begin, requested⟩ ds).1.map (Beat.reassociate (rotation k m)) := by
  induction ds generalizing requested with
  | nil => exact ⟨0, rfl⟩
  | cons d ds ih =>
    cases d with
    | start =>
      obtain ⟨y, y', hx, hx', hy⟩ := h (Scene.stops ⟨.fresh begin, requested⟩ r)
      obtain ⟨m, -, hbeat, hplay⟩ := play_turns (r := r) hx hx' hy requested ds
      exact ⟨m, congrArg₂ List.cons (hbeat _) hplay⟩
    | task =>
      obtain ⟨m, hplay⟩ := ih requested
      exact ⟨m, congrArg₂ List.cons rfl hplay⟩
    | request s =>
      obtain ⟨m, hplay⟩ := ih _
      exact ⟨m, congrArg₂ List.cons rfl hplay⟩

/-- A place left vacant sees no difference. -/
lemma play_vacant (k n n' : Nat) (requested : List Int) (ds : List Drive) :
    (Scene.play r ⟨.begun (.finished ⟨[], [], n'⟩ .done []), requested⟩ ds).1 =
      (Scene.play r ⟨.begun (.finished ⟨[], [], n⟩ .done []), requested⟩ ds).1.map
        (Beat.reassociate (rotation k 0)) := by
  have htells (n : Nat) : (Course.finished ⟨[], [], n⟩ .done []).Tells
      (.finished (Stretch.page ⟨[], [], n⟩) .done) := .finished rfl rfl
  exact play_renumbers (htells n) (htells n') (.finished (v := .done) rfl rfl) requested ds

end Play

/-! ### Promises -/

lemma Blocking.sequence_assoc (a b c : Blocking) :
    (a.sequence b).sequence c = a.sequence (b.sequence c) := by
  cases a <;> cases b <;> cases c <;> rfl

lemma Signature.bind_bind (p s t : Signature) : (p.bind s).bind t = p.bind (s.bind t) := by
  simp [bind, Blocking.sequence_assoc, Bool.or_assoc, Bool.and_assoc]

/-! ### Two ways of nesting -/

namespace Chain

/-- Two bindings one after another may be nested to the left or to the right, whatever the first
predecessor and the factories are, as long as no leaf explodes when it is dropped. They promise the
same. Connect them in a vacant place and drive them by the same calls: each call ends in the same
way, starts the same leaves, which see the same stop requests, and calls factories with the same
numbers, and gives the receiver the same completion up to tags of errors. The binding of the last
factory, which has the next number on the left, is built as the one `m` numbers later on the right;
the operations in between have a number one less there. -/
theorem bind_assoc (p : Chain) (f g : Int64 → Option Payload) (F G : Int64 → Chain)
    (Sf Sg : Signature) (hp : p.Sturdy) (hF : ∀ n, (F n).Sturdy) (hG : ∀ n, (G n).Sturdy)
    (w : World) (key : Int) (r : Receiver) (hr : r.Calm) (hq : w.queue = [])
    (hv : w.layers (.place key) = []) :
    let left := bind (bind p f F Sf) g G Sg
    let right := bind p f (fun n => bind (F n) g G Sg) (Sf.bind Sg)
    right.signature = left.signature ∧ right.query = left.query ∧
      ∀ ds : List Drive, ∃ m bs w₁ w₂,
        w.Plays (.connect key left.sender r :: ds.map (Drive.call key)) bs w₁ ∧
        w.Plays (.connect key right.sender r :: ds.map (Drive.call key))
          (bs.map (Beat.reassociate (rotation (w.nextSerial (.place key)) m))) w₂ := by
  intro left right
  refine ⟨(Signature.bind_bind ..).symm, (Blocking.sequence_assoc ..).symm, fun ds => ?_⟩
  have hleft : left.Sturdy := ⟨⟨hp, hF⟩, hG⟩
  have hright : right.Sturdy := ⟨hp, fun n => ⟨hF n, hG⟩⟩
  have hconnect := comes_connect left w key r hv
  have hconnect' := comes_connect right w key r hv
  -- Both chains connect `p` first, and if that raises a payload they leave the place vacant.
  cases hc : p.connectRaises with
  | none =>
    obtain ⟨w₁, hplays, -⟩ := (rests_connected left hc w key hr.isChild_eq hq).plays hr ds
    obtain ⟨w₂, hplays', -⟩ := (rests_connected right hc w key hr.isChild_eq hq).plays hr ds
    obtain ⟨m, hm⟩ := play_fresh (r := r) (fun b => ⟨_, _,
      tells_course (s := .place key) hleft hc r [] 0 (w.nextSerial (.place key)) b,
      tells_course (s := .place key) hright hc r [] 0 (w.nextSerial (.place key)) b,
      turns_story p Sf (Sf.bind Sg) (w.nextSerial (.place key)) b⟩) w.requested ds
    rw [hm] at hplays'
    exact ⟨m, _, w₁, w₂, .cons hconnect hplays, .cons hconnect' hplays'⟩
  | some e =>
    have hp : (bind p f F Sf).connectRaises = some e := hc
    obtain ⟨n, hrests⟩ : ∃ n, (left.connected w key r).Rests key r _ := rests_vacant hp w key hq
    obtain ⟨n', hrests'⟩ : ∃ n, (right.connected w key r).Rests key r _ :=
      rests_vacant hc w key hq
    obtain ⟨w₁, hplays, -⟩ := hrests.plays hr ds
    obtain ⟨w₂, hplays', -⟩ := hrests'.plays hr ds
    rw [play_vacant (w.nextSerial (.place key)) n n'] at hplays'
    refine ⟨0, _, w₁, w₂, .cons hconnect hplays, ?_⟩
    have hraises : right.connectRaises = left.connectRaises := rfl
    rw [hraises] at hconnect'
    exact .cons hconnect' hplays'

/-- A deferred leaf, a factory that builds another one, and one that raises a payload. -/
theorem bind_assoc_raising :
    let p := leaf { label := "a", completion := .value 1, deferred := true }
    let F (n : Int64) := leaf { label := "b", completion := .value (n + 1), deferred := true }
    let g (n : Int64) := if n = 2 then some (Payload.text "two") else none
    let left := bind (bind p (fun _ => none) F .unspecified) g (fun n => ready (.value n)) .ready
    let right := bind p (fun _ => none) (fun n => bind (F n) g (fun n => ready (.value n)) .ready)
      (Signature.bind .unspecified .ready)
    let r := Receiver.recorder (.place 0) (some 7)
    right.signature = left.signature ∧ right.query = left.query ∧
      ∀ ds : List Drive, ∃ m bs w₁ w₂,
        ({} : World).Plays (.connect 0 left.sender r :: ds.map (Drive.call 0)) bs w₁ ∧
        ({} : World).Plays (.connect 0 right.sender r :: ds.map (Drive.call 0))
          (bs.map (Beat.reassociate (rotation 0 m))) w₂ := by
  intro p F g left right r
  have hp : p.Sturdy := rfl
  have hF (n : Int64) : (F n).Sturdy := rfl
  exact bind_assoc p _ g F (fun n => ready (.value n)) .unspecified .ready hp hF
    (fun _ => trivial) {} 0 r trivial rfl rfl

end Chain

end Handoff
