import Handoff.Cancellation
import Mathlib.Data.List.Induction
import Mathlib.Data.List.InsertIdx
import Mathlib.Logic.Relation
import Mathlib.Tactic.Common

/-!
# Kinship of stop sources and tokens

Sources and tokens are known here by the call that made them, since their numbers move as sources
are dropped. Copies and the tokens of a source are derived from what they were made of, and two
objects are kin if a chain of derivations joins them, be the objects on it alive or dropped. What a
stop table answers after any calls is told by kinship alone: `StopTable.answers_by_kinship` says
that a stop is requested once among kin and seen by all of them, that it is never taken back, and
that nobody else sees it.
-/

namespace Handoff

/-- The calls that made the sources and the tokens of a stop table, by number. -/
structure Roll where
  sources : List Nat := []
  tokens : List Nat := []

namespace Roll

/-- The object that a call is about. -/
def find (r : Roll) : StopTable.Step → Option Nat
  | .newSource | .newToken => none
  | .cloneSource i | .takeToken i | .request i | .requested i | .showSource i | .dropSource i =>
    r.sources[i]?
  | .cloneToken i | .ask i | .showToken i => r.tokens[i]?

/-- The roll after call number `t`. -/
def step (r : Roll) (t : Nat) (s : StopTable.Step) : Roll :=
  match s, r.find s with
  | .newSource, _ | .cloneSource _, some _ => { r with sources := r.sources ++ [t] }
  | .newToken, _ | .takeToken _, some _ | .cloneToken _, some _ =>
    { r with tokens := r.tokens ++ [t] }
  | .dropSource i, some _ => { r with sources := r.sources.eraseIdx i }
  | _, _ => r

/-- The roll after a sequence of calls. -/
def after (calls : List StopTable.Step) : Roll :=
  calls.zipIdx.foldl (fun r c => r.step c.2 c.1) {}

@[simp] lemma after_nil : after [] = {} := rfl

@[simp] lemma after_snoc (calls : List StopTable.Step) (s : StopTable.Step) :
    after (calls ++ [s]) = (after calls).step calls.length s := by
  simp [after, List.zipIdx_append]

end Roll

namespace StopTable

variable {calls : List Step} {s : Step} {t o o' u f : Nat}

/-! ### What a history says -/

/-- The table after a sequence of calls. -/
def after (calls : List Step) : StopTable := (run {} calls).1

/-- What a call is answered after others. -/
def told (calls : List Step) (s : Step) : Answer := ((after calls).step s).2

/-- Whether a call makes a source or token out of another. -/
def Step.copies : Step → Bool
  | .cloneSource _ | .takeToken _ | .cloneToken _ => true
  | _ => false

/-- Call number `t` made its object out of the one that call number `o` had made. -/
def Derived (calls : List Step) (t o : Nat) : Prop :=
  ∃ s, calls[t]? = some s ∧ s.copies = true ∧ (Roll.after (calls.take t)).find s = some o

/-- A chain of derivations joins two objects. -/
def Kin (calls : List Step) : Nat → Nat → Prop := Relation.EqvGen (Derived calls)

/-- Call number `t` made a source. -/
def MakesSource (calls : List Step) (t : Nat) : Prop :=
  calls[t]? = some .newSource ∨ ∃ i o, calls[t]? = some (.cloneSource i) ∧ Derived calls t o

/-- Call number `t` requested a stop of an object. -/
def Requests (calls : List Step) (t o : Nat) : Prop :=
  ∃ i, calls[t]? = some (.request i) ∧ (Roll.after (calls.take t)).find (.request i) = some o

/-- An object has a source among its kin. -/
def HasSource (calls : List Step) (o : Nat) : Prop := ∃ u, MakesSource calls u ∧ Kin calls u o

/-- A stop was requested of kin of an object. -/
def Requested (calls : List Step) (o : Nat) : Prop :=
  ∃ t u, Requests calls t u ∧ Kin calls u o

/-! ### The flag of an object -/

/-- The flag of the object that a call is about. -/
def named (b : StopTable) : Step → Option StopToken
  | .newSource | .newToken => none
  | .cloneSource i | .takeToken i | .request i | .requested i | .showSource i | .dropSource i =>
    b.sources[i]?.map some
  | .cloneToken i | .ask i | .showToken i => b.tokens[i]?

/-- The flag of the object that a call makes. -/
def given (b : StopTable) (s : Step) : StopToken :=
  match s with
  | .newSource => some b.flags.length
  | _ => if s.copies then (b.named s).join else none

/-- The flag of the object that call number `t` made. -/
def flagOf (calls : List Step) (t : Nat) : StopToken :=
  calls[t]?.elim none (after (calls.take t)).given

lemma run_snoc (b : StopTable) (calls : List Step) (s : Step) :
    b.run (calls ++ [s]) =
      (((b.run calls).1.step s).1, (b.run calls).2 ++ [((b.run calls).1.step s).2]) := by
  induction calls generalizing b with
  | nil => rfl
  | cons c calls ih => simp [run_cons, ih]

@[simp] lemma after_nil : after [] = {} := rfl

@[simp] lemma after_snoc (calls : List Step) (s : Step) :
    after (calls ++ [s]) = ((after calls).step s).1 := by
  simp [after, run_snoc]

/-- Each answer of a run is what its call is told after those before it. -/
lemma getElem?_run (b : StopTable) (calls : List Step) (t : Nat) :
    (b.run calls).2[t]? = calls[t]?.map fun s => ((b.run (calls.take t)).1.step s).2 := by
  induction calls generalizing b t with
  | nil => simp
  | cons c calls ih =>
    cases t with
    | zero => rfl
    | succ t => simp [run_cons, ih]

@[simp] lemma flagOf_snoc_self : flagOf (calls ++ [s]) calls.length = (after calls).given s := by
  simp [flagOf]

lemma flagOf_append_of_lt (more : List Step) (h : t < calls.length) :
    flagOf (calls ++ more) t = flagOf calls t := by
  simp [flagOf, List.getElem?_append_left h, List.take_append_of_le_length (Nat.le_of_lt h)]

/-! ### The table and the roll go together -/

/-- A table and a roll list the same sources and tokens, given the flag of each object made by the
first `n` calls. -/
structure Matches (g : Nat → StopToken) (n : Nat) (b : StopTable) (r : Roll) : Prop where
  sources : b.sources.map some = r.sources.map g
  tokens : b.tokens = r.tokens.map g
  source_lt : ∀ o ∈ r.sources, o < n
  token_lt : ∀ o ∈ r.tokens, o < n
  held : ∀ f ∈ b.sources, f < b.flags.length

namespace Matches

variable {g g' : Nat → StopToken} {n n' : Nat} {b b' : StopTable} {r : Roll}

lemma mono (h : Matches g n b r) (hg : ∀ t < n, g' t = g t) (hn : n ≤ n') :
    Matches g' n' b r where
  sources := h.sources.trans (List.map_congr_left fun o ho => (hg o (h.source_lt o ho)).symm)
  tokens := h.tokens.trans (List.map_congr_left fun o ho => (hg o (h.token_lt o ho)).symm)
  source_lt o ho := Nat.lt_of_lt_of_le (h.source_lt o ho) hn
  token_lt o ho := Nat.lt_of_lt_of_le (h.token_lt o ho) hn
  held := h.held

lemma keep (h : Matches g n b r) (hs : b'.sources = b.sources) (ht : b'.tokens = b.tokens)
    (hf : b.flags.length ≤ b'.flags.length) : Matches g n b' r where
  sources := by rw [hs, h.sources]
  tokens := by rw [ht, h.tokens]
  source_lt := h.source_lt
  token_lt := h.token_lt
  held f hb := Nat.lt_of_lt_of_le (h.held f (hs ▸ hb)) hf

lemma source (h : Matches g n b r) (ho : o < n) (hg : g o = some f) (hf : f < b.flags.length) :
    Matches g n { b with sources := b.sources ++ [f] } { r with sources := r.sources ++ [o] } where
  sources := by simp [h.sources, hg]
  tokens := h.tokens
  source_lt u hu := by
    obtain hu | rfl := by simpa using hu
    · exact h.source_lt u hu
    · exact ho
  token_lt := h.token_lt
  held u hu := by
    obtain hu | rfl := by simpa using hu
    · exact h.held u hu
    · exact hf

lemma token (h : Matches g n b r) (ho : o < n) :
    Matches g n { b with tokens := b.tokens ++ [g o] } { r with tokens := r.tokens ++ [o] } where
  sources := h.sources
  tokens := by simp [h.tokens]
  source_lt := h.source_lt
  token_lt u hu := by
    obtain hu | rfl := by simpa using hu
    · exact h.token_lt u hu
    · exact ho
  held := h.held

lemma drop (h : Matches g n b r) (i : Nat) :
    Matches g n { b with sources := b.sources.eraseIdx i }
      { r with sources := r.sources.eraseIdx i } where
  sources := by simp only [← List.eraseIdx_map, h.sources]
  tokens := h.tokens
  source_lt u hu := h.source_lt u (List.mem_of_mem_eraseIdx hu)
  token_lt := h.token_lt
  held u hu := h.held u (List.mem_of_mem_eraseIdx hu)

lemma found_source (h : Matches g n b r) (i : Nat) :
    (b.sources[i]? = none ∧ r.sources[i]? = none) ∨
      ∃ f u, b.sources[i]? = some f ∧ r.sources[i]? = some u ∧ g u = some f := by
  have hi : b.sources[i]?.map some = r.sources[i]?.map g := by
    rw [← List.getElem?_map, h.sources, List.getElem?_map]
  cases hr : r.sources[i]? with
  | none =>
    rw [hr] at hi
    exact .inl ⟨Option.map_eq_none_iff.mp hi, rfl⟩
  | some u =>
    rw [hr] at hi
    obtain ⟨f, hb, hf⟩ := Option.map_eq_some_iff.mp hi
    exact .inr ⟨f, u, hb, rfl, hf.symm⟩

lemma found_token (h : Matches g n b r) (i : Nat) :
    (b.tokens[i]? = none ∧ r.tokens[i]? = none) ∨
      ∃ u, b.tokens[i]? = some (g u) ∧ r.tokens[i]? = some u := by
  rw [h.tokens, List.getElem?_map]
  cases r.tokens[i]? with
  | none => exact .inl ⟨rfl, rfl⟩
  | some u => exact .inr ⟨u, rfl, rfl⟩

/-- A call finds an object in the table if it does on the roll, and then of that object's flag. -/
lemma named_eq (h : Matches g n b r) (s : Step) : b.named s = (r.find s).map g := by
  cases s with
  | newSource | newToken => rfl
  | cloneToken i | ask i | showToken i =>
    obtain ⟨hb, hr⟩ | ⟨u, hb, hr⟩ := h.found_token i <;> simp [named, Roll.find, hb, hr]
  | cloneSource i | takeToken i | request i | requested i | showSource i | dropSource i =>
    obtain ⟨hb, hr⟩ | ⟨f, u, hb, hr, hu⟩ := h.found_source i <;> simp [named, Roll.find, *]

/-- One call keeps table and roll together if its object is of the flag that it gives. -/
lemma next (h : Matches g n b r) (ho : o < n) (hg : g o = b.given s) :
    Matches g n (b.step s).1 (r.step o s) := by
  cases s with
  | newSource =>
    have hk : Matches g n { b with flags := b.flags ++ [false] } r := h.keep rfl rfl (by simp)
    exact hk.source ho hg (by simp)
  | newToken =>
    have := h.token ho
    rwa [hg] at this
  | cloneSource i =>
    obtain ⟨hb, hr⟩ | ⟨f, u, hb, hr, hu⟩ := h.found_source i
    · simpa [step, onFound, Roll.step, Roll.find, hb, hr] using h
    · have hf : g o = some f := by simp [hg, given, Step.copies, named, hb]
      simpa [step, onFound, addSource, Roll.step, Roll.find, hb, hr] using
        h.source ho hf (h.held f (List.mem_of_getElem? hb))
  | takeToken i =>
    obtain ⟨hb, hr⟩ | ⟨f, u, hb, hr, hu⟩ := h.found_source i
    · simpa [step, onFound, Roll.step, Roll.find, hb, hr] using h
    · have hf : g o = some f := by simp [hg, given, Step.copies, named, hb]
      simpa [step, onFound, addToken, Roll.step, Roll.find, hb, hr, hf] using h.token ho
  | cloneToken i =>
    obtain ⟨hb, hr⟩ | ⟨u, hb, hr⟩ := h.found_token i
    · simpa [step, onFound, Roll.step, Roll.find, hb, hr] using h
    · have hf : g o = g u := by simp [hg, given, Step.copies, named, hb]
      simpa [step, onFound, addToken, Roll.step, Roll.find, hb, hr, hf] using h.token ho
  | dropSource i =>
    obtain ⟨hb, hr⟩ | ⟨f, u, hb, hr, hu⟩ := h.found_source i
    · simpa [step, onFound, Roll.step, Roll.find, hb, hr] using h
    · simpa [step, onFound, Roll.step, Roll.find, hb, hr] using h.drop i
  | request i =>
    obtain ⟨hb, hr⟩ | ⟨f, u, hb, hr, hu⟩ := h.found_source i
    · simpa [step, onFound, Roll.step, Roll.find, hb, hr] using h
    · have hk : Matches g n { b with flags := b.flags.set f true } r := h.keep rfl rfl (by simp)
      simpa [step, onFound, Roll.step, Roll.find, hb, hr] using hk
  | requested i | showSource i =>
    obtain ⟨hb, hr⟩ | ⟨f, u, hb, hr, hu⟩ := h.found_source i <;>
      simpa [step, onFound, Roll.step, Roll.find, hb, hr] using h
  | ask i | showToken i =>
    obtain ⟨hb, hr⟩ | ⟨u, hb, hr⟩ := h.found_token i <;>
      simpa [step, onFound, Roll.step, Roll.find, hb, hr] using h

end Matches

/-- The table and the roll go together after any calls. -/
lemma matches_after (calls : List Step) :
    Matches (flagOf calls) calls.length (after calls) (Roll.after calls) := by
  induction calls using List.reverseRecOn with
  | nil => exact ⟨rfl, rfl, by simp, by simp, by simp⟩
  | append_singleton calls s ih =>
    -- The objects of before keep their flags; the call's own is the one it gives.
    have hm : Matches (flagOf (calls ++ [s])) (calls ++ [s]).length (after calls)
        (Roll.after calls) :=
      ih.mono (fun t ht => flagOf_append_of_lt [s] ht) (by simp)
    rw [after_snoc, Roll.after_snoc]
    exact hm.next (by simp) flagOf_snoc_self

lemma lt_of_find (h : (Roll.after calls).find s = some o) : o < calls.length := by
  have hm := matches_after calls
  cases s with
  | newSource | newToken => simp [Roll.find] at h
  | cloneToken i | ask i | showToken i => exact hm.token_lt o (List.mem_of_getElem? h)
  | cloneSource i | takeToken i | request i | requested i | showSource i | dropSource i =>
    exact hm.source_lt o (List.mem_of_getElem? h)

lemma named_after (h : (Roll.after calls).find s = some o) :
    (after calls).named s = some (flagOf calls o) := by
  rw [(matches_after calls).named_eq, h, Option.map_some]

/-! ### Kin are of one flag -/

lemma flagOf_take (h : o < (calls.take t).length) : flagOf (calls.take t) o = flagOf calls o := by
  conv_rhs => rw [← List.take_append_drop t calls]
  exact (flagOf_append_of_lt _ h).symm

lemma Derived.lt (h : Derived calls t o) : o < t := by
  obtain ⟨s, hs, -, hfind⟩ := h
  have := lt_of_find hfind
  grind

lemma Derived.flagOf_eq (h : Derived calls t o) : flagOf calls t = flagOf calls o := by
  obtain ⟨s, hs, hcopies, hfind⟩ := h
  rw [← flagOf_take (lt_of_find hfind)]
  cases s with
  | cloneSource | takeToken | cloneToken =>
    simp [flagOf, hs, given, Step.copies, named_after hfind]
  | _ => simp [Step.copies] at hcopies

lemma Kin.flagOf_eq (h : Kin calls o o') : flagOf calls o = flagOf calls o' := by
  induction h with
  | rel _ _ h => exact h.flagOf_eq
  | refl => rfl
  | symm _ _ _ ih => exact ih.symm
  | trans _ _ _ _ _ ih ih' => exact ih.trans ih'

lemma given_eq_some (b : StopTable) (h : b.given s = some f) :
    s = .newSource ∨ s.copies = true ∧ b.named s = some (some f) := by
  cases s with
  | newSource => exact .inl rfl
  | cloneSource | takeToken | cloneToken =>
    exact .inr ⟨rfl, by simpa [given, Step.copies, Option.join_eq_some_iff] using h⟩
  | _ => simp [given, Step.copies] at h

/-- Whatever has a flag comes of the source that brought the flag. -/
lemma exists_kin_newSource (h : flagOf calls t = some f) :
    ∃ u, calls[u]? = some .newSource ∧ Kin calls u t := by
  induction t using Nat.strongRecOn with
  | ind t ih =>
    cases hs : calls[t]? with
    | none => simp [flagOf, hs] at h
    | some s =>
      have hg : (after (calls.take t)).given s = some f := by simpa [flagOf, hs] using h
      obtain rfl | ⟨hcopies, hnamed⟩ := given_eq_some _ hg
      · exact ⟨t, hs, .refl t⟩
      · rw [(matches_after _).named_eq] at hnamed
        obtain ⟨o, hfind, ho⟩ := Option.map_eq_some_iff.mp hnamed
        have hd : Derived calls t o := ⟨s, hs, hcopies, hfind⟩
        obtain ⟨u, hu, hkin⟩ := ih o hd.lt (hd.flagOf_eq ▸ h)
        exact ⟨u, hu, hkin.trans _ _ _ (.symm _ _ (.rel _ _ hd))⟩

lemma length_flags_step (b : StopTable) (s : Step) :
    b.flags.length ≤ (b.step s).1.flags.length := by
  cases s <;> simp only [step, onFound, addSource, addToken] <;> (try split) <;> simp

lemma length_flags_le (calls more : List Step) :
    (after calls).flags.length ≤ (after (calls ++ more)).flags.length := by
  induction more using List.reverseRecOn with
  | nil => simp
  | append_singleton more s ih =>
    rw [← List.append_assoc, after_snoc]
    exact Nat.le_trans ih (length_flags_step _ s)

lemma flagOf_newSource (h : calls[u]? = some .newSource) :
    flagOf calls u = some (after (calls.take u)).flags.length := by
  simp [flagOf, h, given]

lemma length_flags_lt (h : calls[u]? = some .newSource) (hlt : u < t) :
    (after (calls.take u)).flags.length < (after (calls.take t)).flags.length := by
  have hsucc : calls.take (u + 1) = calls.take u ++ [.newSource] := by
    rw [List.take_add_one, h, Option.toList_some]
  have htake : calls.take (u + 1) ++ (calls.take t).drop (u + 1) = calls.take t := by
    conv_rhs => rw [← List.take_append_drop (u + 1) (calls.take t)]
    rw [List.take_take, Nat.min_eq_left hlt]
  have hle := length_flags_le (calls.take (u + 1)) ((calls.take t).drop (u + 1))
  rw [htake, hsucc, after_snoc] at hle
  exact Nat.lt_of_lt_of_le (by simp [step, addSource]) hle

/-- Each source made from nothing brings a flag of its own. -/
lemma newSource_unique (hu : calls[u]? = some .newSource) (ht : calls[t]? = some .newSource)
    (h : flagOf calls u = flagOf calls t) : u = t := by
  rw [flagOf_newSource hu, flagOf_newSource ht] at h
  have hlen := Option.some.inj h
  obtain hlt | heq | hlt := Nat.lt_trichotomy u t
  · exact absurd hlen (Nat.ne_of_lt (length_flags_lt hu hlt))
  · exact heq
  · exact absurd hlen.symm (Nat.ne_of_lt (length_flags_lt ht hlt))

lemma kin_of_flagOf_eq (h : flagOf calls o = some f) (h' : flagOf calls o' = some f) :
    Kin calls o o' := by
  obtain ⟨u, hu, hkin⟩ := exists_kin_newSource h
  obtain ⟨u', hu', hkin'⟩ := exists_kin_newSource h'
  obtain rfl : u = u' :=
    newSource_unique hu hu' (by rw [hkin.flagOf_eq, hkin'.flagOf_eq, h, h'])
  exact .trans _ _ _ (.symm _ _ hkin) hkin'

/-! ### A flag is set once a stop was requested of it -/

lemma Requests.append (h : Requests calls t o) (more : List Step) :
    Requests (calls ++ more) t o := by
  obtain ⟨i, hi, hfind⟩ := h
  have ht : t < calls.length := (List.getElem?_eq_some_iff.mp hi).1
  refine ⟨i, by rwa [List.getElem?_append_left ht], ?_⟩
  rwa [List.take_append_of_le_length (Nat.le_of_lt ht)]

lemma Derived.append (h : Derived calls t o) (more : List Step) : Derived (calls ++ more) t o := by
  obtain ⟨s, hs, hcopies, hfind⟩ := h
  have ht : t < calls.length := (List.getElem?_eq_some_iff.mp hs).1
  refine ⟨s, by rwa [List.getElem?_append_left ht], hcopies, ?_⟩
  rwa [List.take_append_of_le_length (Nat.le_of_lt ht)]

lemma Kin.append (h : Kin calls o o') (more : List Step) : Kin (calls ++ more) o o' :=
  Relation.EqvGen.mono (fun _ _ (hd : Derived calls _ _) => hd.append more) _ _ h

lemma Requested.append (h : Requested calls o) (more : List Step) :
    Requested (calls ++ more) o := by
  obtain ⟨t, u, hreq, hkin⟩ := h
  exact ⟨t, u, hreq.append more, hkin.append more⟩

/-- A call that is no request sets no flag. -/
lemma isSet_step (b : StopTable) (f : Nat) (h : ∀ i, s ≠ .request i) :
    (b.step s).1.isSet f = b.isSet f := by
  cases s with
  | request i => exact absurd rfl (h i)
  | newSource => grind [step, addSource, isSet]
  | _ => simp only [step, onFound, addSource, addToken]; (try split) <;> rfl

lemma isSet_set (b : StopTable) (f g : Nat) (h : g < b.flags.length) :
    { b with flags := b.flags.set g true }.isSet f = (decide (f = g) || b.isSet f) := by
  grind [isSet]

lemma Requests.lt (h : Requests calls t o) : o < calls.length := by
  obtain ⟨i, -, hfind⟩ := h
  exact Nat.lt_of_lt_of_le (lt_of_find hfind) (List.length_take_le' t calls)

lemma requests_snoc : Requests (calls ++ [s]) t o ↔
    Requests calls t o ∨
      t = calls.length ∧ ∃ i, s = .request i ∧ (Roll.after calls).find (.request i) = some o := by
  constructor
  · rintro ⟨i, hi, hfind⟩
    obtain ht | rfl | ht := Nat.lt_trichotomy t calls.length
    · rw [List.getElem?_append_left ht] at hi
      rw [List.take_append_of_le_length (Nat.le_of_lt ht)] at hfind
      exact .inl ⟨i, hi, hfind⟩
    · exact .inr ⟨rfl, i, by simpa using hi, by simpa using hfind⟩
    · have := (List.getElem?_eq_some_iff.mp hi).1
      grind
  · rintro (h | ⟨rfl, i, rfl, hfind⟩)
    · exact h.append [s]
    · exact ⟨i, by simp, by simpa using hfind⟩

/-- A flag is set if a stop was requested of an object of that flag. -/
lemma isSet_after (calls : List Step) (f : Nat) :
    (after calls).isSet f = true ↔ ∃ t o, Requests calls t o ∧ flagOf calls o = some f := by
  induction calls using List.reverseRecOn with
  | nil => simp [isSet, Requests]
  | append_singleton calls s ih =>
    -- The requests of before were of objects that keep their flags.
    have hold : (∃ t o, Requests calls t o ∧ flagOf (calls ++ [s]) o = some f) ↔
        (after calls).isSet f = true := by
      rw [ih]
      refine exists₂_congr fun t o => and_congr_right fun hreq => ?_
      rw [flagOf_append_of_lt [s] hreq.lt]
    rw [after_snoc]
    simp only [requests_snoc, or_and_right, exists_or, hold]
    by_cases hs : ∃ i, s = .request i
    · obtain ⟨i, rfl⟩ := hs
      obtain ⟨hb, hr⟩ | ⟨g, u, hb, hr, hu⟩ := (matches_after calls).found_source i
      · simp [step, onFound, hb, Roll.find, hr]
      · have hlt : u < calls.length := (matches_after calls).source_lt u (List.mem_of_getElem? hr)
        have hg : g < (after calls).flags.length :=
          (matches_after calls).held g (List.mem_of_getElem? hb)
        have hstep : ((after calls).step (.request i)).1 =
            { after calls with flags := (after calls).flags.set g true } := by
          simp [step, onFound, hb]
        have hself : flagOf (calls ++ [.request i]) u = some g := by
          rw [flagOf_append_of_lt _ hlt, hu]
        simp only [hstep, isSet_set _ _ _ hg, Bool.or_eq_true, decide_eq_true_eq, Roll.find]
        rw [or_comm]
        refine or_congr_right ⟨?_, ?_⟩
        · rintro rfl
          exact ⟨_, u, ⟨rfl, i, rfl, hr⟩, hself⟩
        · rintro ⟨_, o, ⟨-, _, ⟨rfl⟩, ho⟩, hof⟩
          obtain rfl : u = o := Option.some.inj (hr.symm.trans ho)
          exact Option.some.inj (hof.symm.trans hself)
    · rw [isSet_step _ _ fun i hi => hs ⟨i, hi⟩]
      refine (or_iff_left ?_).symm
      rintro ⟨_, _, ⟨-, i, hi, -⟩, -⟩
      exact hs ⟨i, hi⟩

/-! ### What is told by kinship -/

lemma stopped_flagOf (calls : List Step) (o : Nat) :
    (after calls).stopped (flagOf calls o) = true ↔ Requested calls o := by
  cases hf : flagOf calls o with
  | none =>
    -- A stop is requested of sources only, and those have flags.
    refine iff_of_false (by simp [stopped]) ?_
    rintro ⟨t, u, ⟨i, hi, hfind⟩, hkin⟩
    have hu := named_after hfind
    rw [flagOf_take (lt_of_find hfind), hkin.flagOf_eq, hf] at hu
    simp [named] at hu
  | some f =>
    have hset : (after calls).stopped (some f) = (after calls).isSet f := rfl
    rw [hset, isSet_after]
    refine exists₂_congr fun t u => and_congr_right fun _ => ⟨fun hu => ?_, fun hkin => ?_⟩
    · exact kin_of_flagOf_eq hu hf
    · rw [hkin.flagOf_eq, hf]

lemma MakesSource.isSome_flagOf (h : MakesSource calls u) : (flagOf calls u).isSome = true := by
  obtain h | ⟨i, o, h, s, hs, -, hfind⟩ := h
  · rw [flagOf_newSource h, Option.isSome_some]
  · obtain rfl : Step.cloneSource i = s := Option.some.inj (h.symm.trans hs)
    have hnamed := named_after hfind
    obtain ⟨f, -, hf⟩ := Option.map_eq_some_iff.mp hnamed
    rw [← hf] at hnamed
    simp [flagOf, h, given, Step.copies, hnamed]

lemma possible_flagOf (calls : List Step) (o : Nat) :
    possible (flagOf calls o) = true ↔ HasSource calls o := by
  constructor
  · intro h
    obtain ⟨f, hf⟩ := Option.isSome_iff_exists.mp h
    obtain ⟨u, hu, hkin⟩ := exists_kin_newSource hf
    exact ⟨u, .inl hu, hkin⟩
  · rintro ⟨u, hu, hkin⟩
    rw [← hkin.flagOf_eq]
    exact hu.isSome_flagOf

lemma stopped_of_sources {i : Nat} (h : (Roll.after calls).sources[i]? = some o) :
    ∃ f, (after calls).sources[i]? = some f ∧
      (after calls).isSet f = (after calls).stopped (flagOf calls o) := by
  obtain ⟨-, hr⟩ | ⟨f, u, hb, hr, hu⟩ := (matches_after calls).found_source i
  · simp [h] at hr
  · obtain rfl : o = u := Option.some.inj (h.symm.trans hr)
    exact ⟨f, hb, by rw [hu]; rfl⟩

lemma told_request {i : Nat} (h : (Roll.after calls).find (.request i) = some o) :
    told calls (.request i) = .flag !(after calls).stopped (flagOf calls o) := by
  obtain ⟨f, hb, hf⟩ := stopped_of_sources h
  simp [told, step, onFound, hb, hf]

lemma told_requested {i : Nat} (h : (Roll.after calls).find (.requested i) = some o) :
    told calls (.requested i) = .flag ((after calls).stopped (flagOf calls o)) := by
  obtain ⟨f, hb, hf⟩ := stopped_of_sources h
  simp [told, step, onFound, hb, hf]

lemma told_ask {i : Nat} (h : (Roll.after calls).find (.ask i) = some o) :
    told calls (.ask i) =
      .status (possible (flagOf calls o)) ((after calls).stopped (flagOf calls o)) := by
  have hb : (after calls).tokens[i]? = some (flagOf calls o) := named_after h
  simp [told, step, onFound, hb]

lemma isSet_set_of_ne (b : StopTable) {f g : Nat} (h : f ≠ g) :
    { b with flags := b.flags.set g true }.isSet f = b.isSet f := by
  grind [isSet]

/-- A flag matters only to calls about the objects of that flag. -/
lemma step_set_of_ne (b : StopTable) {g : Nat} (h : b.named s ≠ some (some g)) :
    ({ b with flags := b.flags.set g true }.step s).2 = (b.step s).2 := by
  cases s with
  | newSource | newToken => rfl
  | cloneSource i | takeToken i | dropSource i =>
    simp only [step, onFound]
    cases b.sources[i]? <;> rfl
  | cloneToken i =>
    simp only [step, onFound]
    cases b.tokens[i]? <;> rfl
  | request i | requested i | showSource i =>
    simp only [step, onFound]
    cases hb : b.sources[i]? with
    | none => rfl
    | some f => simp [isSet_set_of_ne b (show f ≠ g by rintro rfl; simp [named, hb] at h)]
  | ask i | showToken i =>
    simp only [step, onFound]
    cases hb : b.tokens[i]? with
    | none => rfl
    | some t =>
      cases t with
      | none => rfl
      | some f =>
        simp [stopped, isSet_set_of_ne b (show f ≠ g by rintro rfl; simp [named, hb] at h)]

/-- What is told of an object is what would be told without a request of one that is no kin. -/
lemma told_snoc_request {i : Nat} (h : (Roll.after calls).find (.request i) = some o)
    (h' : (Roll.after calls).find s = some o') (hkin : ¬Kin calls o o') :
    told (calls ++ [.request i]) s = told calls s := by
  obtain ⟨-, hr⟩ | ⟨g, u, hb, hr, hu⟩ := (matches_after calls).found_source i
  · simp [Roll.find, hr] at h
  · obtain rfl : o = u := Option.some.inj (h.symm.trans hr)
    have hstep : ((after calls).step (.request i)).1 =
        { after calls with flags := (after calls).flags.set g true } := by
      simp [step, onFound, hb]
    have hne : (after calls).named s ≠ some (some g) := by
      rw [named_after h']
      intro heq
      exact hkin (kin_of_flagOf_eq hu (Option.some.inj heq))
    rw [told, after_snoc, hstep, step_set_of_ne _ hne, told]

/-- What a stop table tells after a sequence of calls, by kinship. -/
structure ByKinship (calls : List Step) : Prop where
  /-- Each answer of a run is what its call is told after those before it. -/
  answers : ∀ t s, calls[t]? = some s → (run {} calls).2[t]? = some (told (calls.take t) s)
  /-- The first request among kin makes the request, and no later one does. -/
  request : ∀ i o, (Roll.after calls).find (.request i) = some o →
    ∃ first, told calls (.request i) = .flag first ∧ (first = true ↔ ¬Requested calls o)
  /-- A source reports a stop if one was requested of its kin. -/
  requested : ∀ i o, (Roll.after calls).find (.requested i) = some o →
    ∃ stopped, told calls (.requested i) = .flag stopped ∧ (stopped = true ↔ Requested calls o)
  /-- A token can stop if it has a source among its kin, and reports a stop as sources do. -/
  ask : ∀ i o, (Roll.after calls).find (.ask i) = some o →
    ∃ possible stopped, told calls (.ask i) = .status possible stopped ∧
      (possible = true ↔ HasSource calls o) ∧ (stopped = true ↔ Requested calls o)
  /-- Kin agree. -/
  agree : ∀ o o', Kin calls o o' →
    (HasSource calls o ↔ HasSource calls o') ∧ (Requested calls o ↔ Requested calls o')
  /-- No later calls take a request back. -/
  lasts : ∀ more o, Requested calls o → Requested (calls ++ more) o
  /-- A request changes nothing that is told of an object that is no kin. -/
  apart : ∀ i o q o', (Roll.after calls).find (.request i) = some o →
    (Roll.after calls).find q = some o' → ¬Kin calls o o' →
      told (calls ++ [.request i]) q = told calls q
  /-- Tokens that come of no source can never stop and are never stopped. -/
  never : ∀ t o, calls[t]? = some .newToken → Kin calls t o →
    ¬HasSource calls o ∧ ¬Requested calls o

/-- After any calls, kinship alone tells what a stop table answers. -/
theorem answers_by_kinship (calls : List Step) : ByKinship calls where
  answers t s hs := by
    rw [getElem?_run, hs]
    rfl
  request i o h := ⟨_, told_request h, by rw [← stopped_flagOf]; simp⟩
  requested i o h := ⟨_, told_requested h, stopped_flagOf calls o⟩
  ask i o h := ⟨_, _, told_ask h, possible_flagOf calls o, stopped_flagOf calls o⟩
  agree o o' h := by
    rw [← possible_flagOf, ← possible_flagOf, ← stopped_flagOf, ← stopped_flagOf, h.flagOf_eq]
    exact ⟨Iff.rfl, Iff.rfl⟩
  lasts more o h := h.append more
  apart i o q o' h h' hkin := told_snoc_request h h' hkin
  never t o ht hkin := by
    have hf : flagOf calls o = none := by
      rw [← hkin.flagOf_eq]
      simp [flagOf, ht, given, Step.copies]
    rw [← possible_flagOf, ← stopped_flagOf, hf]
    simp [possible, stopped]

/-- A stop requested of a copy is seen by a token of the dropped source it was copied from. -/
example : (run {} [.newSource, .takeToken 0, .cloneSource 0, .dropSource 0, .ask 0, .request 0,
      .request 0, .ask 0]).2 =
    [.index 0, .index 0, .index 1, .nothing, .status true false, .flag true, .flag false,
      .status true true] := by
  decide

end StopTable

end Handoff
