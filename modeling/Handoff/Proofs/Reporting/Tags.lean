import Handoff.Receiver
import Mathlib.Data.List.Basic
import Mathlib.Tactic.Common

/-!
# Errors under tags

An error gets a tag from each binding operation that it passes, the innermost first, so that the
tags spell the way from the outside in. `Failure.under` is an error with the tags of a way, and
`Failure.spells_under` says how it reads: its text is that of the error alone, the list of its
causes repeats this text once for each tag, and only what is not tagged tells whether a payload was
caught.
-/

namespace Handoff

namespace Failure

/-- An error under the tag that it gets from a child in this role. -/
def tag (e : Failure) : Role → Failure
  | .predecessor => predecessor e
  | .successor => successor e

/-- An error under the tags of a way, the innermost first. -/
def under (path : List Role) (e : Failure) : Failure := path.foldl tag e

/-- The tags of an error, from the outside in. -/
def tags : Failure → List Role
  | leaf _ => []
  | predecessor e => .predecessor :: e.tags
  | successor e => .successor :: e.tags
  | panicked _ => []

/-- What an error is without its tags. -/
def untagged : Failure → Failure
  | leaf e => leaf e
  | predecessor e => e.untagged
  | successor e => e.untagged
  | panicked p => panicked p

/-! ### One tag -/

section Tag

variable (e : Failure) (role : Role)

@[simp] lemma tags_tag : (e.tag role).tags = role :: e.tags := by
  cases role <;> rfl

@[simp] lemma untagged_tag : (e.tag role).untagged = e.untagged := by
  cases role <;> rfl

@[simp] lemma display_tag : (e.tag role).display = e.display := by
  cases role <;> rfl

@[simp] lemma causes_tag : (e.tag role).causes = e.display :: e.causes := by
  cases role <;> rfl

@[simp] lemma isPanic_tag : (e.tag role).isPanic = some false := by
  cases role <;> rfl

end Tag

/-! ### The tags of a way -/

@[simp] lemma under_nil (e : Failure) : e.under [] = e := rfl

@[simp] lemma under_cons (role : Role) (path : List Role) (e : Failure) :
    e.under (role :: path) = (e.tag role).under path := rfl

@[simp] lemma under_concat (path : List Role) (role : Role) (e : Failure) :
    e.under (path ++ [role]) = (e.under path).tag role := by
  simp [under]

variable {path : List Role} {e : Failure}

@[simp] lemma tags_under : (e.under path).tags = path.reverse ++ e.tags := by
  induction path generalizing e with
  | nil => rfl
  | cons role path ih => simp [ih]

@[simp] lemma untagged_under : (e.under path).untagged = e.untagged := by
  induction path generalizing e with
  | nil => rfl
  | cons role path ih => simp [ih]

@[simp] lemma display_under : (e.under path).display = e.display := by
  induction path generalizing e with
  | nil => rfl
  | cons role path ih => simp [ih]

@[simp] lemma causes_under :
    (e.under path).causes = List.replicate path.length e.display ++ e.causes := by
  induction path generalizing e with
  | nil => rfl
  | cons role path ih =>
    rw [under_cons, ih, display_tag, causes_tag, List.length_cons, List.replicate_succ',
      List.append_assoc, List.singleton_append]

lemma isPanic_under (hpath : path ≠ []) : (e.under path).isPanic = some false := by
  obtain ⟨path, role, rfl⟩ := path.eq_nil_or_concat'.resolve_left hpath
  simp

/-! ### How errors read -/

/-- An error is another one under the tags of a way, and reads like that. -/
structure Reads (path : List Role) (e f : Failure) : Prop where
  eq_under : f = e.under path
  tags_eq : f.tags = path.reverse ++ e.tags
  untagged_eq : f.untagged = e.untagged
  display_eq : f.display = e.display
  causes_eq : f.causes = List.replicate path.length e.display ++ e.causes
  isPanic_eq : f.isPanic = if path = [] then e.isPanic else some false

/-- An error reads like a text under the tags of a way: its causes repeat the text, once for each
tag. -/
structure ReadsText (path : List Role) (t : String) (f : Failure) : Prop where
  tags_eq : f.tags = path.reverse
  display_eq : f.display = t
  causes_eq : f.causes = List.replicate path.length t
  isPanic_ne : f.isPanic ≠ some true

/-- An error reads like a caught payload under the tags of a way: what was caught shows, with its
message if it has one, and whether it was the outermost operation that caught it. -/
structure ReadsCaught (path : List Role) (p : Payload) (f : Failure) : Prop where
  tags_eq : f.tags = path.reverse
  display_eq : f.display =
    "failed to build the successor: panicked" ++ p.message.elim "" (": " ++ ·)
  causes_eq : f.causes = List.replicate path.length f.display ++ [p.display]
  display_payload : p.display = "panicked" ++ p.message.elim "" (": " ++ ·)
  isPanic_iff : f.isPanic = some true ↔ path = []

/-- An error is another one under the tags of a way, and reads like that, be it the text of a leaf
or a caught payload. -/
structure Spells (path : List Role) (e f : Failure) : Prop where
  reads : Reads path e f
  of_leaf {t : String} (he : e = leaf t) : ReadsText path t f
  of_panicked {p : Payload} (he : e = panicked p) : ReadsCaught path p f

/-- What stands under the tags of a way reads like that without them. -/
theorem reads_under (path : List Role) (e : Failure) : Reads path e (e.under path) where
  eq_under := rfl
  tags_eq := tags_under
  untagged_eq := untagged_under
  display_eq := display_under
  causes_eq := causes_under
  isPanic_eq := by
    split_ifs with hpath
    · rw [hpath, under_nil]
    · exact isPanic_under hpath

lemma readsText_under (path : List Role) (t : String) : ReadsText path t ((leaf t).under path) where
  tags_eq := by simp [tags]
  display_eq := display_under
  causes_eq := causes_under.trans (List.append_nil _)
  isPanic_ne := by
    rw [(reads_under path (leaf t)).isPanic_eq]
    split_ifs <;> simp [isPanic]

end Failure

lemma Payload.display_eq (p : Payload) :
    p.display = "panicked" ++ p.message.elim "" (": " ++ ·) := by
  cases p with
  | text s =>
    have hliteral : "panicked" ++ ": " = "panicked: " := by simp
    simp only [display, message, Option.elim, ← String.append_assoc, hliteral]
  | number n => rfl

namespace Failure

lemma display_panicked (p : Payload) : (panicked p).display =
    "failed to build the successor: panicked" ++ p.message.elim "" (": " ++ ·) := by
  have hliteral (m : String) : "failed to build the successor: " ++ ("panicked" ++ m) =
      "failed to build the successor: panicked" ++ m := by
    rw [← String.append_assoc]
    simp only [String.reduceAppend]
  calc (panicked p).display = "failed to build the successor: " ++ p.display := rfl
    _ = "failed to build the successor: " ++ ("panicked" ++ p.message.elim "" (": " ++ ·)) := by
      rw [p.display_eq]
    _ = _ := hliteral _

lemma readsCaught_under (path : List Role) (p : Payload) :
    ReadsCaught path p ((panicked p).under path) where
  tags_eq := by simp [tags]
  display_eq := by rw [display_under, display_panicked]
  causes_eq := by simp [causes]
  display_payload := p.display_eq
  isPanic_iff := by
    rw [(reads_under path (panicked p)).isPanic_eq]
    split_ifs with hpath <;> simp [hpath, isPanic]

/-- Errors stay readable under the tags of a way, however long it is. -/
theorem spells_under (path : List Role) (e : Failure) : Spells path e (e.under path) where
  reads := reads_under path e
  of_leaf he := he ▸ readsText_under path _
  of_panicked he := he ▸ readsCaught_under path _

end Failure

end Handoff
