import Handoff.Layer

/-!
# Places

A table of the sites that exist, with what each holds. A site is added when something is first put
there and stays. The main statements say what `get?` finds after an `insert`.
-/

namespace Handoff

/-- What a site holds. -/
structure Place where
  /-- The operations, outermost first. -/
  layers : List Layer := []
  /-- How many operations were built here so far. -/
  count : Nat := 0

/-- The sites that exist, with what they hold. -/
structure Places where
  entries : List (Site × Place) := []

namespace Places

/-- The place of a site in a list of entries. -/
def find (s : Site) : List (Site × Place) → Option Place
  | [] => none
  | e :: rest => if e.1 = s then some e.2 else find s rest

/-- Replace the entry of a site, or add one at the end. -/
def replace (s : Site) (p : Place) : List (Site × Place) → List (Site × Place)
  | [] => [(s, p)]
  | e :: rest => if e.1 = s then (s, p) :: rest else e :: replace s p rest

/-- What a site holds, if it exists. -/
def get? (t : Places) (s : Site) : Option Place := find s t.entries

/-- Put a place at a site. -/
def insert (t : Places) (s : Site) (p : Place) : Places := ⟨replace s p t.entries⟩

/-- Insert a key into an increasing list. -/
def insertKey (k : Int) : List Int → List Int
  | [] => [k]
  | x :: rest => if k ≤ x then k :: x :: rest else x :: insertKey k rest

/-- The keys of the numbered places, in increasing order. -/
def keys (t : Places) : List Int :=
  (t.entries.filterMap fun e => e.1.key?).foldr insertKey []

variable {s s' : Site} {p : Place}

@[simp] theorem find_replace_self (es : List (Site × Place)) :
    find s (replace s p es) = some p := by
  induction es with
  | nil => simp [replace, find]
  | cons e rest ih => by_cases h : e.1 = s <;> simp [replace, find, h, ih]

theorem find_replace_of_ne (h : s' ≠ s) (es : List (Site × Place)) :
    find s' (replace s p es) = find s' es := by
  induction es with
  | nil => simp [replace, find, h.symm]
  | cons e rest ih =>
    by_cases he : e.1 = s
    · subst he
      simp [replace, find, h.symm]
    · simp [replace, find, he, ih]

@[simp] theorem get?_empty : ({} : Places).get? s = none := rfl

@[simp] theorem get?_insert_self (t : Places) : (t.insert s p).get? s = some p :=
  find_replace_self t.entries

theorem get?_insert_of_ne (h : s' ≠ s) (t : Places) : (t.insert s p).get? s' = t.get? s' :=
  find_replace_of_ne h t.entries

end Places

end Handoff
