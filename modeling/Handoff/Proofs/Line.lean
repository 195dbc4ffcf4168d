import Handoff.Layer
import Mathlib.Data.List.Forall2
import Mathlib.Tactic.Common

/-!
# The line that an operation stands on

Every operation that stands at a site stems from a place in the sender that was connected there, and
so does its receiver: a handle into the binding operation next to it on the way out, in the part
that the sender plays there, or the final receiver. `Sender.Lies` gives the parts on the way to a
place in a sender, and `Layer.Line` says that operations stand on such a way. A line goes on to be
one while nothing on it changes hands, which is `Layer.Persists` of each operation on it.
-/

namespace Handoff

/-- A receiver is a final one of a site. -/
structure Receiver.Ends (s : Site) (r : Receiver) : Prop where
  isChild_eq : r.isChild = false
  site_eq : r.site = some s

/-! ### Places in a sender -/

/-- What the storage of a binding operation holds when a child in this role is there. -/
def Role.storage : Role → Storage
  | predecessor => .predecessor
  | successor => .successor

lemma Role.storage_injective {role role' : Role} (h : role.storage = role'.storage) :
    role = role' := by
  cases role <;> cases role' <;> first | rfl | cases h

/-- How the handle of a child in this role is listed. -/
def Role.handle : Role → String
  | predecessor => "PredecessorReceiver"
  | successor => "SuccessorReceiver"

namespace Sender

/-- The predecessor of a binding, or a successor that its factory may build. -/
inductive Part : Sender → Role → Sender → Prop where
  | predecessor (x : Sender) (f : Factory) (next : Env → Sender) :
      Part (.bind x f next) .predecessor x
  | successor (x : Sender) (f : Factory) (next : Env → Sender) (env : Env) :
      Part (.bind x f next) .successor (next env)

/-- A place in a sender, with the parts that it is in of the bindings around it, innermost first. -/
inductive Lies (x : Sender) : List Role → Sender → Prop where
  | here : Lies x [] x
  | either {path : List Role} {which : Arm} {y : Sender} (h : Lies x path (.either which y)) :
      Lies x path y
  | part {path : List Role} {role : Role} {y z : Sender} (h : Lies x path z)
      (hy : z.Part role y) : Lies x (role :: path) y

/-- What has become of the operation that was laid down when a sender was connected to a
receiver. -/
inductive Yields (r : Receiver) : Sender → Layer → Prop where
  | ready {c : Completion Value Failure} {k : Nat}
      {held : Option (Completion Value Failure × Receiver)}
      (hh : held = none ∨ held = some (c, r)) : Yields r (.ready c) (.ready k held)
  | leaf {l : Leaf} {k : Nat} {held : Option Receiver} (hh : held = none ∨ held = some r) :
      Yields r (.leaf l) (.leaf k l held)
  | exploding {label : String} {k : Nat} {held : Option Receiver}
      (hh : held = none ∨ held = some r) :
      Yields r (.exploding (some label)) (.leaf k { label, completion := .done } held)
  | script {x : Script} {k : Nat} {held : Option Receiver} (hh : held = none ∨ held = some r) :
      Yields r (.script x) (.script k x held)
  | either {which : Arm} {x : Sender} {k : Nat} : Yields r (.either which x) (.either k which)
  | bind {x : Sender} {f : Factory} {next : Env → Sender} {b : Binding}
      (hr : b.receiver = none ∨ b.receiver = some r)
      (hf : b.factory = none ∨ b.factory = some (f, next)) :
      Yields r (.bind x f next) (.bind b)

variable {x y z : Sender} {r r' : Receiver} {b : Binding}

/-- A binding operation that has its receiver still was given it when it was laid down. -/
lemma Yields.receiver_eq (h : z.Yields r (.bind b)) (hb : b.receiver = some r') : r' = r := by
  cases h with
  | bind hr hf =>
    rcases hr with hr | hr
    · simp [hr] at hb
    · rw [hr, Option.some.injEq] at hb
      exact hb.symm

/-- What a binding operation has its factory build is a successor of the binding that it stems
from. -/
lemma Yields.part {f : Factory} {next : Env → Sender} (h : z.Yields r (.bind b))
    (hb : b.factory = some (f, next)) (env : Env) : z.Part .successor (next env) := by
  cases h with
  | @bind x f' next' _ hr hf =>
    rcases hf with hf | hf
    · simp [hf] at hb
    · rw [hf, Option.some.injEq, Prod.mk.injEq] at hb
      obtain ⟨rfl, rfl⟩ := hb
      exact .successor x f' next' env

end Sender

/-! ### Operations in the course of time -/

/-- A leaf lets go of what it holds. -/
inductive Layer.Releases : Layer → Layer → Prop where
  | ready (k : Nat) (held : Completion Value Failure × Receiver) :
      Releases (.ready k (some held)) (.ready k none)
  | leaf (k : Nat) (l : Leaf) (r : Receiver) : Releases (.leaf k l (some r)) (.leaf k l none)
  | script (k : Nat) (x : Script) (r : Receiver) :
      Releases (.script k x (some r)) (.script k x none)

namespace Layer

open Sender (Yields Part Lies)

/-- What the storage of a binding operation holds. -/
def storage? : Layer → Option Storage
  | bind b => some b.storage
  | _ => none

/-- An operation lets go of what it holds, or it does not. -/
inductive Ensues : Layer → Layer → Prop where
  | refl (l : Layer) : Ensues l l
  | releases {l l' : Layer} (h : l.Releases l') : Ensues l l'
  | bind {b b' : Binding} (hserial : b'.serial = b.serial)
      (hr : b'.receiver = none ∨ b'.receiver = b.receiver)
      (hf : b'.factory = none ∨ b'.factory = b.factory) : Ensues (.bind b) (.bind b')

/-- What has become of an operation around which nothing changed hands. -/
structure Persists (l l' : Layer) : Prop where
  ensues : l.Ensues l'
  storage_eq : l'.storage? = l.storage?

/-- A binding operation that has its receiver and whose child is in place, or any other
operation. -/
def Rests : Layer → Prop
  | bind b => b.receiver ≠ none ∧
      ∃ role : Role, b.storage = role.storage ∧ b.cleanup = role.expects
  | _ => True

variable {x y y' z : Sender} {o r r' : Receiver} {role : Role} {path path' : List Role} {s : Site}
  {l l' : Layer} {b b' : Binding} {base base' pre post rest rest' : List Layer}

lemma Ensues.serial_eq (h : l.Ensues l') : l'.serial = l.serial := by
  cases h with
  | refl => rfl
  | releases h => cases h <;> rfl
  | bind hserial => exact hserial

lemma Ensues.yields (h : l.Ensues l') (hz : z.Yields r l) : z.Yields r l' := by
  cases h with
  | refl => exact hz
  | releases h =>
    cases h with
    | ready => cases hz with | ready => exact .ready (.inl rfl)
    | script => cases hz with | script => exact .script (.inl rfl)
    | leaf =>
      cases hz with
      | leaf => exact .leaf (.inl rfl)
      | exploding => exact .exploding (.inl rfl)
  | bind hserial hr hf =>
    cases hz with
    | bind hr₀ hf₀ =>
      refine .bind ?_ ?_
      · rcases hr with hr | hr
        · exact .inl hr
        · exact hr ▸ hr₀
      · rcases hf with hf | hf
        · exact .inl hf
        · exact hf ▸ hf₀

lemma Persists.refl (l : Layer) : l.Persists l := ⟨.refl l, rfl⟩

lemma Persists.bind (hserial : b'.serial = b.serial)
    (hr : b'.receiver = none ∨ b'.receiver = b.receiver)
    (hf : b'.factory = none ∨ b'.factory = b.factory) (hs : b'.storage = b.storage) :
    (Layer.bind b).Persists (.bind b') :=
  ⟨.bind hserial hr hf, congrArg some hs⟩

lemma Persists.exists_bind (h : (Layer.bind b).Persists l') :
    ∃ b', l' = .bind b' ∧ b'.storage = b.storage := by
  have hs := h.storage_eq
  cases l' with
  | bind b' => exact ⟨b', rfl, Option.some.inj hs⟩
  | _ => simp [storage?] at hs

lemma Releases.persists (h : l.Releases l') : l.Persists l' :=
  ⟨.releases h, by cases h <;> rfl⟩

/-- An operation that rests has its receiver and is in the state that its child expects. -/
lemma Rests.receiver_eq (hb : (Layer.bind b).Rests) (hy : z.Yields r (.bind b)) :
    b.receiver = some r := by
  obtain ⟨r', hr'⟩ := Option.ne_none_iff_exists'.1 hb.1
  rw [hr', hy.receiver_eq hr']

lemma Rests.cleanup_eq (hb : (Layer.bind b).Rests) (hs : b.storage = role.storage) :
    b.cleanup = role.expects := by
  obtain ⟨-, role', hs', hc⟩ := hb
  rw [hc, Role.storage_injective (hs.symm.trans hs')]

/-! ### Along a line -/

/-- Operations on the way to a place in the sender `x` that was connected to `o` at a site, from the
outside in. Next inside them stands what stems from the place, and it was connected to the receiver
given. -/
inductive Line (x : Sender) (o : Receiver) (s : Site) :
    List Layer → List Role → Sender → Receiver → Prop where
  | nil : Line x o s [] [] x o
  | either {base : List Layer} {path : List Role} {k : Nat} {which : Arm} {y : Sender}
      {r : Receiver} (h : Line x o s base path (.either which y) r) :
      Line x o s (base ++ [.either k which]) path y r
  | bind {base : List Layer} {path : List Role} {b : Binding} {role : Role} {y z : Sender}
      {r : Receiver} (h : Line x o s base path z r) (hb : z.Yields r (.bind b))
      (hs : b.storage = role.storage) (hy : z.Part role y) :
      Line x o s (base ++ [.bind b]) (role :: path) y (.child role s base.length)

lemma Line.lies (h : Line x o s base path y r) : x.Lies path y := by
  induction h with
  | nil => exact .here
  | either _ ih => exact .either ih
  | bind _ _ _ hy ih => exact .part ih hy

lemma Line.site_eq (h : Line x o s base path y r) (ho : o.Ends s) : r.site = some s := by
  induction h with
  | nil => exact ho.site_eq
  | either _ ih => exact ih
  | bind _ _ _ _ _ => rfl

/-- A way through a binding ends with a handle into the operation of the innermost one. -/
lemma Line.exists_outer (h : Line x o s base (role :: path) y r) :
    ∃ below b above z q, base = below ++ .bind b :: above ∧ r = .child role s below.length ∧
      Line x o s below path z q ∧ z.Yields q (.bind b) ∧ b.storage = role.storage := by
  generalize hp : role :: path = whole at h
  induction h with
  | nil => cases hp
  | @either base _ k which y r _ ih =>
    obtain ⟨below, b, above, z, q, rfl, rfl, hline, hz, hs⟩ := ih hp
    exact ⟨below, b, above ++ [.either k which], z, q, by simp, rfl, hline, hz, hs⟩
  | @bind base _ b _ y z q h hb hs hy _ =>
    obtain ⟨rfl, rfl⟩ := List.cons.inj hp
    exact ⟨base, b, [], z, q, rfl, rfl, h, hb, hs⟩

/-- A way through no binding ends with the final receiver. -/
lemma Line.eq_of_nil (h : Line x o s base [] y r) : r = o := by
  generalize hp : [] = path at h
  induction h with
  | nil => rfl
  | either _ ih => exact ih hp
  | bind => cases hp

lemma Line.eq_nil (h : Line x o s base path y o) (ho : o.isChild = false) : path = [] := by
  cases path with
  | nil => rfl
  | cons role path =>
    obtain ⟨_, _, _, _, _, -, rfl, -⟩ := h.exists_outer
    cases ho

/-- A line leads to the final receiver, or to a handle into an operation that it is on. -/
lemma Line.split (h : Line x o s base path y r) (hr : r ≠ o) :
    ∃ below b above role, base = below ++ .bind b :: above ∧
      r = .child role s below.length ∧ b.storage = role.storage := by
  cases path with
  | nil => exact absurd h.eq_of_nil hr
  | cons role path =>
    obtain ⟨below, b, above, _, _, hbase, hr, -, -, hs⟩ := h.exists_outer
    exact ⟨below, b, above, role, hbase, hr, hs⟩

/-- A line leads to each of the binding operations on it and on from there. -/
lemma Line.exists_part (h : Line x o s base path y r) (hb : base = pre ++ .bind b :: post) :
    ∃ path' role z q y', Line x o s pre path' z q ∧ z.Yields q (.bind b) ∧
      b.storage = role.storage ∧ z.Part role y' := by
  induction h generalizing post with
  | nil => simp at hb
  | @either base path k which y r _ ih =>
    obtain rfl | ⟨post, l, rfl⟩ := post.eq_nil_or_concat'
    · obtain ⟨-, hlast⟩ := List.append_inj' hb rfl
      simp at hlast
    · rw [← List.cons_append, ← List.append_assoc] at hb
      exact ih (List.append_inj_left' hb rfl)
  | @bind base path b' role y z r h hz hs hy ih =>
    obtain rfl | ⟨post, l, rfl⟩ := post.eq_nil_or_concat'
    · obtain ⟨rfl, hlast⟩ := List.append_inj' hb rfl
      obtain rfl : b' = b := by simpa using hlast
      exact ⟨path, role, z, r, y, h, hz, hs, hy⟩
    · rw [← List.cons_append, ← List.append_assoc] at hb
      exact ih (List.append_inj_left' hb rfl)

/-- The operations on a line tell the way and the receiver. -/
lemma Line.unique (h : Line x o s base path y r) (h' : Line x o s base path' y' r') :
    path' = path ∧ r' = r := by
  induction h generalizing path' y' r' with
  | nil =>
    generalize hb : [] = base' at h'
    cases h' with
    | nil => exact ⟨rfl, rfl⟩
    | either => simp at hb
    | bind => simp at hb
  | @either base path k which y r _ ih =>
    generalize hb : base ++ [.either k which] = base' at h'
    cases h' with
    | nil => simp at hb
    | either h' =>
      obtain ⟨rfl, -⟩ := List.append_inj' hb rfl
      exact ih h'
    | bind => simp at hb
  | @bind base path b role y z r _ _ hs _ ih =>
    generalize hb : base ++ [.bind b] = base' at h'
    cases h' with
    | nil => simp at hb
    | either => simp at hb
    | bind h' _ hs' _ =>
      obtain ⟨rfl, heq⟩ := List.append_inj' hb rfl
      obtain rfl : b = _ := by simpa using heq
      obtain rfl := Role.storage_injective (hs'.symm.trans hs)
      obtain ⟨rfl, -⟩ := ih h'
      exact ⟨rfl, rfl⟩

/-- A receiver tells the way, among the operations of one site. -/
lemma Line.path_eq (h : Line x o s base path y r) (h' : Line x o s base' path' y' r)
    (ho : o.isChild = false) (heq : base ++ rest = base' ++ rest') : path' = path := by
  cases path with
  | nil =>
    obtain rfl := h.eq_of_nil
    exact h'.eq_nil ho
  | cons role path =>
    obtain ⟨below, b, above, z, q, rfl, rfl, hline, -, hs⟩ := h.exists_outer
    cases path' with
    | nil =>
      rw [← h'.eq_of_nil] at ho
      cases ho
    | cons role' path' =>
      obtain ⟨below', b', above', z', q', rfl, hr, hline', -, hs'⟩ := h'.exists_outer
      obtain ⟨rfl, -, hlen⟩ := Receiver.child.inj hr
      simp only [List.append_assoc, List.cons_append] at heq
      obtain ⟨rfl, -⟩ := List.append_inj heq hlen
      obtain ⟨rfl, -⟩ := hline.unique hline'
      rfl

lemma exists_of_forall₂_concat {α : Type} {R : α → α → Prop} {xs ys : List α} {x : α}
    (h : List.Forall₂ R (xs ++ [x]) ys) :
    ∃ ys' y, ys = ys' ++ [y] ∧ List.Forall₂ R xs ys' ∧ R x y := by
  induction xs generalizing ys with
  | nil =>
    cases h with
    | cons hx hnil =>
      cases hnil
      exact ⟨[], _, rfl, .nil, hx⟩
  | cons z xs ih =>
    cases h with
    | cons hz hrest =>
      obtain ⟨ys', y, rfl, hxs, hx⟩ := ih hrest
      exact ⟨_ :: ys', y, rfl, .cons hz hxs, hx⟩

/-- A line goes on to be one while nothing on it changes hands. -/
lemma Line.persists (h : Line x o s base path y r) (hb : List.Forall₂ Persists base base') :
    Line x o s base' path y r := by
  induction h generalizing base' with
  | nil =>
    cases hb
    exact .nil
  | either _ ih =>
    obtain ⟨base', l', rfl, hbase, hl⟩ := exists_of_forall₂_concat hb
    cases hl.ensues with
    | refl => exact .either (ih hbase)
    | releases h => cases h
  | bind _ hz hs hy ih =>
    obtain ⟨base', l', rfl, hbase, hl⟩ := exists_of_forall₂_concat hb
    obtain ⟨b', rfl, hs'⟩ := hl.exists_bind
    rw [hbase.length_eq]
    exact .bind (ih hbase) (hl.ensues.yields hz) (hs'.trans hs) hy

end Layer

end Handoff
