import Handoff.Places

/-!
# The world of a run

A run takes place among places, stop sources, a queue of tasks and a blocked caller, if there is
one. `World` holds them together with the record of all that has happened. Sites are addressed by a
height: the slot at height `h` is vacant if the site holds no layer there, and dropping what it
holds removes all layers from there on.
-/

namespace Handoff

/-- One course of a script: what it is called, where its operation stands, and the receiver that
it has left to complete. -/
structure Run where
  id : Nat
  label : String
  site : Site
  height : Nat
  /-- The serial number of the script's operation. -/
  serial : Nat
  /-- The binding operation that the script is a child of, by its height. -/
  owner : Option (Role × Nat)
  receiver : Option Receiver

/-- The height up to which stored numbers are in the scope of a run. -/
def Run.reach (r : Run) : Nat :=
  match r.owner with
  | none => 0
  | some (.predecessor, h) => h
  | some (.successor, h) => h + 1

/-- A task that schedules other tasks and may then raise a payload. -/
inductive Job where
  | mk (label : String) (spawned : List Job) (raised : Option Payload)

/-- Something that waits in the queue. -/
inductive Task where
  /-- A completion that a leaf has put off. -/
  | complete (c : Completion Value Failure) (r : Receiver)
  /-- Instructions that a script has put off. -/
  | resume (r : Run) (steps : List Instr)
  | job (j : Job)

/-- What a task drops if it never runs. -/
def Task.drop : Task → List Act
  | complete c r => dropCarried c ++ r.drop
  | resume r _ => dropHeld r.receiver
  | job _ => []

/-- The site a task belongs to, if any. -/
def Task.site? : Task → Option Site
  | complete _ r => r.site
  | resume r _ => some r.site
  | job _ => none

/-- The call of a blocked caller. -/
structure Wait where
  id : Nat
  /-- The completion that the caller was given. -/
  given : Option (Completion Value Failure) := none
  deriving DecidableEq

/-- Everything that a run works on. -/
structure World where
  places : Places := {}
  queue : List Task := []
  /-- The stop sources of which a stop was requested. -/
  requested : List Int := []
  /-- All that has happened, in order. -/
  events : List Event := []
  /-- The blocked caller, if there is one. -/
  waiter : Option Wait := none
  /-- How many callers have been blocked so far. -/
  waits : Nat := 0
  /-- How many runs of scripts there have been so far. -/
  runs : Nat := 0
  /-- The completions given to the recorder, in order. -/
  recorded : List (Completion Int64 Failure) := []

namespace World

/-! ### Sites -/

/-- What a site holds; one that does not exist holds nothing. -/
def place (w : World) (s : Site) : Place := (w.places.get? s).getD {}

/-- The operations of a site, outermost first. -/
def layers (w : World) (s : Site) : List Layer := (w.place s).layers

/-- Put a place at a site. -/
def put (w : World) (s : Site) (p : Place) : World := { w with places := w.places.insert s p }

/-- Change the operations of a site. -/
def setLayers (w : World) (s : Site) (ls : List Layer) : World :=
  w.put s { w.place s with layers := ls }

/-- Change the operation at a height of a site, if there is one. -/
def setLayer (w : World) (s : Site) (h : Nat) (l : Layer) : World :=
  w.setLayers s ((w.layers s).set h l)

/-- Change the binding operation at a height of a site. -/
def setBinding (w : World) (s : Site) (h : Nat) (b : Binding) : World := w.setLayer s h (.bind b)

/-- The binding operation at a height of a site. -/
def binding? (w : World) (s : Site) (h : Nat) : Option Binding :=
  match (w.layers s)[h]? with
  | some (.bind b) => some b
  | _ => none

/-- Whether the slot at a height of a site is vacant. -/
def isVacant (w : World) (s : Site) (h : Nat) : Bool := (w.layers s).length ≤ h

/-- The stored numbers that an operation at a height of a site may refer to, innermost first. -/
def scope (w : World) (s : Site) (h : Nat) : Env := Layer.scope ((w.layers s).take h)

/-- Write the stored numbers that belong to a height of a site, innermost first. -/
def setScope (w : World) (s : Site) (h : Nat) (env : Env) : World :=
  let ls := w.layers s
  w.setLayers s (Layer.writeBack env.reverse (ls.take h) ++ ls.drop h)

/-! ### The record -/

/-- Record what happens at a site, or at none in particular. -/
def record (w : World) (s : Option Site) (acts : List Act) : World :=
  { w with events := w.events ++ acts.map (Event.mk s) }

/-- Record what happens at a site. -/
def note (w : World) (s : Site) (acts : List Act) : World := w.record (some s) acts

/-! ### Building and dropping -/

/-- The number that the next operation of a site gets. -/
def nextSerial (w : World) (s : Site) : Nat := (w.place s).count

/-- Build an operation at a height of a site, and say whether the slot there took it. An occupied
slot refuses it: the operation is dropped while the refusal is on its way out. -/
def fill (w : World) (s : Site) (h : Nat) (make : Nat → Layer) : World × Bool :=
  let p := w.place s
  let l := make p.count
  if w.isVacant s h then
    ((w.put s ⟨p.layers ++ [l], p.count + 1⟩).note s [.opened p.count h], true)
  else (w.note s (l.drop true (w.scope s h) {}).acts, false)

/-- Drop what the slot at a height of a site holds, and say what that raised. -/
def dropAbove (w : World) (s : Site) (h : Nat) (unwinding : Bool) : World × Option Payload :=
  let ls := w.layers s
  let d := Layer.dropAll unwinding (w.scope s h) (ls.drop h)
  ((w.setLayers s (ls.take h)).note s d.acts, d.raised)

/-! ### Receivers -/

/-- The receivers that a completion goes through, from a receiver outwards. -/
def trail (w : World) (r : Receiver) : List Receiver :=
  let ls := r.site.elim [] w.layers
  Layer.trail ls ls.length r

/-- The source that stop requests for a receiver come from, if they can come at all. -/
def stopOf (w : World) (r : Receiver) : Option Int :=
  (w.trail r).getLast?.bind Receiver.ownStop

/-- Whether a stop was requested of a source. -/
def isRequested (w : World) (k : Int) : Bool := w.requested.contains k

/-- Whether a stop was requested that reaches a receiver. -/
def isStopped (w : World) (r : Receiver) : Bool := (w.stopOf r).elim false w.isRequested

/-- The names of the receivers that a completion goes through, from a receiver outwards. -/
def namesFrom (w : World) (r : Receiver) : List String := (w.trail r).flatMap Receiver.ownNames

/-- Terms of which each holds the next. -/
def nest : List String → String
  | [] => ""
  | [t] => t
  | t :: rest => t ++ "(" ++ nest rest ++ ")"

/-- The receivers that a completion goes through, as a term. -/
def termFrom (w : World) (r : Receiver) : String := nest ((w.trail r).map Receiver.ownTerm)

/-! ### Runs of scripts -/

/-- Whether the operation that a run belongs to is still there. -/
def isAlive (w : World) (r : Run) : Bool :=
  (w.layers r.site)[r.height]?.any fun l => l.serial = r.serial

/-- Whether a run may still use its receiver. A child's handle is good as long as the binding
operation exists, which its own operation or a value it has delivered bears out. -/
def isUsable (w : World) (r : Run) : Bool :=
  match r.owner with
  | none => true
  | some (.successor, _) => w.isAlive r
  | some (.predecessor, h) => w.isAlive r || (w.binding? r.site h).any (·.keepsValueOf r.id)

/-- The stored numbers that a run may refer to. -/
def scopeOf (w : World) (r : Run) : Env := w.scope r.site r.reach

/-! ### Stop requests and the queue -/

/-- Request a stop of a source, and say whether this was the first request. -/
def request (w : World) (k : Int) : World × Bool :=
  if w.isRequested k then (w, false) else ({ w with requested := k :: w.requested }, true)

/-- Put a task at the end of the queue. -/
def schedule (w : World) (t : Task) : World := { w with queue := w.queue ++ [t] }

/-- The completion that the blocked caller was given. -/
def given (w : World) : Option (Completion Value Failure) := w.waiter.bind Wait.given

/-- The blocked caller goes on. -/
def leave (w : World) : World := { w with waiter := none }

/-! ### What the operations change -/

variable {w : World} {s s' : Site} {ls : List Layer} {acts : List Act}

@[simp] theorem place_put_self (p : Place) : (w.put s p).place s = p := by
  simp [place, put]

@[simp] theorem place_record (o : Option Site) : (w.record o acts).place s = w.place s := rfl

@[simp] theorem place_note : (w.note s' acts).place s = w.place s := rfl

@[simp] theorem layers_put_self (p : Place) : (w.put s p).layers s = p.layers := by
  simp [layers, place, put]

theorem layers_put_of_ne (p : Place) (h : s' ≠ s) : (w.put s p).layers s' = w.layers s' := by
  simp [layers, place, put, Places.get?_insert_of_ne h]

@[simp] theorem layers_setLayers_self : (w.setLayers s ls).layers s = ls := by
  simp [setLayers]

theorem layers_setLayers_of_ne (h : s' ≠ s) : (w.setLayers s ls).layers s' = w.layers s' :=
  layers_put_of_ne _ h

@[simp] theorem layers_record (o : Option Site) : (w.record o acts).layers s = w.layers s := rfl

@[simp] theorem layers_note : (w.note s' acts).layers s = w.layers s := rfl

@[simp] theorem events_setLayers : (w.setLayers s ls).events = w.events := rfl

@[simp] theorem events_note :
    (w.note s acts).events = w.events ++ acts.map (Event.mk (some s)) := rfl

@[simp] theorem queue_setLayers : (w.setLayers s ls).queue = w.queue := rfl

@[simp] theorem queue_note : (w.note s acts).queue = w.queue := rfl

@[simp] theorem queue_schedule (t : Task) : (w.schedule t).queue = w.queue ++ [t] := rfl

@[simp] theorem layers_schedule (t : Task) : (w.schedule t).layers s = w.layers s := rfl

@[simp] theorem isRequested_request (k : Int) : (w.request k).1.isRequested k = true := by
  unfold request
  split
  · assumption
  · simp [isRequested]

/-- A vacant slot takes the operation. -/
theorem fill_of_isVacant {h : Nat} (hv : w.isVacant s h = true) (make : Nat → Layer) :
    w.fill s h make =
      ((w.put s ⟨w.layers s ++ [make (w.nextSerial s)], w.nextSerial s + 1⟩).note s
        [.opened (w.nextSerial s) h], true) := by
  simp [fill, hv, layers, nextSerial]

/-- An occupied slot keeps what it holds. -/
theorem fill_of_not_isVacant {h : Nat} (hv : w.isVacant s h = false) (make : Nat → Layer) :
    w.fill s h make =
      (w.note s ((make (w.nextSerial s)).drop true (w.scope s h) {}).acts, false) := by
  simp [fill, hv, nextSerial]

theorem layers_dropAbove (h : Nat) (unwinding : Bool) :
    (w.dropAbove s h unwinding).1.layers s = (w.layers s).take h := by
  simp [dropAbove]

end World

end Handoff
