/-!
# Completions

Started work ends in exactly one of three ways: with a value, with an error, or done, which is how
cancelled work ends. `Completion.toResult` reads a completion as a result, done being a success
without a value, and `Completion.ofResult` goes the other way. A `Listener` is what takes a
completion in; it says which stop requests it forwards and who waits behind it, by default none.
-/

namespace Handoff

/-- The three ways in which started work ends. -/
inductive Completion (ν ε : Type) where
  | value (v : ν)
  | error (e : ε)
  | done
  deriving DecidableEq, Repr

/-- What takes a completion in, as a function into `σ`. -/
structure Listener (ν ε σ : Type) where
  onValue : ν → σ
  onError : ε → σ
  onDone : σ
  /-- Whether a stop request can reach the work that feeds this listener. -/
  stopPossible : Bool := false
  /-- Whether a stop was requested. -/
  stopRequested : Bool := false
  /-- The names of those that wait for this listener's own completion. -/
  waiting : List String := []

namespace Completion

variable {ν ν' ε ε' σ : Type}

/-- Whether the work was cancelled. -/
def isDone : Completion ν ε → Bool
  | done => true
  | value _ => false
  | error _ => false

/-- A completion as a result, with no value for done. -/
def toResult : Completion ν ε → Except ε (Option ν)
  | value v => .ok (some v)
  | error e => .error e
  | done => .ok none

/-- The completion that reports a result. -/
def ofResult : Except ε ν → Completion ν ε
  | .ok v => value v
  | .error e => error e

/-- Hand a completion to a listener, which is called once. -/
def deliver (l : Listener ν ε σ) : Completion ν ε → σ
  | value v => l.onValue v
  | error e => l.onError e
  | done => l.onDone

/-- Change the value of a completion. -/
def map (f : ν → ν') : Completion ν ε → Completion ν' ε
  | value v => value (f v)
  | error e => error e
  | done => done

/-- Change the error of a completion. -/
def mapError (f : ε → ε') : Completion ν ε → Completion ν ε'
  | value v => value v
  | error e => error (f e)
  | done => done

/-- The value a completion carries. -/
def value? : Completion ν ε → Option ν
  | value v => some v
  | error _ => none
  | done => none

/-- The written form of a completion, from those of values and errors. -/
def debug (showValue : ν → String) (showError : ε → String) : Completion ν ε → String
  | value v => "Value(" ++ showValue v ++ ")"
  | error e => "Error(" ++ showError e ++ ")"
  | done => "Done"

@[simp] theorem toResult_ofResult (r : Except ε ν) :
    (ofResult r).toResult = r.map some := by
  cases r <;> rfl

@[simp] theorem isDone_iff (c : Completion ν ε) : c.isDone = true ↔ c = done := by
  cases c <;> simp [isDone]

end Completion

end Handoff
