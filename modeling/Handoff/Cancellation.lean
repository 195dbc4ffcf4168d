import Handoff.Text.Written

/-!
# Stop sources and tokens

A stop source owns a flag that starts out clear and can be set once; a token reads the flag of the
source it came from, or is one that can never stop. Copies share the flag. A `StopTable` is a
numbered list of sources and one of tokens over a shared store of flags, and `StopTable.step` is
what each call on them answers. Dropping a source renumbers the later ones and leaves the flags
alone, since tokens may still read them.
-/

namespace Handoff

/-- A token, as the flag it reads; `none` is the token that can never stop. -/
abbrev StopToken := Option Nat

/-- Numbered sources and tokens over a store of flags. -/
structure StopTable where
  /-- The flags handed out so far. -/
  flags : List Bool := []
  /-- The flag of each source. -/
  sources : List Nat := []
  /-- The flag of each token. -/
  tokens : List StopToken := []
  deriving Repr

namespace StopTable

/-- A call on a source or token, which is named by its number. -/
inductive Step where
  | newSource
  | cloneSource (i : Nat)
  | takeToken (i : Nat)
  | newToken
  | cloneToken (i : Nat)
  | request (i : Nat)
  | requested (i : Nat)
  | ask (i : Nat)
  | showSource (i : Nat)
  | showToken (i : Nat)
  | dropSource (i : Nat)
  deriving Repr

/-- What a call answers. -/
inductive Answer where
  /-- The number of a source or token just made. -/
  | index (n : Nat)
  | flag (b : Bool)
  /-- Whether a token can stop, and whether a stop was requested. -/
  | status (possible requested : Bool)
  | text (s : String)
  | nothing
  /-- There is no source or token of that number. -/
  | absent
  deriving DecidableEq, Repr

/-- Whether a flag is set. -/
def isSet (b : StopTable) (f : Nat) : Bool := b.flags.getD f false

/-- Whether a token can ever report a stop. -/
def possible (t : StopToken) : Bool := t.isSome

/-- Whether a stop was requested of the source that a token came from. -/
def stopped (b : StopTable) (t : StopToken) : Bool := t.elim false b.isSet

/-- Add a source, which gets the next number. -/
def addSource (b : StopTable) (f : Nat) : StopTable × Answer :=
  ({ b with sources := b.sources ++ [f] }, .index b.sources.length)

/-- Add a token, which gets the next number. -/
def addToken (b : StopTable) (t : StopToken) : StopTable × Answer :=
  ({ b with tokens := b.tokens ++ [t] }, .index b.tokens.length)

/-- Run a call on the source or token found at its number, if there is one. -/
def onFound {α : Type} (b : StopTable) (x : Option α) (f : α → StopTable × Answer) :
    StopTable × Answer :=
  match x with
  | some a => f a
  | none => (b, .absent)

/-- What one call does and answers. -/
def step (b : StopTable) : Step → StopTable × Answer
  | .newSource => { b with flags := b.flags ++ [false] }.addSource b.flags.length
  | .cloneSource i => b.onFound b.sources[i]? b.addSource
  | .takeToken i => b.onFound b.sources[i]? fun f => b.addToken (some f)
  | .newToken => b.addToken none
  | .cloneToken i => b.onFound b.tokens[i]? b.addToken
  | .request i => b.onFound b.sources[i]? fun f =>
    ({ b with flags := b.flags.set f true }, .flag !b.isSet f)
  | .requested i => b.onFound b.sources[i]? fun f => (b, .flag (b.isSet f))
  | .ask i => b.onFound b.tokens[i]? fun t => (b, .status (possible t) (b.stopped t))
  | .showSource i => b.onFound b.sources[i]? fun f =>
    (b, .text ("StopSource \x7b flag: " ++ Text.truth (b.isSet f) ++ " \x7d"))
  | .showToken i => b.onFound b.tokens[i]? fun t =>
    let flag := match t with
      | some f => "Some(" ++ Text.truth (b.isSet f) ++ ")"
      | none => "None"
    (b, .text ("StopToken \x7b flag: " ++ flag ++ " \x7d"))
  | .dropSource i => b.onFound b.sources[i]? fun _ =>
    ({ b with sources := b.sources.eraseIdx i }, .nothing)

/-- The answers of a sequence of calls, and what is left after them. -/
def run (b : StopTable) : List Step → StopTable × List Answer
  | [] => (b, [])
  | s :: rest =>
    let (b', a) := b.step s
    let (b'', as) := b'.run rest
    (b'', a :: as)

@[simp] theorem run_nil (b : StopTable) : b.run [] = (b, []) := rfl

theorem run_cons (b : StopTable) (s : Step) (rest : List Step) :
    b.run (s :: rest) = (((b.step s).1.run rest).1, (b.step s).2 :: ((b.step s).1.run rest).2) :=
  rfl

end StopTable

end Handoff
