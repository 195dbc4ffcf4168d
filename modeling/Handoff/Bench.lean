import Handoff.Chain
import Handoff.Program

/-!
# A bench for chains

On a bench one chain is connected in one place to one recorder, next to a queue of tasks and a stop
source. `Bench.step` carries out one move of the operator, and `Bench.run` a list of them.
-/

namespace Handoff

/-- A leaf that can be put on a bench. -/
inductive Bench.Leaf where
  | journalled (l : Chain.Leaf)
  | exploding (built : Option String)
  deriving DecidableEq, Repr

/-- The successor that a bench's factory builds. -/
inductive Bench.Successor where
  | leaf (l : Bench.Leaf)
  /-- An inline value, one more than the stored number. -/
  | increment
  /-- The left one for a negative stored number, else the right one. -/
  | bySign (l r : Bench.Leaf)
  deriving DecidableEq, Repr

/-- What stands on a bench. -/
structure Bench where
  predecessor : Bench.Leaf
  successor : Option Bench.Successor
  /-- What the factory raises, if anything. -/
  raises : Option Payload
  /-- Whether the recorder forwards stop requests. -/
  stoppable : Bool
  deriving DecidableEq, Repr

namespace Bench

/-- A leaf as a chain. -/
def Leaf.chain : Leaf → Chain
  | .journalled l => .leaf l
  | .exploding built => .exploding built

/-- A leaf whose value is a bare number, with another one added. -/
def Leaf.adding (n : Int64) : Leaf → Leaf
  | .journalled l =>
    .journalled { l with tracked := none, completion := l.completion.map (· + n) }
  | .exploding built => .exploding built

/-- The chain that the factory builds from the stored number. -/
def Successor.chain (n : Int64) : Successor → Chain
  | .leaf l => (l.adding n).chain
  | .increment => .ready (.value (n + 1))
  | .bySign l r =>
    if n < 0 then .either .left (l.adding n).chain .unspecified
    else .either .right (r.adding n).chain .unspecified

/-- What any successor of this kind promises. -/
def Successor.signature : Successor → Signature
  | .leaf _ => .unspecified
  | .increment => .ready
  | .bySign _ _ => Signature.unspecified.either .unspecified

/-- The chain that stands on a bench: a leaf alone has a bare number for its value. -/
def chain (b : Bench) : Chain :=
  match b.successor with
  | none => (b.predecessor.adding 0).chain
  | some s => .bind b.predecessor.chain (fun _ => b.raises) (fun n => s.chain n) s.signature

/-- A move of the operator. -/
inductive Move where
  | connect
  | start
  | clear
  | drain
  | schedule
  | request
  | isEmpty
  | events
  | take
  | blocking
  | site
  deriving DecidableEq, Repr

/-- What a move answers. -/
inductive Answer where
  | nothing
  | flag (b : Bool)
  | blocking (b : Blocking)
  | completion (c : Completion Int64 Failure)
  | completions (cs : List (Completion Int64 Failure))
  /-- The move was not carried out. -/
  | skipped
  deriving DecidableEq, Repr

/-- What is reported of one move. -/
structure Report where
  result : Except Payload Answer
  journal : List Entry
  vacant : Bool

/-- A bench at work. -/
structure State where
  world : World
  /-- Whether the place was cleared by a move. -/
  cleared : Bool := false

/-- The one place of a bench. -/
def here : Site := .place 0

/-- A bench before the first move. -/
def initial : State := { world := ({} : World).setLayers here [] }

/-- A task that journals and puts another one into the queue. -/
def nestedJob : Job := .mk "task" [.mk "task of the task" [] none] none

/-- The recorder's answer when it does not hold exactly one completion. -/
def notOne (count : Nat) : Payload :=
  .text (assertionFailed "expected exactly one completion" (Text.count count) "1")

/-- Make a call on the world of a bench. -/
def makeCall (moves : Nat) (s : State) (c : Call) : State × Except Payload Answer :=
  let (w, outcome) := s.world.call moves c
  ({ s with world := w }, match outcome with
    | .raised p => .error p
    | .answered (.flag b) => .ok (.flag b)
    | _ => .ok .nothing)

/-- Build the sender of a bench only to ask it something, and drop it again. -/
def inspect (b : Bench) (s : State) (a : Answer) : State × Except Payload Answer :=
  ({ s with world := s.world.note here b.chain.sender.drop }, .ok a)

/-- Carry out a move. -/
def step (b : Bench) (moves : Nat) (s : State) : Move → State × Except Payload Answer
  | .connect =>
    let r := Receiver.recorder here (if b.stoppable then some 0 else none)
    makeCall moves s (.connect 0 b.chain.sender r)
  | .start => makeCall moves s (.start 0)
  | .clear =>
    let (s', r) := makeCall moves s (.clear 0)
    ({ s' with cleared := true }, r)
  | .drain => if s.cleared then (s, .ok .skipped) else makeCall moves s .drain
  | .schedule => makeCall moves s (.schedule nestedJob)
  | .request => makeCall moves s (.request 0)
  | .isEmpty => (s, .ok (.flag s.world.recorded.isEmpty))
  | .events =>
    if b.chain.isBind then (s, .ok .nothing) else (s, .ok (.completions s.world.recorded))
  | .take =>
    match s.world.recorded with
    | [c] => ({ s with world := { s.world with recorded := [] } }, .ok (.completion c))
    | cs => (s, .error (notOne cs.length))
  | .blocking => b.inspect s (.blocking b.chain.query)
  | .site => b.inspect s (.flag b.chain.isBind)

/-- Carry out a list of moves and report each. -/
def runFrom (b : Bench) (moves : Nat) (s : State) : List Move → List Report
  | [] => []
  | m :: rest =>
    let (s', result) := b.step moves s m
    let journal := Program.journalSince false s.world s'.world
    { result, journal, vacant := s'.world.isVacant here 0 } :: b.runFrom moves s' rest

/-- Carry out a list of moves on a fresh bench, clear its place, and report each. -/
def run (b : Bench) (ms : List Move) : List Report :=
  b.runFrom (64 * (ms.length + 4)) initial (ms ++ [.clear])

end Bench

end Handoff
