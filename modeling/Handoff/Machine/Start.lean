import Handoff.Machine.Config

/-!
# Starting

Starting an alternative or a binding operation starts what it holds; a binding operation whose
predecessor is gone refuses. A leaf gives its receiver away when it is started, and so cannot be
started again.
-/

namespace Handoff.Machine

/-- Go on with a journalled leaf that has given its receiver away: it completes with done if a stop
was requested, else with its own completion, at once or from a task. -/
def startLeaf (w : World) (l : Leaf) (r : Receiver) (site : Site) (K : List Frame) : Config :=
  let walk := Act.remark ("chain " ++ l.label ++ ": " ++ " > ".intercalate (w.namesFrom r))
  let w := w.note site (if l.inspecting then [walk] else [])
  if w.isStopped r then
    ⟨w.note site [.gaveUp l.label], .complete r .done, .discard site l.completion :: K⟩
  else if l.deferred then finish (w.schedule (.complete l.completion r)) K
  else ⟨w, .complete r l.completion, K⟩

/-- The run that starting a script begins. -/
def firstRun (w : World) (s : Script) (r : Receiver) (site : Site) (h serial : Nat) : Run where
  id := w.runs
  label := s.label
  site := site
  height := h
  serial := serial
  owner := match r with
    | .child role _ i => some (role, i)
    | _ => none
  receiver := some r

/-- Start the slot at a height of a site. -/
def start (w : World) (site : Site) (h : Nat) (K : List Frame) : Config :=
  match (w.layers site)[h]? with
  | none => fault w .vacantStart K
  | some (.ready _ none) => fault w .readyRestarted K
  | some (.ready k (some (c, r))) => ⟨w.setLayer site h (.ready k none), .complete r c, K⟩
  | some (.leaf _ l none) => fault (w.note site [.started l.label]) .leafRestarted K
  | some (.leaf k l (some r)) =>
    startLeaf ((w.note site [.started l.label]).setLayer site h (.leaf k l none)) l r site K
  | some (.script _ s none) => fault (w.note site [.started s.label]) .scriptRestarted K
  | some (.script k s (some r)) =>
    let run := firstRun w s r site h k
    let w := (w.note site [.started s.label]).setLayer site h (.script k s none)
    ⟨{ w with runs := w.runs + 1 }, .follow run s.start, K⟩
  | some (.either _ _) => ⟨w, .start site (h + 1), K⟩
  | some (.bind b) =>
    let w := w.note site [.logged b.serial .starting]
    if b.storage = .predecessor then ⟨w, .start site (h + 1), K⟩ else fault w .bindRestarted K

end Handoff.Machine
