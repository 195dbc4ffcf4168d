import Handoff.Proofs.Panic.Boundary
import Handoff.Proofs.Separation.Shadow
import Handoff.Proofs.Wiring.Whole
import Mathlib.Tactic.IntervalCases

/-!
# Walks outwards at the start of a leaf

A receiver reports the one that waits behind it, as far as it knows one, and a walk lists a receiver
and then what it reports, again and again. When a leaf is started, the walk from its receiver lists
a handle for each binding around the place that the leaf has in the sender, innermost first, and
then the final receiver: `Config.walk_rebuilds_chain`. This takes that the final receiver was not
given anything before, and it was not when a host leaves in its place what it has connected: a run
has one completion to give, so that a leaf which is started has it still. Where a host attends to
other places as well, this is so of what it does for one place alone.
-/

namespace Handoff

open Machine

namespace World

/-- The receiver that a receiver reports to be waiting behind it. -/
def reported (w : World) : Receiver → Option Receiver
  | .child _ s h => (w.binding? s h).bind Binding.receiver
  | _ => none

/-- A walk from a receiver outwards comes to an end, and lists these receivers. -/
inductive Walks (w : World) : Receiver → List Receiver → Prop where
  | last {r : Receiver} (h : w.reported r = none) : Walks w r [r]
  | next {r r' : Receiver} {rs : List Receiver} (h : w.reported r = some r')
      (hrest : Walks w r' rs) : Walks w r (r :: rs)

variable {w : World} {s : Site} {base more : List Layer} {r : Receiver} {rest : List Receiver}

lemma walks_of_awaits (h : Layer.Awaits s base r rest) (hw : w.layers s = base ++ more) :
    w.Walks r (r :: rest) := by
  induction h generalizing more with
  | @final ls r hr =>
    refine .last ?_
    cases r with
    | child => simp [Receiver.isChild] at hr
    | _ => rfl
  | @child ls role h b r rest hb hr _ ih =>
    have hlt : h < ls.length := (List.getElem?_eq_some_iff.1 hb).1
    have hbinding : w.binding? s h = some b := by
      rw [binding?_eq_some_iff, hw, List.getElem?_append_left hlt, hb]
    have houter : w.layers s = ls.take h ++ (ls.drop h ++ more) := by
      rw [hw, ← List.append_assoc, List.take_append_drop]
    exact .next (by simp [reported, hbinding, hr]) (ih houter)

end World

/-- The receiver that an operation was connected with and has not let go of. -/
def Layer.held? : Layer → Option Receiver
  | ready _ held => held.map Prod.snd
  | leaf _ _ held => held
  | script _ _ held => held
  | _ => none

lemma Sender.Yields.eq_of_held? {y : Sender} {r r' : Receiver} {l : Layer} (h : y.Yields r' l)
    (hl : l.held? = some r) : r' = r := by
  have heq {held : Option Receiver} (hh : held = none ∨ held = some r') (hheld : held = some r) :
      r' = r := by
    rcases hh with rfl | rfl
    · cases hheld
    · exact Option.some.inj hheld
  cases h with
  | ready hh =>
    rcases hh with rfl | rfl
    · cases hl
    · exact Option.some.inj hl
  | leaf hh => exact heq hh hl
  | exploding hh => exact heq hh hl
  | script hh => exact heq hh hl
  | _ => simp [Layer.held?] at hl

namespace Config

open Layer (Line)

variable {x y : Sender} {o r : Receiver} {s : Site} {c c' d : Config} {w : World} {h n : Nat}
  {l : Layer} {ps ps' : List Parcel} {K : List Frame}

/-- The walk from the receiver of a leaf at a height, which is about to be started, rebuilds the way
to it. This is the way to the place of the leaf in the sender `x` that was connected to `o`, as the
storages of the operations around the leaf tell it. The walk lists a handle for each binding on the
way, innermost first, and then the final receiver with those that it knows of. A leaf that lists who
waits behind its receiver journals just that. -/
def Rebuilds (x : Sender) (o r : Receiver) (s : Site) (h : Nat) (l : Layer) (c : Config) : Prop :=
  ∃ path y handles, Line x o s ((c.world.layers s).take h) path y r ∧ x.Lies path y ∧
    y.Yields r l ∧ c.world.Walks r (handles ++ [o]) ∧
    handles.length = path.length ∧
    handles.flatMap Receiver.ownNames = path.map Role.handle ∧
    c.world.namesFrom r = path.map Role.handle ++ o.ownNames ∧
    ∀ k z c', l = .leaf k z (some r) → z.inspecting = true → c.Moves c' →
      Event.mk (some s) (.remark ("chain " ++ z.label ++ ": " ++
        " > ".intercalate (path.map Role.handle ++ o.ownNames))) ∈ c'.world.events

lemma mem_events_startLeaf {z : Leaf} (hz : z.inspecting = true) (w : World) (r : Receiver)
    (s : Site) (K : List Frame) :
    Event.mk (some s) (.remark ("chain " ++ z.label ++ ": " ++
      " > ".intercalate (w.namesFrom r))) ∈ (startLeaf w z r s K).world.events := by
  simp only [startLeaf, hz, if_true]
  split_ifs
  · simp
  · simp [finish, World.schedule]
  · simp

lemma Houses.rebuilds (hc : c.Houses x o s ps) (hps : ∀ g ∈ ps, g.1 ≠ o)
    (hstart : c.control = .start s h) (hl : (c.world.layers s)[h]? = some l)
    (hr : l.held? = some r) : c.Rebuilds x o r s h l := by
  obtain ⟨w, control, K⟩ := c
  obtain rfl : control = .start s h := hstart
  obtain ⟨base, rest, hlayers, rfl⟩ := World.exists_layers_of_getElem? hl
  obtain ⟨path, y, r', hline, hy⟩ := hc.wired.layers base l rest hlayers
  obtain rfl := hy.eq_of_held? hr
  have hpassing : ¬Passing s ⟨w, .start s base.length, K⟩ := by
    rintro ⟨r, v, hcontrol, -⟩
    cases hcontrol
  have hreceivers : ∀ b, .bind b ∈ base → b.receiver ≠ none := fun b hb =>
    (hc.whole hps).receiver_ne hc.ends hpassing (hlayers ▸ List.mem_append_left _ hb)
  obtain ⟨waiting, handles, hawaits, hwaiting, hlen, hnames⟩ :=
    hline.exists_awaits hc.ends.isChild_eq hreceivers
  have hnamesFrom {w : World} {more : List Layer} (hw : w.layers s = base ++ more) :
      w.namesFrom r' = path.map Role.handle ++ o.ownNames := by
    rw [World.namesFrom_eq_of_awaits hawaits hw, hwaiting, List.flatMap_append, hnames]
    simp
  have hbase : w.layers s = base ++ l :: rest := hlayers
  refine ⟨path, y, handles, by simpa [hbase] using hline, hline.lies, hy, ?_, hlen, hnames,
    hnamesFrom hlayers, ?_⟩
  · rw [← hwaiting]
    exact World.walks_of_awaits hawaits hlayers
  · rintro k z c' rfl hz hm
    have hstart : start w s base.length K =
        startLeaf ((w.note s [.started z.label]).setLayer s base.length (.leaf k z none)) z r' s
          K := by
      simp [start, hlayers]
    obtain rfl : start w s base.length K = c' := Option.some.inj hm
    have hlayers' : (w.note s [.started z.label]).layers s = base ++ .leaf k z (some r') :: rest :=
      hlayers
    rw [hstart, ← hnamesFrom (World.layers_setLayer hlayers' (.leaf k z none))]
    exact mem_events_startLeaf hz _ r' s K

/-! ### Runs that keep the rules -/

lemma Attended.not_renews (h : c.Attended s) : ¬c.Renews s := by
  rintro (⟨-, -, hc⟩ | ⟨-, hc⟩)
  · exact h _ hc
  · exact h _ hc

lemma Heeded.not_renews {ks : Sources} {p : Int} (h : c.Heeded ks p) :
    ¬c.Renews (.place p) := by
  rintro (⟨hs, -, hc⟩ | ⟨hs, -⟩)
  · obtain rfl := Site.place.inj hs
    exact (h _ hc).2.1 _ _ rfl
  · cases hs

lemma IsFinal.attended (h : c.IsFinal) : c.Attended s := by
  obtain ⟨w, control, K⟩ := c
  rintro z (rfl : control = .call z)
  cases h

lemma Since.goes (h : Since (Attended s ·) c ps d) (hd : d.Attended s) : Goes s c ps d := by
  induction h with
  | refl => exact .refl c
  | move _ hok hm ih => exact (ih hok).move hm
  | next _ hf z ih => exact (ih hf.attended).next hf (hd z rfl)

/-- A host has connected a sender to a calm receiver at a vacant site, and has left it in its place
since. -/
inductive Behaves (x : Sender) (o : Receiver) (s : Site) (ps : List Parcel) (c : Config) :
    Prop where
  /-- It attends to this site only, where scripts keep the rules. -/
  | alone {w : World} (hx : x.Lawful) (ho : o.Calm) (hl : w.layers s = [])
      (hq : ∀ t ∈ w.queue, ∃ j, t = .job j)
      (h : Since (Attended s ·) ⟨w, .connect x o s 0, []⟩ ps c) : Behaves x o s ps c
  /-- It attends to other places as well, and there are no scripts. -/
  | among {ks : Sources} {p : Int} {w : World} (hs : .place p = s) (hx : x.Scriptless)
      (ho : o.Calm) (hb : o.Belongs ks p) (hw : w.Divided ks) (hl : w.layers s = [])
      (hq : ∀ t ∈ w.queue, t.site? ≠ some s)
      (h : Since (Heeded ks p ·) ⟨w, .connect x o s 0, []⟩ ps c) : Behaves x o s ps c

/-- Nothing has happened yet, and no task will complete a receiver. -/
lemma thread_connect (hx : x.Lawful) (hl : w.layers s = []) (hq : ∀ t ∈ w.queue, ∃ j, t = .job j) :
    Thread o s 1 ⟨w, .connect x o s 0, []⟩ := by
  have hlaw : w.Lawful s := by
    constructor
    · intro l hmem
      simp [hl] at hmem
    · intro t ht
      obtain ⟨j, rfl⟩ := hq t ht
      trivial
  have hspare : w.spare = [] := by
    refine List.filterMap_eq_nil_iff.2 ?_
    intro t ht
    obtain ⟨j, rfl⟩ := hq t ht
    rfl
  exact .connecting hlaw .vacant hl (by simp) hspare hx (.final _)

/-- A leaf that is started and may complete has a completion to give. -/
lemma one_le_of_start (hthread : Thread o s n c) (hstart : c.control = .start s h)
    (hl : (c.world.layers s)[h]? = some l) (hr : Layer.offer [l] = some r) : 1 ≤ n := by
  obtain ⟨w, control, K⟩ := c
  obtain rfl : control = .start s h := hstart
  cases hthread with
  | loose hw hfit => exact hfit.elim
  | @starting _ _ outer inner _ hw hlayers _ _ _ hbears =>
    obtain ⟨base, rest, heq, hbase⟩ := World.exists_layers_of_getElem? hl
    obtain ⟨-, rfl⟩ := List.append_inj (hlayers.symm.trans heq) hbase.symm
    have hoffer : Layer.offer (l :: rest) = some r := by
      rcases Layer.offer_append [l] rest with hsame | ⟨hnone, -⟩
      · exact hsame.trans hr
      · rw [hr] at hnone
        cases hnone
    have hle := hbears.length_le
    rw [hoffer, List.length_append] at hle
    exact Nat.le_trans (Nat.le_add_right 1 _) hle

/-- If a host attends to one site only, nothing was given as long as there is a completion still to
be given. -/
lemma Since.eq_nil_of_owing (hrun : Since (Attended s ·) ⟨w, .connect x o s 0, []⟩ ps c)
    (hx : x.Lawful) (ho : o.Calm) (hvacant : w.layers s = []) (hq : ∀ t ∈ w.queue, ∃ j, t = .job j)
    (hattended : c.Attended s) (howing : ∀ n ≤ 1, Thread o s n c → 1 ≤ n) : ps = [] := by
  obtain ⟨m, hm, hlen, -⟩ :=
    (thread_connect hx hvacant hq).goes (Nat.le_refl 1) ho (hrun.goes hattended)
  have hpos : 1 ≤ m := howing m (by omega) hm
  exact List.length_eq_zero_iff.1 (by omega)

/-- If there is a completion still to be given whenever something is so, and it is so alone as well,
nothing was given to the final receiver by then. -/
lemma Behaves.not_given_of_owing {P : Config → Prop} (hc : c.Behaves x o s ps) (h : P c)
    (hattended : ∀ d, P d → d.Attended s)
    (howing : ∀ d, P d → ∀ n ≤ 1, Thread o s n d → 1 ≤ n)
    (hshadow : ∀ ks p d, s = .place p → c.ShadowedBy ks p d → P d) : ∀ g ∈ ps, g.1 ≠ o := by
  cases hc with
  | alone hx ho hvacant hq hrun =>
    have hnil : ps = [] := hrun.eq_nil_of_owing hx ho hvacant hq (hattended c h) (howing c h)
    simp [hnil]
  | @among ks p w hs hx ho hb hw hvacant hq hrun =>
    subst hs
    obtain ⟨d, halone, hd⟩ := hrun.exists_shadow (shadowedBy_connect hw hx hb)
    have hqueue : (w.only (.place p) (ks p)).queue = [] :=
      List.filter_eq_nil_iff.2 (by simpa using hq)
    have hP : P d := hshadow ks p d rfl hd
    have hnil : givenAt p ps = [] :=
      halone.eq_nil_of_owing hx.lawful ho (by simpa using hvacant) (by simp [hqueue])
        (hattended d hP) (howing d hP)
    rintro g hg rfl
    exact List.filter_eq_nil_iff.1 hnil g hg (by simpa using hb.site_eq)

/-- A leaf that may still complete is started only if nothing was given to the final receiver. -/
lemma Behaves.not_given (hc : c.Behaves x o s ps) (hstart : c.control = .start s h)
    (hl : (c.world.layers s)[h]? = some l) (hr : Layer.offer [l] = some r) :
    ∀ g ∈ ps, g.1 ≠ o := by
  refine hc.not_given_of_owing
    (P := fun d => d.control = .start s h ∧ (d.world.layers s)[h]? = some l) ⟨hstart, hl⟩ ?_ ?_ ?_
  · rintro d ⟨hd, -⟩ z hz
    cases hd.symm.trans hz
  · rintro d ⟨hd, hl⟩ n - hm
    exact one_le_of_start hm hd hl hr
  · rintro ks p d rfl hshadow
    obtain ⟨hd, hlayers⟩ := hshadow.of_start hstart
    exact ⟨hd, hlayers ▸ hl⟩

/-- **Walks rebuild the chain.** At some moment of a run a leaf of what was connected at a site is
started, at any depth. If nothing was given to the final receiver so far, the walk from the leaf's
receiver comes to an end and rebuilds the way to the place of the leaf in the sender: no binding
around it is missing and none is listed twice, and alternatives are not listed. In runs that keep
the rules this is so for every leaf that may complete. -/
theorem walk_rebuilds_chain (hc : c.Houses x o s ps) (hstart : c.control = .start s h)
    (hl : (c.world.layers s)[h]? = some l) (hr : l.held? = some r) :
    ((∀ g ∈ ps, g.1 ≠ o) → c.Rebuilds x o r s h l) ∧
    (c.Behaves x o s ps → Layer.offer [l] = some r → c.Rebuilds x o r s h l) := by
  constructor
  · intro hps
    exact hc.rebuilds hps hstart hl hr
  · intro hbehaves hoffer
    exact hc.rebuilds (hbehaves.not_given hstart hl hoffer) hstart hl hr

/-- A leaf from the value of which another is made. -/
def headLeaf : Leaf := { label := "head", completion := .value { n := 1 } }

/-- The leaf that is made, which lists who waits behind its receiver. -/
def innerLeaf : Leaf :=
  { label := "inner", completion := .value { n := 2 }, deferred := true, inspecting := true }

/-- Both leaves lie in the predecessor of a binding, in one of two alternatives. -/
def relayed : Sender × Receiver :=
  (.bind (.either .left (.bind (.leaf headLeaf) { call := fun env => { env } }
      fun _ => .leaf innerLeaf)) { call := fun env => { env } } fun _ => .ready .done,
    .recorder (.place 0) none)

/-- In another place a leaf was started, and a task is to complete it. -/
def busy : World :=
  let y : Sender := .leaf { label := "other", completion := .value { n := 3 }, deferred := true }
  ((World.call {} 4 (.connect 1 y (.recorder (.place 1) none))).1.call 4 (.start 1)).1

/-- The sender is connected. -/
def relayConnect (w : World) (n : Nat) : Config :=
  .run n ⟨w, .connect relayed.1 relayed.2 (.place 0) 0, []⟩

/-- The first leaf completes, and the second is connected and started. -/
def relayStart (w : World) (n : Nat) : Config :=
  .run n ⟨(relayConnect w 7).world, .call (.start 0), []⟩

theorem walk_rebuilds_chain_relayed :
    let inner : Receiver := .child .successor (.place 0) 2
    let head : Receiver := .child .predecessor (.place 0) 2
    (relayStart {} 4).Rebuilds relayed.1 relayed.2 head (.place 0) 3
      (.leaf 3 headLeaf (some head)) ∧
    (relayStart {} 4).world.namesFrom head =
      ["PredecessorReceiver", "PredecessorReceiver", "Recorder"] ∧
    (relayStart {} 9).Rebuilds relayed.1 relayed.2 inner (.place 0) 3
      (.leaf 4 innerLeaf (some inner)) ∧
    (relayStart {} 9).world.namesFrom inner =
      ["SuccessorReceiver", "PredecessorReceiver", "Recorder"] ∧
    busy.queue ≠ [] ∧
    (relayStart busy 9).Rebuilds relayed.1 relayed.2 inner (.place 0) 3
      (.leaf 4 innerLeaf (some inner)) := by
  have hrun {ok : Config → Prop} {w : World} (n : Nat) (hn : n ≤ 9)
      (hconnect : ∀ k < 7, ok (relayConnect w k)) (hstart : ∀ k < 9, ok (relayStart w k))
      (hfinal : (relayConnect w 7).IsFinal)
      (hgifts : (relayConnect w 0).gifts 7 = [] ∧ (relayStart w 0).gifts n = []) :
      Since ok (relayConnect w 0) [] (relayStart w n) := by
    have hconnected := since_run 7 (relayConnect w 0) hconnect
    have hstarted := since_run n (relayStart w 0) fun k hk => hstart k (by omega)
    rw [hgifts.1] at hconnected
    rw [hgifts.2] at hstarted
    exact (hconnected.next hfinal (.start 0)).trans hstarted
  have hhouses {w : World} {n : Nat} (hw : w.layers (.place 0) = [])
      (h : Since (¬Renews (.place 0) ·) (relayConnect w 0) [] (relayStart w n)) :
      (relayStart w n).Houses relayed.1 relayed.2 (.place 0) [] :=
    ⟨⟨⟨trivial, fun _ => trivial⟩, fun _ => trivial⟩, ⟨rfl, rfl⟩, w, [], hw, by simp, h⟩
  have halone (n : Nat) (hn : n ≤ 9) (hgifts : (relayStart {} 0).gifts n = []) :
      Since (Attended (.place 0) ·) (relayConnect {} 0) [] (relayStart {} n) := by
    refine hrun n hn ?_ ?_ rfl ⟨rfl, hgifts⟩
    · intro k hk
      interval_cases k <;> rintro z hz <;> cases hz
    · intro k hk
      interval_cases k <;> rintro z hz <;> cases hz
      rfl
  have hshared : Since (Heeded (fun _ => []) 0 ·) (relayConnect busy 0) [] (relayStart busy 9) := by
    refine hrun 9 (Nat.le_refl 9) ?_ ?_ rfl ⟨rfl, rfl⟩
    · intro k hk
      interval_cases k <;> rintro z hz <;> cases hz
    · intro k hk
      interval_cases k <;> rintro z hz <;> cases hz
      exact ⟨⟨trivial, by simp [Call.source?]⟩, by simp, by simp⟩
  have hbusy : busy.Divided fun _ => [] := by
    refine divided_call (divided_call World.divided_empty ?_ 4) ?_ 4
    · exact ⟨⟨trivial, trivial, rfl⟩, by simp [Call.source?, Receiver.ownStop]⟩
    · exact ⟨trivial, by simp [Call.source?]⟩
  have hbelongs : relayed.2.Belongs (fun _ => []) 0 :=
    ⟨rfl, fun _ => trivial, by simp [relayed, Receiver.ownStop]⟩
  refine ⟨?_, rfl, ?_, rfl, List.cons_ne_nil _ _, ?_⟩
  · have hcome := halone 4 (by decide) rfl
    have hplace := hhouses rfl (hcome.mono fun _ => Attended.not_renews)
    exact (walk_rebuilds_chain hplace rfl rfl rfl).1 (by simp)
  · have hcome := halone 9 (by decide) rfl
    have hplace := hhouses rfl (hcome.mono fun _ => Attended.not_renews)
    refine (walk_rebuilds_chain hplace rfl rfl rfl).2 ?_ rfl
    exact .alone ⟨⟨trivial, fun _ => trivial⟩, fun _ => trivial⟩ trivial rfl (by simp) hcome
  · have hplace := hhouses rfl (hshared.mono fun _ => Heeded.not_renews)
    refine (walk_rebuilds_chain hplace rfl rfl rfl).2 ?_ rfl
    refine .among rfl ⟨⟨trivial, fun _ => trivial⟩, fun _ => trivial⟩ trivial hbelongs hbusy rfl ?_
      hshared
    intro t ht
    obtain rfl : t = _ := List.mem_singleton.1 ht
    decide

end Config

end Handoff
