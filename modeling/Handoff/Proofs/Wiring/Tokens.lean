import Handoff.Proofs.Wiring.Whole
import Mathlib.Tactic.IntervalCases

/-!
# Stop tokens at any depth

The stop token of a child is looked up through its handle: the binding operation asks its own
receiver, and so on outwards. A token is the source that requests come from, so that whether it can
stop and whether it has are functions of what is looked up. As long as no receiver on the way was
used up the look-up comes to the final receiver, and once one was it comes to nothing:
`Config.tokens_pass_through`, for whatever was connected at any place of a sender, in any run.
-/

namespace Handoff

namespace Layer

variable {x y : Sender} {o r : Receiver} {s : Site} {path : List Role} {ls ls' base : List Layer}
  {b : Binding}

/-- A binding operation among these has used up its receiver. -/
def Spent (ls : List Layer) : Prop := ∃ b, .bind b ∈ ls ∧ b.receiver = none

lemma Spent.persists (h : Spent ls) (hls : List.Forall₂ Persists ls ls') : Spent ls' := by
  obtain ⟨b, hb, hr⟩ := h
  induction hls with
  | nil => cases hb
  | @cons l l' ls ls' hl _ ih =>
    rcases List.mem_cons.1 hb with rfl | hb
    · cases hl.ensues with
      | refl => exact ⟨b, List.mem_cons_self, hr⟩
      | releases hl => cases hl
      | @bind _ b' _ hr' _ =>
        refine ⟨b', List.mem_cons_self, ?_⟩
        rcases hr' with hr' | hr'
        · exact hr'
        · exact hr'.trans hr
    · obtain ⟨b', hb', hr'⟩ := ih hb
      exact ⟨b', List.mem_cons_of_mem _ hb', hr'⟩

lemma trail_ne_nil (ls : List Layer) (n : Nat) (r : Receiver) : trail ls n r ≠ [] := by
  cases n with
  | zero => simp [trail]
  | succ n =>
    cases r with
    | child role s i =>
      simp only [trail]
      split <;> simp
    | _ => simp [trail]

/-- A line on which a receiver was used up does not lead to the final receiver. -/
lemma Line.getLast?_trail (h : Line x o s base path y r) (hspent : Spent base)
    (more : List Layer) (n : Nat) :
    (trail (base ++ more) n r).getLast?.bind Receiver.ownStop = none := by
  induction h generalizing more n with
  | nil =>
    obtain ⟨b, hb, -⟩ := hspent
    cases hb
  | @either base path k which y r _ ih =>
    have hspent' : Spent base := by
      obtain ⟨b, hb, hr⟩ := hspent
      exact ⟨b, by simpa using hb, hr⟩
    simpa using ih hspent' (.either k which :: more) n
  | @bind base path b role y z r _ hz _ _ ih =>
    cases n with
    | zero => rfl
    | succ n =>
      have hget : (base ++ [.bind b] ++ more)[base.length]? = some (.bind b) := by simp
      simp only [trail, hget]
      cases hr : b.receiver with
      | none => rfl
      | some r' =>
        obtain rfl := hz.receiver_eq hr
        have hspent' : Spent base := by
          obtain ⟨b', hb', hr'⟩ := hspent
          refine ⟨b', ?_, hr'⟩
          rcases List.mem_append.1 hb' with hb' | hb'
          · exact hb'
          · obtain rfl : b' = b := by simpa using hb'
            rw [hr] at hr'
            cases hr'
        have hrest := ih hspent' (.bind b :: more) n
        rw [List.append_assoc, List.singleton_append, Option.elim_some,
          List.getLast?_cons_of_ne_nil (trail_ne_nil _ _ _)]
        exact hrest

end Layer

lemma World.stopOf_eq_ownStop {o : Receiver} (ho : o.isChild = false) (w : World) :
    w.stopOf o = o.ownStop := by
  simp [stopOf, trail, Layer.trail_of_isChild_eq_false _ _ ho]

namespace Config

variable {x y : Sender} {o r : Receiver} {s : Site} {c c' d : Config} {w : World} {h : Nat}
  {l : Layer} {ps ps' : List Parcel}

/-- The operation of a number stands at a height of a site. -/
def Stands (s : Site) (h k : Nat) (c : Config) : Prop :=
  ∃ l, (c.world.layers s)[h]? = some l ∧ l.serial = k

/-- A receiver from whose position all operations have theirs has the token of the final one. -/
lemma Whole.stopOf_eq {path : List Role} (hd : d.Whole x o s) (ho : o.Ends s) (hp : ¬d.Passing s)
    (hline : Layer.Line x o s ((d.world.layers s).take h) path y r) :
    d.world.stopOf r = o.ownStop := by
  obtain ⟨rest, handles, hawaits, hrest, -⟩ := hline.exists_awaits ho.isChild_eq fun b hb =>
    hd.receiver_ne ho hp (List.mem_of_mem_take hb)
  have htrail := World.trail_eq_of_awaits hawaits (List.take_append_drop h _).symm
  simp [World.stopOf, htrail, hrest]

/-- A receiver on the way of which another was used up has a token that can never stop. -/
lemma stopOf_eq_none {path : List Role} (ho : o.Ends s)
    (hline : Layer.Line x o s ((w.layers s).take h) path y r)
    (hspent : Layer.Spent ((w.layers s).take h)) : w.stopOf r = none := by
  have hlast := hline.getLast?_trail hspent ((w.layers s).drop h) (w.layers s).length
  rw [List.take_append_drop] at hlast
  rw [World.stopOf, World.trail, hline.site_eq ho]
  exact hlast

/-- **Stop tokens pass through unchanged.** At some moment of a run the sender `y`, a leaf or any
other, is connected to `r` in a vacant slot of the site, at any depth, and its operation is laid
down. For as long as that stands, and nothing was given to the final receiver `o` or is on its way
there, the token of `r` is that of `o`, and tells the same at any later query. And once an operation
between the two has used up its receiver, the token of `r` can never stop. -/
theorem tokens_pass_through (hc : c.Houses x o s ps) (hconnect : c.control = .connect y r s h)
    (hh : (c.world.layers s).length ≤ h) (hm : c.Moves c')
    (hl : (c'.world.layers s)[h]? = some l) (hafter : Since (¬Renews s ·) c' ps' d)
    (hd : d.Stands s h l.serial) :
    ((∀ g ∈ ps ++ ps', g.1 ≠ o) → ¬d.Passing s →
      d.world.stopOf r = d.world.stopOf o ∧
        ∀ w : World, w.stops (d.world.stopOf r) = w.isStopped o) ∧
    (Layer.Spent ((d.world.layers s).take h) → ∀ ps'' e, Since (¬Renews s ·) d ps'' e →
      e.Stands s h l.serial → e.world.stopOf r = none) := by
  have hrenews : ¬c.Renews s := by
    rintro (⟨-, -, hcall⟩ | ⟨-, hcall⟩) <;> cases hconnect.symm.trans hcall
  have hgiven : c.given = [] := by simp [given, hconnect]
  have hc' : c'.Houses x o s ps := by simpa [hgiven] using hc.move hm hrenews
  obtain ⟨hserial, -, path, hline⟩ := hc.wired.laid hm hconnect hh hl
  -- what stands there later is the same operation, on the same line
  have hupholds : d.Upholds s h l.serial fun ls _ => ∃ path, Layer.Line x o s ls path y r := by
    refine hafter.upholds ?_ hc'.wired ⟨hserial, fun _ _ => ⟨path, hline⟩⟩
    rintro ls ls' - - ⟨path, hline⟩ hls -
    exact ⟨path, hline.persists hls⟩
  have hdhouses := hc'.since hafter
  have ho := hc.ends
  obtain ⟨l', hl', heq⟩ := hd
  constructor
  · intro hps hp
    obtain ⟨path, hline⟩ := hupholds.holds hl' heq
    have hstop : d.world.stopOf r = o.ownStop := (hdhouses.whole hps).stopOf_eq ho hp hline
    refine ⟨by rw [hstop, World.stopOf_eq_ownStop ho.isChild_eq], fun w => ?_⟩
    rw [hstop, World.isStopped, World.stopOf_eq_ownStop ho.isChild_eq, World.stops]
  · rintro hspent ps'' e hsince ⟨l'', hl'', heq'⟩
    have hspents : e.Upholds s h l.serial fun ls _ =>
        (∃ path, Layer.Line x o s ls path y r) ∧ Layer.Spent ls := by
      refine hsince.upholds ?_ hdhouses.wired
        ⟨hupholds.serial_lt, fun hl hk => ⟨hupholds.holds hl hk, hspent⟩⟩
      rintro ls ls' - - ⟨⟨path, hline⟩, hspent⟩ hls -
      exact ⟨⟨path, hline.persists hls⟩, hspent.persists hls⟩
    obtain ⟨⟨path, hline⟩, hspent'⟩ := hspents.holds hl'' heq'
    exact stopOf_eq_none ho hline hspent'

/-- A binding whose factory builds a sender that fails when it has been connected halfway, and a
final receiver with a stop source. -/
def halfBuilt : Sender × Receiver :=
  (.bind (.leaf { label := "pred", completion := .value { n := 1 }, deferred := true })
    { call := fun env => { env } } fun _ => .exploding (some "half"),
    .recorder (.place 0) (some 7))

/-- The binding is connected. -/
def halfConnect (n : Nat) : Config := .run n ⟨{}, .connect halfBuilt.1 halfBuilt.2 (.place 0) 0, []⟩

/-- The binding is started. -/
def halfStart (n : Nat) : Config := .run n ⟨(halfConnect 3).world, .call (.start 0), []⟩

/-- The leaf completes, and connecting the successor fails. -/
def halfTick (n : Nat) : Config := .run n ⟨(halfStart 3).world, .call .tick, []⟩

theorem tokens_pass_through_half_built :
    let r : Receiver := .child .successor (.place 0) 0
    (halfTick 5).world.stopOf r = (halfTick 5).world.stopOf halfBuilt.2 ∧
    (∀ w : World, w.stops ((halfTick 5).world.stopOf r) = w.isStopped halfBuilt.2) ∧
    (halfTick 8).world.stopOf r = none := by
  have hconnect (k : Nat) (hk : k < 3) : ¬(halfConnect k).Renews (.place 0) := by
    interval_cases k <;> rintro (⟨-, -, hc⟩ | ⟨-, hc⟩) <;> cases hc
  have hstart (k : Nat) (hk : k < 3) : ¬(halfStart k).Renews (.place 0) := by
    interval_cases k <;> rintro (⟨-, -, hc⟩ | ⟨-, hc⟩) <;> cases hc
  have htick (k : Nat) (hk : k < 8) : ¬(halfTick k).Renews (.place 0) := by
    interval_cases k <;> rintro (⟨-, -, hc⟩ | ⟨-, hc⟩) <;> cases hc
  have hconnected : Since (¬Renews (.place 0) ·) (halfConnect 0) [] (halfConnect 3) :=
    since_run 3 _ hconnect
  have hstarted : Since (¬Renews (.place 0) ·) (halfStart 0) [] (halfStart 3) :=
    since_run 3 _ hstart
  have hticked : Since (¬Renews (.place 0) ·) (halfTick 0) [] (halfTick 4) :=
    since_run 4 _ fun k hk => htick k (by omega)
  have hbuilt : Since (¬Renews (.place 0) ·) (halfConnect 0) [] (halfTick 4) :=
    (((hconnected.next (by rfl) (.start 0)).trans hstarted).next (by rfl) .tick).trans hticked
  have hfailed : Since (¬Renews (.place 0) ·) (halfTick 5) [] (halfTick 5) := .refl _
  have hend : Since (¬Renews (.place 0) ·) (halfTick 5) _ (halfTick 8) :=
    since_run 3 (halfTick 5) fun k hk => by
      rw [halfTick, ← run_add]
      exact htick (5 + k) (by omega)
  have hhouses : (halfTick 4).Houses halfBuilt.1 halfBuilt.2 (.place 0) [] :=
    ⟨⟨trivial, fun _ => trivial⟩, ⟨rfl, rfl⟩, {}, [], rfl, by simp, hbuilt⟩
  have hm : (halfTick 4).Moves (halfTick 5) := rfl
  have hlaid := tokens_pass_through hhouses (h := 1) rfl (by decide) hm rfl hfailed ⟨_, rfl, rfl⟩
  have hspent := tokens_pass_through hhouses (h := 1) rfl (by decide) hm rfl hend ⟨_, rfl, rfl⟩
  obtain ⟨hstop, hlater⟩ := hlaid.1 (by simp) (by rintro ⟨r, v, hc, -⟩; cases hc)
  exact ⟨hstop, hlater, hspent.2 ⟨_, .head _, rfl⟩ [] _ (.refl _) ⟨_, rfl, rfl⟩⟩

end Config

end Handoff
