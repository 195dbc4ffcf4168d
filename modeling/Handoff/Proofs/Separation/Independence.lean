import Handoff.Proofs.Chain.Laying
import Handoff.Proofs.Separation.Steps

/-!
# Places are independent

A host makes calls on any number of places, all of which share one queue: it connects senders to
calm receivers, starts and clears what it has connected, runs single tasks and requests stops.
`World.own` picks out, as the host goes along, the calls that concern one place: those on the place
itself, the tasks that complete into it, and the requests of its sources. The main statement is that
these calls alone, made in an empty world, come to the same for that place: each ends the same way
and gives the same completions to the receivers of the place, and the same is recorded there.
-/

namespace Handoff

namespace Config

/-- What final receivers are given in a number of moves. -/
def gifts : Nat → Config → List Parcel
  | 0, _ => []
  | n + 1, c =>
    match c.next with
    | none => []
    | some c' => c.given ++ gifts n c'

lemma leads_run (n : Nat) (c : Config) : c.Leads (c.gifts n) (c.run n) := by
  induction n generalizing c with
  | zero => exact .refl c
  | succ n ih =>
    cases h : c.next with
    | none =>
      rw [run_of_isFinal h]
      simpa [gifts, h] using Leads.refl c
    | some c' =>
      rw [run_succ_of_moves n h]
      simpa [gifts, h] using Leads.step h (ih c')

variable {ks : Sources} {p : Int} {w v : World} {c d : Config}

lemma Stays.run (h : c.Stays ks p w) (n : Nat) : (c.run n).Stays ks p w := by
  induction n generalizing c with
  | zero => exact h
  | succ n ih =>
    cases hc : c.next with
    | none => rwa [run_of_isFinal hc]
    | some c' =>
      rw [run_succ_of_moves n hc]
      exact ih (h.next hc)

/-- What is done on behalf of a place gives to receivers of that place only. -/
lemma Stays.site_of_mem_gifts (h : c.Stays ks p w) {n : Nat} {g : Parcel} (hg : g ∈ c.gifts n) :
    g.1.site = some (.place p) := by
  induction n generalizing c with
  | zero => simp [gifts] at hg
  | succ n ih =>
    cases hc : c.next with
    | none => simp [gifts, hc] at hg
    | some c' =>
      simp only [gifts, hc, List.mem_append] at hg
      rcases hg with hg | hg
      · obtain ⟨w', control, K⟩ := c
        cases control with
        | complete r v =>
          have hr : r.Belongs ks p := h.control
          by_cases hchild : r.isChild = true
          · simp [given, hchild] at hg
          · obtain rfl : g = (r, v) := by simpa [given, hchild] using hg
            exact hr.site_eq
        | _ => simp [given] at hg
      · exact ih (h.next hc) hg

lemma eq_of_only_eq {s : Site} {js : List Int} (h : c.only s js = d.only s js) :
    c.world.only s js = d.world.only s js ∧ c.control = d.control ∧ c.stack = d.stack := by
  obtain ⟨w, x, K⟩ := c
  obtain ⟨v, y, L⟩ := d
  simpa using h

/-- Two configurations that are the same at a place go on to be the same there, and give the
same. -/
lemma Stays.run_congr (h : c.Stays ks p w) (h' : d.Stays ks p v)
    (hcd : c.only (.place p) (ks p) = d.only (.place p) (ks p)) (n : Nat) :
    (c.run n).only (.place p) (ks p) = (d.run n).only (.place p) (ks p) ∧
      c.gifts n = d.gifts n := by
  induction n generalizing c d with
  | zero => exact ⟨hcd, rfl⟩
  | succ n ih =>
    have hnext : c.next.map (Config.only (.place p) (ks p)) =
        d.next.map (Config.only (.place p) (ks p)) := by
      rw [← h.next_only, hcd, h'.next_only]
    have hgiven : c.given = d.given := by simp [given, (eq_of_only_eq hcd).2.1]
    cases hc : c.next with
    | none =>
      have hd : d.next = none := by simpa [hc] using hnext.symm
      rw [run_of_isFinal hc, run_of_isFinal hd]
      simpa [gifts, hc, hd] using hcd
    | some c' =>
      obtain ⟨d', hd, hcd'⟩ : ∃ d', d.next = some d' ∧
          d'.only (.place p) (ks p) = c'.only (.place p) (ks p) := by
        simpa [hc] using hnext.symm
      obtain ⟨hrun, hgifts⟩ := ih (h.next hc) (h'.next hd) hcd'.symm
      rw [run_succ_of_moves n hc, run_succ_of_moves n hd]
      exact ⟨hrun, by simp [gifts, hc, hd, hgiven, hgifts]⟩

end Config

/-! ### Calls -/

/-- A call that a host makes on one place, one task or one source. What it connects has no scripts
and completes a calm receiver of the place. -/
def Call.Separate : Call → Prop
  | connect p x r => x.Scriptless ∧ r.Calm ∧ r.site = some (.place p)
  | start _ => True
  | clear _ => True
  | tick => True
  | request _ => True
  | _ => False

/-- The source from which a call connects a receiver to a place, if it does. -/
def Call.source? (p : Int) : Call → Option Int
  | connect q _ r => if q = p then r.ownStop else none
  | _ => none

/-- The sources from which the receivers of each place are sent stop requests. -/
def sourcesOf (cs : List Call) : Sources := fun p => cs.filterMap (Call.source? p)

/-- Whether a call, made in a world, concerns a place: it is a call on the place, runs a task of
the place or requests a stop of one of its sources. -/
def Call.concerns (ks : Sources) (p : Int) (w : World) : Call → Bool
  | connect q _ _ => q = p
  | start q => q = p
  | clear q => q = p
  | tick => w.queue.head?.bind Task.site? = some (.place p)
  | request k => k ∈ ks p
  | _ => false

/-- A call, how it ended and what final receivers were given on the way. -/
structure Episode where
  call : Call
  outcome : Outcome
  given : List Parcel

namespace World

/-- Make a call, with a number of moves. -/
def episode (n : Nat) (w : World) (x : Call) : Episode :=
  ⟨x, (w.call n x).2, Config.gifts n ⟨w, .call x, []⟩⟩

/-- Make calls one after another, with a number of moves for each. -/
def episodes (n : Nat) : World → List Call → List Episode
  | _, [] => []
  | w, x :: cs => w.episode n x :: episodes n (w.call n x).1 cs

/-- The world after calls, made with a number of moves for each. -/
def serve (n : Nat) : World → List Call → World
  | w, [] => w
  | w, x :: cs => serve n (w.call n x).1 cs

/-- Those of the calls made one after another that concern a place. -/
def own (n : Nat) (ks : Sources) (p : Int) : World → List Call → List Episode
  | _, [] => []
  | w, x :: cs =>
    if x.concerns ks p w then w.episode n x :: own n ks p (w.call n x).1 cs
    else own n ks p (w.call n x).1 cs

@[simp] lemma call_episode (n : Nat) (w : World) (x : Call) : (w.episode n x).call = x := rfl

end World

/-! ### One call -/

section OneCall

open Machine

variable {ks : Sources} {p q : Int} {w v : World} {x : Call} {n : Nat}

/-- A call whose receiver, if it connects one, is sent stop requests from a source of the place. -/
def Call.Heeds (ks : Sources) (x : Call) : Prop :=
  x.Separate ∧ ∀ p k, x.source? p = some k → k ∈ ks p

lemma stays_connectPlace (hw : w.Divided ks) {y : Sender} {r : Receiver} (hy : y.Scriptless)
    (hr : r.Belongs ks p) : (connectPlace w (.place p) y r []).Stays ks p w := by
  have hm : w.Minds ks p w := .refl hw
  unfold connectPlace
  split
  · exact ⟨hm.setLayers (by simp), ⟨hy, hr, rfl⟩, by simp⟩
  · split_ifs
    · exact ⟨hm, ⟨hy, hr, rfl⟩, by simp⟩
    · exact ⟨hm.note _, trivial, by simp [refuse]⟩

lemma stays_withPlace (hw : w.Divided ks) {s : Site} {c : Config} (hc : c.Stays ks p w) :
    (withPlace w s c []).Stays ks p w := by
  unfold withPlace
  split
  · exact hc
  · exact ⟨.refl hw, trivial, by simp [refuse]⟩

lemma World.Minds.unqueue (hw : w.Divided ks) {t : Task} {rest : List Task}
    (hq : w.queue = t :: rest) (ht : t.Belongs ks p) : w.Minds ks p { w with queue := rest } where
  divided := ⟨hw.layers, fun t' ht' => hw.queue t' (by simp [hq, ht'])⟩
  elsewhere q hne js := by
    have hsite : t.site? ≠ some (.place q) := by
      rw [ht.site?_eq]
      simpa using hne.symm
    simp [only, hq, hsite]

/-- A call is a request of a source, finds no task to run, or is carried out on behalf of a place
that it concerns. -/
lemma exists_stays_call (hw : w.Divided ks) (hx : x.Heeds ks) :
    (∃ k, x = .request k) ∨ x = .tick ∧ w.queue = [] ∨
      ∃ p, x.concerns ks p w = true ∧ (call w x []).Stays ks p w := by
  obtain ⟨hseparate, hsource⟩ := hx
  cases x with
  | connect p y r =>
    obtain ⟨hy, hcalm, hsite⟩ := hseparate
    have hr : r.Belongs ks p :=
      ⟨hsite, fun _ => hcalm, fun k hk => hsource p k (by simpa [Call.source?] using hk)⟩
    exact .inr (.inr ⟨p, by simp [Call.concerns], stays_connectPlace hw hy hr⟩)
  | start p =>
    exact .inr (.inr ⟨p, by simp [Call.concerns],
      stays_withPlace hw ⟨.refl hw, rfl, by simp⟩⟩)
  | clear p =>
    exact .inr (.inr ⟨p, by simp [Call.concerns], stays_withPlace hw
      (stays_finishOr (by simp) ((World.Minds.refl hw).dropAbove 0 false) _)⟩)
  | tick =>
    cases hq : w.queue with
    | nil => exact .inr (.inl ⟨rfl, rfl⟩)
    | cons t rest =>
      obtain ⟨p, ht⟩ := hw.queue t (by simp [hq])
      refine .inr (.inr ⟨p, by simp [Call.concerns, hq, ht.site?_eq], ?_⟩)
      simp only [call, hq]
      exact ⟨.unqueue hw hq ht, ht, by simp [Frame.Belongs]⟩
  | request k => exact .inl ⟨k, rfl⟩
  | _ => exact hseparate.elim

/-- A place is concerned by a call on its behalf only. -/
lemma eq_of_concerns (hc : x.concerns ks p w = true) (hc' : x.concerns ks q w = true)
    (hx : ∀ k, x ≠ .request k) : p = q := by
  cases x with
  | request k => exact absurd rfl (hx k)
  | tick =>
    cases hq : w.queue with
    | nil => simp [Call.concerns, hq] at hc
    | cons t rest =>
      simp only [Call.concerns, hq, List.head?_cons, Option.bind_some, decide_eq_true_eq] at hc hc'
      simpa [hc] using hc'
  | _ => simp_all [Call.concerns]

lemma stays_call (hw : w.Divided ks) (hx : x.Heeds ks) (hc : x.concerns ks p w = true)
    (hrequest : ∀ k, x ≠ .request k) : (call w x []).Stays ks p w := by
  rcases exists_stays_call hw hx with ⟨k, rfl⟩ | ⟨rfl, hq⟩ | ⟨q, hq, hstays⟩
  · exact absurd rfl (hrequest k)
  · simp [Call.concerns, hq] at hc
  · obtain rfl := eq_of_concerns hc hq hrequest
    exact hstays

/-- A call that concerns a place comes to the same in the world restricted to the place. -/
lemma call_only (hc : x.concerns ks p w = true) :
    (call (w.only (.place p) (ks p)) x []).only (.place p) (ks p) =
      (call w x []).only (.place p) (ks p) := by
  cases x with
  | connect q y r =>
    obtain rfl : q = p := by simpa [Call.concerns] using hc
    simp only [call, connectPlace, World.layers_only]
    split
    · simp
    · split_ifs <;> simp [refuse]
  | start q =>
    obtain rfl : q = p := by simpa [Call.concerns] using hc
    simp only [call, withPlace, World.get?_only]
    split <;> simp [refuse]
  | clear q =>
    obtain rfl : q = p := by simpa [Call.concerns] using hc
    simp only [call, withPlace, World.get?_only, World.dropAbove_only]
    split <;> simp [refuse]
  | tick =>
    cases hq : w.queue with
    | nil => simp [Call.concerns, hq] at hc
    | cons t rest =>
      have ht : t.site? = some (.place p) := by simpa [Call.concerns, hq] using hc
      simp [call, World.only, hq, ht]
  | request k =>
    have hk : k ∈ ks p := by simpa [Call.concerns] using hc
    simp only [call, World.request, World.isRequested_only hk]
    split_ifs <;> simp [World.only, hk]
  | _ => simp [Call.concerns] at hc

lemma run_call (n : Nat) : Config.run (n + 1) ⟨w, .call x, []⟩ = (call w x []).run n := rfl

lemma gifts_call (n : Nat) : Config.gifts (n + 1) ⟨w, .call x, []⟩ = (call w x []).gifts n := rfl

lemma run_request (n : Nat) (k : Int) : (call w (.request k) []).run n = call w (.request k) [] :=
  Config.run_of_isFinal (show Config.next _ = none from rfl) n

lemma gifts_request (n : Nat) (k : Int) : (call w (.request k) []).gifts n = [] := by
  cases n <;> rfl

lemma divided_request (hw : w.Divided ks) (k : Int) : (w.request k).1.Divided ks := by
  unfold World.request
  split_ifs
  · exact hw
  · exact ⟨hw.layers, hw.queue⟩

lemma only_request_of_notMem {s : Site} {js : List Int} {k : Int} (hk : k ∉ js) :
    (w.request k).1.only s js = w.only s js := by
  unfold World.request
  split_ifs
  · rfl
  · simp [World.only, hk]

/-- A call leaves the world divided, whether it is carried out to its end or not. -/
lemma divided_call (hw : w.Divided ks) (hx : x.Heeds ks) (n : Nat) :
    (w.call n x).1.Divided ks := by
  cases n with
  | zero => exact hw
  | succ n =>
    rw [World.call, run_call]
    rcases exists_stays_call hw hx with ⟨k, rfl⟩ | ⟨rfl, hq⟩ | ⟨p, -, hstays⟩
    · rw [run_request]
      exact divided_request hw k
    · rw [Config.run_of_isFinal (by simp [call, hq, Config.IsFinal, Config.next])]
      simpa [call, hq] using hw
    · exact (hstays.run n).minds.divided

/-- A call that does not concern a place changes nothing there, and gives nothing to its
receivers. -/
lemma only_call_of_not_concerns (hw : w.Divided ks) (hx : x.Heeds ks)
    (hc : x.concerns ks p w = false) (n : Nat) :
    (w.call n x).1.only (.place p) (ks p) = w.only (.place p) (ks p) ∧
      ∀ g ∈ (w.episode n x).given, g.1.site ≠ some (.place p) := by
  cases n with
  | zero => exact ⟨rfl, by simp [World.episode, Config.gifts]⟩
  | succ n =>
    simp only [World.call, World.episode, run_call, gifts_call]
    rcases exists_stays_call hw hx with ⟨k, rfl⟩ | ⟨rfl, hq⟩ | ⟨q, hq, hstays⟩
    · rw [run_request, gifts_request]
      exact ⟨only_request_of_notMem (by simpa [Call.concerns] using hc), by simp⟩
    · have hfinal : (call w .tick []).IsFinal := by simp [call, hq, Config.IsFinal, Config.next]
      rw [Config.run_of_isFinal hfinal]
      refine ⟨by simp [call, hq], fun g hg => ?_⟩
      cases n <;> simp [Config.gifts, show (call w .tick []).next = none from hfinal] at hg
    · have hne : p ≠ q := by
        rintro rfl
        simp [hc] at hq
      refine ⟨(hstays.run n).minds.elsewhere p hne _, fun g hg => ?_⟩
      rw [hstays.site_of_mem_gifts hg]
      simpa using hne.symm

/-- A call that concerns a place gives to receivers of that place only. -/
lemma site_of_mem_given (hw : w.Divided ks) (hx : x.Heeds ks) (hc : x.concerns ks p w = true)
    (n : Nat) : ∀ g ∈ (w.episode n x).given, g.1.site = some (.place p) := by
  cases n with
  | zero => simp [World.episode, Config.gifts]
  | succ n =>
    simp only [World.episode, gifts_call]
    by_cases hrequest : ∃ k, x = .request k
    · obtain ⟨k, rfl⟩ := hrequest
      simp [gifts_request]
    · have hrequest : ∀ k, x ≠ .request k := fun k hk => hrequest ⟨k, hk⟩
      exact fun g hg => (stays_call hw hx hc hrequest).site_of_mem_gifts hg

/-- In two worlds that are the same at a place, a call that concerns it ends the same way, gives the
same and leaves worlds that are the same at the place. -/
lemma call_congr (hw : w.Divided ks) (hv : v.Divided ks) (hx : x.Heeds ks)
    (hc : x.concerns ks p w = true) (hc' : x.concerns ks p v = true)
    (hwv : w.only (.place p) (ks p) = v.only (.place p) (ks p)) (n : Nat) :
    (w.call n x).1.only (.place p) (ks p) = (v.call n x).1.only (.place p) (ks p) ∧
      w.episode n x = v.episode n x := by
  cases n with
  | zero => exact ⟨hwv, rfl⟩
  | succ n =>
    have hcall : (call w x []).only (.place p) (ks p) = (call v x []).only (.place p) (ks p) := by
      rw [← call_only hc, hwv, call_only hc']
    obtain ⟨hrun, hgifts⟩ : ((call w x []).run n).only (.place p) (ks p) =
          ((call v x []).run n).only (.place p) (ks p) ∧
        (call w x []).gifts n = (call v x []).gifts n := by
      by_cases hrequest : ∃ k, x = .request k
      · obtain ⟨k, rfl⟩ := hrequest
        simp only [run_request, gifts_request, and_true]
        exact hcall
      · have hrequest : ∀ k, x ≠ .request k := fun k hk => hrequest ⟨k, hk⟩
        exact (stays_call hw hx hc hrequest).run_congr (stays_call hv hx hc' hrequest) hcall n
    obtain ⟨hworld, hcontrol, hstack⟩ := Config.eq_of_only_eq hrun
    refine ⟨hworld, ?_⟩
    simp only [World.episode, World.call, run_call, gifts_call, hgifts, Config.outcome, hcontrol,
      hstack]

end OneCall

/-! ### The calls that concern a place, made alone -/

/-- A divided world in which all tasks are those of one place. -/
structure World.Lone (ks : Sources) (p : Int) (v : World) : Prop where
  divided : v.Divided ks
  queue : ∀ t ∈ v.queue, t.site? = some (.place p)

section Alone

open Machine

variable {ks : Sources} {p : Int} {w v : World} {x : Call}

lemma World.Lone.of_minds (h : v.Lone ks p) {v' : World} (hm : v.Minds ks p v') :
    v'.Lone ks p where
  divided := hm.divided
  queue t ht := by
    obtain ⟨q, hq⟩ := hm.divided.queue t ht
    by_cases hne : q = p
    · rw [hq.site?_eq, hne]
    · have hqueue : (v'.only (.place q) []).queue = (v.only (.place q) []).queue := by
        rw [hm.elsewhere q hne]
      have hmem : t ∈ (v.only (.place q) []).queue := by
        rw [← hqueue]
        simp [only, ht, hq.site?_eq]
      exact h.queue t (List.mem_of_mem_filter hmem)

lemma World.Lone.call (h : v.Lone ks p) (hx : x.Heeds ks) (hc : x.concerns ks p v = true)
    (n : Nat) : (v.call n x).1.Lone ks p := by
  cases n with
  | zero => exact h
  | succ n =>
    rw [World.call, run_call]
    by_cases hrequest : ∃ k, x = .request k
    · obtain ⟨k, rfl⟩ := hrequest
      rw [run_request]
      refine ⟨divided_request h.divided k, ?_⟩
      have hqueue : (v.request k).1.queue = v.queue := by
        unfold World.request
        split_ifs <;> rfl
      simpa [Machine.call, hqueue] using h.queue
    · have hrequest : ∀ k, x ≠ .request k := fun k hk => hrequest ⟨k, hk⟩
      exact h.of_minds ((stays_call h.divided hx hc hrequest).run n).minds

/-- What concerns a place still does where only that place has tasks. -/
lemma World.Lone.concerns (h : v.Lone ks p)
    (hwv : w.only (.place p) (ks p) = v.only (.place p) (ks p))
    (hc : x.concerns ks p w = true) : x.concerns ks p v = true := by
  cases x with
  | tick =>
    cases hq : w.queue with
    | nil => simp [Call.concerns, hq] at hc
    | cons t rest =>
      have ht : t.site? = some (.place p) := by simpa [Call.concerns, hq] using hc
      have hqueue : v.queue = t :: rest.filter fun t => t.site? = some (.place p) := by
        have hfilter : v.queue.filter (fun t => t.site? = some (.place p)) = v.queue :=
          List.filter_eq_self.2 (by simpa using h.queue)
        rw [← hfilter]
        have hboth := congrArg World.queue hwv
        simpa [only, hq, ht] using hboth.symm
      simp [Call.concerns, hqueue, ht]
  | _ => exact hc

/-- Made alone, the calls that concern a place come to the same for it. -/
lemma World.Lone.own_alone (h : v.Lone ks p) (hw : w.Divided ks)
    (hwv : w.only (.place p) (ks p) = v.only (.place p) (ks p)) (n : Nat) (cs : List Call)
    (hcs : ∀ x ∈ cs, x.Heeds ks) :
    let own := w.own n ks p cs
    let alone := own.map Episode.call
    v.episodes n alone = own ∧
      ((w.episodes n cs).flatMap Episode.given).filter (fun g => g.1.site = some (.place p)) =
        own.flatMap Episode.given ∧
      (w.serve n cs).only (.place p) (ks p) = (v.serve n alone).only (.place p) (ks p) := by
  induction cs generalizing w v with
  | nil => exact ⟨rfl, rfl, hwv⟩
  | cons x cs ih =>
    obtain ⟨hx, hcs⟩ := List.forall_mem_cons.1 hcs
    have hw' := divided_call hw hx n
    cases hc : x.concerns ks p w with
    | true =>
      have hc' := h.concerns hwv hc
      obtain ⟨hworld, hepisode⟩ := call_congr hw h.divided hx hc hc' hwv n
      obtain ⟨hepisodes, hgiven, hserve⟩ := ih (h.call hx hc' n) hw' hworld hcs
      have hsite : (w.episode n x).given.filter (fun g => g.1.site = some (.place p)) =
          (w.episode n x).given :=
        List.filter_eq_self.2 (by simpa using site_of_mem_given hw hx hc n)
      refine ⟨?_, ?_, ?_⟩
      · simpa [own, hc, episodes, ← hepisode] using hepisodes
      · simp [own, hc, episodes, hgiven, hsite]
      · simpa [own, hc, serve] using hserve
    | false =>
      obtain ⟨hworld, hsite⟩ := only_call_of_not_concerns hw hx hc n
      obtain ⟨hepisodes, hgiven, hserve⟩ := ih h hw' (hworld.trans hwv) hcs
      have hsite : (w.episode n x).given.filter (fun g => g.1.site = some (.place p)) = [] :=
        List.filter_eq_nil_iff.2 (by simpa using hsite)
      refine ⟨?_, ?_, ?_⟩
      · simpa [own, hc] using hepisodes
      · simp [own, hc, episodes, hgiven, hsite]
      · simpa [own, hc, serve] using hserve

/-- A host connects senders without scripts to calm receivers of their places, starts and clears
what it has connected, runs single tasks and requests stops, in any order. Of these calls, those
that concern a place are made once more, alone. Each of them ends the same way, and gives the same
completions to final receivers; the receivers of the place are given no others. What was recorded
at the place is the same as well. -/
theorem World.places_independent (n : Nat) (cs : List Call) (hcs : ∀ x ∈ cs, x.Separate) (p : Int) :
    let own := World.own n (sourcesOf cs) p {} cs
    let alone := own.map Episode.call
    World.episodes n {} alone = own ∧
      ((World.episodes n {} cs).flatMap Episode.given).filter
          (fun g => g.1.site = some (.place p)) = own.flatMap Episode.given ∧
      (World.serve n {} cs).actsAt (.place p) = (World.serve n {} alone).actsAt (.place p) := by
  have hheeds : ∀ x ∈ cs, x.Heeds (sourcesOf cs) := by
    refine fun x hx => ⟨hcs x hx, fun q k hk => ?_⟩
    exact List.mem_filterMap.2 ⟨x, hx, hk⟩
  have hlone : ({} : World).Lone (sourcesOf cs) p := ⟨divided_empty, by simp⟩
  obtain ⟨hepisodes, hgiven, hserve⟩ := hlone.own_alone divided_empty rfl n cs hheeds
  refine ⟨hepisodes, hgiven, ?_⟩
  have hacts := congrArg (World.actsAt · (.place p)) hserve
  simpa using hacts

/-- Calls on two places. The completion at the first comes from a task; the receiver of the second
raises a payload. -/
def twoPlaces : List Call :=
  let first : Chain :=
    .bind (.leaf { label := "a", completion := .value 1, deferred := true }) (fun _ => none)
      (fun n => .ready (.value n)) .ready
  let second := Observer.mk "b" true (some 6) [] [.raise (.number 7)]
  [.connect 0 first.sender (.recorder (.place 0) (some 5)),
    .connect 1 (.ready .done) (.observer (.place 1) second),
    .start 0, .start 1, .request 6, .tick, .clear 1]

theorem World.twoPlaces_independent :
    let own := World.own 20 (sourcesOf twoPlaces) 0 {} twoPlaces
    let alone := own.map Episode.call
    own.map Episode.outcome = [.answered .nothing, .answered .nothing, .answered (.flag true)] ∧
      ((World.episodes 20 {} twoPlaces).map Episode.outcome)[3]? = some (.raised (.number 7)) ∧
      World.episodes 20 {} alone = own ∧
      ((World.episodes 20 {} twoPlaces).flatMap Episode.given).filter
          (fun g => g.1.site = some (.place 0)) = own.flatMap Episode.given ∧
      (World.serve 20 {} twoPlaces).actsAt (.place 0) =
        (World.serve 20 {} alone).actsAt (.place 0) := by
  refine ⟨by decide, by decide, World.places_independent 20 twoPlaces ?_ 0⟩
  simp [twoPlaces, Call.Separate, Chain.scriptless_sender, Sender.Scriptless, Receiver.Calm,
    Receiver.site, Action.isStep, Observer.reaction]

end Alone

end Handoff
