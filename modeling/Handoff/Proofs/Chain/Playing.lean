import Handoff.Proofs.Chain.Driving

/-!
# The machine plays a scene

`World.Rests` says that the place of a chain is as a scene has it: what stands there, what is
queued, and that the machine takes the course which the scene goes on with. The main statement is
`World.Rests.plays`: the machine comes to the beats of the scene, whatever the calls are.
-/

namespace Handoff

open Config Machine

/-! ### The machine plays a scene -/

variable {p : Int} {r : Receiver} {w : World}

/-- A world in which the place of a chain is as a scene says. -/
inductive World.Rests (p : Int) (r : Receiver) : World → Scene → Prop where
  | fresh {w : World} {begin : Bool → Course} {ls : List Layer} {n : Nat}
      (hw : w.Holds (.place p) ls n) (hq : w.queue = []) (hbegin : ∀ b, (begin b).Started)
      (hgo : ∀ w' : World, w'.Holds (.place p) ls n →
        (begin (w'.stops r.ownStop)).Realizes (.place p) [] r r.ownStop w' fun K =>
          ⟨w', .call (.start p), K⟩) :
      Rests p r w ⟨.fresh begin, w.requested⟩
  | finished {w : World} {st : Stretch} {v : Completion Value Failure}
      {late : List (Completion Value Failure)} (hw : w.Holds (.place p) st.layers st.count)
      (hq : w.queue = []) (hst : Layer.Started st.layers) :
      Rests p r w ⟨.begun (.finished st v late), w.requested⟩
  | pending {w : World} {st : Stretch} {r' : Receiver} {v : Completion Value Failure}
      {resume : Bool → Course} (hw : w.Holds (.place p) st.layers st.count)
      (hq : w.queue = [.complete v r']) (hx : (Course.pending st r' v resume).Started)
      (hgo : ∀ w' : World, w'.Holds (.place p) st.layers st.count →
        (resume (w'.stops r.ownStop)).Realizes (.place p) [] r r.ownStop w' fun K =>
          ⟨w', .complete r' v, K⟩) :
      Rests p r w ⟨.begun (.pending st r' v resume), w.requested⟩

namespace Machine

/-- A machine at its end that has answered, or else raised a payload. -/
def ends (w : World) (reply : Reply) (raised : Option Payload) : Config :=
  ⟨w, raised.elim (.done reply) .raised, []⟩

lemma isFinal_ends (w : World) (reply : Reply) (raised : Option Payload) :
    (ends w reply raised).IsFinal := by
  cases raised <;> rfl

lemma outcome_ends (w : World) (reply : Reply) (raised : Option Payload) :
    (ends w reply raised).outcome = raised.elim (.answered reply) .raised := by
  cases raised <;> rfl

lemma ends_nothing (w : World) (raised : Option Payload) :
    ends w .nothing raised = finishOr w raised [] := by
  cases raised <;> rfl

end Machine

lemma leads_discards (s : Site) (late : List (Completion Value Failure)) (w : World)
    (raised : Option Payload) (K : List Frame) :
    Leads (finishOr w raised (discards s late ++ K)) []
      (finishOr (w.note s (late.flatMap dropCarried)) raised K) := by
  induction late generalizing w with
  | nil => simpa [discards] using Leads.refl _
  | cons c late ih =>
    have hrest := ih (w.note s (dropCarried c))
    rw [World.note_note] at hrest
    cases raised with
    | none => exact .quiet rfl rfl hrest
    | some m => exact .quiet rfl rfl hrest

lemma sights_late (late : List (Completion Value Failure)) :
    Act.sights (late.flatMap dropCarried) = [] := by
  induction late with
  | nil => rfl
  | cons c late ih => simp [(partings_dropCarried c).sights_eq_nil, ih]

/-- A call that takes a course comes to the beat of that course. -/
lemma Course.Realizes.comes {x : Course} {c : List Frame → Config} {d : Config} {K : List Frame}
    {reply : Reply} (h : x.Realizes (.place p) [] r r.ownStop w c) (hr : r.Calm) (hx : x.Started)
    (hq : w.queue = []) (hd : Leads d [] (c K)) (hevents : d.world.events = w.events)
    (hK : ∀ w' raised, Leads (finishOr w' raised K) [] (ends w' reply raised)) :
    ∃ w', d.Comes (x.beat r reply) w' ∧ w'.Rests p r ⟨.begun x, w.requested⟩ := by
  have hsees {w' : World} {seen : List Act} (hs : w.Sees w' seen) : d.world.Sees w' seen :=
    (World.sees_of_events_eq hevents.symm).trans hs
  cases x with
  | finished st v late =>
    obtain ⟨-, -, hc⟩ := h
    set w₁ := w.after (.place p) st.layers st.count st.acts with hw₁
    set w₂ := (w₁.hear r v).note (.place p) (late.flatMap dropCarried) with hw₂
    have hleads : Leads d [(r, v)] (ends w₂ reply r.raises) :=
      hd.trans <| (hc K).trans <| (leads_hear hr w₁ v _).append_quiet <|
        (leads_discards _ late _ _ K).append_quiet (hK w₂ r.raises)
    have hseen : w.Sees w₂ (Act.sights st.acts) := by
      have hs := ((World.sees_after _ _ _ st.acts).trans (World.sees_hear r v)).trans
        (World.sees_note (w := w₁.hear r v) (.place p) (late.flatMap dropCarried))
      simpa [sights_late] using hs
    refine ⟨w₂, ⟨_, hleads, isFinal_ends .., outcome_ends .., rfl, hsees hseen⟩, ?_⟩
    -- The receiver is calm, so what stands in the place is still what the course left there.
    have hholds : w₂.Holds (.place p) st.layers st.count := by
      have hafter : w₁.Holds (.place p) st.layers st.count := World.holds_after
      rw [World.Holds, ← World.places_hear (r := r) (v := v)] at hafter
      exact hafter
    have hrequested : w₂.requested = w.requested :=
      (World.requested_hear (w := w₁) (r := r) (v := v)).trans rfl
    rw [← hrequested]
    exact .finished hholds (by simpa [hw₂, hw₁] using hq) hx
  | pending st r' v resume =>
    obtain ⟨hc, hresume⟩ := h
    set w₁ := (w.after (.place p) st.layers st.count st.acts).schedule (.complete v r') with hw₁
    have hleads : Leads d [] (ends w₁ reply none) := (hd.trans (hc K)).append_quiet (hK w₁ none)
    have hseen : w.Sees w₁ (Act.sights st.acts) := World.sees_after _ _ _ st.acts
    refine ⟨w₁, ⟨_, hleads, isFinal_ends .., rfl, rfl, hsees hseen⟩, ?_⟩
    have hafter : (w.after (.place p) st.layers st.count st.acts).Holds (.place p) st.layers
        st.count := World.holds_after
    have hholds : w₁.Holds (.place p) st.layers st.count := hafter
    exact .pending hholds (by simp [hw₁, hq]) hx hresume

namespace World.Rests

variable {x : Scene}

lemma requested_eq (h : w.Rests p r x) : x.requested = w.requested := by
  cases h <;> rfl

lemma stops_eq (h : w.Rests p r x) : x.stops r = w.stops r.ownStop := by
  rw [Scene.stops, h.requested_eq]
  rfl

/-- Where a place rests depends on places, the queue and stop sources only. -/
lemma transfer {w' : World} (h : w.Rests p r x) (hplaces : w'.places = w.places)
    (hqueue : w'.queue = w.queue) : w'.Rests p r { x with requested := w'.requested } := by
  have hholds {ls : List Layer} {n : Nat} (hw : w.Holds (.place p) ls n) :
      w'.Holds (.place p) ls n := by
    rw [World.Holds, hplaces]
    exact hw
  cases h with
  | fresh hw hq hbegin hgo => exact .fresh (hholds hw) (hqueue.trans hq) hbegin hgo
  | finished hw hq hst => exact .finished (hholds hw) (hqueue.trans hq) hst
  | pending hw hq hx hgo => exact .pending (hholds hw) (hqueue.trans hq) hx hgo

lemma leads_call_start {ls : List Layer} {n : Nat} (hw : w.Holds (.place p) ls n)
    (K : List Frame) :
    Leads ⟨w, .call (.start p), K⟩ [] ⟨w, .start (.place p) 0, K⟩ := by
  have hplace : w.places.get? (.place p) = some ⟨ls, n⟩ := hw
  exact .quiet (by simp [Config.next, Machine.call, withPlace, hplace]) rfl (.refl _)

lemma comes_restart {ls : List Layer} {n : Nat} (hw : w.Holds (.place p) ls n)
    (hls : Layer.Started ls) :
    Config.Comes ⟨w, .call (.start p), []⟩
      { outcome := .raised (Layer.refusal ls).fault.payload
        seen := Act.sights (Layer.refusal ls).acts }
      (w.note (.place p) (Layer.refusal ls).acts) := by
  have hrestart := leads_restart (s := .place p) hls w [] n [] []
  rw [List.nil_append, World.after_self hw] at hrestart
  refine ⟨_, (leads_call_start hw []).append_quiet hrestart, rfl, rfl, ?_, World.sees_note _ _⟩
  show w.after _ _ _ _ = _
  conv_rhs => rw [← World.after_self hw]
  rw [World.note_after]

lemma comes_request (w : World) (k : Int) :
    Config.Comes ⟨w, .call (.request k), []⟩
      { outcome := .answered (.flag (w.request k).2) } (w.request k).1 := by
  refine ⟨⟨(w.request k).1, .done (.flag (w.request k).2), []⟩, .quiet rfl rfl (.refl _), rfl, rfl,
    rfl, World.sees_of_events_eq ?_⟩
  rw [World.request]
  split <;> rfl

lemma request_eq (w : World) (k : Int) :
    (w.request k).1.places = w.places ∧ (w.request k).1.queue = w.queue ∧
      (w.request k).1.requested =
        (if w.requested.contains k then w.requested else k :: w.requested) ∧
      (w.request k).2 = !w.requested.contains k := by
  rw [World.request, World.isRequested]
  split <;> simp_all

/-- Whatever the call, the machine comes to what the scene says. -/
theorem next (h : w.Rests p r x) (hr : r.Calm) (d : Drive) :
    ∃ w', Config.Comes ⟨w, .call (d.call p), []⟩ (x.next r d).1 w' ∧
      w'.Rests p r (x.next r d).2 := by
  have hstops := h.stops_eq
  cases d with
  | start =>
    cases h with
    | fresh hw hq hbegin hgo =>
      simp only [Scene.next, Scene.start, hstops]
      exact (hgo w hw).comes hr (hbegin _) hq (.refl _) rfl fun w' raised => by
        rw [ends_nothing]; exact .refl _
    | finished hw hq hst => exact ⟨_, comes_restart hw hst, .finished hw hq hst⟩
    | pending hw hq hx hgo => exact ⟨_, comes_restart hw hx.1, .pending hw hq hx hgo⟩
  | task =>
    have hempty (hq : w.queue = []) : Config.Comes ⟨w, .call .tick, []⟩
        { outcome := .answered (.flag false) } w :=
      ⟨⟨w, .done (.flag false), []⟩, .quiet (by simp [Config.next, Machine.call, hq]) rfl (.refl _),
        rfl, rfl, rfl, World.sees_of_events_eq rfl⟩
    cases h with
    | fresh hw hq hbegin hgo => exact ⟨w, hempty hq, .fresh hw hq hbegin hgo⟩
    | finished hw hq hst => exact ⟨w, hempty hq, .finished hw hq hst⟩
    | @pending st r' v resume hw hq hx hgo =>
      set w₀ : World := { w with queue := [] } with hw₀
      have hstops₀ : w₀.stops r.ownStop = w.stops r.ownStop := rfl
      have htick : Leads ⟨w, .call .tick, []⟩ [] ⟨w₀, .complete r' v, [.answer (.flag true)]⟩ := by
        refine .quiet (d := ⟨w₀, .task (.complete v r'), [.answer (.flag true)]⟩) ?_ rfl
          (.quiet rfl rfl (.refl _))
        simp [Config.next, Machine.call, hq, hw₀]
      simp only [Scene.next, Scene.task, hstops, ← hstops₀]
      refine (hgo w₀ hw).comes hr (hx.2 _) rfl htick rfl fun w' raised => ?_
      cases raised with
      | none => exact .quiet rfl rfl (.refl _)
      | some m => exact .quiet rfl rfl (.refl _)
  | request k =>
    obtain ⟨hplaces, hqueue, hrequested, hflag⟩ := request_eq w k
    have hrests := h.transfer hplaces hqueue
    rw [hrequested, ← h.requested_eq] at hrests
    refine ⟨(w.request k).1, ?_, hrests⟩
    simp only [Scene.next, Scene.request, h.requested_eq, ← hflag]
    exact comes_request w k

/-- The machine plays what a scene says, whatever the calls are and in whatever order. -/
theorem plays (h : w.Rests p r x) (hr : r.Calm) (ds : List Drive) :
    ∃ w', w.Plays (ds.map (Drive.call p)) (x.play r ds).1 w' ∧ w'.Rests p r (x.play r ds).2 := by
  induction ds generalizing w x with
  | nil => exact ⟨w, .nil w, h⟩
  | cons d ds ih =>
    obtain ⟨w₁, hcomes, hrests⟩ := h.next hr d
    obtain ⟨w₂, hplays, hrests'⟩ := ih hrests
    exact ⟨w₂, .cons hcomes hplays, hrests'⟩

end World.Rests

/-! ### Connecting -/

namespace Chain

lemma comes_connect (c : Chain) (w : World) (p : Int) (r : Receiver)
    (hv : w.layers (.place p) = []) :
    Config.Comes ⟨w, .call (.connect p c.sender r), []⟩ { outcome := World.ended c.connectRaises }
      (c.connected w p r) := by
  have hconnect := leads_call_connect c w p r hv []
  have hsees := World.sees_after (w := w) (.place p)
    (c.lay (.place p) r 0 (w.nextSerial (.place p))).layers
    (c.lay (.place p) r 0 (w.nextSerial (.place p))).count
    (c.lay (.place p) r 0 (w.nextSerial (.place p))).acts
  rw [sights_lay] at hsees
  rw [← ends_nothing] at hconnect
  exact ⟨_, hconnect, isFinal_ends .., outcome_ends .., rfl, hsees⟩

/-- A chain that was connected in a vacant place is yet to take its course. -/
lemma rests_connected (c : Chain) (hc : c.connectRaises = none) (w : World) (p : Int)
    (hr : r.isChild = false) (hq : w.queue = []) :
    (c.connected w p r).Rests p r
      ⟨.fresh (c.course (.place p) r [] 0 (w.nextSerial (.place p))), w.requested⟩ := by
  have hw : (c.connected w p r).Holds (.place p) _ _ := World.holds_after
  refine .fresh hw hq (fun _ => started_course ..) fun w' hw' => ?_
  have hcourse := takesCourse (s := .place p) c [] r [] (w.nextSerial (.place p)) w' (.final hr) hc
    hw'
  exact hcourse.of_leads fun K => World.Rests.leads_call_start hw' K

/-- A binding that could not be connected leaves its place vacant. -/
lemma rests_vacant {c : Chain} {raises : Int64 → Option Payload} {next : Int64 → Chain}
    {promised : Signature} {m : Payload} (hc : c.connectRaises = some m) (w : World) (p : Int)
    (hq : w.queue = []) :
    ∃ n, ((bind c raises next promised).connected w p r).Rests p r
      ⟨.begun (.finished ⟨[], [], n⟩ .done []), w.requested⟩ := by
  have hlayers : ((bind c raises next promised).lay (.place p) r 0
      (w.nextSerial (.place p))).layers = [] := by
    simp [lay_bind, Laid.inside, raised_lay, hc]
  have hw : ((bind c raises next promised).connected w p r).Holds (.place p) _ _ :=
    World.holds_after
  rw [hlayers] at hw
  exact ⟨_, .finished hw hq trivial⟩

end Chain

end Handoff
