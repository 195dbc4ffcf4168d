import Handoff.Proofs.Agreement.Twin
import Handoff.Proofs.Delivery

/-!
# Twins in step

Two machines are twins if they do the same at the two sites, with twin operations in their worlds
and twin frames on their stacks, below which the blocked caller has more. Each move that the machine
at the place can make, its twin can make as well, and they are twins still: `Config.Twin.next`, put
together from one lemma for each function of the machine. `Config.Twin.leads` is about whole
courses, as long as they give one completion at most.
-/

namespace Handoff

/-! ### Machines -/

section Twins

variable (v : World) (p : Int)

/-- A run of a script at a place and its twin. -/
structure Run.Twin (r r' : Run) : Prop where
  id_eq : r'.id = r.id
  label_eq : r'.label = r.label
  site_eq : r.site = .place p
  site_eq' : r'.site = .wait
  height_eq : r'.height = r.height
  paired : Paired v p r.serial r'.serial
  owner_eq : r'.owner = r.owner
  receiver : Receiver.TwinHeld v p r.receiver r'.receiver

/-- The same is done next at both sites. -/
inductive Control.Twin : Control → Control → Prop
  | connect {s : Sender} (hs : s.Immediate) {r r' : Receiver} (hr : r.Twin v p r') (h : Nat) :
      Twin (.connect s r (.place p) h) (.connect s r' .wait h)
  | start (h : Nat) : Twin (.start (.place p) h) (.start .wait h)
  | complete {r r' : Receiver} (hr : r.Twin v p r') (c : Completion Value Failure) :
      Twin (.complete r c) (.complete r' c)
  | build (h : Nat) : Twin (.build (.place p) h) (.build .wait h)
  | follow {r r' : Run} (hr : r.Twin v p r') {steps : List Instr}
      (hs : ∀ i ∈ steps, i.isImmediate = true) : Twin (.follow r steps) (.follow r' steps)
  | done (a : Reply) : Twin (.done a) (.done a)
  | raised (m : Payload) : Twin (.raised m) (.raised m)

/-- The same is done later at both sites. -/
inductive Frame.Twin : Frame → Frame → Prop
  | guard (h : Nat) : Twin (.guard (.place p) h) (.guard .wait h)
  | handoff (h : Nat) : Twin (.handoff (.place p) h) (.handoff .wait h)
  | script {r r' : Run} (hr : r.Twin v p r') {rest : List Instr}
      (hs : ∀ i ∈ rest, i.isImmediate = true) : Twin (.script r rest) (.script r' rest)
  | attempt {r r' : Run} (hr : r.Twin v p r') {rest : List Instr}
      (hs : ∀ i ∈ rest, i.isImmediate = true) : Twin (.attempt r rest) (.attempt r' rest)
  | thenRaise (m : Option Payload) : Twin (.thenRaise m) (.thenRaise m)

/-- The frames of a machine and those of its twin, which has more frames at the bottom. -/
inductive Frame.Twins (bottom : List Frame) : List Frame → List Frame → Prop
  | base : Twins bottom [] bottom
  | cons {f f' : Frame} {K L : List Frame} (hf : f.Twin v p f') (hK : Twins bottom K L) :
      Twins bottom (f :: K) (f' :: L)

/-- A machine at a place and its twin in the frame of a blocked caller, who has been given what the
machine has recorded. -/
structure Config.Twin (bottom : List Frame) (g : Option (Completion Value Failure))
    (c d : Config) : Prop where
  world : World.Twin v p g c.world d.world
  control : c.control.Twin v p d.control
  stack : Frame.Twins v p bottom c.stack d.stack

end Twins

variable {v : World} {p : Int} {bottom : List Frame} {g : Option (Completion Value Failure)}
  {w u : World} {h : Nat} {K L : List Frame}

namespace Run.Twin

variable {r r' : Run}

lemma giveAway (hr : r.Twin v p r') : (Machine.giveAway r).Twin v p (Machine.giveAway r') :=
  { hr with receiver := hr.receiver.filter }

lemma reach_eq (hr : r.Twin v p r') : r'.reach = r.reach := by
  simp [Run.reach, hr.owner_eq]

lemma isAlive_eq (hr : r.Twin v p r') (hw : World.Twin v p g w u) : u.isAlive r' = w.isAlive r := by
  simp only [World.isAlive, hr.site_eq, hr.site_eq', hr.height_eq]
  obtain ⟨hl, hl'⟩ | ⟨l, l', hl, hl', ht⟩ := rel_cases (hw.layers.getElem? r.height)
  · simp [hl, hl']
  · rw [hl, hl']
    simp [ht.paired.eq_iff hr.paired]

/-- A run may use its receiver if its twin may. -/
lemma isUsable_eq (hr : r.Twin v p r') (hw : World.Twin v p g w u) :
    u.isUsable r' = w.isUsable r := by
  have hkeeps (h : Nat) : (u.binding? .wait h).any (·.keepsValueOf r.id) =
      (w.binding? (.place p) h).any (·.keepsValueOf r.id) := by
    obtain ⟨hb, hb'⟩ | ⟨b, b', hb, hb', ht⟩ := rel_cases (hw.binding? h)
    · rw [hb, hb']
    · rw [hb, hb']
      simp [Binding.keepsValueOf, ht.value_eq]
  simp only [World.isUsable, hr.owner_eq, hr.isAlive_eq hw, hr.site_eq, hr.site_eq', hr.id_eq,
    hkeeps]

lemma scopeOf_eq (hr : r.Twin v p r') (hw : World.Twin v p g w u) :
    u.scopeOf r' = w.scopeOf r := by
  simp only [World.scopeOf, hr.site_eq, hr.site_eq', hr.reach_eq, hw.scope_eq]

lemma note (hr : r.Twin v p r') (hw : World.Twin v p g w u) {acts acts' : List Act}
    (ha : Act.Twins v p acts acts') :
    World.Twin v p g (w.note r.site acts) (u.note r'.site acts') := by
  rw [hr.site_eq, hr.site_eq']
  exact hw.note ha

end Run.Twin

namespace Machine

/-! ### Functions of the machine -/

open Handoff.Frame (Twins)

variable {c : Completion Value Failure} {r r' : Receiver}

lemma twin_finish (hw : World.Twin v p g w u) (hK : Twins v p bottom K L) :
    (finish w K).Twin v p bottom g (finish u L) :=
  ⟨hw, .done _, hK⟩

lemma twin_fault (hw : World.Twin v p g w u) (f : Fault) (hK : Twins v p bottom K L) :
    (fault w f K).Twin v p bottom g (fault u f L) :=
  ⟨hw, .raised _, hK⟩

lemma twin_finishOr (hw : World.Twin v p g w u) (raised : Option Payload)
    (hK : Twins v p bottom K L) :
    (finishOr w raised K).Twin v p bottom g (finishOr u raised L) := by
  cases raised with
  | none => exact twin_finish hw hK
  | some m => exact ⟨hw, .raised m, hK⟩

/-! #### Connecting -/

lemma twin_connectLeaf (hw : World.Twin v p g w u) {make make' : Nat → Layer}
    (hmake : ∀ k k', Paired v p k k' → (make k).Twin v p (make' k')) (after : Option Payload)
    (hK : Twins v p bottom K L) :
    (connectLeaf w (.place p) h make after K).Twin v p bottom g
      (connectLeaf u .wait h make' after L) := by
  obtain ⟨w', u', taken, hfill, hfill', hw'⟩ := hw.fill h hmake
  simp only [connectLeaf, hfill, hfill']
  cases taken with
  | true => exact twin_finishOr hw' after hK
  | false => exact twin_fault hw' _ hK

lemma twin_connectScript (hw : World.Twin v p g w u) {s : Script} (hs : s.Immediate)
    (hr : r.Twin v p r') (hK : Twins v p bottom K L) :
    (connectScript w s r (.place p) h K).Twin v p bottom g
      (connectScript u s r' .wait h L) := by
  have hnote : World.Twin v p g (w.note (.place p) [.connected s.label])
      (u.note .wait [.connected s.label]) :=
    hw.note (Act.twins_note.2 (.plain rfl))
  have hmake (k k' : Nat) (hk : Paired v p k k') :
      (Layer.script k s (some r)).Twin v p (.script k' s (some r')) :=
    .script hk hs (.some hr)
  obtain ⟨hdrop, hdrop'⟩ := hr.drop_eq
  unfold connectScript
  cases s.connecting with
  | fill => exact twin_connectLeaf hnote hmake none hK
  | half m => exact twin_connectLeaf hnote hmake (some m) hK
  | raise m =>
    rw [hdrop, hdrop']
    exact ⟨hnote.note .nil, .raised m, hK⟩
  | deliver d m =>
    simp only [hnote.scope_eq]
    exact ⟨hnote, .complete hr _, .cons (.thenRaise m) hK⟩

lemma twin_connect (hw : World.Twin v p g w u) {s : Sender} (hs : s.Immediate)
    (hr : r.Twin v p r') (hK : Twins v p bottom K L) :
    (connect w s r (.place p) h K).Twin v p bottom g (connect u s r' .wait h L) := by
  have hnote (label : String) : World.Twin v p g (w.note (.place p) [.connected label])
      (u.note .wait [.connected label]) :=
    hw.note (Act.twins_note.2 (.plain rfl))
  obtain ⟨hdrop, hdrop'⟩ := hr.drop_eq
  cases s with
  | ready c => exact twin_connectLeaf hw (fun k k' hk => .ready hk c hr) none hK
  | leaf l =>
    exact twin_connectLeaf (hnote l.label) (fun k k' hk => .leaf hk hs (.some hr)) none hK
  | exploding built =>
    cases built with
    | none =>
      simp only [connect, hdrop, hdrop']
      exact twin_fault (hw.note .nil) _ hK
    | some label =>
      exact twin_connectLeaf (hnote label) (fun k k' hk => .leaf hk rfl (.some hr)) _ hK
  | script s => exact twin_connectScript hw hs hr hK
  | either which s =>
    have hmake (k k' : Nat) (hk : Paired v p k k') :
        (Layer.either k which).Twin v p (.either k' which) :=
      .either hk which
    obtain ⟨w', u', taken, hfill, hfill', hw'⟩ := hw.fill h hmake
    simp only [connect, hfill, hfill', hdrop, hdrop', List.append_nil]
    have hs : s.Immediate := hs
    cases taken with
    | true => exact ⟨hw', .connect hs hr _, .cons (.guard h) hK⟩
    | false => exact twin_fault (hw'.note (Act.twins_drop_sender s)) _ hK
  | bind x f next =>
    obtain ⟨hx, hnext⟩ := hs
    have hlog : World.Twin v p g
        (w.note (.place p) [.logged (w.nextSerial (.place p)) .connecting])
        (u.note .wait [.logged (u.nextSerial .wait) .connecting]) :=
      hw.note (Act.twins_note.2 (.logged hw.next _))
    have hmake (k k' : Nat) (hk : Paired v p k k') :
        (newBinding f next r k).Twin v p (newBinding f next r' k') := by
      refine .bind ⟨hk, rfl, ?_, .some hr, rfl, rfl, rfl⟩
      rintro f' next' ⟨rfl⟩
      exact hnext
    obtain ⟨w', u', taken, hfill, hfill', hw'⟩ := hlog.fill h hmake
    simp only [connect, hfill, hfill']
    cases taken with
    | true => exact ⟨hw', .connect hx (.child .predecessor h) _, .cons (.guard h) hK⟩
    | false => exact twin_fault (hw'.note (Act.twins_drop_sender x)) _ hK

/-! #### Starting -/

lemma twin_startLeaf (hw : World.Twin v p g w u) {l : Leaf} (hl : l.deferred = false)
    (hr : r.Twin v p r') (hK : Twins v p bottom K L) :
    (startLeaf w l r (.place p) K).Twin v p bottom g (startLeaf u l r' .wait L) := by
  have hnote (t t' : String) : World.Twin v p g
      (w.note (.place p) (if l.inspecting then [.remark t] else []))
      (u.note .wait (if l.inspecting then [.remark t'] else [])) := by
    refine hw.note ?_
    split_ifs
    · exact Act.twins_note.2 (.remark t t')
    · exact .nil
  have hwalked := hnote ("chain " ++ l.label ++ ": " ++ " > ".intercalate (w.namesFrom r))
    ("chain " ++ l.label ++ ": " ++ " > ".intercalate (u.namesFrom r'))
  obtain ⟨hstopped, hstopped'⟩ := hwalked.isStopped_eq hr
  simp only [startLeaf, hl, hstopped, hstopped', Bool.false_eq_true, if_false]
  exact ⟨hwalked, .complete hr _, hK⟩

lemma twin_firstRun (hw : World.Twin v p g w u) {s : Script} (hr : r.Twin v p r') {k k' : Nat}
    (hk : Paired v p k k') :
    (firstRun w s r (.place p) h k).Twin v p (firstRun u s r' .wait h k') := by
  refine ⟨hw.runs_eq, rfl, rfl, rfl, rfl, hk, ?_, .some hr⟩
  cases hr <;> rfl

lemma twin_start (hw : World.Twin v p g w u) (hK : Twins v p bottom K L) :
    (start w (.place p) h K).Twin v p bottom g (start u .wait h L) := by
  have hnote (label : String) : World.Twin v p g (w.note (.place p) [.started label])
      (u.note .wait [.started label]) :=
    hw.note (Act.twins_note.2 (.plain rfl))
  unfold start
  obtain ⟨hl, hl'⟩ | ⟨l, l', hl, hl', ht⟩ := rel_cases (hw.layers.getElem? h)
  · rw [hl, hl']
    exact twin_fault hw _ hK
  · rw [hl, hl']
    cases ht with
    | ready hk c hr => exact ⟨hw.setLayer (.started hk), .complete hr c, hK⟩
    | started hk => exact twin_fault hw _ hK
    | @leaf _ _ hk l hinline _ _ hr =>
      cases hr with
      | some hr =>
        exact twin_startLeaf ((hnote l.label).setLayer (.leaf hk hinline .none)) hinline hr hK
      | none => exact twin_fault (hnote l.label) _ hK
    | @script _ _ hk s hs _ _ hr =>
      cases hr with
      | some hr =>
        exact ⟨((hnote s.label).setLayer (.script hk hs .none)).nextRun,
          .follow (twin_firstRun hw hr hk) hs, hK⟩
      | none => exact twin_fault (hnote s.label) _ hK
    | either hk which => exact ⟨hw, .start _, hK⟩
    | @bind b b' hb =>
      have hlog := hw.note (Act.twins_note.2 (.logged hb.paired .starting))
      simp only [hb.storage_eq]
      split_ifs
      · exact ⟨hlog, .start _, hK⟩
      · exact twin_fault hlog _ hK

/-! #### Completing -/

lemma twin_pass (hw : World.Twin v p g w u) {b b' : Binding} (hb : b.Twin v p b')
    (c : Completion Value Failure) (hK : Twins v p bottom K L) :
    (pass w (.place p) h b c K).Twin v p bottom g (pass u .wait h b' c L) := by
  unfold pass
  obtain ⟨hr, hr'⟩ | ⟨r, r', hr, hr', ht⟩ := rel_cases hb.receiver
  · rw [hr, hr']
    exact twin_fault (hw.note (Act.twins_dropCarried c)) _ hK
  · rw [hr, hr']
    exact ⟨hw.setBinding hb.spend, .complete ht c, hK⟩

lemma twin_accept (hw : World.Twin v p g w u) {b b' : Binding} (hb : b.Twin v p b') (x : Value)
    (hK : Twins v p bottom K L) :
    (accept w (.place p) h b x K).Twin v p bottom g (accept u .wait h b' x L) := by
  have hstored := hw.setBinding (h := h) (hb.store x)
  refine ⟨(hstored.dropAbove (h + 1) false).setBinding (hb.store x).vacate, ?_,
    .cons (.handoff h) hK⟩
  simp only [accept, hstored.dropAbove_raised_eq]
  cases (World.dropAbove _ (.place p) (h + 1) false).2 with
  | none => exact .build h
  | some m => exact .raised m

lemma twin_receive (hw : World.Twin v p g w u) {b b' : Binding} (hb : b.Twin v p b')
    (role : Role) (c : Completion Value Failure) (hK : Twins v p bottom K L) :
    (receive w role (.place p) h b c K).Twin v p bottom g (receive u role .wait h b' c L) := by
  have hlog (r : Record) : World.Twin v p g (w.note (.place p) [.logged b.serial r])
      (u.note .wait [.logged b'.serial r]) :=
    hw.note (Act.twins_note.2 (.logged hb.paired r))
  cases role with
  | predecessor =>
    cases c with
    | value x =>
      refine twin_accept (hw.note ?_) hb x hK
      exact .cons (.logged hb.paired _) (Act.twins_note.2 (.stored hb.paired))
    | error e => exact twin_pass (hlog _) hb _ hK
    | done => exact twin_pass (hlog _) hb _ hK
  | successor => exact twin_pass hw hb _ hK

lemma twin_build (hw : World.Twin v p g w u) (hK : Twins v p bottom K L) :
    (build w (.place p) h K).Twin v p bottom g (build u .wait h L) := by
  unfold build
  obtain ⟨hb, hb'⟩ | ⟨b, b', hb, hb', ht⟩ := rel_cases (hw.binding? h)
  · rw [hb, hb']
    exact twin_finish hw hK
  rw [hb, hb']
  simp only [ht.factory_eq, ht.stored_eq, hw.scope_eq]
  cases hf : b.factory with
  | none => exact twin_fault (hw.setBinding ht.call) _ hK
  | some f =>
    obtain ⟨f, next⟩ := f
    simp only
    generalize f.call (b.stored ++ w.scope (.place p) h) = made
    have hacts : Act.Twins v p
        (b.stored.map (.called b.serial f.label) ++ made.remarks.map .remark)
        (b.stored.map (.called b'.serial f.label) ++ made.remarks.map .remark) := by
      refine List.rel_append ?_ (Act.twins_self ?_)
      · simp [List.forall₂_map_left_iff, List.forall₂_map_right_iff, List.forall₂_same,
          Act.Twin.called ht.paired]
      · simp [Act.isPlain, Act.isBooked]
    have hcalled := (hw.note hacts).setScope (h := h) (made.env.drop b.stored.length)
    have hrestored := ht.call.restore made.env
    cases made.raised with
    | some m => exact ⟨hcalled.setBinding hrestored, .raised m, hK⟩
    | none =>
      refine ⟨World.Twin.setBinding (hcalled.note ?_) hrestored.emplace,
        .connect (ht.immediate f next hf _) (.child .successor h) _, hK⟩
      exact Act.twins_note.2 (.logged hrestored.paired _)

/-- A handle is completed as its twin is. -/
lemma twin_complete_child (hw : World.Twin v p g w u) (role : Role)
    (c : Completion Value Failure) (hK : Twins v p bottom K L) :
    (complete w (.child role (.place p) h) c K).Twin v p bottom g
      (complete u (.child role .wait h) c L) := by
  obtain ⟨hb, hb'⟩ | ⟨b, b', hb, hb', ht⟩ := rel_cases (hw.binding? h)
  · simp only [complete, hb, hb']
    exact twin_finish (hw.note (Act.twins_dropCarried c)) hK
  · simp only [complete, hb, hb', ht.cleanup_eq]
    split_ifs
    · exact twin_receive hw ht role c hK
    · exact twin_fault (hw.note (Act.twins_dropCarried c)) _ hK

/-- What is recorded at the place, the blocked caller is given. -/
lemma twin_complete_final (hw : World.Twin v p none w u) (c : Completion Value Failure)
    (hK : Twins v p bottom K L) :
    (complete w (.recorder (.place p) none) c K).Twin v p bottom (some c)
      (complete u (.waiter v.waits) c L) := by
  simp only [complete, completeWaiter, hw.waiter_eq, if_true]
  exact twin_finish (hw.give c) hK

/-! #### Following a script -/

variable {x x' : Run}

lemma twin_dropReceiver (hw : World.Twin v p g w u) (hx : x.Twin v p x') :
    World.Twin v p g (dropReceiver w x) (dropReceiver u x') := by
  obtain ⟨hdrop, hdrop'⟩ := hx.receiver.dropHeld_eq
  refine hx.note hw ?_
  rw [hdrop, hdrop']
  exact .nil

lemma twin_deliver (hw : World.Twin v p g w u) (hx : x.Twin v p x') (d : Delivery)
    {frame : Run → Frame} (hf : ∀ {y y' : Run}, y.Twin v p y' → (frame y).Twin v p (frame y'))
    (hK : Twins v p bottom K L) :
    (deliver w x d frame K).Twin v p bottom g (deliver u x' d frame L) := by
  simp only [deliver, hx.scopeOf_eq hw, hx.id_eq]
  obtain ⟨hr, hr'⟩ | ⟨r, r', hr, hr', ht⟩ := rel_cases hx.receiver
  · rw [hr, hr']
    exact twin_fault (hx.note hw (Act.twins_dropCarried _)) _ (.cons (hf hx) hK)
  · rw [hr, hr']
    exact ⟨hw, .complete ht _, .cons (hf hx.giveAway) hK⟩

lemma twin_instruct (hw : World.Twin v p g w u) (hx : x.Twin v p x') {i : Instr}
    {rest : List Instr} (hi : i.isImmediate = true) (hs : ∀ i ∈ rest, i.isImmediate = true)
    (hK : Twins v p bottom K L) :
    (instruct w x i rest K).Twin v p bottom g (instruct u x' i rest L) := by
  have hremark (t t' : String) :
      World.Twin v p g (w.note x.site [.remark t]) (u.note x'.site [.remark t']) :=
    hx.note hw (Act.twins_note.2 (.remark t t'))
  have hfollow : Control.Twin v p (.follow x rest) (.follow x' rest) := .follow hx hs
  cases i with
  | complete d => exact twin_deliver hw hx d (fun hy => .script hy hs) hK
  | attempt d => exact twin_deliver hw hx d (fun hy => .attempt hy hs) hK
  | askStop => exact ⟨hremark _ _, hfollow, hK⟩
  | stopDone =>
    have hany : x.receiver.any w.isStopped = false ∧ x'.receiver.any u.isStopped = false := by
      obtain ⟨hr, hr'⟩ | ⟨r, r', hr, hr', ht⟩ := rel_cases hx.receiver
      · rw [hr, hr']
        exact ⟨rfl, rfl⟩
      · rw [hr, hr']
        exact hw.isStopped_eq ht
    simp only [instruct, hany, Bool.false_eq_true, if_false]
    exact ⟨hw, hfollow, hK⟩
  | chain => exact ⟨hremark _ _, hfollow, hK⟩
  | info =>
    simp only [instruct, hx.label_eq]
    exact ⟨hx.note hw (Act.twins_note.2 (.walked _ _ _)), hfollow, hK⟩
  | request k =>
    have hrequest := (hw.request k).1
    exact ⟨hx.note hrequest (Act.twins_note.2 (.remark _ _)), hfollow, hK⟩
  | log s => exact ⟨hremark _ _, hfollow, hK⟩
  | peek d => exact ⟨hremark _ _, hfollow, hK⟩
  | poke d n =>
    simp only [instruct, hx.scopeOf_eq hw, hx.reach_eq, hx.site_eq, hx.site_eq']
    exact ⟨hw.setScope _, hfollow, hK⟩
  | raise m => exact ⟨twin_dropReceiver hw hx, .raised m, hK⟩
  | forget =>
    have hforgot : Run.Twin v p { x with receiver := none } { x' with receiver := none } :=
      { hx with receiver := .none }
    exact ⟨twin_dropReceiver hw hx, .follow hforgot hs, hK⟩
  | defer => simp [Instr.isImmediate] at hi
  | later steps => simp [Instr.isImmediate] at hi

lemma twin_follow (hw : World.Twin v p g w u) (hx : x.Twin v p x') {steps : List Instr}
    (hs : ∀ i ∈ steps, i.isImmediate = true) (hK : Twins v p bottom K L) :
    (follow w x steps K).Twin v p bottom g (follow u x' steps L) := by
  cases steps with
  | nil => exact twin_finish (twin_dropReceiver hw hx) hK
  | cons i rest =>
    obtain ⟨hi, hrest⟩ := List.forall_mem_cons.1 hs
    have hinstruct := twin_instruct hw hx hi hrest hK
    simp only [follow, hx.isUsable_eq hw]
    split_ifs
    · exact hinstruct
    · cases i with
      | log s => exact hinstruct
      | raise m => exact hinstruct
      | _ => exact ⟨hw, .follow hx hrest, hK⟩

/-! #### Returning and unwinding -/

variable {f f' : Frame}

lemma twin_resume (hw : World.Twin v p g w u) (a : Reply) (hf : f.Twin v p f')
    (hK : Twins v p bottom K L) :
    (resume w a f K).Twin v p bottom g (resume u a f' L) := by
  cases hf with
  | guard h => exact twin_finish hw hK
  | handoff h =>
    obtain ⟨hb, hb'⟩ | ⟨b, b', hb, hb', ht⟩ := rel_cases (hw.binding? h)
    · simp only [resume, hb, hb']
      exact twin_finish hw hK
    · simp only [resume, hb, hb']
      exact ⟨hw.setBinding ht.settle, .start _, hK⟩
  | script hr hs => exact ⟨hw, .follow hr hs, hK⟩
  | attempt hr hs => exact ⟨hw, .follow hr hs, hK⟩
  | thenRaise m => exact twin_finishOr hw m hK

lemma twin_unwind (hw : World.Twin v p g w u) (m : Payload) (hf : f.Twin v p f')
    (hK : Twins v p bottom K L) :
    (unwind w m f K).Twin v p bottom g (unwind u m f' L) := by
  cases hf with
  | guard h => exact ⟨hw.dropAbove h true, .raised m, hK⟩
  | handoff h =>
    obtain ⟨hb, hb'⟩ | ⟨b, b', hb, hb', ht⟩ := rel_cases (hw.binding? h)
    · simp only [unwind, hb, hb']
      exact ⟨hw, .raised m, hK⟩
    · simp only [unwind, hb, hb']
      exact twin_pass (hw.note (Act.twins_note.2 (.logged ht.paired _))) ht _ hK
  | script hr hs => exact ⟨twin_dropReceiver hw hr, .raised m, hK⟩
  | attempt hr hs =>
    simp only [unwind, hr.label_eq]
    exact ⟨hr.note hw (Act.twins_note.2 (.plain rfl)), .follow hr hs, hK⟩
  | thenRaise m' => exact ⟨hw, .raised m, hK⟩

end Machine

/-! ### Courses -/

namespace Config.Twin

open Machine

variable {c c' d : Config} {ps : List Parcel}

/-- A move that the machine at a place makes without giving anything to its final receiver, its twin
makes as well. -/
lemma next_quiet (ht : c.Twin v p bottom g d) (hm : c.Moves c') (hg : c.given = []) :
    ∃ d', d.next = some d' ∧ d.given = [] ∧ c'.Twin v p bottom g d' := by
  obtain ⟨w, x, K⟩ := c
  obtain ⟨u, y, L⟩ := d
  obtain ⟨hw, hx, hK⟩ := ht
  cases hx with
  | connect hs hr h =>
    obtain rfl : _ = c' := Option.some.inj hm
    exact ⟨_, rfl, rfl, twin_connect hw hs hr hK⟩
  | start h =>
    obtain rfl : _ = c' := Option.some.inj hm
    exact ⟨_, rfl, rfl, twin_start hw hK⟩
  | complete hr a =>
    cases hr with
    | child role i =>
      obtain rfl : _ = c' := Option.some.inj hm
      exact ⟨_, rfl, rfl, twin_complete_child hw role a hK⟩
    | final => simp [given, Receiver.isChild] at hg
  | build h =>
    obtain rfl : _ = c' := Option.some.inj hm
    exact ⟨_, rfl, rfl, twin_build hw hK⟩
  | follow hr hs =>
    obtain rfl : _ = c' := Option.some.inj hm
    exact ⟨_, rfl, rfl, twin_follow hw hr hs hK⟩
  | done a =>
    cases hK with
    | base => exact absurd hm (by simp [Moves, Config.next])
    | cons hf hK =>
      obtain rfl : _ = c' := Option.some.inj hm
      exact ⟨_, rfl, rfl, twin_resume hw a hf hK⟩
  | raised m =>
    cases hK with
    | base => exact absurd hm (by simp [Moves, Config.next])
    | cons hf hK =>
      obtain rfl : _ = c' := Option.some.inj hm
      exact ⟨_, rfl, rfl, twin_unwind hw m hf hK⟩

/-- What the final receiver at a place is given, its twin gives to the blocked caller. -/
lemma next_given (ht : c.Twin v p bottom none d) (hm : c.Moves c') {q : Parcel}
    (hg : c.given = [q]) :
    ∃ d', d.next = some d' ∧ d.given = [(.waiter v.waits, q.2)] ∧
      c'.Twin v p bottom (some q.2) d' := by
  obtain ⟨w, x, K⟩ := c
  obtain ⟨u, y, L⟩ := d
  obtain ⟨hw, hx, hK⟩ := ht
  cases hx with
  | complete hr a =>
    cases hr with
    | child role i => simp [given, Receiver.isChild] at hg
    | final =>
      obtain rfl : (.recorder (.place p) none, a) = q := by
        simpa [given, Receiver.isChild] using hg
      obtain rfl : _ = c' := Option.some.inj hm
      exact ⟨_, rfl, rfl, twin_complete_final hw a hK⟩
  | _ => simp [given] at hg

/-- One move of a machine is one move of its twin. -/
theorem next (ht : c.Twin v p bottom g d) (hm : c.Moves c')
    (hn : g.toList.length + c.given.length ≤ 1) :
    ∃ d' g', d.next = some d' ∧ d.given = c.given.map (fun q => (.waiter v.waits, q.2)) ∧
      g'.toList = g.toList ++ c.given.map Prod.snd ∧ c'.Twin v p bottom g' d' := by
  cases hg : c.given with
  | nil =>
    obtain ⟨d', hd, hgiven, ht'⟩ := ht.next_quiet hm hg
    exact ⟨d', g, hd, hgiven, by simp, ht'⟩
  | cons q rest =>
    simp only [hg, List.length_cons] at hn
    obtain rfl : rest = [] := List.length_eq_zero_iff.1 (by omega)
    obtain rfl : g = none := by
      rw [← Option.toList_eq_nil_iff]
      exact List.length_eq_zero_iff.1 (by simp at hn ⊢; omega)
    obtain ⟨d', hd, hgiven, ht'⟩ := ht.next_given hm hg
    exact ⟨d', some q.2, hd, hgiven, by simp, ht'⟩

/-- A course that gives one completion at most is a course of the twin, which gives the same to the
blocked caller. -/
theorem leads (h : Leads c ps c') (ht : c.Twin v p bottom g d)
    (hn : g.toList.length + ps.length ≤ 1) :
    ∃ d' g', Leads d (ps.map fun q => (.waiter v.waits, q.2)) d' ∧
      g'.toList = g.toList ++ ps.map Prod.snd ∧ c'.Twin v p bottom g' d' := by
  induction h generalizing g d with
  | refl c => exact ⟨d, g, .refl d, by simp, ht⟩
  | step hm _ ih =>
    rw [List.length_append] at hn
    obtain ⟨d₁, g₁, hd, hgiven, hg₁, ht₁⟩ := ht.next hm (by omega)
    have hlen : g₁.toList.length = _ := congrArg List.length hg₁
    rw [List.length_append, List.length_map] at hlen
    obtain ⟨d₂, g₂, hleads, hg₂, ht₂⟩ := ih ht₁ (by omega)
    refine ⟨d₂, g₂, ?_, by simp [hg₂, hg₁], ht₂⟩
    rw [List.map_append, ← hgiven]
    exact .step hd hleads

end Config.Twin

end Handoff
