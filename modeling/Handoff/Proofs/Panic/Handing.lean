import Handoff.Proofs.Panic.Completing

/-!
# Handing over

Amid a handoff the factory is called and the successor connected, which may go to any depth before a
payload is raised. On its way out the payload takes down what was connected, guard by guard, and
comes to the operation that hands over, which has its receiver still. The main statement is that
every move of the machine leads from one phase of a run to another.
-/

namespace Handoff

open Machine
open Layer (offer Open)

variable {o r : Receiver} {s : Site} {n : Nat} {w w' : World} {K : List Frame}
  {base settled outer inner below above : List Layer} {l : Layer} {b : Binding}

/-! ### Connecting -/

lemma Footing.length_eq (h : Footing o s base settled K) : settled.length = base.length := by
  cases h with
  | vacant => rfl
  | handoff hb hK => simp

lemma World.exists_fill {h : Nat} (hlen : (w.layers s).length = h) (make : Nat → Layer) :
    ∃ w', w.fill s h make = (w', true) ∧
      w'.layers s = w.layers s ++ [make (w.nextSerial s)] ∧
      w'.nextSerial s = w.nextSerial s + 1 ∧ w'.queue = w.queue := by
  have hv : w.isVacant s h = true := by simp [isVacant, hlen]
  refine ⟨_, fill_of_isVacant hv make, ?_, ?_, rfl⟩
  · simp
  · simp [nextSerial]

lemma World.Lawful.filled (hw : w.Lawful s) (hl : w'.layers s = w.layers s ++ [l])
    (hlaw : l.Lawful) (hq : w'.queue = w.queue) : w'.Lawful s := by
  refine hw.of_layers ?_ hq
  intro x hx
  rw [hl, List.mem_append, List.mem_singleton] at hx
  rcases hx with hx | rfl
  · exact .inl hx
  · exact .inr hlaw

/-- A leaf fills its slot, and may raise a payload afterwards. -/
lemma onward_connectLeaf (hw : w.Lawful s) (hf : Footing o s base settled K)
    (hl : w.layers s = base ++ outer) (ho : ∀ l ∈ outer, l.descends = true) (hq : w.spare = [])
    (hr : Open o s (settled ++ outer) r) (make : Nat → Layer) (hserial : ∀ k, (make k).serial = k)
    (hlaw : ∀ k, (make k).Lawful) (hoffer : ∀ k r', offer [make k] = some r' → r' = r)
    (after : Option Payload) :
    Onward o s 1 w (connectLeaf w s (base.length + outer.length) make after
      (Frame.guards s base.length outer.length ++ K)) := by
  have hlen : (w.layers s).length = base.length + outer.length := by simp [hl]
  obtain ⟨w', hfill, hl', hcount, hqueue⟩ := World.exists_fill hlen make
  set x := make (w.nextSerial s) with hx
  have hlaw' : w'.Lawful s := hw.filled hl' (hlaw _) hqueue
  have hages : w.Ages s w' := .filled hl' hcount (hserial _)
  have hspare : w'.spare = [] := (World.spare_eq_of_queue hqueue).trans hq
  rw [hl, List.append_assoc] at hl'
  have hopen (r' : Receiver) (h : offer [x] = some r') :
      Open o s (settled ++ (outer ++ [x])) r' := by
    obtain rfl := hoffer _ r' h
    rw [← List.append_assoc]
    exact hr.append [x]
  simp only [connectLeaf, hfill]
  cases after with
  | none =>
    refine ⟨.connected hlaw' hf hl' hspare fun r' h => hopen r' ?_, hages⟩
    rwa [Layer.offer_append_of_descends ho] at h
  | some m => exact ⟨.failed hlaw' hf hl' ho hspare hopen, hages⟩

lemma thread_nest {x : Sender} {r' : Receiver} (hw : w'.Lawful s)
    (hf : Footing o s base settled K) (hl : w'.layers s = base ++ (outer ++ [l]))
    (ho : ∀ l ∈ outer, l.descends = true) (hdesc : l.descends = true) (hq : w'.spare = [])
    (hx : x.Lawful) (hr : Open o s (settled ++ (outer ++ [l])) r') :
    Thread o s 1 ⟨w', .connect x r' s (base.length + outer.length + 1),
      .guard s (base.length + outer.length) :: (Frame.guards s base.length outer.length ++ K)⟩ := by
  have ho' : ∀ x ∈ outer ++ [l], x.descends = true := by
    intro x hx
    rcases List.mem_append.1 hx with hx | hx
    · exact ho x hx
    · obtain rfl := List.mem_singleton.1 hx
      exact hdesc
  have hthread := Thread.connecting hw hf hl ho' hq hx hr
  rw [List.length_append, List.length_singleton] at hthread
  exact hthread

lemma onward_connect {x : Sender} (hw : w.Lawful s) (hf : Footing o s base settled K)
    (hl : w.layers s = base ++ outer) (ho : ∀ l ∈ outer, l.descends = true) (hq : w.spare = [])
    (hx : x.Lawful) (hr : Open o s (settled ++ outer) r) :
    Onward o s 1 w (connect w x r s (base.length + outer.length)
      (Frame.guards s base.length outer.length ++ K)) := by
  have hlaw (acts : List Act) : (w.note s acts).Lawful s :=
    hw.of_like (.of_places rfl) rfl
  have hages (acts : List Act) : w.Ages s (w.note s acts) := World.Like.ages (.of_places rfl)
  have hleaf (acts : List Act) (make : Nat → Layer) (hserial : ∀ k, (make k).serial = k)
      (hm : ∀ k, (make k).Lawful) (hoffer : ∀ k r', offer [make k] = some r' → r' = r)
      (after : Option Payload) : Onward o s 1 w (connectLeaf (w.note s acts) s
        (base.length + outer.length) make after (Frame.guards s base.length outer.length ++ K)) :=
    (onward_connectLeaf (hlaw acts) hf hl ho hq hr make hserial hm hoffer after).after (hages acts)
  have hfail (acts : List Act) (m : Payload) : Onward o s 1 w ⟨w.note s acts, .raised m,
      Frame.guards s base.length outer.length ++ K⟩ :=
    ⟨@Thread.failed o s _ m _ _ _ [] _ (hlaw acts) hf (by simpa using hl) ho hq (by simp [offer]),
      hages acts⟩
  have hlen : (w.layers s).length = base.length + outer.length := by simp [hl]
  cases x with
  | ready c =>
    refine onward_connectLeaf hw hf hl ho hq hr (.ready · (some (c, r))) (fun _ => rfl)
      (fun _ => trivial) ?_ none
    simp [offer]
  | leaf y =>
    refine hleaf _ (.leaf · y (some r)) (fun _ => rfl) (fun _ => trivial) ?_ none
    simp [offer]
  | exploding built =>
    cases built with
    | none => exact hfail r.drop _
    | some label =>
      refine hleaf _ (.leaf · _ (some r)) (fun _ => rfl) (fun _ => trivial) ?_ _
      simp [offer]
  | script y =>
    have hscript (after : Option Payload) : Onward o s 1 w
        (connectLeaf (w.note s [.connected y.label]) s (base.length + outer.length)
          (.script · y (some r)) after (Frame.guards s base.length outer.length ++ K)) := by
      refine hleaf _ (.script · y (some r)) (fun _ => rfl) (fun _ => hx) ?_ after
      intro k r' h
      simp only [offer] at h
      split_ifs at h
      exact (Option.some.inj h).symm
    simp only [connect, connectScript]
    cases hy : y.connecting with
    | fill => exact hscript none
    | half m => exact hscript (some m)
    | raise m => simpa [World.note_note] using hfail (.connected y.label :: r.drop) m
    | deliver d m => exact absurd hy (hx.connecting_ne d m)
  | either which y =>
    obtain ⟨w', hfill, hl', hcount, hqueue⟩ := World.exists_fill hlen (.either · which)
    have hlaw' : w'.Lawful s := hw.filled hl' trivial hqueue
    have hages' : w.Ages s w' := .filled hl' hcount rfl
    rw [hl, List.append_assoc] at hl'
    simp only [connect, hfill]
    refine ⟨thread_nest hlaw' hf hl' ho rfl ?_ hx ?_, hages'⟩
    · exact (World.spare_eq_of_queue hqueue).trans hq
    · rw [← List.append_assoc]
      exact hr.append _
  | bind y f next =>
    obtain ⟨hy, hnext⟩ := hx
    set acts := [Act.logged (w.nextSerial s) .connecting] with hacts
    have hlen' : ((w.note s acts).layers s).length = base.length + outer.length := hlen
    obtain ⟨w', hfill, hl', hcount, hqueue⟩ := World.exists_fill hlen' (newBinding f next r)
    have hlaw' : w'.Lawful s := by
      refine (hlaw acts).filled hl' ?_ hqueue
      rintro f' next' ⟨⟩
      exact hnext
    have hages' : w.Ages s w' := (hages acts).trans (.filled hl' hcount rfl)
    have hl₀ : (w.note s acts).layers s = base ++ outer := hl
    rw [hl₀, List.append_assoc] at hl'
    simp only [connect, ← hacts, hfill]
    refine ⟨thread_nest hlaw' hf hl' ho rfl ?_ hy ?_, hages'⟩
    · exact (World.spare_eq_of_queue hqueue).trans hq
    · have htop : Open o s (settled ++ outer ++ [newBinding f next r (w.nextSerial s)])
          (.child .predecessor s (settled ++ outer).length) := hr.top rfl rfl
      rw [List.length_append, hf.length_eq, List.append_assoc] at htop
      exact htop

/-! ### Calling the factory -/

/-- Past the handoff of an operation, those below it are as before. -/
lemma Amid.of_bare {below' : List Layer} {b' : Binding} (h : Amid o s below b)
    (hbelow : below'.map Layer.bare = below.map Layer.bare) (hr : b'.receiver = b.receiver)
    (hc : b'.cleanup = .values) (hs : b'.storage ≠ .predecessor) : Amid o s below' b' := by
  obtain ⟨r, hreceiver, hopen⟩ := h.exists_receiver
  refine ⟨⟨r, hr.trans hreceiver, hopen.of_bare hbelow⟩, .inr hc, hs, ?_⟩
  have hnone : offer (below ++ [.bind b']) = none :=
    Layer.offer_eq_none_of_append h.offer_eq (by simp [offer, hs])
  rw [← hnone]
  exact Layer.offer_eq_of_bare (by simp [hbelow])

lemma World.exists_layers_setScope (hl : w.layers s = below ++ [.bind b]) (env : Env) :
    ∃ below', (w.setScope s below.length env).layers s = below' ++ [.bind b] ∧
      below'.map Layer.bare = below.map Layer.bare ∧ below'.length = below.length := by
  refine ⟨Layer.writeBack env.reverse below, ?_, ?_, ?_⟩
  · simp [setScope, hl]
  · exact Layer.map_bare_writeBack _ _
  · exact Layer.length_writeBack _ _

lemma Amid.replaced {below' : List Layer} (hb : Amid o s below b) (b' : Binding)
    (hw : w.Lawful s) (hlike : w.Like s w') (hq : w'.queue = w.queue)
    (hl' : w'.layers s = below' ++ [.bind b]) (hlen : below'.length = below.length)
    (hserial : b'.serial = b.serial) (hfactory : b'.factory = none) :
    (w'.setBinding s below.length b').layers s = below' ++ [.bind b'] ∧
      (w'.setBinding s below.length b').Lawful s ∧
      w.Ages s (w'.setBinding s below.length b') := by
  obtain ⟨r, hr, -⟩ := hb.exists_receiver
  have hset := World.layers_setBinding hl' b'
  rw [hlen] at hset
  refine ⟨hset, ?_, ?_⟩
  · refine (hw.of_like hlike hq).replaced hl' hset ?_ rfl
    intro _ f next hf
    simp [hfactory] at hf
  · exact hlike.ages.trans (.rebound hl' hset (by simp) hr hserial)

lemma onward_build (hw : w.Lawful s) (hb : Amid o s below b) (hl : w.layers s = below ++ [.bind b])
    (hK : ∀ f ∈ K, f.Idle) (hq : w.spare = []) :
    Onward o s 1 w (build w s below.length (.handoff s below.length :: K)) := by
  have hget : w.binding? s below.length = some b := World.binding?_of_layers hl
  have hlawb : (Layer.bind b).Lawful := hw.layers (hl ▸ by simp)
  cases hfactory : b.factory with
  | none =>
    simp only [build, hget, hfactory]
    obtain ⟨hl', hlaw', hages'⟩ := hb.replaced b.call hw (.refl s w) rfl hl rfl rfl rfl
    have hamid : Amid o s below b.call := hb.of_bare rfl rfl rfl hb.storage_ne
    exact ⟨hamid.failed hlaw' hl' hK hq _, hages'⟩
  | some f =>
    obtain ⟨f, next⟩ := f
    simp only [build, hget, hfactory]
    set c := f.call (b.stored ++ w.scope s below.length)
    set acts : List Act := b.stored.map (.called b.serial f.label) ++ c.remarks.map .remark
    set w₁ := (w.note s acts).setScope s below.length (c.env.drop b.stored.length)
    have hlike : w.Like s w₁ := by
      have hscope := World.Like.setScope (w.note s acts) s s below.length
        (c.env.drop b.stored.length)
      exact ⟨hscope.layers_eq, hscope.count_eq⟩
    have hl₀ : (w.note s acts).layers s = below ++ [.bind b] := hl
    obtain ⟨below', hl₁, hbare, hlen⟩ :=
      World.exists_layers_setScope hl₀ (c.env.drop b.stored.length)
    cases c.raised with
    | some m =>
      obtain ⟨hl', hlaw', hages'⟩ :=
        hb.replaced (b.call.restore c.env) hw hlike rfl hl₁ hlen (by simp) (by simp)
      have hamid : Amid o s below' (b.call.restore c.env) :=
        hb.of_bare hbare (by simp) (by simp) (by simpa using hb.storage_ne)
      have hfailed := hamid.failed hlaw' hl' hK hq m
      rw [hlen] at hfailed
      exact ⟨hfailed, hages'⟩
    | none =>
      set b' := (b.call.restore c.env).emplace with hb'
      set w₂ := w₁.note s [.logged (b.call.restore c.env).serial .connectingSuccessor]
      have hlike₂ : w.Like s w₂ := ⟨hlike.layers_eq, hlike.count_eq⟩
      obtain ⟨hl', hlaw', hages'⟩ :=
        hb.replaced b' hw hlike₂ rfl hl₁ hlen (by simp [hb']) (by simp [hb'])
      have hamid : Amid o s below' b' :=
        hb.of_bare hbare (by simp [hb']) (by simp [hb']) (by simp [hb'])
      obtain ⟨r, hr, hopen⟩ := hamid.exists_receiver
      have htop : Open o s (below' ++ [.bind b'.settle]) (.child .successor s below'.length) :=
        hopen.top hr rfl
      have hconnecting := @Thread.connecting o s _ (next c.env) _ _ _ [] _ hlaw'
        (.handoff hamid hK) (by simpa using hl') (by simp) hq (hlawb f next hfactory c.env)
        (by simpa using htop)
      rw [List.length_append, hlen] at hconnecting
      exact ⟨hconnecting, hages'⟩

/-! ### Returning and unwinding -/

lemma onward_react {home : Site} {label : String} {actions : List Action} (hw : w.Lawful s)
    (hb : w.Bears o s n (offer (w.layers s)).toList) (ha : ∀ a ∈ actions, a.isStep = false)
    (hK : ∀ f ∈ K, f.Idle) : Onward o s n w (react w home label actions K) := by
  have hnone : w.Bears o s n ([] ++ (offer (w.layers s)).toList) := hb
  cases actions with
  | nil => exact .like hw hnone (.refl s w) rfl (.refl _) trivial hK
  | cons a rest =>
    obtain ⟨hhead, htail⟩ := List.forall_mem_cons.1 ha
    cases a with
    | raise m => exact .like hw hnone (.refl s w) rfl (.refl _) trivial hK
    | log text => exact .like hw hnone (.of_places rfl) rfl (.refl _) htail hK
    | step x => simp [Action.isStep] at hhead

/-- What an idle frame goes on with completes nothing. -/
lemma onward_follow_idle {run : Run} {rest : List Instr} (hw : w.Lawful s)
    (hb : w.Bears o s n (offer (w.layers s)).toList) (hrest : Instr.spendsAll rest = 0)
    (hK : ∀ f ∈ K, f.Idle) (hlike : w.Like s w') (hq : w'.queue = w.queue) :
    Onward o s n w ⟨w', .follow run rest, K⟩ := by
  have hnone : w.Bears o s n ([] ++ (offer (w.layers s)).toList) := hb
  refine .like hw hnone hlike hq ?_ ?_ hK
  · simp [Control.rights, run.right_eq_none hrest]
  · exact Nat.le_trans (Nat.le_of_eq hrest) (Nat.zero_le 1)

lemma onward_resume {f : Frame} (hw : w.Lawful s)
    (hb : w.Bears o s n (offer (w.layers s)).toList) (hf : f.Idle)
    (hK : ∀ f ∈ K, f.Idle) (reply : Reply) :
    Onward o s n w (resume w reply f K) := by
  have hnone : w.Bears o s n ([] ++ (offer (w.layers s)).toList) := hb
  cases f with
  | script run rest => exact onward_follow_idle hw hb hf hK (.refl s w) rfl
  | attempt run rest => exact onward_follow_idle hw hb hf hK (.refl s w) rfl
  | discard s' c => exact .like hw hnone (.of_places rfl) rfl (.refl _) trivial hK
  | settle home c waiting => exact .like hw hnone (.of_places rfl) rfl (.refl _) trivial hK
  | answer a => exact .like hw hnone (.refl s w) rfl (.refl _) trivial hK
  | draining => exact .like hw hnone (.refl s w) rfl (.refl _) trivial hK
  | _ => exact hf.elim

lemma onward_unwind {f : Frame} (hw : w.Lawful s)
    (hb : w.Bears o s n (offer (w.layers s)).toList) (hf : f.Idle)
    (hK : ∀ f ∈ K, f.Idle) (m : Payload) :
    Onward o s n w (unwind w m f K) := by
  have hnone : w.Bears o s n ([] ++ (offer (w.layers s)).toList) := hb
  cases f with
  | script run rest => exact .like hw hnone (.of_places rfl) rfl (.refl _) trivial hK
  | attempt run rest => exact onward_follow_idle hw hb hf hK (.of_places rfl) rfl
  | discard s' c => exact .like hw hnone (.of_places rfl) rfl (.refl _) trivial hK
  | settle home c waiting => exact .like hw hnone (.of_places rfl) rfl (.refl _) trivial hK
  | answer a => exact .like hw hnone (.refl s w) rfl (.refl _) trivial hK
  | draining => exact .like hw hnone (.refl s w) rfl (.refl _) trivial hK
  | _ => exact hf.elim

/-- Nothing inside an operation amid its handoff is on offer. -/
lemma Amid.offer_append (h : Amid o s below b) (above : List Layer) :
    offer (below ++ .bind b :: above) = none :=
  Layer.offer_eq_none_of_append h.offer_eq (by simp [offer, h.storage_ne])

lemma onward_handOver (hw : w.Lawful s) (hb : Amid o s below b)
    (hl : w.layers s = below ++ .bind b :: inner) (hK : ∀ f ∈ K, f.Idle) (hq : w.spare = [])
    (hr : ∀ r, offer inner = some r → Open o s (below ++ .bind b.settle :: inner) r)
    (reply : Reply) : Onward o s 1 w (resume w reply (.handoff s below.length) K) := by
  obtain ⟨r, hreceiver, -⟩ := hb.exists_receiver
  have hresume : resume w reply (.handoff s below.length) K =
      ⟨w.setBinding s below.length b.settle, .start s (below.length + 1), K⟩ := by
    simp [resume, World.binding?_of_layers hl]
  rw [hresume]
  have hl' := World.layers_setBinding hl b.settle
  have hnone : offer (below ++ [.bind b.settle]) = none := by
    rw [Layer.offer_bind_congr b.storage_settle]
    exact hb.offer_eq
  have hlen : below.length + 1 = (below ++ [Layer.bind b.settle]).length := by simp
  have hspare : (w.setBinding s below.length b.settle).spare = [] := hq
  rw [hlen]
  refine ⟨.starting (hw.replaced hl hl' id rfl) (by simpa using hl') hnone ?_ hK ⟨?_, ?_⟩, ?_⟩
  · intro b' hlast
    obtain rfl : b.settle = b' := by simpa using hlast
    exact .inr rfl
  · rw [hspare, List.append_nil]
    exact Option.length_toList_le
  · intro r hmem
    rw [hl']
    refine hr r ?_
    simpa [hspare] using hmem
  · exact .rebound hl hl' (by simp) hreceiver rfl

lemma onward_handError (hw : w.Lawful s) (hb : Amid o s below b)
    (hl : w.layers s = below ++ .bind b :: inner) (hK : ∀ f ∈ K, f.Idle) (hq : w.spare = [])
    (m : Payload) : Onward o s 1 w (unwind w m (.handoff s below.length) K) := by
  obtain ⟨r, hreceiver, hopen⟩ := hb.exists_receiver
  have hnone : offer (w.layers s) = none := by
    rw [hl]
    exact hb.offer_append inner
  set acts := [Act.logged b.serial (.buildFailed m)] with hacts
  have hunwind : unwind w m (.handoff s below.length) K =
      Machine.pass (w.note s acts) s below.length b (.error (.panicked m)) K := by
    simp [unwind, World.binding?_of_layers hl, hacts]
  have hlike : w.Like s (w.note s acts) := .of_places rfl
  have hpass := onward_pass (w := w.note s acts) (hw.of_like hlike rfl) hl hreceiver
    hopen hnone hq hK (.error (.panicked m))
  rw [hunwind]
  exact hpass.after hlike.ages

lemma onward_connected {c : Config} {reply : Reply} (hw : w.Lawful s)
    (hf : Footing o s base settled K) (hl : w.layers s = base ++ inner) (hq : w.spare = [])
    (hr : ∀ r, offer inner = some r → Open o s (settled ++ inner) r)
    (hm : Config.next ⟨w, .done reply, Frame.guards s base.length n ++ K⟩ = some c) :
    Onward o s 1 w c := by
  cases n with
  | zero =>
    cases hf with
    | vacant => simp [Frame.guards, Config.next] at hm
    | @handoff below b K hb hK =>
      obtain rfl := Option.some.inj hm
      rw [List.append_assoc, List.singleton_append] at hl
      simp only [List.append_assoc, List.singleton_append] at hr
      exact onward_handOver hw hb hl hK hq hr reply
  | succ n =>
    obtain rfl := Option.some.inj hm
    exact ⟨.connected hw hf hl hq hr, .refl s w⟩

lemma onward_failed {c : Config} {m : Payload} (hw : w.Lawful s)
    (hf : Footing o s base settled K) (hl : w.layers s = base ++ (outer ++ inner))
    (ho : ∀ l ∈ outer, l.descends = true) (hq : w.spare = [])
    (hm : Config.next ⟨w, .raised m, Frame.guards s base.length outer.length ++ K⟩ = some c) :
    Onward o s 1 w c := by
  rcases outer.eq_nil_or_concat' with rfl | ⟨outer', l, rfl⟩
  · cases hf with
    | vacant => simp [Frame.guards, Config.next] at hm
    | @handoff below b K hb hK =>
      obtain rfl := Option.some.inj hm
      have hl' : w.layers s = below ++ .bind b :: inner := by simpa using hl
      exact onward_handError hw hb hl' hK hq m
  · rw [List.length_append, List.length_singleton] at hm
    obtain rfl := Option.some.inj hm
    set d := w.dropAbove s (base.length + outer'.length) true with hd
    have hl₁ : w.layers s = (base ++ outer') ++ (l :: inner) := by simpa using hl
    have hl₂ : d.1.layers s = base ++ outer' := by
      rw [hd, World.layers_dropAbove, hl₁, ← List.length_append, List.take_left]
    have hlaw : d.1.Lawful s :=
      hw.of_layers (fun x hx => .inl (hl₁ ▸ List.mem_append_left _ (hl₂ ▸ hx))) rfl
    have hages : w.Ages s d.1 := by
      refine .taken hl₁ hl₂ ?_
      simp [hd, World.dropAbove, World.setLayers, World.nextSerial]
    have ho' : ∀ x ∈ outer', x.descends = true := fun x hx => ho x (List.mem_append_left _ hx)
    refine ⟨@Thread.failed o s d.1 m base settled outer' [] K hlaw hf ?_ ho' hq ?_, hages⟩
    · simpa using hl₂
    · simp [offer]

/-! ### Every move -/

lemma onward_called {p : Int} {x : Sender} (hw : w.Lawful (.place p))
    (hl : w.layers (.place p) = []) (hq : w.spare = []) (hx : x.Lawful) :
    Onward o (.place p) 1 w (call w (.connect p x o) []) := by
  simp only [call, connectPlace, hl]
  have hlike : w.Like (.place p) (w.setLayers (.place p) []) := by
    constructor
    · simp [hl]
    · simp [World.setLayers, World.nextSerial]
  have hconnecting := @Thread.connecting o (.place p) (w.setLayers (.place p) []) x o [] [] [] []
    (hw.of_like hlike rfl) .vacant (by simp) (by simp) hq hx (.final _)
  exact ⟨hconnecting, hlike.ages⟩

/-- Outside of handoffs, a move that gives nothing to the final receiver. -/
lemma onward_loose {control : Control} {c : Config} (hw : w.Lawful s) (hc : control.Fit s)
    (hK : ∀ f ∈ K, f.Idle) (hb : w.Bears o s n (control.rights ++ (offer (w.layers s)).toList))
    (hquiet : ∀ r v, control ≠ .complete r v)
    (hm : Config.next ⟨w, control, K⟩ = some c) : Onward o s n w c := by
  cases control with
  | done reply =>
    cases K with
    | nil => simp [Config.next] at hm
    | cons f K =>
      obtain rfl := Option.some.inj hm
      obtain ⟨hf, hK⟩ := List.forall_mem_cons.1 hK
      exact onward_resume hw hb hf hK reply
  | raised m =>
    cases K with
    | nil => simp [Config.next] at hm
    | cons f K =>
      obtain rfl := Option.some.inj hm
      obtain ⟨hf, hK⟩ := List.forall_mem_cons.1 hK
      exact onward_unwind hw hb hf hK m
  | complete r v => exact absurd rfl (hquiet r v)
  | follow r steps =>
    obtain rfl := Option.some.inj hm
    exact onward_follow hw hK hc hb
  | react home label actions =>
    obtain rfl := Option.some.inj hm
    exact onward_react hw hb hc hK
  | call x =>
    obtain rfl := Option.some.inj hm
    exact onward_call hw hK hc hb
  | task t =>
    obtain rfl := Option.some.inj hm
    exact onward_runTask hw hK hc hb
  | connect x r s' h => exact hc.elim
  | start s' h => exact hc.elim
  | build s' h => exact hc.elim

/-- Every move leads from one phase of a run to another. What it gives to a final receiver, it gives
to that of the run, and there is so much less to be given afterwards. -/
theorem Thread.move {c c' : Config} (h : Thread o s n c) (hn : n ≤ 1) (ho : o.Calm)
    (hm : c.Moves c') :
    ∃ n', Thread o s n' c' ∧ c.given.length + n' ≤ n ∧ (∀ q ∈ c.given, q.1 = o) ∧
      c.world.Ages s c'.world := by
  have hquiet {m : Nat} (hg : c.given = []) (honward : Onward o s m c.world c') :
      ∃ n', Thread o s n' c' ∧ c.given.length + n' ≤ m ∧ (∀ q ∈ c.given, q.1 = o) ∧
        c.world.Ages s c'.world :=
    ⟨m, honward.1, by simp [hg], by simp [hg], honward.2⟩
  cases h with
  | called hw hp hl hq hx =>
    subst hp
    obtain rfl := Option.some.inj hm
    exact hquiet rfl (onward_called hw hl hq hx)
  | @loose _ w control K hw hc hK hb =>
    cases control with
    | complete r v =>
      obtain rfl := Option.some.inj hm
      have hb' : w.Bears o s n (r :: (offer (w.layers s)).toList) := hb
      obtain ⟨rfl, hnone, hq, hopen⟩ := hb'.single hn
      rw [Option.toList_eq_nil_iff] at hnone
      by_cases hr : r.isChild = true
      · cases r with
        | child role s' i =>
          exact hquiet (by simp [Config.given, hr])
            (onward_child hw ho.isChild_eq hopen hnone hq hK v)
        | _ => simp [Receiver.isChild] at hr
      · obtain rfl := hopen.eq_of_isChild (by simpa using hr)
        obtain ⟨hthread, hages⟩ := onward_final hw ho hnone hq hK v
        refine ⟨0, hthread, ?_, ?_, hages⟩
        · simp [Config.given, hr]
        · simp [Config.given, hr]
    | _ => exact hquiet rfl (onward_loose hw hc hK hb (by simp) hm)
  | starting hw hl ho' hlast hK hb =>
    obtain rfl := Option.some.inj hm
    exact hquiet rfl (onward_start hw hl ho' hK hb)
  | building hw hb hl hK hq =>
    obtain rfl := Option.some.inj hm
    exact hquiet rfl (onward_build hw hb hl hK hq)
  | connecting hw hf hl ho' hq hx hr =>
    obtain rfl := Option.some.inj hm
    exact hquiet rfl (onward_connect hw hf hl ho' hq hx hr)
  | connected hw hf hl hq hr => exact hquiet rfl (onward_connected hw hf hl hq hr hm)
  | failed hw hf hl ho' hq hr => exact hquiet rfl (onward_failed hw hf hl ho' hq hm)

end Handoff
