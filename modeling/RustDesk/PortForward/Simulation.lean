import RustDesk.PortForward.Pair

/-!
# The system refines the pair

For every channel of the controller there is a pair in a state the pair model can reach whose
parts are what the system holds of that channel. While no more channels have been opened than
there are ids, the pair is not noisy.
-/

namespace RustDesk.PortForward

variable {fs back : List Frame} {i j : ℕ} {f : Frame} {k : TunnelHandle} {c d : Channel}
  {s : System} {far : Option Channel}

/-! ### Frames of one task in the queues -/

lemma ordered_of_control (h : ∀ f ∈ fs, f.isControl = true) : ordered fs = [] := by
  refine List.filter_eq_nil_iff.mpr fun f hf => ?_
  simp [h f hf]

lemma ordered_of_data (h : ∀ f ∈ fs, f.isControl = false) : ordered fs = fs := by
  refine List.filter_eq_self.mpr fun f hf => ?_
  simp [h f hf]

lemma updates_of_data (h : ∀ f ∈ fs, f.isControl = false) : updates fs = [] := by
  refine List.filterMap_eq_nil_iff.mpr fun f hf => ?_
  have := h f hf
  cases f <;> simp_all [Frame.isControl, Frame.update?]

lemma mem_framesOf {q : List Sent} : f ∈ framesOf i q ↔ ⟨some i, f⟩ ∈ q := by
  simp only [framesOf, List.mem_map, List.mem_filter, decide_eq_true_eq]
  constructor
  · rintro ⟨⟨task, g⟩, ⟨hx, rfl⟩, rfl⟩
    exact hx
  · intro hf
    exact ⟨_, ⟨hf, rfl⟩, rfl⟩

lemma framesOf_singleton (i j : ℕ) (f : Frame) :
    framesOf i [⟨some j, f⟩] = if j = i then [f] else [] := by
  by_cases hij : j = i
  · rw [if_pos hij, hij, framesOf_cons_self, framesOf_nil]
  · rw [if_neg hij, framesOf_cons_of_ne (by simpa using hij), framesOf_nil]

namespace TunnelHandle

lemma framesOf_data_enqueue (h : TunnelHandle) (j i : ℕ) (e : Option Frame) :
    framesOf i (h.enqueue j e).data =
      framesOf i h.data ++ if j = i then ordered e.toList else [] := by
  cases e with
  | none => simp [enqueue, ordered]
  | some f => cases hf : f.isControl <;> simp [enqueue, hf, ordered, framesOf_singleton]

lemma updates_control_enqueue (h : TunnelHandle) (j i : ℕ) (e : Option Frame) :
    updates (framesOf i (h.enqueue j e).control) =
      updates (framesOf i h.control) ++ if j = i then updates e.toList else [] := by
  cases e with
  | none => simp [enqueue]
  | some f =>
    cases hf : f.isControl with
    | true => by_cases hij : j = i <;> simp [enqueue, hf, hij, framesOf_singleton]
    | false =>
      have hnone : updates [f] = [] := updates_of_data (by simp [hf])
      simp [enqueue, hf, hnone]

end TunnelHandle

lemma PortForwardMux.framesOf_enqueue (m : PortForwardMux) (k j : ℕ) (e : Option Frame) :
    framesOf j (m.enqueue k e).tx = framesOf j m.tx ++ if k = j then e.toList else [] := by
  cases e with
  | none => simp [enqueue]
  | some f => simp [enqueue, framesOf_singleton]

/-! ### A frame at an endpoint -/

/-- The handler that looks its channel up by id changes the one live channel of that id. -/
lemma getElem?_withEntry_receive {chans : List Channel} (hu : LiveUnique chans)
    (hc : chans[i]? = some c) {g : Channel → Channel}
    (hg : c.rx.txLive = true → g c = c.receive f) : (withEntry chans f.channelId g)[i]? =
      some (if f.channelId = c.id then c.receive f else c) := by
  have hentry : findEntry chans f.channelId = some i → c.rx.txLive = true ∧ c.id = f.channelId := by
    intro hf
    obtain ⟨d, hd, htd, hidd⟩ := findEntry_eq_some hf
    cases hc.symm.trans hd
    exact ⟨htd, hidd⟩
  rw [getElem?_withEntry]
  by_cases hid : f.channelId = c.id
  · cases ht : c.rx.txLive with
    | true =>
      rw [hid, if_pos (hu.findEntry_eq hc ht), if_pos rfl, hc, Option.map_some, hg ht]
    | false =>
      have hne : findEntry chans f.channelId ≠ some i := by simpa [ht] using mt hentry
      rw [if_neg hne, if_pos hid, Channel.receive_of_dead ht, hc]
  · rw [if_neg fun hf => hid (hentry hf).2.symm, if_neg hid, hc]

lemma getElem?_withEntry_both {chans : List Channel} (hu : LiveUnique chans)
    (hc : chans[i]? = some c) (id : ChannelId) :
    (∀ b, (withEntry chans id (fun c => c.onData b))[i]? =
        some (if id = c.id then c.receive (.dataMsg id b) else c)) ∧
      (withEntry chans id Channel.onClose)[i]? =
        some (if id = c.id then c.receive (.closeMsg id) else c) ∧
      ∀ n, (withEntry chans id (fun c => c.onWindowUpdate n))[i]? =
        some (if id = c.id then c.receive (.windowUpdateMsg id n) else c) :=
  ⟨fun b => getElem?_withEntry_receive (f := .dataMsg id b) hu hc fun ht => by
      simp [Channel.receive, ht],
    getElem?_withEntry_receive (f := .closeMsg id) hu hc fun ht => by simp [Channel.receive, ht],
    fun n => getElem?_withEntry_receive (f := .windowUpdateMsg id n) hu hc fun ht => by
      simp [Channel.receive, ht]⟩

lemma TunnelHandle.getElem?_onFrame (hu : LiveUnique k.chans) (hc : k.chans[i]? = some c)
    (hside : c.side = .controller) (f : Frame) :
    (k.onFrame f).chans[i]? = some (if f.channelId = c.id then c.receive f else c) := by
  cases f with
  | openMsg id host port window =>
    have hsame : c.receive (.openMsg id host port window) = c := by
      simp [Channel.receive]
    simp only [onFrame, hsame, ite_self]
    exact hc
  | openedMsg id success message window =>
    exact getElem?_withEntry_receive (f := .openedMsg id success message window)
      (g := fun c => c.onOpened success window) hu hc fun ht => by simp [Channel.receive, ht, hside]
  | dataMsg id b => exact (getElem?_withEntry_both hu hc id).1 b
  | closeMsg id => exact (getElem?_withEntry_both hu hc id).2.1
  | windowUpdateMsg id n => exact (getElem?_withEntry_both hu hc id).2.2 n

lemma PortForwardMux.getElem?_handle {m : PortForwardMux} (hu : LiveUnique m.chans)
    (hd : m.chans[j]? = some d) (hside : d.side = .controlled) (hf : f.isOpen = false)
    (permitted : Bool) :
    (m.handle permitted f).chans[j]? = some (if f.channelId = d.id then d.receive f else d) := by
  cases f with
  | openMsg id host port window => cases hf
  | openedMsg id success message window =>
    have hsame : d.receive (.openedMsg id success message window) = d := by
      simp [Channel.receive, hside]
    simp only [handle, hsame, ite_self]
    exact hd
  | dataMsg id b => exact (getElem?_withEntry_both hu hd id).1 b
  | closeMsg id => exact (getElem?_withEntry_both hu hd id).2.1
  | windowUpdateMsg id n => exact (getElem?_withEntry_both hu hd id).2.2 n

/-- **A frame acts on the channel it names.** Against any peer, under any schedule and however often
ids come round, an endpoint has at most one live channel of an id, and a frame that is no `open`
is received by the channels of its id and leaves the others alone. -/
theorem frame_acts_on_named (f : Frame) :
    (∀ h, handleLts.Reachable h → LiveUnique h.chans ∧ ∀ (i : ℕ) (c : Channel),
      h.chans[i]? = some c →
        (h.onFrame f).chans[i]? = some (if f.channelId = c.id then c.receive f else c)) ∧
    ∀ t m, (muxLts t).Reachable m → LiveUnique m.chans ∧ (f.isOpen = false →
      ∀ p (i : ℕ) (c : Channel), m.chans[i]? = some c →
        (m.handle p f).chans[i]? = some (if f.channelId = c.id then c.receive f else c)) := by
  constructor
  · intro h hr
    have hu := handleLts_liveUnique hr
    exact ⟨hu, fun i c hc =>
      h.getElem?_onFrame hu hc (handleLts_side hr c (List.mem_of_getElem? hc)) f⟩
  · intro t m hr
    have hu := muxLts_liveUnique hr
    exact ⟨hu, fun hf p i c hc =>
      m.getElem?_handle hu hc (muxLts_side hr c (List.mem_of_getElem? hc)) hf p⟩

/-! ### What the system holds of a pair -/

/-- The controller's part of a pair. -/
structure NearSim (s : System) (i : ℕ) (p : Pair) : Prop where
  near : s.controller.chans[i]? = some p.near
  out : p.out = ordered (framesOf i s.toControlled) ++ framesOf i s.controller.data
  grants : p.grants =
    updates (framesOf i s.toControlled) ++ updates (framesOf i s.controller.control)
  closed : p.nearClosed = decide (s.controller.loop = .dropped)

/-- The controlled side's part: the channel whose `open` was the near one's, and its frames. -/
inductive FarSim (s : System) (i : ℕ) : Option Channel → List Frame → Prop where
  | absent (h : some i ∉ s.origin) : FarSim s i none []
  | present {j : ℕ} {d : Channel} (ho : s.origin[j]? = some (some i))
      (hu : ∀ k : ℕ, s.origin[k]? = some (some i) → k = j) (hd : s.controlled.chans[j]? = some d) :
      FarSim s i (some d) (framesOf j s.toController ++ framesOf j s.controlled.tx)

structure Sim (s : System) (i : ℕ) (p : Pair) : Prop where
  near : NearSim s i p
  far : FarSim s i p.far p.back
  farClosed : p.farClosed = decide (s.controlled.loop = .dropped)
  refused : s.controller.chans.length ≤ 2 ^ 32 → ∀ x, x ∈ s.toController ∨ x ∈ s.controlled.tx →
    x.task = none → x.frame.channelId = p.near.id → p.refused = true
  quiet : s.controller.chans.length ≤ 2 ^ 32 → p.noisy = false

/-- The frames and the grants of a channel when `rest` is on its way. -/
abbrev System.outAfter (s : System) (i : ℕ) (rest : List Sent) : List Frame :=
  ordered (framesOf i rest) ++ framesOf i s.controller.data

abbrev System.grantsAfter (s : System) (i : ℕ) (rest : List Sent) : List ℕ :=
  updates (framesOf i rest) ++ updates (framesOf i s.controller.control)

/-- A pair with another near part. -/
def Pair.withNear (p : Pair) (c : Channel) (out : List Frame) (grants : List ℕ) (closed : Bool) :
    Pair :=
  { p with near := c, out := out, grants := grants, nearClosed := closed }

lemma FarSim.eq_none (h : FarSim s i far back) (hnot : some i ∉ s.origin) : far = none := by
  cases h with
  | absent _ => rfl
  | present ho _ _ => exact (hnot (List.mem_of_getElem? ho)).elim

lemma FarSim.of_origin (h : FarSim s i far back) (ho : s.origin[j]? = some (some i)) :
    ∃ d, far = some d ∧ s.controlled.chans[j]? = some d ∧
      (∀ k : ℕ, s.origin[k]? = some (some i) → k = j) ∧
      back = framesOf j s.toController ++ framesOf j s.controlled.tx := by
  cases h with
  | absent hnot => exact (hnot (List.mem_of_getElem? ho)).elim
  | present _ hu hd =>
    obtain rfl := hu j ho
    exact ⟨_, rfl, hd, hu, rfl⟩

namespace NearSim

variable {p : Pair}

/-- A step of the controller's end that leaves the channel's queues alone. -/
lemma keep (hn : NearSim s i p) (hc : h.chans[i]? = some c)
    (hd : framesOf i h.data = framesOf i s.controller.data)
    (hk : updates (framesOf i h.control) = updates (framesOf i s.controller.control))
    (hl : decide (h.loop = .dropped) = p.nearClosed) :
    NearSim { s with controller := h, toControlled := s.toControlled ++ [] } i
      (p.withNear c p.out p.grants p.nearClosed) where
  near := hc
  out := by
    simp only [List.append_nil, Pair.withNear]
    rw [hd, hn.out]
  grants := by
    simp only [List.append_nil, Pair.withNear]
    rw [hk, hn.grants]
  closed := hl.symm

lemma eq_near (hn : NearSim s i p) (hc : s.controller.chans[i]? = some c) : c = p.near := by
  have := hn.near
  rw [hc] at this
  exact Option.some.inj this

/-- A step of the channel's task that emits nothing, or one of another channel. -/
lemma set (hn : NearSim s i p) (hp : p.Reachable) (c' : Channel)
    (hc : s.controller.chans[j]? = some c)
    (hstep : c = p.near → (p.withNear c' p.out p.grants p.nearClosed).Reachable) :
    ∃ d, (p.withNear d p.out p.grants p.nearClosed).Reachable ∧
      (s.controller.chans.set j c')[i]? = some d := by
  by_cases hji : j = i
  · subst hji
    have hlt := (List.getElem?_eq_some_iff.mp hc).1
    exact ⟨c', hstep (hn.eq_near hc), by simp [hlt]⟩
  · exact ⟨p.near, hp, by rw [List.getElem?_set_ne hji]; exact hn.near⟩

/-- Every step of the controller's end is one of the near channel, or none. -/
lemma step (hn : NearSim s i p) (hp : p.Reachable) (hs : s.Routed) (hfar : FarSim s i p.far p.back)
    {a : HandleAct} {sent : Option Sent} (ha : ∀ f, a ≠ .frame f)
    (hr : TunnelHandle.Rule s.controller a k sent) :
    ∃ c out grants closed, (p.withNear c out grants closed).Reachable ∧
      NearSim { s with controller := k, toControlled := s.toControlled ++ sent.toList } i
        (p.withNear c out grants closed) := by
  have hclosed : s.controller.env.closed = p.nearClosed := hn.closed.symm
  have hloop := hn.closed.symm
  cases hr with
  | beginOpen hl => exact ⟨_, _, _, _, hp, hn.keep hn.near rfl rfl hloop⟩
  | @insert call rest hc =>
    refine ⟨_, _, _, _, hp, ?_⟩
    rcases TunnelHandle.insert_cases { s.controller with calls := rest } call with
      heq | ⟨_, id, next, _, heq⟩ <;> rw [heq]
    · exact hn.keep hn.near rfl rfl hloop
    · refine hn.keep ?_ rfl rfl hloop
      rw [List.getElem?_append_left (List.getElem?_eq_some_iff.mp hn.near).1]
      exact hn.near
  | @task j a c c' e hc hr =>
    by_cases hji : j = i
    · -- a step of the near channel's own task
      subst hji
      obtain rfl := hn.eq_near hc
      have hlt := (List.getElem?_eq_some_iff.mp hc).1
      refine ⟨_, _, _, _, hp.step (.nearTask hr hclosed), ?_, ?_, ?_, ?_⟩
      · simp [Pair.withNear, hlt]
      · simp only [Pair.withNear, TunnelHandle.framesOf_data_enqueue, if_true, Option.toList_none,
          List.append_nil]
        rw [hn.out, List.append_assoc]
      · simp only [Pair.withNear, TunnelHandle.updates_control_enqueue, if_true, Option.toList_none,
          List.append_nil]
        rw [hn.grants, List.append_assoc]
      · simp only [Pair.withNear, TunnelHandle.enqueue_loop]
        exact hn.closed
    · refine ⟨_, _, _, _, hp, hn.keep ?_ ?_ ?_ ?_⟩
      · rw [TunnelHandle.enqueue_chans, List.getElem?_set_ne hji]
        exact hn.near
      · simp [TunnelHandle.framesOf_data_enqueue, hji]
      · simp [TunnelHandle.updates_control_enqueue, hji]
      · rw [TunnelHandle.enqueue_loop]
        exact hloop
  | @remove j c hc hphase =>
    -- the task's last step, and then the entry its id still has in the map, if any
    obtain ⟨d, hd, hget⟩ := hn.set hp c.finish hc fun heq => by
      subst heq
      simpa [Pair.withNear, ordered] using hp.step (.nearTask (.remove hphase) hclosed)
    by_cases hf : findEntry (s.controller.chans.set j c.finish) c.id = some i
    · refine ⟨d.dropEntry, _, _, _, hd.step .nearDrop, hn.keep ?_ rfl rfl hloop⟩
      rw [getElem?_withEntry, if_pos hf, hget]
      rfl
    · refine ⟨d, _, _, _, hd, hn.keep ?_ rfl rfl hloop⟩
      rw [getElem?_withEntry, if_neg hf, hget]
  | @finishAdd j c c' hc hf =>
    obtain ⟨d, hd, hget⟩ := hn.set hp c' hc fun heq => by
      subst heq
      exact hp.step (.nearFinishAdd hf)
    exact ⟨d, _, _, _, hd, hn.keep hget rfl rfl hloop⟩
  | frame hl => exact (ha _ rfl).elim
  | @writeControl x rest hl hq =>
    -- the update moves on from its queue to the stream
    have hx : x.frame.isControl = true := hs.control x (by simp [hq])
    have hnil : ordered (framesOf i [x]) = [] := ordered_of_control fun f hf => by
      obtain rfl := List.mem_singleton.mp (mem_framesOf.mp hf)
      exact hx
    refine ⟨_, _, _, _, hp, hn.near, ?_, ?_, hn.closed⟩
    · simp only [Pair.withNear, Option.toList_some, framesOf_append, ordered_append]
      rw [hnil, List.append_nil, hn.out]
    · simp only [Pair.withNear, Option.toList_some, framesOf_append, updates_append]
      rw [hn.grants, hq, ← List.singleton_append, framesOf_append, updates_append,
        ← List.append_assoc]
  | @writeData x rest hl hq =>
    have hx : x.frame.isControl = false := hs.data x (by simp [hq])
    have hdata : ∀ f ∈ framesOf i [x], f.isControl = false := fun f hf => by
      obtain rfl := List.mem_singleton.mp (mem_framesOf.mp hf)
      exact hx
    refine ⟨_, _, _, _, hp, hn.near, ?_, ?_, hn.closed⟩
    · simp only [Pair.withNear, Option.toList_some, framesOf_append, ordered_append]
      rw [hn.out, hq, ← List.singleton_append, framesOf_append, ordered_of_data hdata,
        ← List.append_assoc]
    · simp only [Pair.withNear, Option.toList_some, framesOf_append, updates_append]
      rw [updates_of_data hdata, List.append_nil, hn.grants]
  | clear hl =>
    refine ⟨_, _, _, _, hp.step .nearDrop, hn.keep ?_ rfl rfl ?_⟩
    · rw [List.getElem?_map, hn.near]
      rfl
    · rw [hn.closed, hl]
      rfl
  | signal hl =>
    refine ⟨_, _, _, _, hp, hn.keep hn.near rfl rfl ?_⟩
    rw [hn.closed, hl]
    rfl
  | drop hl =>
    refine ⟨p.near, ordered (framesOf i s.toControlled), updates (framesOf i s.toControlled), true,
      hp.step (.nearShut ?_ ?_ fun ht => ?_), hn.near, ?_, ?_, rfl⟩
    · rw [hn.out]
      exact List.prefix_append _ _
    · rw [hn.grants]
      exact List.prefix_append _ _
    · obtain ⟨hnil, hnot⟩ := hs.late (by simp [hl]) i p.near hn.near ht
      exact ⟨hfar.eq_none hnot, by rw [hnil]; rfl⟩
    · simp [Pair.withNear]
    · simp [Pair.withNear]

end NearSim

/-- A pair with another far part. -/
def Pair.withFar (p : Pair) (far : Option Channel) (back : List Frame) (closed : Bool) : Pair :=
  { p with far := far, back := back, farClosed := closed }

namespace FarSim

variable {p : Pair} {m : PortForwardMux}

lemma congr {s' : System} (h : FarSim s i far back) (ho : s'.origin = s.origin)
    (hm : s'.controlled = s.controlled) (hq : s'.toController = s.toController) :
    FarSim s' i far back := by
  cases h with
  | absent hnot => exact .absent (ho ▸ hnot)
  | present horig hu hd =>
    rw [← hm, ← hq]
    rw [← ho] at horig hu
    rw [← hm] at hd
    exact .present horig hu hd

/-- A step of the controlled end that leaves the channel and its frames alone. -/
lemma keep (h : FarSim s i far back) {q : List Sent}
    (hkeep : ∀ (j : ℕ) (d : Channel), s.origin[j]? = some (some i) →
      s.controlled.chans[j]? = some d → m.chans[j]? = some d ∧
      framesOf j q ++ framesOf j m.tx = framesOf j s.toController ++ framesOf j s.controlled.tx) :
    FarSim { s with controlled := m, toController := q } i far back := by
  cases h with
  | absent hnot => exact .absent hnot
  | present ho hu hd =>
    obtain ⟨hd', heq⟩ := hkeep _ _ ho hd
    rw [← heq]
    exact .present ho hu hd'

/-- A task's step, or the end of an `add`, at a channel of the controlled end. -/
lemma set (hf : FarSim s i p.far p.back) (hp : p.Reachable) {k : ℕ} {c' : Channel}
    {e : Option Frame} (hc : s.controlled.chans[k]? = some c)
    (hstep : p.far = some c →
      (p.withFar (some c') (p.back ++ e.toList) p.farClosed).Reachable) :
    ∃ far back, (p.withFar far back p.farClosed).Reachable ∧
      FarSim { s with
        controlled :=
          ({ s.controlled with chans := s.controlled.chans.set k c' } : PortForwardMux).enqueue k e
        toController := s.toController ++ [] } i far back := by
  by_cases hk : s.origin[k]? = some (some i)
  · obtain ⟨d, hfar, hd, hu, hback⟩ := hf.of_origin hk
    cases hc.symm.trans hd
    have hlt := (List.getElem?_eq_some_iff.mp hc).1
    refine ⟨some c', _, ?_, .present hk hu (by simp [hlt])⟩
    simpa [PortForwardMux.framesOf_enqueue, hback] using hstep hfar
  · refine ⟨p.far, p.back, hp, hf.keep fun j d ho hd => ?_⟩
    have hkj : k ≠ j := fun heq => hk (heq ▸ ho)
    rw [PortForwardMux.enqueue_chans, List.getElem?_set_ne hkj, PortForwardMux.framesOf_enqueue,
      if_neg hkj]
    exact ⟨hd, by simp⟩

/-- Every step of the controlled end other than a frame is one of the far channel, or none. -/
lemma step {t : String} (hf : FarSim s i p.far p.back) (hp : p.Reachable)
    (hm : (muxLts t).Reachable s.controlled)
    (hclosed : p.farClosed = decide (s.controlled.loop = .dropped)) {a : MuxAct}
    {sent : Option Sent} (ha : ∀ f b, a ≠ .frame f b)
    (hr : PortForwardMux.Rule s.controlled a m sent) :
    ∃ far back closed, (p.withFar far back closed).Reachable ∧
      FarSim { s with controlled := m, toController := s.toController ++ sent.toList } i far back ∧
      closed = decide (m.loop = .dropped) := by
  have henv : s.controlled.env.closed = p.farClosed := hclosed.symm
  cases hr with
  | @task k a c c' e hc hr =>
    obtain ⟨far, back, hreach, hfar⟩ := hf.set (e := e) hp hc fun hfar =>
      hp.step (.farTask hfar hr henv)
    exact ⟨far, back, _, hreach, hfar, by rw [PortForwardMux.enqueue_loop, hclosed]⟩
  | @finishAdd k c c' hc hadd =>
    obtain ⟨far, back, hreach, hfar⟩ := hf.set (e := none) hp hc fun hfar => by
      rw [Option.toList_none, List.append_nil]
      exact hp.step (.farFinishAdd hfar hadd)
    exact ⟨far, back, _, hreach, hfar, hclosed⟩
  | frame hl => exact (ha _ _ rfl).elim
  | @write x rest hl hq =>
    refine ⟨_, _, _, hp, hf.keep fun j d _ hd => ⟨hd, ?_⟩, hclosed⟩
    rw [hq, Option.toList_some, framesOf_append, List.append_assoc, ← framesOf_append,
      List.singleton_append]
  | clear hl =>
    have hnot : p.farClosed = false := by rw [hclosed, hl]; rfl
    generalize hfar : p.far = far at hf
    generalize hback : p.back = back at hf
    cases hf with
    | absent hnot' =>
      exact ⟨none, [], _, by rwa [← hfar, ← hback], .absent hnot', hnot⟩
    | @present j d ho hu hd =>
      refine ⟨some d.dropEntry, _, _, hback ▸ hp.step (.farDrop hfar), ?_, hnot⟩
      have hget : (s.controlled.chans.map Channel.dropEntry)[j]? = some d.dropEntry := by simp [hd]
      rw [Option.toList_none, List.append_nil]
      exact .present ho hu hget
  | signal hl =>
    have hnot : p.farClosed = false := by rw [hclosed, hl]; rfl
    exact ⟨_, _, _, hp, hf.keep fun j d _ hd => ⟨hd, by simp⟩, hnot⟩
  | drop hl =>
    have hcleared := muxLts_cleared hm (by simp [hl])
    generalize hfar : p.far = far at hf
    generalize hback : p.back = back at hf
    cases hf with
    | absent hnot =>
      refine ⟨none, [], true, ?_, .absent hnot, rfl⟩
      have hstep := hp.step (.farShut (List.nil_prefix (l := p.back)) (by simp [hfar]))
      rwa [hfar] at hstep
    | @present j d ho hu hd =>
      refine ⟨some d, _, true, ?_, .present ho hu hd, rfl⟩
      have hstep := hp.step (.farShut (hback ▸ List.prefix_append _ _) fun d' hd' => by
        rw [hfar] at hd'
        cases hd'
        exact hcleared d (List.mem_of_getElem? hd))
      simpa [Pair.withFar, hfar] using hstep

end FarSim

/-! ### A frame from the controlled side -/

lemma ControlledFrames.opened_window {id id' : ChannelId} {m : String} {w : ℕ}
    (h : ControlledFrames id fs) (hf : .openedMsg id' true m w ∈ fs) : w = channelWindow := by
  rcases h with rfl | ⟨m', rfl⟩ | rfl | ⟨rest, rfl, ds, hrest⟩
  · simp at hf
  · simp at hf
  · simp at hf
  · rcases List.mem_cons.mp hf with heq | hmem
    · cases heq
      rfl
    · rcases hrest with rfl | rfl <;> simp at hmem

namespace TunnelHandle

@[simp] lemma onFrame_data (h : TunnelHandle) (f : Frame) : (h.onFrame f).data = h.data := by
  cases f <;> rfl

@[simp] lemma onFrame_control (h : TunnelHandle) (f : Frame) :
    (h.onFrame f).control = h.control := by
  cases f <;> rfl

@[simp] lemma length_onFrame (h : TunnelHandle) (f : Frame) :
    (h.onFrame f).chans.length = h.chans.length := by
  cases f <;> simp [onFrame]

end TunnelHandle

/-- A frame that is no `open` reaches the far channel if it has its id. -/
lemma FarSim.handle (h : FarSim s i far back) (hu : LiveUnique s.controlled.chans)
    (hside : ∀ d ∈ s.controlled.chans, d.side = .controlled) (hf : f.isOpen = false)
    (permitted : Bool) (htx : (s.controlled.handle permitted f).tx = s.controlled.tx) :
    FarSim { s with controlled := s.controlled.handle permitted f } i
      (far.map fun d => if f.channelId = d.id then d.receive f else d) back := by
  cases h with
  | absent hnot => exact .absent hnot
  | present ho huniq hd =>
    rw [← htx]
    exact .present ho huniq (PortForwardMux.getElem?_handle hu hd
      (hside _ (List.mem_of_getElem? hd)) hf permitted)

lemma FarSim.retainOpen {p : Pair} (h : FarSim s i p.far p.back) (hp : p.Reachable) :
    ∃ far, (p.withFar far p.back p.farClosed).Reachable ∧
      FarSim { s with controlled := { s.controlled with
        chans := PortForwardMux.retainOpen s.controlled.chans } } i far p.back := by
  generalize hfar : p.far = far at h
  generalize hback : p.back = back at h ⊢
  have hsame : p.withFar far back p.farClosed = p := by rw [← hfar, ← hback]; rfl
  cases h with
  | absent hnot => exact ⟨none, hsame ▸ hp, .absent hnot⟩
  | @present j d ho hu hd =>
    have hget : (PortForwardMux.retainOpen s.controlled.chans)[j]? =
        some (if d.rx.rxLive then d else d.dropEntry) := by
      rw [PortForwardMux.retainOpen, List.getElem?_map, hd]
      rfl
    refine ⟨_, ?_, .present ho hu hget⟩
    split_ifs
    · exact hsame ▸ hp
    · exact hback ▸ hp.step (.farDrop hfar)

lemma FarSim.append {k : ℕ} (h : FarSim s i far back) (hk : k ≠ i) (d : Channel) : FarSim { s with
      controlled := { s.controlled with chans := s.controlled.chans ++ [d] }
      origin := s.origin ++ [some k] } i far back := by
  have hmem : ∀ j : ℕ, (s.origin ++ [some k])[j]? = some (some i) →
      s.origin[j]? = some (some i) := by
    intro j hj
    rw [List.getElem?_append] at hj
    split_ifs at hj with hlt
    · exact hj
    · have := List.mem_of_getElem? hj
      simp only [List.mem_singleton, Option.some.injEq] at this
      exact (hk this.symm).elim
  cases h with
  | absent hnot =>
    refine .absent fun hin => ?_
    obtain ⟨j, hj⟩ := List.mem_iff_getElem?.mp hin
    exact hnot (List.mem_of_getElem? (hmem j hj))
  | @present j d' ho hu hd =>
    have hj := (List.getElem?_eq_some_iff.mp ho).1
    have hj' := (List.getElem?_eq_some_iff.mp hd).1
    refine .present (j := j) ?_ (fun j' hj' => hu j' (hmem j' hj')) ?_
    · rw [List.getElem?_append_left hj]
      exact ho
    · rw [List.getElem?_append_left hj']
      exact hd

namespace Sim

variable {t : String} {p p' : Pair} {x : Sent} {rest : List Sent} {m : PortForwardMux}
  {sent : Option Sent}

variable (h : Sim s i p) (hp : p.Reachable) (hs : s.Routed) (hreach : (systemLts t).Reachable s)

include h hreach in
/-- The near channel has been handed the frame, or it was not for it; the far part has lost the
frame at the head of the stream. -/
lemma delivered (hq : s.toController = x :: rest)
    (hnear : p'.near = if x.frame.channelId = p.near.id then p.near.receive x.frame else p.near)
    (hout : p'.out = p.out) (hgrants : p'.grants = p.grants) (hcl : p'.nearClosed = p.nearClosed)
    (hfcl : p'.farClosed = p.farClosed) (href : p'.refused = p.refused)
    (hfar : FarSim { s with toController := rest } i p'.far p'.back)
    (hquiet : s.controller.chans.length ≤ 2 ^ 32 → p'.noisy = false) :
    Sim { s with controller := s.controller.onFrame x.frame, toController := rest } i p' := by
  obtain ⟨hh, hm⟩ := systemLts_endpoints hreach
  have hid : p'.near.id = p.near.id := by
    rw [hnear]
    split_ifs
    · exact (p.near.receive_sameTask x.frame).id
    · rfl
  refine ⟨⟨?_, ?_, ?_, ?_⟩, ?_, ?_, ?_, ?_⟩
  · rw [hnear]
    exact TunnelHandle.getElem?_onFrame (handleLts_liveUnique hh) h.near.near
      (handleLts_side hh _ (List.mem_of_getElem? h.near.near)) x.frame
  · simp only [TunnelHandle.onFrame_data]
    rw [hout, h.near.out]
  · simp only [TunnelHandle.onFrame_control]
    rw [hgrants, h.near.grants]
  · simp only [TunnelHandle.onFrame_loop]
    rw [hcl, h.near.closed]
  · exact hfar.congr rfl rfl rfl
  · rw [hfcl, h.farClosed]
  · simp only [TunnelHandle.length_onFrame]
    intro hlen y hy hnone hyid
    rw [href]
    rw [hid] at hyid
    refine h.refused hlen y ?_ hnone hyid
    rw [hq]
    exact hy.imp_left (List.mem_cons_of_mem x)
  · simpa only [TunnelHandle.length_onFrame] using hquiet

include h hs hreach in
/-- A frame of this id that some task of the controlled side has emitted is the far channel's, as
long as no id is reused. -/
lemma origin_of_emitted (hlen : s.controller.chans.length ≤ 2 ^ 32)
    (hd : s.controlled.chans[j]? = some d) (hid : d.id = p.near.id) :
    s.origin[j]? = some (some i) := by
  obtain ⟨k, c, hk, hc, hdc⟩ := hs.origin j d hd
  have hki := handleLts_id_inj (systemLts_endpoints hreach).1 hlen hc h.near.near
    (hdc.symm.trans hid)
  rw [hk, hki]

include h hp hs hreach in
lemma toController (hq : s.toController = x :: rest) : ∃ p', p'.Reachable ∧
      Sim { s with controller := s.controller.onFrame x.frame, toController := rest } i p' := by
  obtain ⟨hh, hm⟩ := systemLts_endpoints hreach
  -- a frame of another task leaves the far part as it is
  have hforeign : (∀ j : ℕ, s.origin[j]? = some (some i) → x.task ≠ some j) →
      FarSim { s with toController := rest } i p.far p.back := by
    intro hne
    refine h.far.keep (m := s.controlled) fun j d ho hd => ⟨hd, ?_⟩
    rw [hq, framesOf_cons_of_ne (hne j ho)]
  by_cases hid : x.frame.channelId = p.near.id
  · rcases hs.back x (Or.inl (by simp [hq])) with ⟨j, d, hj, hd, hlog⟩ | ⟨hnone, k, c, m, hc, hx⟩
    · have hdlog := (muxLts_logged hm d (List.mem_of_getElem? hd)).2.cases
      have hdid : d.id = p.near.id := (hdlog.own x.frame hlog).symm.trans hid
      by_cases ho : s.origin[j]? = some (some i)
      · -- the far channel's own frame
        have hx : x = ⟨some j, x.frame⟩ := by rw [← hj]
        obtain ⟨d', hfar, hd', hu, hback⟩ := h.far.of_origin ho
        rw [hq, hx, framesOf_cons_self, List.cons_append] at hback
        refine ⟨_, hp.step (.recvBack hback), h.delivered hreach hq ?_ rfl rfl rfl rfl rfl ?_
          h.quiet⟩
        · rw [if_pos hid]
        · rw [hfar]
          exact .present ho hu hd'
      · -- another task's: the id is in use again
        have hopened : ∀ id m w, x.frame = .openedMsg id true m w → w = channelWindow := by
          intro id m w hx
          have hmem : x.frame ∈ ordered d.log := by
            simp only [ordered, List.mem_filter]
            exact ⟨hlog, by rw [hx]; rfl⟩
          rw [hx] at hmem
          have hside := muxLts_side hm d (List.mem_of_getElem? hd)
          exact (hdlog.controlledFrames hside).opened_window hmem
        refine ⟨_, hp.step (.noiseBack hopened), h.delivered hreach hq ?_ rfl rfl rfl rfl rfl ?_ ?_⟩
        · rw [if_pos hid]
        · refine hforeign fun k hk hxk => ?_
          rw [hj] at hxk
          cases hxk
          exact ho hk
        · intro hlen
          exact (ho (h.origin_of_emitted hs hreach hlen hd hdid)).elim
    · -- a refusal by `on_open`
      have hstep := hp.step (.reply c.id m)
      rw [← hx] at hstep
      refine ⟨_, hstep, h.delivered hreach hq ?_ rfl rfl rfl rfl rfl ?_ ?_⟩
      · rw [if_pos hid]
      · refine hforeign fun k _ hk => ?_
        rw [hnone] at hk
        cases hk
      · intro hlen
        rw [h.quiet hlen, h.refused hlen x (Or.inl (by simp [hq])) hnone hid]
        rfl
  · -- not for this channel
    refine ⟨p, hp,
      h.delivered hreach hq ?_ rfl rfl rfl rfl rfl (hforeign fun j hj hxj => ?_) h.quiet⟩
    · rw [if_neg hid]
    · rcases hs.back x (Or.inl (by simp [hq])) with ⟨k, d, hk, hd, hlog⟩ | ⟨hnone, _⟩
      · rw [hxj] at hk
        cases hk
        have hdid := (muxLts_logged hm d (List.mem_of_getElem? hd)).2.cases.own x.frame hlog
        obtain ⟨d', hfar, hd', _⟩ := h.far.of_origin hj
        rw [hd] at hd'
        cases hd'
        exact hid (hdid.trans (hp.far_id d hfar))
      · rw [hnone] at hxj
        cases hxj

/-! ### A frame from the controller -/

/-- The frame at the head of the stream has been handled by the controlled side. -/
lemma arrived (h : Sim s i p) {origin : List (Option ℕ)} (hnear : p'.near = p.near)
    (hcl : p'.nearClosed = p.nearClosed) (hout : p'.out = s.outAfter i rest)
    (hgrants : p'.grants = s.grantsAfter i rest)
    (hfar : FarSim { s with controlled := m, origin := origin } i p'.far p'.back)
    (hfcl : p'.farClosed = p.farClosed) (hloop : m.loop = s.controlled.loop) (href :
      s.controller.chans.length ≤ 2 ^ 32 → ∀ y ∈ m.tx, y ∈ s.controlled.tx ∨ (y.frame.channelId =
      p.near.id → p'.refused = true)) (hmono : p.refused = true → p'.refused = true)
    (hquiet : s.controller.chans.length ≤ 2 ^ 32 → p'.noisy = false) :
    Sim { s with controlled := m, toControlled := rest, origin := origin } i p' where
  near := ⟨hnear ▸ h.near.near, hout, hgrants, hcl.trans h.near.closed⟩
  far := hfar.congr rfl rfl rfl
  farClosed := by rw [hfcl, h.farClosed, hloop]
  refused hlen y hy hnone hid := by
    rw [hnear] at hid
    rcases hy with hy | hy
    · exact hmono (h.refused hlen y (Or.inl hy) hnone hid)
    · rcases href hlen y hy with hold | hnew
      · exact hmono (h.refused hlen y (Or.inr hold) hnone hid)
      · exact hnew hid
  quiet := hquiet

/-- The near part when the head of the stream is another task's frame. -/
lemma near_foreign (h : Sim s i p) (hq : s.toControlled = x :: rest) (hx : x.task ≠ some i) :
    p.out = s.outAfter i rest ∧ p.grants = s.grantsAfter i rest := by
  rw [h.near.out, h.near.grants, hq, framesOf_cons_of_ne hx]
  exact ⟨rfl, rfl⟩

lemma near_own (h : Sim s i p) (hq : s.toControlled = x :: rest) (hx : x.task = some i) :
    (x.frame.isControl = false ∧ p.out = x.frame :: s.outAfter i rest ∧
      p.grants = s.grantsAfter i rest) ∨
    ∃ id n, x.frame = .windowUpdateMsg id n ∧ p.out = s.outAfter i rest ∧
      p.grants = n :: s.grantsAfter i rest := by
  have heq : x = ⟨some i, x.frame⟩ := by rw [← hx]
  rw [h.near.out, h.near.grants, hq, heq, framesOf_cons_self]
  cases x.frame with
  | windowUpdateMsg id n => exact Or.inr ⟨id, n, rfl, rfl, rfl⟩
  | _ => exact Or.inl ⟨rfl, rfl, rfl⟩

lemma map_far (hp : p.Reachable) (f : Frame) :
    p.far.map (fun d => if f.channelId = d.id then d.receive f else d) =
      if f.channelId = p.near.id then p.far.map (fun d => d.receive f) else p.far := by
  cases hd : p.far with
  | none => simp
  | some d =>
    rw [Option.map_some, Option.map_some, ← hp.far_id d hd]
    split_ifs <;> rfl

include h hp hs hreach in
lemma toControlled_handled (hq : s.toControlled = x :: rest) (hf : x.frame.isOpen = false)
    (permitted : Bool) (htx : (s.controlled.handle permitted x.frame).tx = s.controlled.tx) :
    ∃ p', p'.Reachable ∧
      Sim { s with controlled := s.controlled.handle permitted x.frame, toControlled := rest }
        i p' := by
  obtain ⟨hh, hm⟩ := systemLts_endpoints hreach
  have hfar := h.far.handle (muxLts_liveUnique hm) (muxLts_side hm) hf permitted htx
  have htx' : ∀ y ∈ (s.controlled.handle permitted x.frame).tx, y ∈ s.controlled.tx := fun y hy =>
    htx ▸ hy
  obtain ⟨k, c, hk, hc, hlog⟩ := hs.sent x (Or.inl (by simp [hq]))
  have hid := (handleLts_logged hh c (List.mem_of_getElem? hc)).2.cases.own x.frame hlog
  by_cases hxid : x.frame.channelId = p.near.id
  · -- the far channel, if any, has the frame's id
    rw [map_far hp, if_pos hxid] at hfar
    by_cases hki : k = i
    · subst hki
      rcases h.near_own hq hk with ⟨hctl, hout, hgrants⟩ | ⟨id, n, hx, hout, hgrants⟩
      · exact ⟨_, hp.step (.recv hf hout), h.arrived rfl rfl rfl hgrants hfar rfl (by simp)
          (fun _ y hy => Or.inl (htx' y hy)) (fun hr => hr) h.quiet⟩
      · have hstep := hp.step (.recvGrant id hgrants)
        rw [← hx] at hstep
        exact ⟨_, hstep, h.arrived rfl rfl hout rfl hfar rfl (by simp)
          (fun _ y hy => Or.inl (htx' y hy)) (fun hr => hr) h.quiet⟩
    · have hxk : x.task ≠ some i := by
        rw [hk]
        simpa using hki
      obtain ⟨hout, hgrants⟩ := h.near_foreign hq hxk
      refine ⟨_, hp.step (.noise hf), h.arrived rfl rfl hout hgrants hfar rfl (by simp)
        (fun _ y hy => Or.inl (htx' y hy)) (fun hr => hr) fun hlen => ?_⟩
      exact (hki (handleLts_id_inj hh hlen hc h.near.near (hid.symm.trans hxid))).elim
  · have hxk : x.task ≠ some i := by
      intro hxi
      rw [hk] at hxi
      cases hxi
      obtain rfl := h.near.eq_near hc
      exact hxid hid
    rw [map_far hp, if_neg hxid] at hfar
    obtain ⟨hout, hgrants⟩ := h.near_foreign hq hxk
    exact ⟨p, hp, h.arrived rfl rfl hout hgrants hfar rfl (by simp)
      (fun _ y hy => Or.inl (htx' y hy)) (fun hr => hr) h.quiet⟩

/-- Nothing of a channel still to come is on its way from the controlled side. -/
lemma framesOf_new (hs : s.Routed) : framesOf s.controlled.chans.length s.toController ++
    framesOf s.controlled.chans.length s.controlled.tx = [] := by
  rw [← framesOf_append]
  refine List.eq_nil_iff_forall_not_mem.mpr fun f hf => ?_
  rcases hs.back _ (List.mem_append.mp (mem_framesOf.mp hf)) with hem | ⟨hnone, -⟩
  · exact (hem.lt_length rfl).false
  · cases hnone

lemma farSim_accepted (hs : s.Routed) {k : ℕ} (hnot : some k ∉ s.origin) (id : ChannelId)
    (window : ℕ) (u : String) : FarSim { s with
      controlled := { s.controlled with
        chans := PortForwardMux.retainOpen s.controlled.chans ++ [Channel.controlled id window u] }
      origin := s.origin ++ [some k] } k (some (Channel.controlled id window u)) [] := by
  rw [← framesOf_new hs]
  refine .present ?_ ?_ ?_
  · simp [← hs.length]
  · intro j hj
    rw [List.getElem?_append] at hj
    split_ifs at hj with hlt
    · exact (hnot (List.mem_of_getElem? hj)).elim
    · have := (List.getElem?_eq_some_iff.mp hj).1
      simp only [List.length_singleton] at this
      have := hs.length
      omega
  · simp [PortForwardMux.retainOpen]

include h hp hs hreach in
lemma toControlled_open (hl : s.controlled.loop = .running)
    (hq : s.toControlled = x :: rest) {id : ChannelId} {host : String} {port : ℤ} {window : ℕ}
    (hx : x.frame = .openMsg id host port window) (permitted : Bool) :
    ∃ p', p'.Reachable ∧ Sim { s with
      controlled := s.controlled.onOpen id host port window permitted
      toControlled := rest
      origin := s.origin ++ List.replicate
        ((s.controlled.onOpen id host port window permitted).chans.length -
          s.controlled.chans.length) x.task } i p' := by
  obtain ⟨hh, hm⟩ := systemLts_endpoints hreach
  obtain ⟨k, c, hk, hc, hlog⟩ := hs.sent x (Or.inl (by simp [hq]))
  have hid : id = c.id := by
    have := (handleLts_logged hh c (List.mem_of_getElem? hc)).2.cases.own x.frame hlog
    rwa [hx] at this
  have hopen : x.frame.isOpen = true := by rw [hx]; rfl
  -- `retain` comes first, whatever becomes of the `open`
  obtain ⟨far, hpr, hfar⟩ := h.far.retainOpen hp
  have hlen :
      (PortForwardMux.retainOpen s.controlled.chans).length = s.controlled.chans.length := by
    simp [PortForwardMux.retainOpen]
  have hown : k = i →
      p.out = x.frame :: s.outAfter i rest ∧ p.grants = s.grantsAfter i rest := by
    rintro rfl
    rcases h.near_own hq hk with ⟨_, hout, hgrants⟩ | ⟨id', n, hx', _⟩
    · exact ⟨hout, hgrants⟩
    · rw [hx] at hx'
      cases hx'
  have hother : k ≠ i → p.out = s.outAfter i rest ∧ p.grants = s.grantsAfter i rest := by
    intro hki
    refine h.near_foreign hq ?_
    rw [hk]
    simpa using hki
  rcases s.controlled.onOpen_cases id host port window permitted with
    ⟨message, heq⟩ | ⟨_, heq⟩ | ⟨_, _, u, heq⟩
  · -- refused
    rw [heq, hlen, Nat.sub_self, List.replicate_zero, List.append_nil]
    have hfar' : FarSim { s with controlled := { s.controlled with
        chans := PortForwardMux.retainOpen s.controlled.chans
        tx := s.controlled.tx ++ [⟨none, .openedMsg id false message 0⟩] } } i far p.back :=
      hfar.keep (q := s.toController) fun j d _ hd => ⟨hd, by simp [framesOf]⟩
    by_cases hki : k = i
    · obtain ⟨hout, hgrants⟩ := hown hki
      exact ⟨_, hpr.step (.refuse hopen hout), h.arrived rfl rfl rfl hgrants hfar' rfl rfl
        (fun _ y _ => Or.inr fun _ => rfl) (fun _ => rfl) h.quiet⟩
    · obtain ⟨hout, hgrants⟩ := hother hki
      refine ⟨_, hpr, h.arrived rfl rfl hout hgrants hfar' rfl rfl (fun hle y hy => ?_)
        (fun hr => hr) h.quiet⟩
      rcases List.mem_append.mp hy with hy | hy
      · exact Or.inl hy
      · refine Or.inr fun hyid => (hki (handleLts_id_inj hh hle hc h.near.near ?_)).elim
        rw [List.mem_singleton.mp hy] at hyid
        exact hid.symm.trans hyid
  · -- ignored
    rw [heq, hlen, Nat.sub_self, List.replicate_zero, List.append_nil]
    by_cases hki : k = i
    · obtain ⟨hout, hgrants⟩ := hown hki
      exact ⟨_, hpr.step (.ignore hopen hout), h.arrived rfl rfl rfl hgrants hfar rfl rfl
        (fun _ y hy => Or.inl hy) (fun hr => hr) h.quiet⟩
    · obtain ⟨hout, hgrants⟩ := hother hki
      exact ⟨_, hpr, h.arrived rfl rfl hout hgrants hfar rfl rfl (fun _ y hy => Or.inl hy)
        (fun hr => hr) h.quiet⟩
  · -- accepted
    have hone : (PortForwardMux.retainOpen s.controlled.chans ++
        [Channel.controlled id window u]).length - s.controlled.chans.length = 1 := by
      simp [hlen]
    rw [heq, hone, List.replicate_one, hk]
    by_cases hki : k = i
    · subst hki
      obtain ⟨hout, hgrants⟩ := hown rfl
      have hnone := (hp.head_open hopen hout).2.1
      have hback := (hp.back_log.2 hnone).2
      have hnot : some k ∉ s.origin := by
        intro hin
        obtain ⟨j, hj⟩ := List.mem_iff_getElem?.mp hin
        obtain ⟨d, hd, _⟩ := h.far.of_origin hj
        rw [hnone] at hd
        cases hd
      have hfcl : p.farClosed = false := by
        rw [h.farClosed, hl]
        rfl
      refine ⟨_, hpr.step (.accept u hx hout hfcl), h.arrived rfl rfl rfl hgrants ?_ rfl rfl
        (fun _ y hy => Or.inl hy) (fun hr => hr) h.quiet⟩
      simpa only [Pair.withFar, hback] using farSim_accepted hs hnot id window u
    · obtain ⟨hout, hgrants⟩ := hother hki
      exact ⟨_, hpr, h.arrived rfl rfl hout hgrants (hfar.append hki _) rfl rfl
        (fun _ y hy => Or.inl hy) (fun hr => hr) h.quiet⟩

include h hp hs in
lemma controller {a : HandleAct} (ha : ∀ f, a ≠ .frame f)
    (hr : TunnelHandle.Rule s.controller a k sent) :
    ∃ p', p'.Reachable ∧
      Sim { s with controller := k, toControlled := s.toControlled ++ sent.toList } i p' := by
  obtain ⟨c, out, grants, closed, hreach, hnear⟩ := h.near.step hp hs h.far ha hr
  have hg := hr.grows
  have hid : c.id = p.near.id := by
    obtain ⟨c', hc', hev⟩ := hg.getElem? h.near.near
    have hc : k.chans[i]? = some c := hnear.near
    rw [hc'] at hc
    cases hc
    exact hev.id_eq.1
  refine ⟨_, hreach, hnear, h.far.congr rfl rfl rfl, h.farClosed, fun hlen x hx hnone hxid => ?_,
    fun hlen => h.quiet (hg.1.trans hlen)⟩
  exact h.refused (hg.1.trans hlen) x hx hnone (hxid.trans hid)

lemma controlled (h : Sim s i p) (hp : p.Reachable) (hm : (muxLts t).Reachable s.controlled)
    {a : MuxAct} (ha : ∀ f b, a ≠ .frame f b) (hr : PortForwardMux.Rule s.controlled a m sent) :
    ∃ p', p'.Reachable ∧
      Sim { s with controlled := m, toController := s.toController ++ sent.toList } i p' := by
  obtain ⟨far, back, closed, hreach, hfar, hclosed⟩ := h.far.step hp hm h.farClosed ha hr
  have hqueues := hr.queues ha
  refine ⟨_, hreach, ⟨h.near.near, h.near.out, h.near.grants, h.near.closed⟩, hfar, hclosed,
    fun hlen x hx hnone hxid => h.refused hlen x ?_ hnone hxid, h.quiet⟩
  rcases hx with hx | hx
  · rcases List.mem_append.mp hx with hx | hx
    · exact Or.inl hx
    · exact Or.inr (hqueues.out x hx)
  · rcases hqueues.tx x hx with hx | ⟨j, d, hj, _⟩
    · exact Or.inr hx
    · rw [hnone] at hj
      cases hj

/-- Every step of the system is one of the pair, or leaves it alone. -/
lemma step {s' : System} (h : Sim s i p) (hp : p.Reachable) (hreach : (systemLts t).Reachable s)
    (hr : System.Rule s s') : ∃ p', p'.Reachable ∧ Sim s' i p' := by
  have hs := systemLts_routed hreach
  cases hr with
  | controller ha hr => exact h.controller hp hs ha hr
  | controlled ha hr => exact h.controlled hp (systemLts_endpoints hreach).2 ha hr
  | toController hl hq => exact h.toController hp hs hreach hq
  | @toControlled x rest permitted hl hq =>
    cases hf : x.frame.isOpen with
    | true =>
      cases hx : x.frame with
      | openMsg id host port window => exact h.toControlled_open hp hs hreach hl hq hx permitted
      | _ => simp [hx, Frame.isOpen] at hf
    | false =>
      rcases s.controlled.handle_cases permitted x.frame with
        ⟨hg, htx⟩ | ⟨_, _, _, _, _, hx, _⟩ | ⟨_, _, _, _, _, hx, _⟩
      · rw [hg.length_eq, Nat.sub_self, List.replicate_zero, List.append_nil]
        exact h.toControlled_handled hp hs hreach hq hf permitted htx
      · rw [hx] at hf
        cases hf
      · rw [hx] at hf
        cases hf

lemma new (hs : s.Routed) (hk : handleLts.Reachable k)
    (hg : Grows TunnelHandle.IsNew s.controller.chans k.chans) (hdata : k.data = s.controller.data)
    (hcontrol : k.control = s.controller.control) (hnone : s.controller.chans[i]? = none)
    (hc : k.chans[i]? = some c) : ∃ p, p.Reachable ∧
      Sim { s with controller := k, toControlled := s.toControlled ++ [] } i p := by
  have hi := List.getElem?_eq_none_iff.mp hnone
  obtain ⟨hwire, hd, hctl⟩ := hs.framesOf_eq_nil hi
  rcases hg.2 i c hc with ⟨c', hc', _⟩ | ⟨_, id, host, port, prebuf, rfl⟩
  · rw [hnone] at hc'
    cases hc'
  · refine ⟨_, .new id host port prebuf (decide (k.loop = .dropped))
      (decide (s.controlled.loop = .dropped)), ⟨hc, ?_, ?_, rfl⟩,
      .absent (hs.notMem_origin hi), rfl,
      fun hlen x hx hxnone hxid => ?_, fun _ => rfl⟩
    · rw [List.append_nil, hwire, hdata, hd]
      rfl
    · rw [List.append_nil, hwire, hcontrol, hctl]
      rfl
    · -- a refusal on its way answers a channel that was there before, under another id
      rcases hs.back x hx with ⟨j, d, hj, _⟩ | ⟨_, j, e, m, he, hxe⟩
      · rw [hxnone] at hj
        cases hj
      · obtain ⟨e', he', hev⟩ := hg.getElem? he
        have hide : e'.id = id := by
          rw [hev.id_eq.1]
          rw [hxe] at hxid
          exact hxid
        have hji := handleLts_id_inj hk hlen he' hc hide
        rw [hji, hnone] at he
        cases he

lemma far_of_origin (h : Sim s i p) (ho : s.origin[j]? = some (some i))
    (hd : s.controlled.chans[j]? = some d) :
    p.far = some d ∧ p.back = framesOf j s.toController ++ framesOf j s.controlled.tx := by
  obtain ⟨d', hfar, hd', _, hback⟩ := h.far.of_origin ho
  rw [hd] at hd'
  cases hd'
  exact ⟨hfar, hback⟩

end Sim

/-- The system refines the pair model at every channel of the controller. -/
lemma systemLts_sim {t : String} (hr : (systemLts t).Reachable s) :
    ∀ (i : ℕ) (c : Channel), s.controller.chans[i]? = some c → ∃ p, p.Reachable ∧ Sim s i p := by
  induction hr with
  | init h =>
    subst h
    intro i c hc
    simp [System.new, TunnelHandle.new] at hc
  | @step s s' a hreach hs ih =>
    intro i c hc
    have hsteps := System.Steps.of_step hs
    have hk := (systemLts_endpoints (hreach.step hs)).1
    cases hold : s.controller.chans[i]? with
    | some c₀ =>
      obtain ⟨p, hp, hsim⟩ := ih i c₀ hold
      exact hsim.step hp hreach hsteps.rule
    | none =>
      have hlt := (List.getElem?_eq_some_iff.mp hc).1
      have hge := List.getElem?_eq_none_iff.mp hold
      cases hsteps.rule with
      | @controller a k sent ha hr =>
        rcases hr.length_eq with ⟨hlen, _⟩ | ⟨rfl, call, rest, rfl⟩
        · dsimp only at hlt
          omega
        · refine Sim.new (systemLts_routed hreach) hk hr.grows ?_ ?_ hold hc <;>
          · rcases TunnelHandle.insert_cases { s.controller with calls := rest } call with
              heq | ⟨_, _, _, _, heq⟩ <;> rw [heq]
      | controlled | toController | toControlled =>
        simp only [TunnelHandle.length_onFrame] at hlt
        omega

end RustDesk.PortForward
