import RustDesk.PortForward.Conservation

/-!
# Flow control between honest endpoints

The two halves of the account meet: while both endpoints have a channel's entry, each direction
adds up to exactly the window its receiver has granted. So no frame is refused, no credit is ever
cut at the cap or saturates, and a direction that has come to rest leaves its sender more than
half a window to go on with.
-/

namespace RustDesk.PortForward

variable {r : Receiver}

/-! ### The grant behind `opened` -/

lemma Receiver.Rule.granted_eq {env : RelayEnv} {id : ChannelId} {r' : Receiver} {e : Option Frame}
    (h : Rule env id r r' e) : r'.granted = r.granted := by
  cases h <;> rfl

namespace Channel

lemma afterRun_granted (c : Channel) : c.afterRun.rx.granted = c.rx.granted := by
  unfold afterRun
  split <;> rfl

/-- What a channel has granted its peer: the controller's the whole window from the start, the
controlled side's by `grant`, which comes before `opened`. -/
structure Widened (c : Channel) : Prop where
  controller : c.side = .controller → c.rx.granted = channelWindow
  granted : c.rx.granted = channelWindow ∨
    (c.rx.granted = initialWindow ∧ (c.phase.beforeGrant = true ∨ c.phase = .finished))
  announced : ∀ id m w, .openedMsg id true m w ∈ c.log → c.rx.granted = channelWindow

namespace Widened

variable {c c' : Channel} {env : Env} {e : Option Frame}

lemma keep (h : c.Widened) (hside : c'.side = c.side) (hg : c'.rx.granted = c.rx.granted)
    (hlog : ∀ id m w, .openedMsg id true m w ∈ c'.log → .openedMsg id true m w ∈ c.log)
    (hp : c.phase.beforeGrant = true ∨ c.phase = .finished →
      c'.phase.beforeGrant = true ∨ c'.phase = .finished) : c'.Widened where
  controller hs := by
    rw [hg]
    exact h.controller (hside ▸ hs)
  granted := by
    rw [hg]
    exact h.granted.imp_right fun ⟨heq, hph⟩ => ⟨heq, hp hph⟩
  announced id m w hmem := by
    rw [hg]
    exact h.announced id m w (hlog id m w hmem)

/-- Once the whole window is granted nothing takes it back. -/
lemma of_granted (hg : c.rx.granted = channelWindow) : c.Widened :=
  ⟨fun _ => hg, Or.inl hg, fun _ _ _ _ => hg⟩

/-- Past the `grant` the window is the whole one. -/
lemma granted_eq (h : c.Widened) (hb : c.phase.beforeGrant = false) (hf : c.phase ≠ .finished) :
    c.rx.granted = channelWindow := by
  rcases h.granted with heq | ⟨_, hph | hph⟩
  · exact heq
  · rw [hb] at hph
    cases hph
  · exact (hf hph).elim

lemma rule (h : c.Widened) (hw : c.Windowed) (hr : Rule env c c' e) : c'.Widened := by
  cases hr with
  | openGone hp | sendOpen hp | announce hp | select hp | joinClose hp =>
    exact of_granted (h.granted_eq (by simp [hp, Phase.beforeGrant]) (by simp [hp]))
  | grant hp =>
    refine of_granted ?_
    have hinit := hw.before (by simp [hp, Phase.beforeGrant])
    simp only [Receiver.grant, hinit]
    decide
  | buffer hp | overflow hp | cmdViolation hp | cmdNone hp | connectPending hp | connected hp
  | connectFailed hp =>
    exact h.keep rfl rfl (fun _ _ _ hm => hm) fun _ => Or.inl (by simp [hp, Phase.beforeGrant])
  | cmdClose | cmdGone | sinkGone | remove =>
    exact h.keep rfl rfl (fun _ _ _ hm => hm) fun _ => Or.inr rfl
  | abort | refuse =>
    refine h.keep rfl rfl (fun id m w hm => ?_) fun _ => Or.inr rfl
    simpa [finish] using hm
  | sender hp hs =>
    refine h.keep rfl rfl (fun id m w hm => ?_) (fun hph => hph)
    rcases hs.emits with rfl | ⟨b, _, rfl⟩ <;> simpa using hm
  | receiver hp hs =>
    refine h.keep rfl hs.granted_eq (fun id m w hm => ?_) (fun hph => hph)
    rcases hs.emits with rfl | ⟨n, _, rfl⟩ <;> simpa using hm
  | join hp | closeGone hp | close hp =>
    refine of_granted ?_
    exact (afterRun_granted c).trans
      (h.granted_eq (by simp [hp, Phase.beforeGrant]) (by simp [hp]))

lemma moves (h : c.Windowed ∧ c.Widened) (hm : Moves env c c' e) : c'.Windowed ∧ c'.Widened := by
  refine ⟨h.1.moves hm, ?_⟩
  rcases hm.task_or_same with hr | ⟨hs, _⟩
  · exact h.2.rule h.1 hr
  · refine h.2.keep hs.side hs.granted (fun id m w hmem => ?_) fun hph => ?_
    · rw [hs.log] at hmem
      exact hmem
    · rw [hs.phase]
      exact hph

end Widened

lemma controller_widened (id : ChannelId) (host : String) (port : ℤ) (prebuf : Bytes) :
    (controller id host port prebuf).Widened := .of_granted (rfl)

lemma controlled_widened (id : ChannelId) (window : ℕ) (u : String) :
    (controlled id window u).Widened where
  controller := by simp [controlled]
  granted := Or.inr ⟨(rfl), Or.inl rfl⟩
  announced := by simp [controlled]

end Channel

namespace Pair.Reachable

variable {p : Pair}

lemma widened (hp : p.Reachable) : p.near.Widened ∧ ∀ d ∈ p.far, d.Widened := by
  obtain ⟨hnear, hfar⟩ := hp.forall_channel (P := fun c => c.Windowed ∧ c.Widened)
    (fun _ _ _ _ => ⟨Channel.controller_windowed .., Channel.controller_widened ..⟩)
    (fun _ _ _ => ⟨Channel.controlled_windowed .., Channel.controlled_widened ..⟩)
    fun _ _ _ _ hc hm => Channel.Widened.moves hc hm
  exact ⟨hnear.2, fun d hd => (hfar d hd).2⟩

/-- As long as no id is reused, the `opened` a channel has applied is the far channel's. -/
lemma opened_seen (hp : p.Reachable) (hquiet : p.noisy = false) (ho : p.near.opened = true) :
    ∃ id m w, .openedMsg id true m w ∈ p.seenBack := by
  induction hp with
  | new id host port prebuf nearClosed farClosed => cases ho
  | @step p p' _ h ih =>
    cases h with
    | nearTask hr hc => exact ih hquiet (hr.sameEntry.opened ▸ ho)
    | nearFinishAdd hf =>
      obtain ⟨_, rfl⟩ := Channel.finishAdd_eq_some hf
      exact ih hquiet ho
    | @recvBack f rest hb =>
      rcases (p.near.receives f).opened_eq with heq | ⟨_, id, m, w, rfl⟩
      · obtain ⟨id, m, w, hmem⟩ := ih hquiet (heq ▸ ho)
        exact ⟨id, m, w, List.mem_append_left _ hmem⟩
      · exact ⟨id, m, w, List.mem_append_right _ (List.mem_singleton.mpr rfl)⟩
    | reply id message =>
      have hquiet : p.noisy = false := by simp_all
      rcases (p.near.receives (.openedMsg id false message 0)).opened_eq with
        heq | ⟨_, _, _, _, heq⟩
      · exact ih hquiet (heq ▸ ho)
      · cases heq
    | noise | noiseBack => cases hquiet
    | _ => exact ih hquiet ho

/-- What the near side has been told of, the far side has granted. -/
lemma base_le_granted (hp : p.Reachable) (hquiet : p.noisy = false) {d : Channel} (hd : d ∈ p.far) :
    p.near.base ≤ d.rx.granted ∧ (p.near.opened = true → d.rx.granted = channelWindow) := by
  have hopened : p.near.opened = true → d.rx.granted = channelWindow := by
    intro ho
    obtain ⟨id, m, w, hmem⟩ := hp.opened_seen hquiet ho
    have hlog := (hp.back_log.1 d hd).1.subset (List.mem_append_left p.back hmem)
    exact (hp.widened.2 d hd).announced id m w hlog
  refine ⟨?_, hopened⟩
  unfold Channel.base
  split_ifs with ho
  · exact (hopened ho).ge
  · rcases (hp.widened.2 d hd).granted with heq | ⟨heq, _⟩ <;> rw [heq]
    decide

end Pair.Reachable

/-! ### Frames and credit never collide with a bound -/

lemma charge_le_charges {b : Bytes} {bs : List Bytes} (h : b ∈ bs) :
    charge b.length ≤ charges bs := by
  obtain ⟨l₁, l₂, rfl⟩ := List.append_of_mem h
  rw [charges_append, charges_cons]
  omega

namespace Channel

variable {c : Channel}

/-- A frame that finds the channel's entry is welcome: data fits the window, and what it adds to
the credit stays below the cap. -/
def Takes (c : Channel) : Frame → Prop
  | .dataMsg _ b => (c.rx.window.accept b.length).2 = true
  | .windowUpdateMsg _ n => c.tx.credit.credit + n ≤ maxSendCredit
  | .openedMsg _ true _ w => c.side = .controller → c.opened = false →
    c.tx.credit.credit + (effectiveWindow w - initialWindow) ≤ maxSendCredit
  | _ => True

/-- The task's own arithmetic is exact: no refund is cut at the cap, nothing the receiver counts
saturates, and what is buffered while connecting always fits. -/
structure Exact (c : Channel) : Prop where
  refund : ∀ n after, c.tx.pc = .refund n after → c.tx.credit.credit + n ≤ maxSendCredit
  drained : ∀ chunk, c.rx.pc = .draining chunk →
    c.rx.window.remaining + c.rx.window.drainedSinceUpdate + charge chunk.length ≤ u32Max
  grant : c.phase = .granting → c.rx.window.remaining + (channelWindow - initialWindow) ≤ u32Max
  pending : ∀ p u b rest, c.phase = .connecting p u → c.rx.inbound = .data b :: rest →
    pendingFits c.rx.pendingLen b.length = true

/-- Rights within the cap are enough: the receiver's arithmetic is exact against any peer. -/
lemma Windowed.exact (h : c.Windowed) (hr : c.tx.rights ≤ maxSendCredit) : c.Exact where
  refund n after hpc := by
    rw [Sender.rights_of_pc hpc] at hr
    simp only [SenderPc.reserved] at hr
    omega
  drained chunk hpc := by
    have hlive := h.rx.active_live (by simp [Receiver.active, hpc])
    have hd := congrArg charges (h.rx.delivered_eq hlive)
    simp only [Receiver.held, Receiver.current, hpc, List.cons_append, charges_append,
      charges_cons] at hd
    have := h.rx.window_le
    have := h.rx.granted_le
    have : channelWindow ≤ u32Max := by decide
    omega
  grant hp := by
    have := h.rx.remaining_le
    rw [h.before (by simp [hp, Phase.beforeGrant])] at this
    have : channelWindow ≤ u32Max := by decide
    have : initialWindow ≤ channelWindow := by decide
    omega
  pending _ _ _ _ hp hq := h.pendingFits hp hq

lemma credit_le_rights (c : Channel) : c.tx.credit.credit ≤ c.tx.rights := by
  unfold Sender.rights
  omega

/-- While the entry is there, what the window has left is what has been granted and is not owed. -/
lemma Windowed.granted_le (h : c.Windowed) (hlive : c.rx.txLive = true) :
    c.rx.granted ≤ c.rx.window.remaining + c.rx.owing := by
  have := h.rx.window_eq hlive
  have := h.rx.charges_undrained
  unfold Receiver.owing
  omega

end Channel

namespace Pair.Reachable

variable {p : Pair} {f : Frame} (hp : p.Reachable) (hquiet : p.noisy = false)

include hp hquiet

lemma rights_le :
    p.near.tx.rights ≤ maxSendCredit ∧ ∀ d ∈ p.far, d.tx.rights ≤ maxSendCredit := by
  have hb := hp.balanced hquiet
  have := hb.out
  have := p.near.base_le
  refine ⟨by omega, fun d hd => ?_⟩
  have := hb.back d hd
  have : maxSendCredit = channelWindow := rfl
  omega

/-- What the near channel has on its way is welcome at the far one. -/
lemma far_takes {d : Channel} (hd : d ∈ p.far)
    (hlive : d.rx.txLive = true) (hf : f ∈ p.out ∨ ∃ n ∈ p.grants, f = .windowUpdateMsg d.id n) :
    d.Takes f := by
  have hb := hp.balanced hquiet
  rcases hf with hf | ⟨n, hn, rfl⟩
  · cases f with
    | dataMsg id b =>
      have hmem : b ∈ payloads p.out := List.mem_filterMap.mpr ⟨_, hf, rfl⟩
      have := charge_le_charges hmem
      have := (hp.base_le_granted hquiet hd).1
      have := (hp.logged.2 d hd).1.granted_le hlive
      have hout := hb.out
      simp only [Pair.farOwing, Option.mem_def.mp hd, Option.elim_some] at hout
      exact (RecvWindow.accept_snd _ _).mpr (by omega)
    | windowUpdateMsg id n =>
      have hnil := hp.updates_out
      have : n ∈ updates p.out := List.mem_filterMap.mpr ⟨_, hf, rfl⟩
      rw [hnil] at this
      cases this
    | openedMsg id success m w =>
      cases success with
      | false => trivial
      | true =>
        intro hs
        rw [hp.side.2 d hd] at hs
        cases hs
    | openMsg | closeMsg => trivial
  · have := hb.back d hd
    have := List.single_le_sum (by simp) n hn
    have := d.credit_le_rights
    have : maxSendCredit = channelWindow := rfl
    change d.tx.credit.credit + n ≤ maxSendCredit
    omega

/-- What the far channel has on its way is welcome at the near one. -/
lemma near_takes (hlive : p.near.rx.txLive = true)
    (hf : f ∈ p.back) : p.near.Takes f := by
  have hb := hp.balanced hquiet
  have hout := hb.out
  have hcredit := p.near.credit_le_rights
  have hbase := p.near.base_le
  cases f with
  | dataMsg id b =>
    cases hfar : p.far with
    | none =>
      rw [(hp.back_log.2 hfar).2] at hf
      cases hf
    | some d =>
      have hmem : b ∈ payloads p.back := List.mem_filterMap.mpr ⟨_, hf, rfl⟩
      have := charge_le_charges hmem
      have hback := hb.back d hfar
      have := hp.logged.1.1.granted_le hlive
      have := hp.widened.1.controller hp.side.1
      exact (RecvWindow.accept_snd _ _).mpr (by omega)
  | windowUpdateMsg id n =>
    have hmem : n ∈ updates p.back := List.mem_filterMap.mpr ⟨_, hf, rfl⟩
    have := List.single_le_sum (by simp) n hmem
    change p.near.tx.credit.credit + n ≤ maxSendCredit
    omega
  | openedMsg id success m w =>
    cases success with
    | false => trivial
    | true =>
      intro _ ho
      obtain rfl := hp.opened_window (List.mem_append_right _ hf) id m w rfl
      have hinit : p.near.base = initialWindow := by simp [Channel.base, ho]
      have hw :
          initialWindow + (effectiveWindow channelWindow - initialWindow) ≤ maxSendCredit := by
        decide
      omega
  | openMsg | closeMsg => trivial

end Pair.Reachable

/-! ### The account of a channel -/

/-- The account of the channel that is number `i` at the controller and number `j` at the
controlled side. A direction counts its sender's credit, what `take` has reserved, the frames in
hand, queued and on the stream, what the receiver has not drained or not given back, and the
updates on their way. -/
structure System.Conserved (s : System) (i j : ℕ) (c d : Channel) : Prop where
  /-- the last summand is what `opened` brings and the controller has not applied -/
  out : c.tx.credit.credit + c.tx.pc.reserved +
    charges (c.tx.pc.inHand ++ payloads (framesOf i s.controller.data) ++
      payloads (framesOf i s.toControlled) ++ d.rx.undrained) +
    d.rx.window.drainedSinceUpdate +
    (d.rx.pc.owed + (updates (framesOf j s.controlled.tx)).sum +
      (updates (framesOf j s.toController)).sum) +
    (if c.opened then 0 else d.rx.granted - initialWindow) = d.rx.granted
  back : d.tx.credit.credit + d.tx.pc.reserved +
    charges (d.tx.pc.inHand ++ payloads (framesOf j s.controlled.tx) ++
      payloads (framesOf j s.toController) ++ c.rx.undrained) +
    c.rx.window.drainedSinceUpdate +
    (c.rx.pc.owed + (updates (framesOf i s.controller.control)).sum +
      (updates (framesOf i s.toControlled)).sum) = channelWindow
  granted : d.rx.granted = channelWindow ∨
    (d.rx.granted = initialWindow ∧ (d.phase.beforeGrant = true ∨ d.phase = .finished))
  held : (c.rx.rxLive = true → c.rx.undrained = c.rx.held) ∧
    (d.rx.rxLive = true → d.rx.undrained = d.rx.held)

lemma Receiver.Accounted.undrained_eq (h : r.Accounted) (hlive : r.rxLive = true) :
    r.undrained = r.held := by
  rw [undrained, h.delivered_eq hlive, List.drop_left]

namespace System

/-- What flow control promises two honest endpoints. -/
structure FlowControlled (s : System) : Prop where
  /-- the frame at the head of a stream is welcome at the entry it finds -/
  toController : ∀ x rest i c, s.toController = x :: rest → s.controller.chans[i]? = some c →
    findEntry s.controller.chans x.frame.channelId = some i → c.Takes x.frame
  toControlled : ∀ x rest j d, s.toControlled = x :: rest → s.controlled.chans[j]? = some d →
    findEntry s.controlled.chans x.frame.channelId = some j → d.Takes x.frame
  /-- the window an `open` brings is below the cap -/
  opens : ∀ x ∈ s.toControlled, ∀ id host port w, x.frame = .openMsg id host port w →
    effectiveWindow w ≤ maxSendCredit
  exact : ∀ c, c ∈ s.controller.chans ∨ c ∈ s.controlled.chans → c.Exact
  /-- until anything of the channel has arrived, the controller alone has the initial window -/
  before : ∀ i c, s.controller.chans[i]? = some c → c.rx.txLive = true →
    s.controller.loop ≠ .dropped →
    ordered c.log = ordered (framesOf i s.toControlled) ++ framesOf i s.controller.data →
    c.tx.credit.credit + c.tx.pc.reserved +
      charges (c.tx.pc.inHand ++ payloads (framesOf i s.controller.data) ++
        payloads (framesOf i s.toControlled)) = initialWindow
  conserved : ∀ i j c d, s.controller.chans[i]? = some c → s.controlled.chans[j]? = some d →
    c.id = d.id → c.rx.txLive = true → d.rx.txLive = true → s.Conserved i j c d

end System

namespace Sim

variable {t : String} {s : System} {i j : ℕ} {p : Pair} {d : Channel}

lemma charges_out (h : Sim s i p) : charges (payloads p.out) =
    charges (payloads (framesOf i s.toControlled)) +
      charges (payloads (framesOf i s.controller.data)) := by
  rw [h.near.out, payloads_append, payloads_ordered, charges_append]

lemma sum_grants (h : Sim s i p) : p.grants.sum =
    (updates (framesOf i s.toControlled)).sum +
      (updates (framesOf i s.controller.control)).sum := by
  rw [h.near.grants, List.sum_append]

lemma conserved (h : Sim s i p) (hp : p.Reachable) (hquiet : p.noisy = false)
    (ho : s.origin[j]? = some (some i)) (hd : s.controlled.chans[j]? = some d)
    (hlive : p.near.rx.txLive = true) (hlived : d.rx.txLive = true) :
    s.Conserved i j p.near d := by
  obtain ⟨hfar, hback⟩ := h.far_of_origin ho hd
  have hf := hp.funded
  have hb := hp.balanced hquiet
  have hout := h.charges_out
  have hgrants := h.sum_grants
  have hupd : (updates p.back).sum = (updates (framesOf j s.toController)).sum +
      (updates (framesOf j s.controlled.tx)).sum := by
    rw [hback, updates_append, List.sum_append]
  have hpay : charges (payloads p.back) = charges (payloads (framesOf j s.toController)) +
      charges (payloads (framesOf j s.controlled.tx)) := by
    rw [hback, payloads_append, charges_append]
  have hgranted := (hp.widened.2 d hfar).granted
  refine ⟨?_, ?_, hgranted, hp.logged.1.1.rx.undrained_eq, (hp.logged.2 d hfar).1.rx.undrained_eq⟩
  · have hle := hb.out
    have hge := hf.out d hfar hlive hlived
    simp only [Pair.farOwing, hfar, Option.elim_some] at hle
    have hbase : p.near.base + (if p.near.opened then 0 else d.rx.granted - initialWindow) =
        d.rx.granted := by
      unfold Channel.base
      split_ifs with hop
      · exact ((hp.base_le_granted hquiet hfar).2 hop).symm
      · have hinit : initialWindow ≤ d.rx.granted := by
          rcases hgranted with heq | ⟨heq, _⟩ <;> rw [heq]
          decide
        omega
    simp only [Receiver.owing, Sender.rights] at hle hge
    simp only [charges_append]
    omega
  · have hle := hb.back d hfar
    have hge := hf.back d hfar hlive hlived
    simp only [Receiver.owing, Sender.rights] at hle hge
    simp only [charges_append]
    omega

end Sim

section Honest

variable {t : String} {s : System} {i j : ℕ} {c d : Channel} {x : Sent}

/-- Every `open` brings the whole window and no more. -/
lemma open_window_le (hr : (systemLts t).Reachable s) (hx : x ∈ s.toControlled) {id : ChannelId}
    {host : String} {port : ℤ} {w : ℕ} (hf : x.frame = .openMsg id host port w) :
    effectiveWindow w ≤ maxSendCredit := by
  obtain ⟨k, c, _, hc, hmem⟩ := (systemLts_routed hr).sent x (Or.inl hx)
  have hh := (systemLts_endpoints hr).1
  have hlog := (handleLts_logged hh c (List.mem_of_getElem? hc)).2.cases
  have hframes := hlog.controllerFrames (handleLts_side hh c (List.mem_of_getElem? hc))
  rw [hf] at hmem
  have hord : .openMsg id host port w ∈ ordered c.log := List.mem_filter.mpr ⟨hmem, rfl⟩
  obtain ⟨l₁, l₂, hsplit⟩ := List.append_of_mem hord
  have hle : l₁ ++ .openMsg id host port w :: l₂ <+: ordered c.log := by simp [hsplit]
  obtain ⟨_, host', port', heq⟩ := hframes.open_first rfl hle
  cases heq
  decide

section

variable (hr : (systemLts t).Reachable s) (hlen : s.controller.chans.length < 2 ^ 32)
include hr hlen

/-- The pair of a channel of the controller, undisturbed as long as no id is reused. -/
lemma systemLts_pair (hc : s.controller.chans[i]? = some c) :
    ∃ p, p.Reachable ∧ Sim s i p ∧ p.noisy = false ∧ p.near = c := by
  obtain ⟨p, hp, hsim⟩ := systemLts_sim hr i c hc
  exact ⟨p, hp, hsim, hsim.quiet hlen.le, (hsim.near.eq_near hc).symm⟩

lemma systemLts_pair_far (hd : s.controlled.chans[j]? = some d) :
    ∃ (i : ℕ) (p : Pair), s.origin[j]? = some (some i) ∧ p.Reachable ∧ Sim s i p ∧
      p.noisy = false ∧ p.far = some d ∧ p.near.id = d.id := by
  obtain ⟨i, c, ho, hc, hid⟩ := (systemLts_routed hr).origin j d hd
  obtain ⟨p, hp, hsim, hquiet, rfl⟩ := systemLts_pair hr hlen hc
  exact ⟨i, p, ho, hp, hsim, hquiet, (hsim.far_of_origin ho hd).1, hid.symm⟩

lemma toController_takes (hx : x ∈ s.toController) (hc : s.controller.chans[i]? = some c)
    (hlive : c.rx.txLive = true) (hid : c.id = x.frame.channelId) : c.Takes x.frame := by
  obtain ⟨p, hp, hsim, hquiet, rfl⟩ := systemLts_pair hr hlen hc
  have hroute := systemLts_routed hr
  rcases hroute.back x (Or.inl hx) with ⟨j, d, htask, hd, hmem⟩ | ⟨_, _, _, m, _, hreply⟩
  · have hlog := muxLts_logged (systemLts_endpoints hr).2 d (List.mem_of_getElem? hd)
    have hown := hlog.2.cases.emits.own _ hmem
    have ho := hsim.origin_of_emitted hroute hr hlen.le hd (hown.symm.trans hid.symm)
    refine hp.near_takes hquiet hlive ?_
    rw [(hsim.far_of_origin ho hd).2]
    exact List.mem_append_left _ (mem_framesOf.mpr (htask ▸ hx))
  · rw [hreply]
    trivial

lemma toControlled_takes (hx : x ∈ s.toControlled) (hd : s.controlled.chans[j]? = some d)
    (hlive : d.rx.txLive = true) (hid : d.id = x.frame.channelId) : d.Takes x.frame := by
  obtain ⟨i, p, ho, hp, hsim, hquiet, hfar, hpid⟩ := systemLts_pair_far hr hlen hd
  obtain ⟨k, c, htask, hc, hmem⟩ := (systemLts_routed hr).sent x (Or.inl hx)
  have hh := (systemLts_endpoints hr).1
  have hown := (handleLts_logged hh c (List.mem_of_getElem? hc)).2.cases.emits.own _ hmem
  have hki : k = i := handleLts_id_inj hh hlen.le hc hsim.near.near (by rw [← hown, ← hid, hpid])
  have hin : x.frame ∈ framesOf i s.toControlled :=
    mem_framesOf.mpr (by rw [← hki, ← htask]; exact hx)
  refine hp.far_takes hquiet hfar hlive ?_
  cases hctl : x.frame.isControl with
  | false =>
    left
    rw [hsim.near.out]
    refine List.mem_append_left _ (List.mem_filter.mpr ⟨hin, by simp [hctl]⟩)
  | true =>
    right
    cases hf : x.frame with
    | windowUpdateMsg id n =>
      refine ⟨n, ?_, by rw [hid, hf]; rfl⟩
      rw [hsim.near.grants]
      exact List.mem_append_left _ (List.mem_filterMap.mpr ⟨_, hin, by rw [hf]; rfl⟩)
    | _ =>
      rw [hf] at hctl
      cases hctl

lemma channels_exact (hc : c ∈ s.controller.chans ∨ c ∈ s.controlled.chans) : c.Exact := by
  rcases hc with hc | hc
  · obtain ⟨i, hi⟩ := List.mem_iff_getElem?.mp hc
    obtain ⟨p, hp, _, hquiet, rfl⟩ := systemLts_pair hr hlen hi
    exact hp.logged.1.1.exact (hp.rights_le hquiet).1
  · obtain ⟨j, hj⟩ := List.mem_iff_getElem?.mp hc
    obtain ⟨_, p, _, hp, _, hquiet, hfar, _⟩ := systemLts_pair_far hr hlen hj
    exact (hp.logged.2 c hfar).1.exact ((hp.rights_le hquiet).2 c hfar)

end

/-- What is still on its way tells that nothing has arrived. -/
lemma Sim.conserved_before {p : Pair} (h : Sim s i p) (hp : p.Reachable) (hquiet : p.noisy = false)
    (hlive : p.near.rx.txLive = true) (hloop : s.controller.loop ≠ .dropped)
    (hlog : ordered p.near.log =
      ordered (framesOf i s.toControlled) ++ framesOf i s.controller.data) :
    p.near.tx.rights + charges (payloads p.out) = initialWindow := by
  have hcl : p.nearClosed = false := by simp [h.near.closed, hloop]
  have hseen : p.seen = [] := by
    have heq := hp.out_log.2 hcl
    rw [hlog, ← h.near.out] at heq
    simpa using heq
  have hfar : p.far = none := by
    by_contra hne
    obtain ⟨f, hf, _⟩ := hp.open_seen (Or.inl hne)
    simp [hseen] at hf
  have hopened : p.near.opened = false := by
    by_contra ho
    obtain ⟨id, m, w, hmem⟩ := hp.opened_seen hquiet (by simpa using ho)
    simp [(hp.back_log.2 hfar).1] at hmem
  have hge := hp.funded.before hfar hseen hcl hlive
  have hle := (hp.balanced hquiet).out
  have hbase : p.near.base = initialWindow := by simp [Channel.base, hopened]
  omega

end Honest

/-- Two honest endpoints that have opened fewer than `2 ^ 32` channels never accuse each other:
every frame that reaches an entry is accepted, no amount is cut or saturates, and the credit of
every channel both have is conserved. -/
theorem flow_control_honest {t : String} {s : System} (hr : (systemLts t).Reachable s)
    (hlen : s.controller.chans.length < 2 ^ 32) : s.FlowControlled where
  toController x rest i c hq hc hi := by
    obtain ⟨c', hc', hlive, hid⟩ := findEntry_eq_some hi
    rw [hc] at hc'
    cases hc'
    exact toController_takes hr hlen (by simp [hq]) hc hlive hid
  toControlled x rest j d hq hd hj := by
    obtain ⟨d', hd', hlive, hid⟩ := findEntry_eq_some hj
    rw [hd] at hd'
    cases hd'
    exact toControlled_takes hr hlen (by simp [hq]) hd hlive hid
  opens x hx id host port w hf := open_window_le hr hx hf
  exact c hc := channels_exact hr hlen hc
  before i c hc hlive hloop hlog := by
    obtain ⟨p, hp, hsim, hquiet, rfl⟩ := systemLts_pair hr hlen hc
    have heq := hsim.conserved_before hp hquiet hlive hloop hlog
    have hout := hsim.charges_out
    simp only [Sender.rights] at heq
    simp only [charges_append]
    omega
  conserved i j c d hc hd hid hlive hlived := by
    obtain ⟨p, hp, hsim, hquiet, rfl⟩ := systemLts_pair hr hlen hc
    have ho := hsim.origin_of_emitted (systemLts_routed hr) hr hlen.le hd hid.symm
    exact hsim.conserved hp hquiet ho hd hlive hlived

/-- The controller opens a channel for a socket that has already given one byte, and sends it. -/
def oneByte : List SystemAct :=
  [.controller (.beginOpen ⟨"host", 22, [7]⟩), .controller .insert,
    .controller (.task 0 .sendOpen), .controller .writeData, .toControlled true,
    .controller (.task 0 (.sender .check)), .controller (.task 0 (.sender (.read [7]))),
    .controller (.task 0 (.sender .refund)), .controller (.task 0 (.sender .notify)),
    .controller (.task 0 (.sender .send)), .controller .writeData]

/-- One byte on its way to the target: it is accepted, and the account of its channel adds up. -/
theorem flow_control_honest_one_byte :
    ∃ s c d, (systemLts blockedTarget).run (.new blockedTarget) oneByte = some s ∧
      s.controller.chans = [c] ∧ s.controlled.chans = [d] ∧
      s.toControlled = [⟨some 0, .dataMsg 1 [7]⟩] ∧
      d.Takes (.dataMsg 1 [7]) ∧ c.Exact ∧ d.Exact ∧ s.Conserved 0 0 c d := by
  have hobs : ∃ s ∈ (systemLts blockedTarget).run (.new blockedTarget) oneByte,
      (s.controller.chans.map fun c => (c.id, c.rx.txLive)) = [(1, true)] ∧
      (s.controlled.chans.map fun d => (d.id, d.rx.txLive)) = [(1, true)] ∧
      s.toControlled = [⟨some 0, .dataMsg 1 [7]⟩] := by decide
  obtain ⟨s, hrun, hc, hd, hq⟩ := hobs
  simp only [List.map_eq_singleton_iff, Prod.mk.injEq] at hc hd
  obtain ⟨c, hc, hcid, hcl⟩ := hc
  obtain ⟨d, hd, hdid, hdl⟩ := hd
  have hflow := flow_control_honest ((LTS.Reachable.init rfl).run hrun) (by simp [hc])
  have hfind : findEntry s.controlled.chans 1 = some 0 := by simp [findEntry, hd, hdid, hdl]
  refine ⟨s, c, d, hrun, hc, hd, hq, ?_, ?_, ?_, ?_⟩
  · exact hflow.toControlled _ [] 0 d hq (by simp [hd]) hfind
  · exact hflow.exact c (by simp [hc])
  · exact hflow.exact d (by simp [hd])
  · exact hflow.conserved 0 0 c d (by simp [hc]) (by simp [hd]) (hcid.trans hdid.symm) hcl hdl

/-! ### No stall -/

/-- A direction at rest, with `fs` and `gs` the frames its sender and its receiver have on their
way: no data and no window update among them, none in the receiver's hand, and everything
delivered has been drained. -/
structure AtRest (rx : Receiver) (fs gs : List Frame) : Prop where
  data : payloads fs = []
  update : updates gs = []
  owed : rx.pc.owed = 0
  drained : rx.drained = rx.delivered

/-- A sender that can go on: but for the frame it may have in hand, it has more than half the
window, and so enough for a frame. -/
structure Sender.Ready (tx : Sender) : Prop where
  rights : channelWindow - updateThreshold < tx.rights
  credit : tx.pc.inHand = [] → channelWindow - updateThreshold < tx.credit.credit + tx.pc.reserved
  frame : tx.pc.inHand = [] → minFrameCharge ≤ tx.credit.credit + tx.pc.reserved

/-- At rest the receiver owes less than the threshold, so the sender has the rest. -/
lemma AtRest.ready {tx : Sender} {rx : Receiver} {fs gs : List Frame} (h : AtRest rx fs gs)
    (hrx : rx.Accounted)
    (hfund : channelWindow ≤
      tx.rights + (charges (payloads fs) + rx.owing + (updates gs).sum)) : tx.Ready := by
  have hund : rx.undrained = [] := by rw [Receiver.undrained, h.drained, List.drop_length]
  have hbelow := hrx.below
  rw [h.data, h.update, Receiver.owing, hund, h.owed, charges_nil, List.sum_nil] at hfund
  have hthreshold : updateThreshold ≤ channelWindow := by decide
  have hrights : channelWindow - updateThreshold < tx.rights := by omega
  have hcredit : tx.pc.inHand = [] →
      channelWindow - updateThreshold < tx.credit.credit + tx.pc.reserved := by
    intro hhand
    rw [Sender.rights, hhand, charges_nil] at hrights
    exact hrights
  have hmin : minFrameCharge ≤ channelWindow - updateThreshold := by decide
  exact ⟨hrights, hcredit, fun hhand => hmin.trans (hcredit hhand).le⟩

/-- A channel both endpoints have never stalls for credit: a direction at rest leaves its sender
more than half the window, and a relay that waits in `take` although it has enough for a frame has
a wake-up on its way. -/
theorem credit_never_stalls {t : String} {s : System} (hr : (systemLts t).Reachable s) :
    (∀ (i j : ℕ) (c d : Channel), s.controller.chans[i]? = some c →
      s.controlled.chans[j]? = some d → s.origin[j]? = some (some i) → c.rx.txLive = true →
      d.rx.txLive = true → c.opened = true →
      (AtRest d.rx (framesOf i s.controller.data ++ framesOf i s.toControlled)
        (framesOf j s.controlled.tx ++ framesOf j s.toController) → c.tx.Ready) ∧
      (AtRest c.rx (framesOf j s.controlled.tx ++ framesOf j s.toController)
        (framesOf i s.controller.control ++ framesOf i s.toControlled) → d.tx.Ready)) ∧
    (∀ c, c ∈ s.controller.chans ∨ c ∈ s.controlled.chans → c.tx.pc = .parked →
      minFrameCharge ≤ c.tx.credit.credit → c.tx.credit.notify.waiter = .notified ∨
        ∃ c', c.finishAdd = some c' ∧ c'.tx.credit.notify.waiter = .notified) := by
  obtain ⟨hh, hm⟩ := systemLts_endpoints hr
  constructor
  · intro i j c d hc hd ho hlive hlived hopened
    obtain ⟨p, hp, hsim⟩ := systemLts_sim hr i c hc
    obtain rfl := hsim.near.eq_near hc
    obtain ⟨hfar, hback⟩ := hsim.far_of_origin ho hd
    have hfund := hp.funded
    constructor
    · intro hrest
      refine hrest.ready (hp.logged.2 d hfar).1.rx ?_
      have hout := hfund.out d hfar hlive hlived
      have hbase : p.near.base = channelWindow := by simp [Channel.base, hopened]
      have hpay := hsim.charges_out
      rw [hback] at hout
      simp only [payloads_append, charges_append, updates_append, List.sum_append] at hout ⊢
      omega
    · intro hrest
      refine hrest.ready hp.logged.1.1.rx ?_
      have hin := hfund.back d hfar hlive hlived
      have hgrants := hsim.sum_grants
      rw [hback] at hin
      simp only [payloads_append, charges_append, updates_append, List.sum_append] at hin ⊢
      omega
  · rintro c (hc | hc) hpc hcredit
    · exact (handleLts_awake hh c hc).woken hpc hcredit
    · exact (muxLts_awake hm c hc).woken hpc hcredit

/-- The controlled side accepts a channel, and its `opened` arrives. -/
def openAccepted : List SystemAct :=
  [.controller (.beginOpen ⟨"host", 22, []⟩), .controller .insert,
    .controller (.task 0 .sendOpen), .controller .writeData, .toControlled true,
    .controlled (.task 0 .recvCmd), .controlled (.task 0 (.connected true)),
    .controlled (.task 0 .grant), .controlled (.task 0 .announce), .controlled .write,
    .toController]

/-- A channel that has just been opened. -/
theorem credit_never_stalls_opened :
    ∃ s c d, (systemLts blockedTarget).run (.new blockedTarget) openAccepted = some s ∧
      s.controller.chans = [c] ∧ s.controlled.chans = [d] ∧ c.opened = true ∧
      c.tx.Ready ∧ d.tx.Ready := by
  have hobs : ∃ s ∈ (systemLts blockedTarget).run (.new blockedTarget) openAccepted,
      (s.controller.chans.map fun c => (c.opened, c.rx)) =
        [(true, { Receiver.new channelWindow with pc := .next })] ∧
      s.controlled.chans.map Channel.rx =
        [{ (Receiver.new initialWindow).grant (channelWindow - initialWindow) with pc := .next }] ∧
      s.origin = [some 0] ∧ s.controller.data ++ s.controller.control ++ s.toControlled = [] ∧
      s.controlled.tx ++ s.toController = [] := by decide
  obtain ⟨s, hrun, hc, hd, horigin, hto, hback⟩ := hobs
  simp only [List.map_eq_singleton_iff, Prod.mk.injEq, List.append_eq_nil_iff] at hc hd hto hback
  obtain ⟨c, hc, hopened, hcrx⟩ := hc
  obtain ⟨d, hd, hdrx⟩ := hd
  obtain ⟨⟨hdata, hctl⟩, hto⟩ := hto
  obtain ⟨htx, hback⟩ := hback
  have hready := (credit_never_stalls ((LTS.Reachable.init rfl).run hrun)).1 0 0 c d (by simp [hc])
    (by simp [hd]) (by simp [horigin]) (by rw [hcrx]; rfl) (by rw [hdrx]; rfl) hopened
  refine ⟨s, c, d, hrun, hc, hd, hopened, hready.1 ⟨?_, ?_, ?_, ?_⟩, hready.2 ⟨?_, ?_, ?_, ?_⟩⟩
  · simp [hdata, hto]
  · simp [htx, hback]
  · rw [hdrx]; rfl
  · rw [hdrx]; rfl
  · simp [htx, hback]
  · simp [hctl, hto]
  · rw [hcrx]; rfl
  · rw [hcrx]; rfl

end RustDesk.PortForward
