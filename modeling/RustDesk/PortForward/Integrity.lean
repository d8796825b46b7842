import RustDesk.PortForward.Conservation
import RustDesk.PortForward.Stream

/-!
# Integrity of the byte streams

What either end of a pair has been handed is, frame by frame, what the other has put into its log
(`Pair.Streamed`), so the bytes a socket has accepted are a prefix of those read at the other end;
a receiver that has met the peer's `close` has them all. This holds as long as no id is reused. The
id counter wraps, and `open` skips the ids still in the map; but a task can outlive its entry, and
then its frames reach the next channel of the same id.
-/

namespace RustDesk.PortForward

variable {s : System}

lemma ends_payload {f : Frame} (h : f.ends = true) : payloads [f] = [] := by
  cases f with
  | dataMsg | windowUpdateMsg | openMsg => cases h
  | closeMsg | openedMsg => rfl

/-- The frame that ends a channel occurs once, so what contains it is everything. -/
lemma eq_nil_of_last {α : Type*} {l a b : List α} {x : α} (hx : x ∉ l) (ha : x ∈ a)
    (h : a ++ b <+: l ++ [x]) : b = [] ∧ a = l ++ [x] := by
  obtain ⟨t, ht⟩ := h
  have hnil : b ++ t = [] := by
    rcases List.eq_nil_or_concat (b ++ t) with hnil | ⟨b', y, hb⟩
    · exact hnil
    · rw [List.append_assoc, hb, List.concat_eq_append, ← List.append_assoc] at ht
      have hin := (List.append_inj' ht rfl).1
      exact (hx (hin ▸ List.mem_append_left b' ha)).elim
  rw [List.append_assoc, hnil, List.append_nil] at ht
  exact ⟨(List.append_eq_nil_iff.mp hnil).1, ht⟩

namespace Channel

variable {c : Channel} {seen rest : List Frame}

/-- A frame that ends the channel is the last of its log. -/
lemma Ended.ends_last (h : c.Ended) {f : Frame} (hf : f ∈ c.log) (hends : f.ends = true) :
    ∃ l, c.log = l ++ [f] ∧ f ∉ l := by
  have hsession : ∀ {l : List Frame}, Session c.side c.id l → f ∉ l := by
    intro l hl hfl
    rw [hl.ends_eq_false f hfl] at hends
    cases hends
  rcases h with h | h | ⟨_, m, h⟩ | ⟨_, ⟨_, h⟩ | ⟨l, hl, h⟩⟩
  · simp [h] at hf
  · exact (hsession h hf).elim
  · rw [h, List.mem_singleton] at hf
    exact ⟨[], by rw [h, hf]; rfl, by simp⟩
  · rw [h, List.mem_singleton] at hf
    exact ⟨[], by rw [h, hf]; rfl, by simp⟩
  · rw [h] at hf
    rcases List.mem_append.mp hf with hfl | hfl
    · exact (hsession hl hfl).elim
    · rw [List.mem_singleton.mp hfl]
      rw [List.mem_singleton.mp hfl] at hsession
      exact ⟨l, h, hsession hl⟩

/-- What has been seen of a channel that includes its last frame is all of its log. -/
lemma Ended.seen_all (h : c.Ended) (hle : seen ++ rest <+: c.log)
    (hend : ∃ f ∈ seen, f.ends = true) : rest = [] ∧ seen = c.log := by
  obtain ⟨f, hf, hends⟩ := hend
  obtain ⟨l, hl, hnot⟩ := h.ends_last (hle.subset (List.mem_append_left rest hf)) hends
  rw [hl] at hle ⊢
  exact eq_nil_of_last hnot hf hle

lemma Ended.seen_all_ordered (h : c.Ended) (hle : seen ++ rest <+: ordered c.log)
    (hend : ∃ f ∈ seen, f.ends = true) : rest = [] ∧ seen = ordered c.log := by
  obtain ⟨f, hf, hends⟩ := hend
  obtain ⟨hlog, hctl⟩ := List.mem_filter.mp (hle.subset (List.mem_append_left rest hf))
  obtain ⟨l, hl, hnot⟩ := h.ends_last hlog hends
  have hord : ordered c.log = ordered l ++ [f] := by
    rw [hl, ordered_append]
    exact congrArg _ (List.filter_eq_self.mpr (by simpa using hctl))
  rw [hord] at hle ⊢
  exact eq_nil_of_last (fun hmem => hnot (List.mem_filter.mp hmem).1) hf hle

end Channel

/-! ### What has been delivered -/

/-- A receiver that has been handed the data of the frames seen, as long as its entry was there; a
`close` in its queue found all that was sent before it. -/
structure Receiver.Fed (r : Receiver) (seen : List Frame) : Prop where
  le : r.delivered <+: payloads seen
  eq : r.txLive = true → r.delivered = payloads seen
  closing : r.Closing → r.delivered = payloads seen ∧ ∃ f ∈ seen, f.ends = true

namespace Receiver.Fed

variable {seen : List Frame} {c : Channel}

/-- A frame arrives that the channel's end has not preceded. -/
lemma receive (h : c.rx.Fed seen) (hopen : ¬∃ f ∈ seen, f.ends = true) (f : Frame) :
    (c.receive f).rx.Fed (seen ++ [f]) := by
  obtain ⟨hle, heq⟩ := (c.receives f).delivered h.le h.eq
  rw [← payloads_append] at hle heq
  refine ⟨hle, heq, fun hc => ?_⟩
  rcases (c.receives f).closing hc with hclosing | ⟨hlive, hends, hdel⟩
  · exact (hopen (h.closing hclosing).2).elim
  · refine ⟨?_, f, by simp, hends⟩
    rw [hdel, payloads_append, ends_payload hends, List.append_nil]
    exact h.eq hlive

lemma rule {env : Env} {c' : Channel} {e : Option Frame} (h : c.rx.Fed seen)
    (hr : Channel.Rule env c c' e) : c'.rx.Fed seen := by
  obtain ⟨_, _, _, hlive, hdel⟩ := hr.sameEntry
  refine ⟨hdel ▸ h.le, ?_, fun hc => ?_⟩
  · rw [hlive, hdel]
    exact h.eq
  · rw [hdel]
    exact h.closing (hr.rx_closing hc)

lemma drop {r : Receiver} (h : r.Fed seen) : r.dropEntry.Fed seen :=
  ⟨h.le, by simp [Receiver.dropEntry], h.closing⟩

end Receiver.Fed

lemma Channel.receive_update_rx (c : Channel) (id : ChannelId) (n : ℕ) :
    (c.receive (.windowUpdateMsg id n)).rx = c.rx := by
  unfold Channel.receive
  split_ifs <;> rfl

namespace Pair

/-- What each end has been handed is what has arrived of the other's frames. -/
structure Streamed (p : Pair) : Prop where
  far : ∀ d ∈ p.far, d.rx.Fed p.seen
  near : p.refused = false → p.near.rx.Fed p.seenBack
  absent : p.far = none → p.near.rx.delivered = []

namespace Reachable

variable {p : Pair}

/-- Nothing follows the frame that ends the near channel, -/
lemma out_of_ended (hp : p.Reachable) (h : ∃ f ∈ p.seen, f.ends = true) :
    p.out = [] ∧ p.seen = ordered p.near.log :=
  hp.logged.1.2.cases.seen_all_ordered hp.out_log.1 h

/-- nor the one that ends the far channel. -/
lemma back_of_ended (hp : p.Reachable) {d : Channel} (hd : d ∈ p.far)
    (h : ∃ f ∈ p.seenBack, f.ends = true) : p.back = [] ∧ p.seenBack = d.log :=
  (hp.logged.2 d hd).2.cases.seen_all (hp.back_log.1 d hd).1 h

end Reachable

namespace Streamed

variable {p : Pair} {f : Frame} {rest : List Frame} (h : p.Streamed)

include h

/-- A step of the far channel that leaves what was delivered alone. -/
lemma with_far {d : Channel} {back : List Frame} (hd : d.rx.Fed p.seen) :
    ({ p with far := some d, back := back } : Pair).Streamed where
  far d' hd' := by
    cases hd'
    exact hd
  near := h.near
  absent := by simp

variable (hp : p.Reachable)

include hp

lemma recv (ho : p.out = f :: rest) :
    ({ p with far := p.far.map fun d => d.receive f, out := rest, seen := p.seen ++ [f] } :
      Pair).Streamed where
  far d' hd' := by
    obtain ⟨d, hd, rfl⟩ := Option.map_eq_some_iff.mp hd'
    refine (h.far d hd).receive (fun hend => ?_) f
    rw [(hp.out_of_ended hend).1] at ho
    cases ho
  near := h.near
  absent hfar := h.absent (by simpa using hfar)

lemma recvBack (hb : p.back = f :: rest) :
    ({ p with near := p.near.receive f, back := rest, seenBack := p.seenBack ++ [f] } :
      Pair).Streamed := by
  cases hfar : p.far with
  | none =>
    rw [(hp.back_log.2 hfar).2] at hb
    cases hb
  | some d =>
    refine ⟨fun d' hd' => h.far d' (hfar ▸ hd'), fun href => ?_, by simp⟩
    refine (h.near href).receive (fun hend => ?_) f
    rw [(hp.back_of_ended hfar hend).1] at hb
    cases hb

/-- The far channel starts with nothing delivered. -/
lemma accept {id : ChannelId} {host : String} {port : ℤ} {window : ℕ} (u : String)
    (hf : f = .openMsg id host port window) (ho : p.out = f :: rest) :
    ({ p with far := some (.controlled id window u), out := rest, seen := p.seen ++ [f] } :
      Pair).Streamed where
  far d hd := by
    cases hd
    have hseen := (hp.head_open (by rw [hf]; rfl) ho).1
    have hpay : payloads (p.seen ++ [f]) = [] := by
      rw [hseen, hf]
      rfl
    refine ⟨List.nil_prefix, fun _ => hpay.symm, fun hc => ?_⟩
    rcases hc with hc | hc <;> cases hc
  near := h.near
  absent := by simp

end Streamed

lemma Reachable.streamed {p : Pair} (hp : p.Reachable) (hquiet : p.noisy = false) :
    p.Streamed := by
  induction hp with
  | new id host port prebuf nearClosed farClosed =>
    refine ⟨by simp [Pair.new], fun _ => ⟨List.nil_prefix, fun _ => rfl, fun hc => ?_⟩,
      fun _ => rfl⟩
    rcases hc with hc | hc <;> cases hc
  | @step p p' hp h ih =>
    cases h with
    | nearTask hr hc =>
      have hs := ih hquiet
      refine ⟨hs.far, fun href => (hs.near href).rule hr, fun hfar => ?_⟩
      exact hr.sameEntry.delivered.trans (hs.absent hfar)
    | nearFinishAdd hf =>
      obtain ⟨_, rfl⟩ := Channel.finishAdd_eq_some hf
      exact ⟨(ih hquiet).far, (ih hquiet).near, (ih hquiet).absent⟩
    | nearDrop =>
      have hs := ih hquiet
      exact ⟨hs.far, fun href => (hs.near href).drop, hs.absent⟩
    | nearShut | farShut => exact ⟨(ih hquiet).far, (ih hquiet).near, (ih hquiet).absent⟩
    | farTask hd hr hc => exact (ih hquiet).with_far (((ih hquiet).far _ hd).rule hr)
    | @farFinishAdd d d' hd hf =>
      obtain ⟨_, rfl⟩ := Channel.finishAdd_eq_some hf
      exact (ih hquiet).with_far ((ih hquiet).far d hd)
    | farDrop hd => exact (ih hquiet).with_far ((ih hquiet).far _ hd).drop
    | accept u hf ho hc => exact (ih hquiet).accept hp u hf ho
    | refuse hf ho =>
      refine ⟨fun d hd => ?_, by simp, (ih hquiet).absent⟩
      rw [(hp.head_open hf ho).2.1] at hd
      cases hd
    | ignore hf ho =>
      refine ⟨fun d hd => ?_, (ih hquiet).near, (ih hquiet).absent⟩
      rw [(hp.head_open hf ho).2.1] at hd
      cases hd
    | recv hf ho => exact (ih hquiet).recv hp ho
    | recvGrant id hg =>
      refine ⟨fun d' hd' => ?_, (ih hquiet).near,
        fun hfar => (ih hquiet).absent (by simpa using hfar)⟩
      obtain ⟨d, hd, rfl⟩ := Option.map_eq_some_iff.mp hd'
      rw [d.receive_update_rx]
      exact (ih hquiet).far d hd
    | recvBack hb => exact (ih hquiet).recvBack hp hb
    | reply id message =>
      simp only [Bool.or_eq_false_iff, Bool.not_eq_eq_eq_not, Bool.not_false] at hquiet
      obtain ⟨hquiet, href⟩ := hquiet
      have hs := ih hquiet
      refine ⟨hs.far, by simp [href], fun hfar => ?_⟩
      have hnil := hs.absent hfar
      have hle := ((p.near.receives (.openedMsg id false message 0)).delivered
        (hnil ▸ List.prefix_rfl) fun _ => hnil).1
      exact List.prefix_nil.mp hle
    | noise | noiseBack => cases hquiet

end Pair

/-! ### What is written -/

/-- The bytes that have gone from one end of a channel to the other: in order, none lost in the
middle or added, and all of them once the receiver has met the sender's `close`. -/
structure Intact (src dst : Channel) : Prop where
  le : dst.rx.written <+: src.tx.prebuf ++ src.tx.socket
  complete : dst.rx.pc = .ended .peerClosed → dst.rx.written = src.tx.framed.flatten

lemma Intact.of_seen {src dst : Channel} {seen : List Frame} (hdst : dst.Windowed ∧ dst.Writes)
    (hsrc : src.Sends) (hfed : dst.rx.Fed seen) (hle : payloads seen <+: payloads src.log)
    (hall : (∃ f ∈ seen, f.ends = true) →
      payloads seen = payloads src.log ∧ ∃ f ∈ src.log, f.ends = true) : Intact src dst where
  le := calc
    dst.rx.written <+: dst.rx.delivered.flatten := hdst.2.written.le hdst.1.rx
    _ <+: (payloads seen).flatten := hfed.le.flatten
    _ <+: (payloads src.log).flatten := hle.flatten
    _ <+: src.tx.prebuf ++ src.tx.socket := hsrc.payloads_le
  complete hpc := by
    have hw : dst.rx.written = dst.rx.delivered.flatten := (hdst.2.written.of_pc hpc).2
    obtain ⟨hdel, hend⟩ := hfed.closing (Or.inr hpc)
    obtain ⟨hpay, hlog⟩ := hall hend
    rw [hw, hdel, hpay, hsrc.payloads_eq hlog]

namespace Pair.Reachable

variable {p : Pair} (hp : p.Reachable)

include hp

lemma writes : (p.near.Windowed ∧ p.near.Writes) ∧ ∀ d ∈ p.far, d.Windowed ∧ d.Writes :=
  hp.forall_channel (P := fun c => c.Windowed ∧ c.Writes)
    (fun _ _ _ _ => ⟨Channel.controller_windowed .., Channel.new_writes rfl⟩)
    (fun _ _ _ => ⟨Channel.controlled_windowed .., Channel.new_writes rfl⟩)
    (fun _ _ _ _ hc hm => Channel.Writes.moves hc hm)

lemma sends : p.near.Sends ∧ ∀ d ∈ p.far, d.Sends := by
  obtain ⟨hnear, hfar⟩ := hp.forall_channel
    (P := fun c => (c.Windowed ∧ c.Logged) ∧ c.Paced ∧ c.Sends)
    (fun id host port prebuf => ⟨⟨Channel.controller_windowed .., Channel.controller_logged ..⟩,
      Channel.controller_paced .., Channel.new_sends rfl rfl (by simp [Channel.controller])⟩)
    (fun id window u => ⟨⟨Channel.controlled_windowed .., Channel.controlled_logged ..⟩,
      Channel.controlled_paced .., Channel.new_sends rfl rfl (by simp [Channel.controlled])⟩)
    (fun _ _ _ _ hc hm => Channel.Sends.moves hc hm)
  exact ⟨hnear.2.2, fun d hd => (hfar d hd).2.2⟩

lemma intact (hquiet : p.noisy = false) {d : Channel} (hd : p.far = some d) :
    Intact p.near d ∧ Intact d p.near := by
  have hstream := hp.streamed hquiet
  have hfar : ∀ seen rest : List Frame, ∀ l, seen ++ rest <+: l → payloads seen <+: payloads l :=
    fun seen rest l hle => isPrefix_payloads ((List.prefix_append seen rest).trans hle)
  constructor
  · refine .of_seen (hp.writes.2 d hd) hp.sends.1 (hstream.far d hd) ?_ fun hend => ?_
    · simpa using hfar _ _ _ hp.out_log.1
    · have hall := (hp.out_of_ended hend).2
      refine ⟨by rw [hall, payloads_ordered], ?_⟩
      obtain ⟨f, hf, hends⟩ := hend
      rw [hall] at hf
      exact ⟨f, (List.mem_filter.mp hf).1, hends⟩
  · have href := hp.far_refused (by simp [hd])
    refine .of_seen hp.writes.1 (hp.sends.2 d hd) (hstream.near href) ?_ fun hend => ?_
    · exact hfar _ _ _ (hp.back_log.1 d hd).1
    · have hall := (hp.back_of_ended hd hend).2
      exact ⟨by rw [hall], hall ▸ hend⟩

/-- Without a far channel nothing comes back. -/
lemma written_absent (hquiet : p.noisy = false) (hfar : p.far = none) : p.near.rx.written = [] := by
  have hle := hp.writes.1.2.written.le hp.writes.1.1.rx
  rw [(hp.streamed hquiet).absent hfar] at hle
  exact List.prefix_nil.mp hle

end Pair.Reachable

/-- An `open` that gives out an id no other channel of the tunnel has had. -/
def System.freshId (s : System) : SystemAct → Bool
  | .controller .insert => s.controller.chans.length < 2 ^ 32
  | _ => true

/-- Only `insert` adds a channel, and one at a time. -/
lemma TunnelHandle.Rule.length_le {h h' : TunnelHandle} {a : HandleAct} {out : Option Sent}
    (hr : Rule h a h' out) : h'.chans.length = h.chans.length ∨
    (a = .insert ∧ h'.chans.length ≤ h.chans.length + 1) := by
  cases hr with
  | @insert call rest hc =>
    refine Or.inr ⟨rfl, ?_⟩
    rcases insert_cases { h with calls := rest } call with heq | ⟨_, _, _, _, heq⟩ <;> rw [heq]
    · exact Nat.le_succ _
    · simp
  | @frame f hl => exact Or.inl (length_onFrame h f)
  | task | remove | finishAdd | clear => exact Or.inl (by simp)
  | _ => exact Or.inl rfl

lemma System.length_step {s' : System} {a : SystemAct} (h : s.step a = some s') :
    s'.controller.chans.length = s.controller.chans.length ∨
    (a = .controller .insert ∧ s'.controller.chans.length ≤ s.controller.chans.length + 1) := by
  cases a with
  | controller a =>
    cases a with
    | frame f => cases h
    | _ =>
      obtain ⟨⟨h', out⟩, hst, heq⟩ := Option.map_eq_some_iff.mp h
      cases heq
      simpa using (TunnelHandle.Rule.of_step hst).length_le
  | controlled a =>
    cases a with
    | frame f permitted => cases h
    | _ =>
      obtain ⟨⟨m', out⟩, _, heq⟩ := Option.map_eq_some_iff.mp h
      cases heq
      exact Or.inl rfl
  | toController =>
    simp only [step, deliverController] at h
    split at h
    · obtain ⟨⟨h', out⟩, hst, heq⟩ := Option.map_eq_some_iff.mp h
      cases heq
      simpa using (TunnelHandle.Rule.of_step hst).length_le
    · cases h
  | toControlled permitted =>
    simp only [step, deliverControlled] at h
    split at h
    · obtain ⟨⟨m', out⟩, _, heq⟩ := Option.map_eq_some_iff.mp h
      cases heq
      exact Or.inl rfl
    · cases h

/-- The counter has not come round. -/
lemma freshId_length {t : String} (hr : ((systemLts t).restrict System.freshId).Reachable s) :
    s.controller.chans.length ≤ 2 ^ 32 := by
  refine hr.restrict_invariant (P := fun s => s.controller.chans.length ≤ 2 ^ 32) ?_ ?_
  · rintro _ rfl
    exact Nat.zero_le _
  · intro s a s' hlen hok hs
    rcases System.length_step hs with heq | ⟨rfl, hle⟩
    · exact heq.trans_le hlen
    · have : s.controller.chans.length < 2 ^ 32 := by simpa [System.freshId] using hok
      omega

/-- In a run in which no id is given out twice, the bytes written to either socket of a channel are
at all times a prefix of those read from the other one, and all that was framed once the receiving
relay has ended with `PeerClosed`. A channel that has no counterpart has been given nothing. -/
theorem stream_integrity {t : String} {s : System}
    (hr : ((systemLts t).restrict System.freshId).Reachable s) :
    (∀ (i j : ℕ) (c d : Channel), s.controller.chans[i]? = some c →
      s.controlled.chans[j]? = some d → s.origin[j]? = some (some i) →
      Intact c d ∧ Intact d c) ∧
    (∀ (i : ℕ) (c : Channel), s.controller.chans[i]? = some c → some i ∉ s.origin →
      c.rx.written = []) ∧
    (∀ (j : ℕ) (d : Channel), s.controlled.chans[j]? = some d → ∃ (i : ℕ) (c : Channel),
      s.origin[j]? = some (some i) ∧ s.controller.chans[i]? = some c ∧ c.id = d.id) := by
  have hreach := hr.of_restrict
  have hlen := freshId_length hr
  refine ⟨fun i j c d hc hd ho => ?_, fun i c hc hnot => ?_, fun j d hd => ?_⟩
  · obtain ⟨p, hp, hsim⟩ := systemLts_sim hreach i c hc
    obtain rfl := hsim.near.eq_near hc
    exact hp.intact (hsim.quiet hlen) (hsim.far_of_origin ho hd).1
  · obtain ⟨p, hp, hsim⟩ := systemLts_sim hreach i c hc
    obtain rfl := hsim.near.eq_near hc
    exact hp.written_absent (hsim.quiet hlen) (hsim.far.eq_none hnot)
  · obtain ⟨i, c, ho, hc, hid⟩ := (systemLts_routed hreach).origin j d hd
    exact ⟨i, c, ho, hc, hid.symm⟩

/-- The controller's socket gives one byte and ends; the target is given the byte. -/
def served : List SystemAct :=
  [.controller (.beginOpen ⟨"host", 22, [7]⟩), .controller .insert,
    .controller (.task 0 .sendOpen), .controller .writeData, .toControlled true,
    .controlled (.task 0 .recvCmd), .controlled (.task 0 (.connected true)),
    .controlled (.task 0 .grant), .controlled (.task 0 .announce),
    .controller (.task 0 (.sender .check)), .controller (.task 0 (.sender (.read [7]))),
    .controller (.task 0 (.sender .refund)), .controller (.task 0 (.sender .notify)),
    .controller (.task 0 (.sender .send)), .controller .writeData, .toControlled true,
    .controller (.task 0 (.sender .check)), .controller (.task 0 (.sender (.read []))),
    .controller (.task 0 (.sender .refund)), .controller (.task 0 (.sender .notify)),
    .controller (.task 0 .selectSender), .controller (.task 0 (.receiver .cancel)),
    .controller (.task 0 .join), .controller (.task 0 .close), .controller .writeData,
    .toControlled true,
    .controlled (.task 0 (.receiver .next)), .controlled (.task 0 (.receiver (.write 1))),
    .controlled (.task 0 (.receiver .wrote)), .controlled (.task 0 (.receiver .drain)),
    .controlled (.task 0 (.receiver .next))]

/-- That byte has arrived, and with the `close` behind it nothing is missing. -/
theorem stream_integrity_served :
    ∃ s c d, ((systemLts blockedTarget).restrict System.freshId).run (.new blockedTarget) served =
        some s ∧
      s.controller.chans = [c] ∧ s.controlled.chans = [d] ∧ d.rx.pc = .ended .peerClosed ∧
      d.rx.written = [7] ∧ d.rx.written = c.tx.framed.flatten ∧
      c.rx.written <+: d.tx.prebuf ++ d.tx.socket := by
  have hobs : ∃ s ∈ ((systemLts blockedTarget).restrict System.freshId).run (.new blockedTarget)
        served,
      s.controller.chans.length = 1 ∧
      (s.controlled.chans.map fun d => (d.rx.pc, d.rx.written)) = [(.ended .peerClosed, [7])] ∧
      s.origin = [some 0] := by decide
  obtain ⟨s, hrun, hc, hd, horigin⟩ := hobs
  simp only [List.map_eq_singleton_iff, Prod.mk.injEq] at hd
  obtain ⟨c, hc⟩ := List.length_eq_one_iff.mp hc
  obtain ⟨d, hd, hpc, hwritten⟩ := hd
  obtain ⟨hout, hback⟩ := (stream_integrity ((LTS.Reachable.init rfl).run hrun)).1 0 0 c d
    (by simp [hc]) (by simp [hd]) (by simp [horigin])
  exact ⟨s, c, d, hrun, hc, hd, hpc, hwritten, hout.complete hpc, hback.le⟩

/-! ### An id that comes round -/

section ComesRound

variable {l : List Channel} {id : ChannelId} {c c' : Channel} {a : Act} {t : String}
  {m : PortForwardMux} (hl : ∀ d ∈ l, d.rx.txLive = false)

/-- A tunnel on which the first channel's task is still writing to its target, its entry gone, and
the channels in `l` have all lost theirs; `id` is next. -/
def outlived (l : List Channel) (id : ChannelId) : System where
  controller := ⟨l, id, [], [], [], .running⟩
  controlled := ⟨[blocked], [], blockedTarget, .running⟩
  toControlled := []
  toController := []
  origin := [some 0]

/-- How the first channel gets there: its socket gives one byte and ends. -/
def outlive : List SystemAct :=
  [.controller (.beginOpen ⟨"host", 22, [0]⟩), .controller .insert,
    .controller (.task 0 .sendOpen), .controller .writeData, .toControlled true,
    .controlled (.task 0 .recvCmd), .controlled (.task 0 (.connected true)),
    .controlled (.task 0 .grant), .controlled (.task 0 .announce), .controlled .write,
    .controller (.task 0 (.sender .check)), .controller (.task 0 (.sender (.read [0]))),
    .controller (.task 0 (.sender .refund)), .controller (.task 0 (.sender .notify)),
    .controller (.task 0 (.sender .send)), .controller .writeData, .toControlled true,
    .controlled (.task 0 (.receiver .next)),
    .controller (.task 0 (.sender .check)), .controller (.task 0 (.sender (.read []))),
    .controller (.task 0 (.sender .refund)), .controller (.task 0 (.sender .notify)),
    .controller (.task 0 .selectSender), .controller (.task 0 (.receiver .cancel)),
    .controller (.task 0 .join), .controller (.task 0 .close), .controller .writeData,
    .toControlled true, .controller (.task 0 .remove), .toController]

lemma outlived_first : ∃ c, c.rx.txLive = false ∧
    (systemLts blockedTarget).Reachable (outlived [c] 2) := by
  have hobs : ∃ s ∈ (systemLts blockedTarget).run (.new blockedTarget) outlive,
      (s.controller.chans.map fun c => c.rx.txLive) = [false] ∧
      s = outlived s.controller.chans 2 := by decide
  obtain ⟨s, hrun, hc, hs⟩ := hobs
  obtain ⟨c, hc, hdead⟩ := List.map_eq_singleton_iff.mp hc
  have hreach := (LTS.Reachable.init rfl).run hrun
  rw [hs, hc] at hreach
  exact ⟨c, hdead, hreach⟩

include hl in
lemma insert_dead (call : OpenCall) :
    TunnelHandle.insert ⟨l, id, [], [], [], .running⟩ call =
      ⟨l ++ [Channel.controller id call.host call.port call.prebuf], id + 1, [], [], [],
        .running⟩ := by
  have hlive : liveEntries l = 0 := liveEntries_of_dead hl
  have hfree : findEntry l id = none := findEntry_of_dead fun d hd _ => hl d hd
  unfold TunnelHandle.insert
  rw [if_neg (by rw [hlive]; decide), allocId_of_free (by simp [hfree])]

/-- A step of the last channel's task, nothing being queued or torn down. -/
lemma handle_step_last {e : Option Frame} (ha : a ≠ .remove)
    (h : c.step ⟨false, false, false⟩ a = some (c', e)) :
    TunnelHandle.step ⟨l ++ [c], id, [], [], [], .running⟩ (.task l.length a) =
      some (TunnelHandle.enqueue ⟨l ++ [c'], id, [], [], [], .running⟩ l.length e, none) := by
  have henv : TunnelHandle.env ⟨l ++ [c], id, [], [], [], .running⟩ = ⟨false, false, false⟩ := rfl
  simp [TunnelHandle.step, TunnelHandle.taskStep, henv, h, ha]

/-- The channel `open` adds, once its `open` has been sent. -/
def openSent (id : ChannelId) : Channel :=
  { (Channel.controller id "host" 22 []).start with log := [.openMsg id "host" 22 channelWindow] }

/-- A call of `open`, up to the stream. -/
def openLast (n : ℕ) : List SystemAct :=
  [.controller (.beginOpen ⟨"host", 22, []⟩), .controller .insert, .controller (.task n .sendOpen),
    .controller .writeData]

include hl in
lemma run_openLast : (systemLts blockedTarget).run (outlived l id) (openLast l.length) =
      some { outlived (l ++ [openSent id]) (id + 1) with
        toControlled := [⟨some l.length, .openMsg id "host" 22 channelWindow⟩] } := by
  let s₁ : System := { outlived l id with
    controller := ⟨l, id, [⟨"host", 22, []⟩], [], [], .running⟩ }
  let s₂ : System := outlived (l ++ [Channel.controller id "host" 22 []]) (id + 1)
  let s₃ : System := { outlived (l ++ [openSent id]) (id + 1) with
    controller := ⟨l ++ [openSent id], id + 1, [],
      [⟨some l.length, .openMsg id "host" 22 channelWindow⟩], [], .running⟩ }
  have h₁ : (systemLts blockedTarget).step (outlived l id)
      (.controller (.beginOpen ⟨"host", 22, []⟩)) = some s₁ := rfl
  have h₂ : (systemLts blockedTarget).step s₁ (.controller .insert) = some s₂ := by
    simp [systemLts, System.step, TunnelHandle.step, s₁, s₂, outlived, insert_dead hl]
  have h₃ :
      (systemLts blockedTarget).step s₂ (.controller (.task l.length .sendOpen)) = some s₃ := by
    have hsend : (Channel.controller id "host" 22 []).step ⟨false, false, false⟩ .sendOpen =
        some (openSent id, some (.openMsg id "host" 22 channelWindow)) := rfl
    simp only [systemLts, System.step, s₂, outlived, handle_step_last (by simp) hsend]
    rfl
  exact (LTS.run_cons_of_step h₁ _).trans ((LTS.run_cons_of_step h₂ _).trans
    (LTS.run_cons_of_step h₃ _))

include hl in
/-- The controlled side refuses the channel, and its entry goes. -/
lemma run_refused : (systemLts blockedTarget).run (outlived l id)
        (openLast l.length ++ [.toControlled false, .controlled .write, .toController]) =
      some (outlived (l ++ [(openSent id).onClose]) (id + 1)) := by
  rw [LTS.run_append, run_openLast hl, Option.bind_some]
  let x : Sent := ⟨none, .openedMsg id false "No permission of IP tunneling" 0⟩
  let s₁ : System := { outlived (l ++ [openSent id]) (id + 1) with
    controlled := ⟨[blocked], [x], blockedTarget, .running⟩ }
  let s₂ : System := { outlived (l ++ [openSent id]) (id + 1) with toController := [x] }
  have h₁ : (systemLts blockedTarget).step { outlived (l ++ [openSent id]) (id + 1) with
      toControlled := [⟨some l.length, .openMsg id "host" 22 channelWindow⟩] }
      (.toControlled false) = some s₁ := rfl
  have h₂ : (systemLts blockedTarget).step s₁ (.controlled .write) = some s₂ := rfl
  have h₃ : (systemLts blockedTarget).step s₂ .toController =
      some (outlived (l ++ [(openSent id).onClose]) (id + 1)) := by
    have hid : (openSent id).id = id := rfl
    have hentry := withEntry_append_last (c := openSent id) (fun c => c.onOpened false 0)
      (fun d hd _ => hl d hd) rfl
    rw [hid] at hentry
    simp only [systemLts, System.step, System.deliverController, s₂, outlived, x, TunnelHandle.step,
      TunnelHandle.onFrame, hentry]
    rfl
  exact (LTS.run_cons_of_step h₁ _).trans ((LTS.run_cons_of_step h₂ _).trans
    (LTS.run_cons_of_step h₃ _))

/-- One refused channel after the other moves the counter on. -/
lemma outlived_reachable (n : ℕ) : ∃ l : List Channel, (∀ d ∈ l, d.rx.txLive = false) ∧
    (systemLts blockedTarget).Reachable (outlived l (BitVec.ofNat 32 (n + 2))) := by
  induction n with
  | zero =>
    obtain ⟨c, hdead, hreach⟩ := outlived_first
    exact ⟨[c], by simpa using hdead, hreach⟩
  | succ n ih =>
    obtain ⟨l, hl, hreach⟩ := ih
    refine ⟨l ++ [(openSent (BitVec.ofNat 32 (n + 2))).onClose], ?_, ?_⟩
    · intro d hd
      rcases List.mem_append.mp hd with hd | hd
      · exact hl d hd
      · rw [List.mem_singleton.mp hd]
        exact Channel.push_txLive _ _
    · have hnext : BitVec.ofNat 32 (n + 1 + 2) = BitVec.ofNat 32 (n + 2) + 1 := by
        rw [show n + 1 + 2 = n + 2 + 1 from rfl, BitVec.ofNat_add]
        rfl
      rw [hnext]
      exact hreach.run (run_refused hl)

/-- Steps of tasks of the controlled side leave the rest of the system alone. -/
lemma run_controlled_tasks {m' : PortForwardMux} {as : List (ℕ × Act)}
    (h : (muxLts t).run m (as.map fun a => .task a.1 a.2) = some m') :
    (systemLts t).run { s with controlled := m } (as.map fun a => .controlled (.task a.1 a.2)) =
      some { s with controlled := m' } := by
  induction as generalizing m with
  | nil =>
    cases h
    rfl
  | cons a as ih =>
    obtain ⟨m₁, hstep, hrun⟩ := Option.bind_eq_some_iff.mp h
    obtain ⟨⟨m₂, out⟩, hmux, rfl⟩ := Option.map_eq_some_iff.mp hstep
    have hout : out = none := by
      obtain ⟨_, _, heq⟩ := Option.map_eq_some_iff.mp hmux
      cases heq
      rfl
    have hsys : (systemLts t).step { s with controlled := m } (.controlled (.task a.1 a.2)) =
        some { s with controlled := m₂ } := by
      simp [systemLts, System.step, hmux, hout]
    exact (LTS.run_cons_of_step hsys _).trans (ih hrun)

lemma step_toControlled {x : Sent} {rest : List Sent} {permitted : Bool}
    (hq : s.toControlled = x :: rest)
    (hm : (muxLts t).step s.controlled (.frame x.frame permitted) = some m) :
    (systemLts t).step s (.toControlled permitted) = some { s with
      controlled := m
      toControlled := rest
      origin := s.origin ++
        List.replicate (m.chans.length - s.controlled.chans.length) x.task } := by
  obtain ⟨⟨m', out⟩, hstep, rfl⟩ := Option.map_eq_some_iff.mp hm
  simp [systemLts, System.step, System.deliverControlled, hq, hstep]

/-- The first channel's target has something to say at last. -/
def lateByte : List (ℕ × Act) :=
  [(0, .sender .check), (0, .sender (.read [7])), (0, .sender .refund), (0, .sender .notify),
    (0, .sender .send)]

/-- The second channel of the id, as the controlled side creates it. -/
def latecomer : Channel :=
  .controlled 1 channelWindow
    (unreachableMessage blockedTarget (normalizePortForwardTarget "host" 22).2)

/-- The tunnel when both channels of the id run. -/
def crossed (l : List Channel) (c : Channel) (m : PortForwardMux) (back : List Sent) : System where
  controller := ⟨l ++ [c], 2, [], [], [], .running⟩
  controlled := m
  toControlled := []
  toController := back
  origin := [some 0, some l.length]

/-- The counter is back at the first channel's id, and its successor is accepted. -/
lemma crossed_reachable : ∃ l : List Channel, (∀ d ∈ l, d.rx.txLive = false) ∧
    (systemLts blockedTarget).Reachable
      (crossed l (openSent 1) ⟨[blocked, latecomer], [], blockedTarget, .running⟩ []) := by
  obtain ⟨l, hl, hreach⟩ := outlived_reachable (2 ^ 32 - 1)
  have hid : BitVec.ofNat 32 (2 ^ 32 - 1 + 2) = 1 := by decide
  rw [hid] at hreach
  have hopen : (muxLts blockedTarget).step ⟨[blocked], [], blockedTarget, .running⟩
      (.frame (.openMsg 1 "host" 22 channelWindow) true) =
      some ⟨[blocked] ++ [latecomer], [], blockedTarget, .running⟩ :=
    mux_step_open_last (by simp [blocked]) 1 "host" 22 channelWindow rfl
  let s : System := { outlived (l ++ [openSent 1]) (1 + 1) with
    toControlled := [⟨some l.length, .openMsg 1 "host" 22 channelWindow⟩] }
  have hstep : (systemLts blockedTarget).step s (.toControlled true) =
      some (crossed l (openSent 1) ⟨[blocked, latecomer], [], blockedTarget, .running⟩ []) :=
    step_toControlled (s := s) rfl hopen
  exact ⟨l, hl, (hreach.run (run_openLast hl)).step hstep⟩

lemma step_crossed_task (ha : a ≠ .remove) (h : c.step ⟨false, false, false⟩ a = some (c', none))
    (m : PortForwardMux) (back : List Sent) :
    (systemLts blockedTarget).step (crossed l c m back) (.controller (.task l.length a)) =
      some (crossed l c' m back) := by
  simp [systemLts, System.step, crossed, handle_step_last ha h, TunnelHandle.enqueue]

include hl in
/-- A data frame under the id goes to the successor. -/
lemma step_crossed (b : Bytes) (m : PortForwardMux) :
    (systemLts blockedTarget).step (crossed l (openSent 1) m [⟨some 0, .dataMsg 1 b⟩])
      .toController = some (crossed l ((openSent 1).onData b) m []) := by
  have hentry := withEntry_append_last (c := openSent 1) (fun c => c.onData b)
    (fun d hd _ => hl d hd) rfl
  rw [show (openSent 1).id = 1 from rfl] at hentry
  simp only [systemLts, System.step, System.deliverController, crossed, TunnelHandle.step,
    TunnelHandle.onFrame, hentry]
  rfl

end ComesRound

/-- Once the counter has come round, a channel is given the id of one whose task still runs: the
byte its socket is given was read from the target of the other. -/
theorem stream_mixed : ∃ s i c d d₀, (systemLts blockedTarget).Reachable s ∧
    s.controller.chans[i]? = some c ∧ s.controlled.chans = [d₀, d] ∧
    s.origin = [some 0, some i] ∧ d₀.tx.prebuf ++ d₀.tx.socket = [7] ∧
    d.tx.prebuf ++ d.tx.socket = [] ∧ c.rx.written = [7] ∧
    ¬c.rx.written <+: d.tx.prebuf ++ d.tx.socket := by
  obtain ⟨l, hl, hreach⟩ := crossed_reachable
  -- the byte of the first channel's target is put on the stream,
  have hlate : ∃ m ∈ (muxLts blockedTarget).run ⟨[blocked, latecomer], [], blockedTarget, .running⟩
      (lateByte.map fun a => .task a.1 a.2),
      (m.chans.map fun d => d.tx.prebuf ++ d.tx.socket) = [[7], []] ∧
      m.tx = [⟨some 0, .dataMsg 1 [7]⟩] ∧ m.loop = .running := by decide
  obtain ⟨m, hlate, hsocket, htx, hloop⟩ := hlate
  have hwrite : (systemLts blockedTarget).step (crossed l (openSent 1) m []) (.controlled .write) =
      some (crossed l (openSent 1) { m with tx := [] } [⟨some 0, .dataMsg 1 [7]⟩]) := by
    simp [systemLts, System.step, crossed, PortForwardMux.step, hloop, htx]
  -- delivered under the id both channels have, and written to the socket of the second
  have hrecv : ∃ r ∈ ((openSent 1).onData [7]).step ⟨false, false, false⟩ (.receiver .next),
      r.2 = none ∧ ∃ r' ∈ r.1.step ⟨false, false, false⟩ (.receiver (.write 1)),
        r'.2 = none ∧ r'.1.rx.written = [7] := by decide
  obtain ⟨⟨c₁, _⟩, hnext, rfl, ⟨c₂, _⟩, hput, rfl, hwritten⟩ := hrecv
  have hsent : (systemLts blockedTarget).Reachable (crossed l (openSent 1) m []) :=
    hreach.run (run_controlled_tasks (s := crossed l (openSent 1) m []) hlate)
  have hfinal := ((((hsent.step hwrite).step (step_crossed hl [7] _)).step
    (step_crossed_task (by simp) hnext _ _)).step (step_crossed_task (by simp) hput _ _))
  obtain ⟨d₀, rest, hchans, hd₀, hrest⟩ := List.map_eq_cons_iff.mp hsocket
  obtain ⟨d, rfl, hd⟩ := List.map_eq_singleton_iff.mp hrest
  refine ⟨_, l.length, c₂, d, d₀, hfinal, by simp [crossed], hchans, rfl, hd₀, hd, hwritten, ?_⟩
  rw [hwritten, hd]
  decide

end RustDesk.PortForward
