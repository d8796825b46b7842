import RustDesk.PortForward.Credit
import RustDesk.PortForward.Pair

/-!
# The bytes that go through one end of a channel

On the way out, the frames a relay builds cut the bytes it has read, the `prebuf` first, and the
log holds them in order (`Channel.Sends`). On the way in, what the socket has accepted is a prefix
of what was delivered, and a message that is no data is the last one in the queue
(`Receiver.Writes`). Both hold against any peer.
-/

namespace RustDesk.PortForward

/-- The frames that end a channel for the peer: `close`, and the refusal of its `open`. -/
def Frame.ends : Frame → Bool
  | closeMsg _ => true
  | openedMsg _ success _ _ => !success
  | _ => false

/-! ### The way out -/

namespace Sender

variable {s s' : Sender} {env : RelayEnv} {id : ChannelId} {e : Option Frame}

/-- The frames built so far and the unread rest of the `prebuf` are the bytes read. -/
structure Cuts (s : Sender) : Prop where
  bytes : s.framed.flatten ++ s.rest = s.prebuf ++ s.socket
  prebufFirst : s.rest ≠ [] → s.socket = []

lemma new_cuts (credit : ℕ) (prebuf : Bytes) : (Sender.new credit prebuf).Cuts :=
  ⟨by simp [Sender.new], fun _ => rfl⟩

lemma Cuts.congr (h : s.Cuts) (hprebuf : s'.prebuf = s.prebuf) (hrest : s'.rest = s.rest)
    (hsocket : s'.socket = s.socket) (hframed : s'.framed = s.framed) : s'.Cuts :=
  ⟨by rw [hprebuf, hrest, hsocket, hframed]; exact h.bytes,
    by rw [hrest, hsocket]; exact h.prebufFirst⟩

lemma Cuts.readInto {allow : ℕ} {got : Bytes} (h : s.Cuts) (hr : s.readInto allow got = some s') :
    s'.Cuts := by
  rcases readInto_cases hr with ⟨hrest, hgot, rfl⟩ | ⟨hrest, _, rfl⟩
  · have hsocket := h.prebufFirst hrest
    refine ⟨?_, fun _ => hsocket⟩
    have hbytes := h.bytes
    simp only [List.flatten_append, List.flatten_cons, List.flatten_nil, List.append_nil,
      List.append_assoc, hgot, List.take_append_drop]
    exact hbytes
  · have hbytes := h.bytes
    rw [hrest, List.append_nil] at hbytes
    refine ⟨?_, fun hne => (hne hrest).elim⟩
    dsimp only
    split_ifs with hgot
    · simp [hrest, hgot, hbytes]
    · simp [hrest, hbytes]

lemma Cuts.rule (h : s.Cuts) (hr : Rule env id s s' e) : s'.Cuts := by
  cases hr with
  | read hpc hr => exact h.readInto hr
  | _ => exact h.congr rfl rfl rfl rfl

/-- The frames sent and the one in hand are those built, unless the tunnel has gone. -/
def Logs (s : Sender) (log : List Bytes) : Prop :=
  log ++ s.pc.inHand = s.framed ∨ (s.pc = .ended .tunnelGone ∧ log <+: s.framed)

lemma afterRead_inHand (allow : ℕ) (got : Bytes) :
    (afterRead allow got).inHand = if got = [] then [] else [got] := by
  unfold afterRead
  by_cases h : got = [] <;> simp only [h, if_true, if_false] <;> split_ifs <;> rfl

/-- Every frame built is sent, or lost with the tunnel. -/
lemma Logs.rule {log : List Bytes} (h : s.Logs log) (hsized : s.pc.Sized)
    (hr : Rule env id s s' e) : s'.Logs (log ++ payloads e.toList) := by
  -- a relay that still runs has lost nothing
  have heq : (∀ e, s.pc ≠ .ended e) → log ++ s.pc.inHand = s.framed := by
    intro hrun
    exact h.resolve_right fun hgone => hrun _ hgone.1
  cases hr with
  | @read s' allow got hpc hr =>
    have heq := heq (by simp [hpc])
    rw [hpc] at heq hsized
    left
    rcases readInto_cases hr with ⟨hrest, hgot, rfl⟩ | ⟨_, _, rfl⟩
    · have hne : got ≠ [] := by
        have hpos : 0 < minFrameCharge := by decide
        have hmin : minFrameCharge ≤ allow := hsized
        intro hnil
        rw [hgot, List.take_eq_nil_iff] at hnil
        rcases hnil with hzero | hnil
        · omega
        · exact hrest hnil
      simp only [afterRead_inHand, if_neg hne, ← heq]
      simp [SenderPc.inHand]
    · simp only [afterRead_inHand, ← heq]
      split_ifs <;> simp [SenderPc.inHand]
  | gone hpc hc =>
    right
    have heq := heq (by simp [hpc])
    refine ⟨rfl, ?_⟩
    dsimp only
    rw [← heq]
    simp
  | @refund n after hpc =>
    left
    have heq := heq (by simp [hpc])
    rw [hpc] at heq
    rw [← heq]
    cases after <;> simp [SenderPc.inHand]
  | notify hpc =>
    left
    have heq := heq (by simp [hpc])
    rw [hpc] at heq
    simp [← heq]
  | take hpc | short hpc | permit hpc | park hpc | wake hpc | cancelCheck hpc | cancelParked hpc
  | cancelReading hpc | send hpc =>
    left
    have heq := heq (by simp [hpc])
    rw [hpc] at heq
    simpa [SenderPc.inHand, payloads, Frame.payload?] using heq

end Sender

lemma Session.ends_eq_false {side : Side} {id : ChannelId} {l : List Frame}
    (h : Session side id l) : ∀ f ∈ l, f.ends = false := by
  induction h with
  | header h =>
    cases side with
    | controller =>
      obtain ⟨host, port, rfl⟩ := h
      simp [Frame.ends]
    | controlled =>
      cases h
      simp [Frame.ends]
  | data b _ ih | update n _ ih =>
    intro f hf
    rcases List.mem_append.mp hf with hf | hf
    · exact ih f hf
    · rw [List.mem_singleton.mp hf]
      rfl

lemma sendsClose_first {first second : RelayEnd} (h : sendsClose first second = true) :
    first ≠ .tunnelGone := by
  rintro rfl
  simp [sendsClose] at h

namespace Channel

variable {env : Env} {c c' : Channel}

/-- A task sends the frame that ends its channel before its relays have started, or after they
have both ended. -/
lemma Rule.ends_cases {f : Frame} (h : Rule env c c' (some f)) (hf : f.ends = true) :
    c'.tx = c.tx ∧ (c.phase.early = true ∨ c.phase = .closing) := by
  generalize he : some f = e at h
  cases h with
  | abort hp hc | refuse hp hc => exact ⟨rfl, Or.inl (by simp [hp, Phase.early])⟩
  | close hp hc =>
    refine ⟨?_, Or.inr hp⟩
    unfold afterRun
    split <;> rfl
  | sendOpen hp hc | announce hp hc =>
    cases he
    cases hf
  | sender hp hs =>
    rcases hs.emits with rfl | ⟨b, _, rfl⟩ <;> cases he
    cases hf
  | receiver hp hs =>
    rcases hs.emits with rfl | ⟨n, _, rfl⟩ <;> cases he
    cases hf
  | _ => cases he

lemma afterRun_phase (c : Channel) :
    c.afterRun.phase = .removing ∨ c.afterRun.phase = .finished := by
  unfold afterRun
  split
  · exact Or.inl rfl
  · exact Or.inr rfl

/-- The task goes on to its `close` only when its sender has not lost the tunnel. -/
lemma Rule.closing_cases {e : Option Frame} (h : Rule env c c' e) (hp : c'.phase = .closing) :
    ∃ first, c'.tx.pc = .ended first ∧ first ≠ .tunnelGone := by
  cases h with
  | joinClose _ ht _ hs => exact ⟨_, ht, sendsClose_first hs⟩
  | join | closeGone | close =>
    rcases c.afterRun_phase with heq | heq <;> simp_all
  | sender hsel | receiver hsel => rcases hsel with hsel | hsel <;> simp_all
  | buffer hq => simp_all
  | _ => cases hp

/-- What a channel has read and what of it its log holds. -/
structure Sends (c : Channel) : Prop where
  cuts : c.tx.Cuts
  logs : c.tx.Logs (payloads c.log)
  closed : c.phase = .closing ∨ (∃ f ∈ c.log, f.ends = true) →
    c.tx.pc.inHand = [] ∧ c.tx.pc ≠ .ended .tunnelGone

namespace Sends

variable {e : Option Frame}

lemma closed_rule (h : c.Sends) (hpaced : c.Paced) (hlogged : c.Logged) (hr : Rule env c c' e)
    (hend : c'.phase = .closing ∨ (∃ f ∈ c'.log, f.ends = true)) :
    c'.tx.pc.inHand = [] ∧ c'.tx.pc ≠ .ended .tunnelGone := by
  rcases hend with hp | ⟨f, hf, hends⟩
  · obtain ⟨first, hpc, hne⟩ := hr.closing_cases hp
    rw [hpc]
    exact ⟨rfl, by simpa using hne⟩
  · rw [hr.log_eq] at hf
    rcases List.mem_append.mp hf with hf | hf
    · -- the channel has ended before: its sender makes no more steps
      rcases hr.tx_cases with ⟨htx, _, _⟩ | ⟨_, _, hearly, _⟩ | ⟨_, hrel, _⟩
      · rw [htx]
        exact h.closed (Or.inr ⟨f, hf, hends⟩)
      · simp [hlogged.early hearly] at hf
      · have := (hlogged.relaying hrel).ends_eq_false f hf
        rw [hends] at this
        cases this
    · obtain rfl : e = some f := by simpa using hf
      obtain ⟨htx, hearly | hclosing⟩ := hr.ends_cases hends
      · rw [htx, hpaced.early hearly]
        exact ⟨rfl, by simp⟩
      · rw [htx]
        exact h.closed (Or.inl hclosing)

lemma rule (h : c.Sends) (hpaced : c.Paced) (hlogged : c.Logged) (hr : Rule env c c' e) :
    c'.Sends := by
  refine ⟨?_, ?_, h.closed_rule hpaced hlogged hr⟩
  · rcases hr.tx_cases with ⟨htx, _, _⟩ | ⟨htx, _, _, _⟩ | ⟨hs, _, _⟩
    · exact htx ▸ h.cuts
    · exact htx ▸ h.cuts.congr rfl rfl rfl rfl
    · exact h.cuts.rule hs
  · rw [hr.log_eq, payloads_append]
    rcases hr.tx_cases with ⟨htx, hpay, _⟩ | ⟨htx, hpay, hearly, _⟩ | ⟨hs, _, _⟩
    · rw [hpay, List.append_nil, htx]
      exact h.logs
    · have hlogs := h.logs
      rw [Sender.Logs, hpaced.early hearly] at hlogs
      rw [hpay, List.append_nil, htx]
      exact Or.inl (hlogs.resolve_right (by simp))
    · exact h.logs.rule hpaced.sized hs

lemma sameTask (h : c.Sends) (hs : c.SameTask c') : c'.Sends := by
  obtain ⟨credit, htx⟩ := hs.tx
  refine ⟨?_, ?_, ?_⟩
  · rw [htx]
    exact h.cuts.congr rfl rfl rfl rfl
  · rw [htx, hs.log]
    exact h.logs
  · rw [htx, hs.log, hs.phase]
    exact h.closed

lemma moves (h : (c.Windowed ∧ c.Logged) ∧ c.Paced ∧ c.Sends) (hm : Moves env c c' e) :
    (c'.Windowed ∧ c'.Logged) ∧ c'.Paced ∧ c'.Sends := by
  obtain ⟨hlogged, hpaced, hsends⟩ := h
  refine ⟨Logged.moves hlogged hm, hpaced.moves hm, ?_⟩
  rcases hm.task_or_same with hr | ⟨hs, _⟩
  · exact hsends.rule hpaced hlogged.2 hr
  · exact hsends.sameTask hs

/-- What the log holds has been read, in this order. -/
lemma payloads_le (h : c.Sends) : (payloads c.log).flatten <+: c.tx.prebuf ++ c.tx.socket := by
  have hle : payloads c.log <+: c.tx.framed := by
    rcases h.logs with heq | ⟨_, hle⟩
    · rw [← heq]
      exact List.prefix_append _ _
    · exact hle
  rw [← h.cuts.bytes]
  exact hle.flatten.trans (List.prefix_append _ _)

/-- Once the channel has been ended, the log holds every frame that was built. -/
lemma payloads_eq (h : c.Sends) (hend : ∃ f ∈ c.log, f.ends = true) :
    payloads c.log = c.tx.framed := by
  obtain ⟨hhand, hgone⟩ := h.closed (Or.inr hend)
  rcases h.logs with heq | ⟨hpc, _⟩
  · rw [← heq, hhand, List.append_nil]
  · exact (hgone hpc).elim

end Sends

lemma new_sends {credit : ℕ} {prebuf : Bytes} (htx : c.tx = Sender.new credit prebuf)
    (hlog : c.log = []) (hp : c.phase ≠ .closing) : c.Sends where
  cuts := htx ▸ Sender.new_cuts credit prebuf
  logs := by
    rw [htx, hlog]
    exact Or.inl rfl
  closed hend := by
    rcases hend with hc | ⟨f, hf, _⟩
    · exact (hp hc).elim
    · simp [hlog] at hf

end Channel

/-! ### The way in -/

namespace Receiver

/-- What the socket has accepted, by where the relay is. -/
def Written (r : Receiver) : Prop :=
  match r.pc with
  | .writing chunk rest => ∃ w, chunk = w ++ rest ∧ r.written = r.drained.flatten ++ w
  | .draining chunk => r.written = r.drained.flatten ++ chunk
  | .ended .peerClosed => r.txLive = false ∧ r.written = r.delivered.flatten
  | .ended _ => r.written <+: r.delivered.flatten
  | _ => r.written = r.drained.flatten

/-- A message that is no data is the last one: the entry goes with it. -/
def Sealed (r : Receiver) : Prop :=
  ∀ l₁ m l₂, r.inbound = l₁ ++ m :: l₂ → m.chunk? = none → l₂ = [] ∧ r.txLive = false

/-- The peer's end of the channel, still queued or acted on. -/
def Closing (r : Receiver) : Prop := Inbound.close ∈ r.inbound ∨ r.pc = .ended .peerClosed

variable {r r' : Receiver} {e : Option Frame} {env : RelayEnv} {id : ChannelId} {m : Inbound}

section

variable (h : r.Written)

include h

lemma Written.of_pc {pc : ReceiverPc} (hpc : r.pc = pc) :
    ({ r with pc := pc } : Receiver).Written := by
  subst hpc
  exact h

/-- What the relay has written stands while more is delivered, and after the entry has gone. -/
lemma Written.mono (hpc : r'.pc = r.pc) (hwritten : r'.written = r.written)
    (hdrained : r'.drained = r.drained) (hdelivered : r.delivered <+: r'.delivered)
    (hdead : r.txLive = false → r'.txLive = false ∧ r'.delivered = r.delivered) : r'.Written := by
  unfold Written at h ⊢
  rw [hpc, hwritten, hdrained]
  split at h
  · exact h
  · exact h
  · obtain ⟨hlive, heq⟩ := h
    obtain ⟨hlive', hdel⟩ := hdead hlive
    exact ⟨hlive', hdel ▸ heq⟩
  · exact h.trans hdelivered.flatten
  · exact h

/-- The socket has never accepted more than was delivered. -/
lemma Written.le (ha : r.Accounted) : r.written <+: r.delivered.flatten := by
  have hdrained := ha.drained_le.flatten
  cases hpc : r.pc with
  | writing chunk rest =>
    have hw := h.of_pc hpc
    obtain ⟨w, hchunk, heq⟩ := hw
    have hd := ha.delivered_eq (ha.active_live (by simp [active, hpc]))
    rw [heq, hd]
    simp [held, current, hpc, hchunk]
  | draining chunk =>
    have hw := h.of_pc hpc
    have hd := ha.delivered_eq (ha.active_live (by simp [active, hpc]))
    rw [show r.written = _ from hw, hd]
    simp [held, current, hpc]
  | ended e =>
    have hw := h.of_pc hpc
    cases e with
    | peerClosed => exact (hw.2 : r.written = _) ▸ List.prefix_rfl
    | _ => exact hw
  | idle | next | updating =>
    have hw := h.of_pc hpc
    exact (hw : r.written = _) ▸ hdrained

lemma Written.finish (ha : r.Accounted) {e : RelayEnd} (he : e ≠ .peerClosed) :
    (r.finish e).Written := by
  have hle := h.le ha
  cases e with
  | peerClosed => exact (he rfl).elim
  | _ => exact hle

lemma Written.rule (ha : r.Accounted) (hs : r.Sealed) (hr : Rule env id r r' e) : r'.Written := by
  cases hr with
  | popPending hpc | recvData hpc =>
    have hw : r.written = r.drained.flatten := h.of_pc hpc
    exact ⟨[], by simp, by simpa using hw⟩
  | recvClose hpc hp hq =>
    have hw : r.written = r.drained.flatten := h.of_pc hpc
    obtain ⟨rfl, hlive⟩ := hs [] _ _ hq rfl
    have hd := ha.delivered_eq (ha.active_live (by simp [active, hpc]))
    simp only [held, current, hpc, hp, hq, chunks_close, chunks_nil, List.append_nil] at hd
    exact ⟨hlive, by simpa [Receiver.finish, Receiver.close, hd] using hw⟩
  | recvViolation | recvGone | cancelNext | cancelWriting | fail | gone =>
    exact h.finish ha (by simp)
  | @write chunk rest n hpc hpos hn =>
    obtain ⟨w, hchunk, hw⟩ := h.of_pc hpc
    have hw : r.written = r.drained.flatten ++ w := hw
    exact ⟨w ++ rest.take n, by simp [hchunk], by simp [hw]⟩
  | wrote hpc =>
    obtain ⟨w, hchunk, hw⟩ := h.of_pc hpc
    rw [List.append_nil] at hchunk
    rw [← hchunk] at hw
    exact hw
  | drain hpc hd | drainUpdate hpc hd =>
    have hw := h.of_pc hpc
    have hw : r.written = r.drained.flatten ++ _ := hw
    simpa [Written] using hw
  | update hpc hc =>
    have hw : r.written = r.drained.flatten := h.of_pc hpc
    exact hw

end

lemma Sealed.of_tail (h : r.Sealed) (hq : r.inbound = m :: r'.inbound)
    (hlive : r'.txLive = r.txLive) : r'.Sealed := by
  intro l₁ m' l₂ heq hm
  rw [hlive]
  exact h (m :: l₁) m' l₂ (by rw [hq, heq]; rfl) hm

lemma Sealed.of_nil (h : r.inbound = []) : r.Sealed := by
  intro l₁ m l₂ heq
  simp [h] at heq

lemma Sealed.congr (h : r.Sealed) (hq : r'.inbound = r.inbound) (hlive : r'.txLive = r.txLive) :
    r'.Sealed := by
  unfold Sealed
  rw [hq, hlive]
  exact h

lemma Sealed.rule (h : r.Sealed) (hr : Rule env id r r' e) : r'.Sealed := by
  cases hr with
  | recvData hpc hp hq => exact h.of_tail hq rfl
  | recvClose | recvViolation | recvGone | cancelNext | cancelWriting | fail | gone =>
    exact .of_nil rfl
  | _ => exact h.congr rfl rfl

/-- While the entry is there the queue holds data only, so the next message is the last or data. -/
lemma Sealed.concat (h : r.Sealed) (hlive : r.txLive = true) (hq : r'.inbound = r.inbound ++ [m])
    (hm : m.chunk? = none → r'.txLive = false) : r'.Sealed := by
  intro l₁ m' l₂ heq hm'
  rw [hq] at heq
  rcases List.eq_nil_or_concat l₂ with rfl | ⟨l₃, x, rfl⟩
  · obtain ⟨_, hx⟩ := List.append_inj' heq rfl
    cases hx
    exact ⟨rfl, hm hm'⟩
  · have heq' : r.inbound ++ [m] = (l₁ ++ m' :: l₃) ++ [x] := by simpa using heq
    obtain ⟨hin, _⟩ := List.append_inj' heq' rfl
    have hdead := (h l₁ m' l₃ hin hm').2
    rw [hlive] at hdead
    cases hdead

lemma Rule.closing (h : Rule env id r r' e) (hc : r'.Closing) : r.Closing := by
  cases h with
  | recvClose hpc hp hq => exact Or.inl (by simp [hq])
  | recvData hpc hp hq =>
    left
    rcases hc with hc | hc
    · simp [hq, hc]
    · cases hc
  | popPending | write | wrote | drain | drainUpdate | update =>
    left
    rcases hc with hc | hc
    · exact hc
    · cases hc
  | recvViolation | recvGone | cancelNext | cancelWriting | fail | gone =>
    rcases hc with hc | hc <;> cases hc

end Receiver

namespace Channel

variable {c c' : Channel} {f : Frame}

/-- What a channel has written, and how its queue ends. -/
structure Writes (c : Channel) : Prop where
  written : c.rx.Written
  sealed : c.rx.Sealed

namespace Writes

variable {env : Env} {e : Option Frame}

section

variable (h : c.Writes)

include h

/-- A step that leaves the relay, the entry and what was delivered alone. -/
lemma keep (hpc : c'.rx.pc = c.rx.pc) (hwritten : c'.rx.written = c.rx.written)
    (hdrained : c'.rx.drained = c.rx.drained) (hdelivered : c'.rx.delivered = c.rx.delivered)
    (hlive : c'.rx.txLive = c.rx.txLive) (hs : c'.rx.Sealed) : c'.Writes :=
  ⟨h.written.mono hpc hwritten hdrained (hdelivered ▸ List.prefix_rfl)
    fun hdead => ⟨hlive.trans hdead, hdelivered⟩, hs⟩

lemma finish : c.finish.Writes := h.keep rfl rfl rfl rfl rfl (.of_nil rfl)

lemma afterRun : c.afterRun.Writes := by
  unfold Channel.afterRun
  split
  · exact ⟨h.written, h.sealed⟩
  · exact h.finish

lemma start (hw : c.Windowed) (he : c.phase.early = true) : c.start.Writes := by
  have hidle : c.rx.written = c.rx.drained.flatten := h.written.of_pc (hw.early he).1
  exact ⟨hidle, h.sealed.congr rfl rfl⟩

lemma rule (hw : c.Windowed) (hr : Rule env c c' e) : c'.Writes := by
  cases hr with
  | receiver hp hs => exact ⟨h.written.rule hw.rx h.sealed hs, h.sealed.rule hs⟩
  | sendOpen hp hc | announce hp hc =>
    have hstart := h.start hw (by simp [hp, Phase.early])
    exact ⟨hstart.written, hstart.sealed⟩
  | buffer hp hq | overflow hp hq | cmdViolation hp hq =>
    exact h.keep rfl rfl rfl rfl rfl (h.sealed.of_tail hq rfl)
  | cmdClose | cmdGone | sinkGone | remove => exact h.finish
  | abort | refuse => exact ⟨h.finish.written, h.finish.sealed⟩
  | grant hp =>
    exact h.keep (c.rx.grant_pc _) (c.rx.grant_written _) (c.rx.grant_drained _)
      (c.rx.grant_delivered _) (c.rx.grant_txLive _)
      (h.sealed.congr (c.rx.grant_inbound _) (c.rx.grant_txLive _))
  | join | closeGone => exact h.afterRun
  | close => exact ⟨h.afterRun.written, h.afterRun.sealed⟩
  | _ => exact ⟨h.written, h.sealed⟩

lemma drop : c.dropEntry.Writes := by
  refine ⟨h.written.mono rfl rfl rfl List.prefix_rfl fun _ => ⟨rfl, rfl⟩, ?_⟩
  intro l₁ m l₂ heq hm
  exact ⟨(h.sealed l₁ m l₂ heq hm).1, rfl⟩

lemma push (hlive : c.rx.txLive = true) (m : Inbound) :
    ({ c with rx := (c.rx.dropEntry.push m).1 } : Channel).Writes := by
  unfold Receiver.push
  split_ifs with hrx
  · refine ⟨h.written.mono rfl rfl rfl List.prefix_rfl fun _ => ⟨rfl, rfl⟩, ?_⟩
    exact h.sealed.concat hlive rfl fun _ => rfl
  · exact ⟨h.drop.written, h.drop.sealed⟩

lemma data (hlive : c.rx.txLive = true) (b : Bytes) : (c.onData b).Writes := by
  rcases c.onData_cases b with ⟨_, _, heq⟩ | ⟨_, _, heq⟩ | ⟨_, heq⟩ <;> rw [heq]
  · refine ⟨h.written.mono rfl rfl rfl (List.prefix_append _ _) fun hdead => ?_, ?_⟩
    · rw [hlive] at hdead
      cases hdead
    · exact h.sealed.concat hlive rfl (by simp [Inbound.chunk?])
  · refine ⟨h.written.mono rfl rfl rfl List.prefix_rfl fun _ => ⟨rfl, rfl⟩, ?_⟩
    intro l₁ m l₂ heq hm
    exact ⟨(h.sealed l₁ m l₂ heq hm).1, rfl⟩
  · exact h.push hlive _

end

lemma moves (h : c.Windowed ∧ c.Writes) (hm : Moves env c c' e) : c'.Windowed ∧ c'.Writes := by
  obtain ⟨hw, hwrites⟩ := h
  refine ⟨hw.moves hm, ?_⟩
  cases hm with
  | task hr => exact hwrites.rule hw hr
  | data b ht => exact hwrites.data ht b
  | close ht => exact hwrites.push ht _
  | windowUpdate n ht => exact ⟨hwrites.written, hwrites.sealed⟩
  | opened success window ht =>
    unfold onOpened
    split_ifs
    · exact hwrites
    · exact ⟨hwrites.written, hwrites.sealed⟩
    · exact hwrites.push ht _
  | drop => exact hwrites.drop
  | finishAdd hf =>
    obtain ⟨_, rfl⟩ := finishAdd_eq_some hf
    exact ⟨hwrites.written, hwrites.sealed⟩

end Writes

lemma new_writes {window : ℕ} (hrx : c.rx = Receiver.new window) : c.Writes :=
  ⟨hrx ▸ (rfl : (Receiver.new window).written = _), hrx ▸ .of_nil rfl⟩

lemma finish_closing (h : c.finish.rx.Closing) : c.rx.Closing := by
  rcases h with h | h
  · cases h
  · exact Or.inr h

lemma afterRun_closing (h : c.afterRun.rx.Closing) : c.rx.Closing := by
  unfold afterRun at h
  split at h
  · exact h
  · exact finish_closing h

/-- The peer's end of a channel comes from the frame handler only. -/
lemma Rule.rx_closing {env : Env} {e : Option Frame} (h : Rule env c c' e) (hc : c'.rx.Closing) :
    c.rx.Closing := by
  cases h with
  | receiver hp hs => exact hs.closing hc
  | sendOpen | announce =>
    rcases hc with hc | hc
    · exact Or.inl hc
    · cases hc
  | buffer hp hq | overflow hp hq | cmdViolation hp hq =>
    rcases hc with hc | hc
    · exact Or.inl (by simp only [hq, List.mem_cons]; exact Or.inr hc)
    · exact Or.inr hc
  | cmdClose | cmdGone | sinkGone | remove | abort | refuse => exact finish_closing hc
  | grant hp => simpa [Receiver.Closing] using hc
  | join | closeGone | close => exact afterRun_closing hc
  | _ => exact hc

lemma push_closing {m : Inbound} (h : (c.rx.dropEntry.push m).1.Closing) :
    c.rx.Closing ∨ m = .close := by
  unfold Receiver.push at h
  split_ifs at h
  · rcases h with h | h
    · rcases List.mem_append.mp h with h | h
      · exact Or.inl (Or.inl h)
      · exact Or.inr (List.mem_singleton.mp h).symm
    · exact Or.inl (Or.inr h)
  · exact Or.inl h

lemma push_delivered (r : Receiver) (m : Inbound) :
    (r.dropEntry.push m).1.delivered = r.delivered := by
  unfold Receiver.push
  split_ifs <;> rfl

/-- It comes with a frame that ends the channel and finds its entry. -/
lemma Receives.closing (h : c.Receives f c') (hc : c'.rx.Closing) :
    c.rx.Closing ∨
    (c.rx.txLive = true ∧ f.ends = true ∧ c'.rx.delivered = c.rx.delivered) := by
  cases h with
  | same | windowUpdate | opened => exact Or.inl hc
  | @data id b ht hf =>
    left
    rcases c.onData_cases b with ⟨_, _, heq⟩ | ⟨_, _, heq⟩ | ⟨_, heq⟩ <;> rw [heq] at hc
    · rcases hc with hc | hc
      · exact Or.inl (by simpa using hc)
      · exact Or.inr hc
    · exact hc
    · exact (push_closing hc).resolve_right (by simp)
  | close ht hf =>
    refine Or.inr ⟨ht, ?_, push_delivered _ _⟩
    rcases hf with ⟨id, rfl⟩ | ⟨id, m, w, rfl⟩ <;> rfl

/-- What a frame adds to what was delivered: its data while the entry is there. -/
lemma Receives.delivered {l : List Bytes} (h : c.Receives f c') (hle : c.rx.delivered <+: l)
    (heq : c.rx.txLive = true → c.rx.delivered = l) :
    c'.rx.delivered <+: l ++ payloads [f] ∧
    (c'.rx.txLive = true → c'.rx.delivered = l ++ payloads [f]) := by
  have hmore := hle.trans (List.prefix_append l (payloads [f]))
  cases h with
  | same hf =>
    refine ⟨hmore, fun ht => ?_⟩
    rw [(hf ht).1, List.append_nil]
    exact heq ht
  | @data id b ht hf =>
    have hpay : payloads [f] = [b] := by
      rw [hf]
      rfl
    rcases c.onData_cases b with ⟨_, _, hd⟩ | ⟨_, _, hd⟩ | ⟨_, hd⟩ <;> rw [hd]
    · rw [heq ht, hpay]
      exact ⟨List.prefix_rfl, fun _ => rfl⟩
    · exact ⟨hmore, by simp⟩
    · rw [push_txLive, push_delivered]
      exact ⟨hmore, by simp⟩
  | close ht hf =>
    unfold onClose
    rw [push_txLive, push_delivered]
    exact ⟨hmore, by simp⟩
  | windowUpdate ht hf | opened ht hs ho hf =>
    subst hf
    exact ⟨hmore, fun hlive => (heq hlive).trans (List.append_nil l).symm⟩

end Channel

end RustDesk.PortForward
