import RustDesk.PortForward.Endpoint

/-!
# What an endpoint holds for a channel

The receiving half of a channel keeps one account over its whole life: the credit its peer still
has, what it has been handed, and what it has drained since the last update add up to the window
it granted plus what it has drained (`Receiver.Accounted`). The account never depends on the
peer: a frame over the window is refused, and costs the channel its entry. `Channel.Windowed`
adds what the phase of the task says about it, and holds of every channel of either endpoint
against any peer.
-/

namespace RustDesk.PortForward

namespace Receiver

/-- The chunk the relay has taken and not drained. -/
def current (r : Receiver) : List Bytes :=
  match r.pc with
  | .writing chunk _ => [chunk]
  | .draining chunk => [chunk]
  | _ => []

/-- The chunks accepted and not drained that the channel still holds. -/
def held (r : Receiver) : List Bytes := r.current ++ r.pending ++ chunks r.inbound

def active (r : Receiver) : Bool :=
  match r.pc with
  | .idle | .ended _ => false
  | _ => true

lemma active_congr {r r' : Receiver} (h : r'.pc = r.pc) : r'.active = r.active := by
  simp only [active, h]

/-- The receiver's account. -/
structure Accounted (r : Receiver) : Prop where
  granted_le : r.granted ≤ channelWindow
  window_le : r.window.remaining + charges r.delivered + r.window.drainedSinceUpdate ≤
    r.granted + charges r.drained
  window_eq : r.txLive = true → r.window.remaining + charges r.delivered +
    r.window.drainedSinceUpdate = r.granted + charges r.drained
  below : r.window.drainedSinceUpdate < updateThreshold
  delivered_eq : r.rxLive = true → r.delivered = r.drained ++ r.held
  drained_le : r.drained <+: r.delivered
  closed : r.rxLive = false → r.held = []
  active_live : r.active = true → r.rxLive = true

namespace Accounted

variable {r r' : Receiver} {n : ℕ} (h : r.Accounted)

include h

lemma charges_drained_le : charges r.drained ≤ charges r.delivered := by
  obtain ⟨rest, hrest⟩ := h.drained_le
  rw [← hrest, charges_append]
  omega

/-- The credit left never exceeds the window granted. -/
lemma remaining_le : r.window.remaining + r.window.drainedSinceUpdate ≤ r.granted := by
  have := h.window_le
  have := h.charges_drained_le
  omega

/-- The chunks held never cost more than the window granted. -/
lemma charges_held_le : charges r.held ≤ r.granted := by
  cases hlive : r.rxLive with
  | true =>
    have hd := congrArg charges (h.delivered_eq hlive)
    rw [charges_append] at hd
    have := h.window_le
    omega
  | false => simp [h.closed hlive]

/-- A chunk that only moves on inside the channel changes no account. -/
lemma of_held (hlive : r.rxLive = true) (hw : r'.window = r.window)
    (hg : r'.granted = r.granted) (ht : r'.txLive = r.txLive) (hl : r'.rxLive = true)
    (hdel : r'.delivered = r.delivered) (hdr : r'.drained = r.drained)
    (hheld : r'.held = r.held) : r'.Accounted where
  granted_le := by rw [hg]; exact h.granted_le
  window_le := by rw [hw, hg, hdel, hdr]; exact h.window_le
  window_eq := by rw [hw, hg, hdel, hdr, ht]; exact h.window_eq
  below := by rw [hw]; exact h.below
  delivered_eq _ := by rw [hdel, hdr, hheld]; exact h.delivered_eq hlive
  drained_le := by rw [hdel, hdr]; exact h.drained_le
  closed hf := by rw [hl] at hf; cases hf
  active_live _ := hl

lemma close (ha : r.active = false) : r.close.Accounted where
  granted_le := h.granted_le
  window_le := h.window_le
  window_eq := h.window_eq
  below := h.below
  delivered_eq := by simp [Receiver.close]
  drained_le := h.drained_le
  closed _ := by
    unfold active at ha
    split at ha
    case h_3 => cases ha
    all_goals
      rename_i hpc
      simp [held, current, Receiver.close, hpc]
  active_live hact := by
    have : r.active = true := hact
    rw [ha] at this
    cases this

lemma finish (e : RelayEnd) : (r.finish e).Accounted where
  granted_le := h.granted_le
  window_le := h.window_le
  window_eq := h.window_eq
  below := h.below
  delivered_eq := by simp [Receiver.finish, Receiver.close]
  drained_le := h.drained_le
  closed := by simp [Receiver.finish, Receiver.close, held, current]
  active_live := by simp [Receiver.finish, active]

lemma dropEntry : r.dropEntry.Accounted where
  granted_le := h.granted_le
  window_le := h.window_le
  window_eq := by simp [Receiver.dropEntry]
  below := h.below
  delivered_eq := h.delivered_eq
  drained_le := h.drained_le
  closed := h.closed
  active_live := h.active_live

/-- A frame within the window is charged and queued. -/
lemma accept {b : Bytes} (hlive : r.rxLive = true) (hb : charge b.length ≤ r.window.remaining) :
    ({ r with
      window := ⟨r.window.remaining - charge b.length, r.window.drainedSinceUpdate⟩
      inbound := r.inbound ++ [.data b]
      delivered := r.delivered ++ [b] } : Receiver).Accounted := by
  have hle := h.window_le
  refine ⟨h.granted_le, ?_, fun ht => ?_, h.below, fun _ => ?_, ?_, ?_, fun _ => hlive⟩
  · simp only [charges_append, charges_cons, charges_nil]
    omega
  · have := h.window_eq ht
    simp only [charges_append, charges_cons, charges_nil]
    omega
  · have := h.delivered_eq hlive
    simp [this, held, current]
  · exact h.drained_le.trans (List.prefix_append _ _)
  · intro hf
    simp [hlive] at hf

/-- A frame within the window whose queue is gone is charged, and the entry goes. -/
lemma acceptGone : ({ r with
      window := ⟨r.window.remaining - n, r.window.drainedSinceUpdate⟩
      txLive := false } : Receiver).Accounted := by
  have hle := h.window_le
  refine ⟨h.granted_le, ?_, by simp, h.below, h.delivered_eq, h.drained_le, h.closed,
    h.active_live⟩
  dsimp only
  omega

/-- The entry goes with a last message that carries no data. -/
lemma push {m : Inbound} (hm : m.chunk? = none) : (r.dropEntry.push m).1.Accounted := by
  have hd := h.dropEntry
  unfold Receiver.push
  split_ifs with hlive
  · have hlive : r.dropEntry.rxLive = true := hlive
    refine hd.of_held hlive rfl rfl rfl hlive rfl rfl ?_
    simp [held, current, chunks, hm]
  · exact hd

lemma grant (hn : r.granted + n ≤ channelWindow) : (r.grant n).Accounted := by
  have hle := h.window_le
  have hrem := h.remaining_le
  have hu : channelWindow ≤ u32Max := by decide
  have hgrant : r.window.grant n
      = ⟨r.window.remaining + n, r.window.drainedSinceUpdate⟩ := by
    simp only [RecvWindow.grant, saturatingAdd, RecvWindow.mk.injEq, and_true]
    omega
  rw [Receiver.grant, hgrant]
  refine ⟨hn, ?_, fun ht => ?_, h.below, h.delivered_eq, h.drained_le, h.closed, h.active_live⟩
  · dsimp only
    omega
  · have := h.window_eq ht
    dsimp only
    omega

/-- Draining the chunk in hand: it is counted, or all that was counted is given back. -/
lemma drain {chunk : Bytes} {pc : ReceiverPc} (hpc : r.pc = .draining chunk)
    (hact : pc = .next ∨ ∃ add, pc = .updating add) : ({ r with
      window := (r.window.drained chunk.length).1
      drained := r.drained ++ [chunk]
      pc := pc } : Receiver).Accounted := by
  have hlive := h.active_live (by simp [active, hpc])
  have hd := h.delivered_eq hlive
  simp only [held, current, hpc, List.cons_append] at hd
  have hch := congrArg charges hd
  simp only [charges_append, charges_cons] at hch
  have hle := h.window_le
  have hgr := h.granted_le
  have hu : channelWindow ≤ u32Max := by decide
  have hheld : ({ r with pc := pc } : Receiver).current = [] := by
    rcases hact with rfl | ⟨add, rfl⟩ <;> rfl
  have hcases := r.window.drained_cases chunk.length (by omega)
  refine ⟨hgr, ?_, fun ht => ?_, ?_, fun _ => ?_, ⟨r.pending ++ chunks r.inbound, ?_⟩, ?_,
    fun _ => hlive⟩
  · rcases hcases with ⟨heq, _⟩ | heq <;> simp only [heq, charges_append, charges_cons,
      charges_nil] <;> omega
  · have := h.window_eq ht
    rcases hcases with ⟨heq, _⟩ | heq <;> simp only [heq, charges_append, charges_cons,
      charges_nil] <;> omega
  · rcases hcases with ⟨heq, hlt⟩ | heq <;> simp only [heq]
    · exact hlt
    · decide
  · have : ({ r with
        window := (r.window.drained chunk.length).1
        drained := r.drained ++ [chunk]
        pc := pc } : Receiver).held = r.pending ++ chunks r.inbound := by
      simp only [held]
      rw [show ({ r with
        window := (r.window.drained chunk.length).1
        drained := r.drained ++ [chunk]
        pc := pc } : Receiver).current = [] from hheld]
      rfl
    rw [this]
    simpa using hd
  · simpa using hd.symm
  · intro hf
    simp [hlive] at hf

lemma rule {env : RelayEnv} {id : ChannelId} {e : Option Frame}
    (hr : Rule env id r r' e) : r'.Accounted := by
  cases hr with
  | popPending hpc hp =>
    have hlive := h.active_live (by simp [active, hpc])
    exact h.of_held hlive rfl rfl rfl hlive rfl rfl (by simp [held, current, hpc, hp])
  | recvData hpc hp hq =>
    have hlive := h.active_live (by simp [active, hpc])
    exact h.of_held hlive rfl rfl rfl hlive rfl rfl (by simp [held, current, hpc, hp, hq])
  | recvClose | recvViolation | recvGone | cancelNext | cancelWriting | fail | gone =>
    exact h.finish _
  | write hpc hpos hn | wrote hpc | update hpc hc =>
    have hlive := h.active_live (by simp [active, hpc])
    exact h.of_held hlive rfl rfl rfl hlive rfl rfl (by simp [held, current, hpc])
  | drain hpc hd => exact h.drain hpc (Or.inl rfl)
  | drainUpdate hpc hd => exact h.drain hpc (Or.inr ⟨_, rfl⟩)

end Accounted

lemma new_accounted {window : ℕ} (h : effectiveWindow window ≤ channelWindow) :
    (Receiver.new window).Accounted where
  granted_le := h
  window_le := by simp [Receiver.new, RecvWindow.new]
  window_eq _ := by simp [Receiver.new, RecvWindow.new]
  below := by simp [Receiver.new, RecvWindow.new, updateThreshold, channelWindow]
  delivered_eq _ := by simp [Receiver.new, held, current]
  drained_le := by simp [Receiver.new]
  closed := by simp [Receiver.new]
  active_live := by simp [Receiver.new]

end Receiver

namespace Channel

/-- The account of a channel's receiving half, with what the phase of its task adds. -/
structure Windowed (c : Channel) : Prop where
  rx : c.rx.Accounted
  early : c.phase.early = true →
    c.rx.pc = .idle ∧ c.rx.rxLive = true ∧ c.rx.drained = []
  inactive : c.phase.relaying = false → c.rx.active = false
  before : c.phase.beforeGrant = true → c.rx.granted = initialWindow
  pending : (∃ p u, c.phase = .connecting p u) → c.rx.pendingLen = charges c.rx.pending

namespace Windowed

variable {c c' : Channel} {env : Env} {e : Option Frame}

/-- While connecting, what is buffered and what is queued fits the initial window together, so
`pending_fits` never fails. -/
lemma pendingFits (h : c.Windowed) {p : Bool} {u : String} {b : Bytes} {rest : List Inbound}
    (hp : c.phase = .connecting p u) (hq : c.rx.inbound = .data b :: rest) :
    pendingFits c.rx.pendingLen b.length = true := by
  obtain ⟨hpc, _, _⟩ := h.early (by simp [hp, Phase.early])
  have hle := h.rx.charges_held_le
  rw [h.before (by simp [hp, Phase.beforeGrant])] at hle
  simp only [Receiver.held, Receiver.current, hpc, hq, List.nil_append, charges_append,
    chunks_data, charges_cons] at hle
  have hlen := h.pending ⟨p, u, hp⟩
  simp only [PortForward.pendingFits, decide_eq_true_eq]
  omega

/-- A change of phase alone: what the new phase asks for must be known. -/
lemma of_phase (h : c.Windowed) (hrx : c'.rx = c.rx)
    (hearly : c'.phase.early = true → c.phase.early = true)
    (hrel : c'.phase.relaying = false → c.rx.active = false)
    (hbefore : c'.phase.beforeGrant = true → c.phase.beforeGrant = true)
    (hpend : (∃ p u, c'.phase = .connecting p u) → ∃ p u, c.phase = .connecting p u) :
    c'.Windowed where
  rx := hrx ▸ h.rx
  early he := by rw [hrx]; exact h.early (hearly he)
  inactive hi := by rw [hrx]; exact hrel hi
  before hb := by rw [hrx]; exact h.before (hbefore hb)
  pending hp := by rw [hrx]; exact h.pending (hpend hp)

lemma finish (h : c.Windowed) (ha : c.rx.active = false) : c.finish.Windowed where
  rx := h.rx.close ha
  early := by simp [Channel.finish, Phase.early]
  inactive _ := ha
  before := by simp [Channel.finish, Phase.beforeGrant]
  pending := by simp [Channel.finish]

lemma start (h : c.Windowed) (he : c.phase.early = true) : c.start.Windowed where
  rx := by
    obtain ⟨hpc, hlive, _⟩ := h.early he
    exact h.rx.of_held hlive rfl rfl rfl hlive rfl rfl
      (by simp [Channel.start, Receiver.held, Receiver.current, hpc])
  early := by simp [Channel.start, Phase.early]
  inactive := by simp [Channel.start, Phase.relaying]
  before := by simp [Channel.start, Phase.beforeGrant]
  pending := by simp [Channel.start]

lemma widen (hidle : c.rx.pc = .idle ∧ c.rx.rxLive = true ∧ c.rx.drained = []) {n : ℕ}
    (hrx : (c.rx.grant n).Accounted) :
    ({ c with phase := .announcing, rx := c.rx.grant n } : Channel).Windowed where
  rx := hrx
  early _ := hidle
  inactive _ := by simp [Receiver.active, hidle.1]
  before := by simp [Phase.beforeGrant]
  pending := by simp

variable (h : c.Windowed)

include h

/-- A change of the receiving half while the phase stays. -/
lemma of_rx (hrx : c'.rx.Accounted) (hp : c'.phase = c.phase)
    (hpc : c'.rx.pc = c.rx.pc) (hlive : c'.rx.rxLive = c.rx.rxLive)
    (hdr : c'.rx.drained = c.rx.drained) (hg : c'.rx.granted = c.rx.granted)
    (hpend : c'.rx.pending = c.rx.pending) (hlen : c'.rx.pendingLen = c.rx.pendingLen) :
    c'.Windowed where
  rx := hrx
  early he := by
    rw [hpc, hlive, hdr]
    exact h.early (hp ▸ he)
  inactive hi := (Receiver.active_congr hpc).trans (h.inactive (hp ▸ hi))
  before hb := by
    rw [hg]
    exact h.before (hp ▸ hb)
  pending hx := by
    rw [hpend, hlen]
    exact h.pending (hp ▸ hx)

lemma afterRun (ha : c.rx.active = false) : c.afterRun.Windowed := by
  unfold Channel.afterRun
  split
  · exact h.of_phase rfl (by simp [Phase.early]) (fun _ => ha) (by simp [Phase.beforeGrant])
      (by simp)
  · exact h.finish ha

lemma with_log (log : List Frame) : ({ c with log := log } : Channel).Windowed :=
  ⟨h.rx, h.early, h.inactive, h.before, h.pending⟩

lemma rule (hr : Rule env c c' e) : c'.Windowed := by
  cases hr with
  | openGone hp hc =>
    exact h.of_phase rfl (by simp [Phase.early])
      (fun _ => h.inactive (by simp [hp, Phase.relaying])) (by simp [Phase.beforeGrant]) (by simp)
  | sendOpen hp hc | announce hp hc => exact (h.start (by simp [hp, Phase.early])).with_log _
  | buffer hp hq hf =>
    obtain ⟨hpc, hlive, hdr⟩ := h.early (by simp [hp, Phase.early])
    have hlen := h.pending ⟨_, _, hp⟩
    exact {
      rx := h.rx.of_held hlive rfl rfl rfl hlive rfl rfl
        (by simp [Receiver.held, Receiver.current, hpc, hq])
      early := h.early
      inactive := h.inactive
      before := h.before
      pending := fun _ => by simp [hlen] }
  | overflow hp hq hf =>
    rw [h.pendingFits hp hq] at hf
    cases hf
  | cmdClose hp hq | cmdGone hp hq ht | remove hp =>
    exact h.finish (h.inactive (by simp [hp, Phase.relaying]))
  | cmdViolation hp hq =>
    obtain ⟨hpc, hlive, hdr⟩ := h.early (by simp [hp, Phase.early])
    exact {
      rx := h.rx.of_held hlive rfl rfl rfl hlive rfl rfl
        (by simp [Receiver.held, Receiver.current, hpc, hq])
      early := fun _ => ⟨hpc, hlive, hdr⟩
      inactive := fun _ => h.inactive (by simp [hp, Phase.relaying])
      before := fun _ => h.before (by simp [hp, Phase.beforeGrant])
      pending := by simp }
  | cmdNone hp hq ht | connectPending hp | connected hp | connectFailed hp =>
    exact h.of_phase rfl (by simp [hp, Phase.early])
      (fun _ => h.inactive (by simp [hp, Phase.relaying])) (by simp [hp, Phase.beforeGrant])
      (by simp [hp])
  | abort hp hc | refuse hp hc =>
    exact (h.finish (h.inactive (by simp [hp, Phase.relaying]))).with_log _
  | grant hp =>
    have hn : c.rx.granted + (channelWindow - initialWindow) ≤ channelWindow := by
      rw [h.before (by simp [hp, Phase.beforeGrant])]
      decide
    exact widen (h.early (by simp [hp, Phase.early])) (h.rx.grant hn)
  | sinkGone hp hc =>
    refine h.finish (h.inactive ?_)
    rcases hp with hp | ⟨m, hp⟩ | hp <;> simp [hp, Phase.relaying]
  | sender hp hs =>
    exact h.of_phase rfl (fun he => he)
      (by rcases hp with hp | hp <;> simp [hp, Phase.relaying]) (fun hb => hb) (fun hx => hx)
  | receiver hp hs =>
    exact {
      rx := h.rx.rule hs
      early := by rcases hp with hp | hp <;> simp [hp, Phase.early]
      inactive := by rcases hp with hp | hp <;> simp [hp, Phase.relaying]
      before := by rcases hp with hp | hp <;> simp [hp, Phase.beforeGrant]
      pending := by rcases hp with hp | hp <;> simp [hp] }
  | select hp hs =>
    exact h.of_phase rfl (by simp [Phase.early]) (by simp [Phase.relaying])
      (by simp [Phase.beforeGrant]) (by simp)
  | joinClose hp ht hr hs =>
    exact h.of_phase rfl (by simp [Phase.early]) (fun _ => by simp [Receiver.active, hr])
      (by simp [Phase.beforeGrant]) (by simp)
  | join hp ht hr hs => exact h.afterRun (by simp [Receiver.active, hr])
  | close hp hc => exact (h.afterRun (h.inactive (by simp [hp, Phase.relaying]))).with_log _
  | closeGone hp hc => exact h.afterRun (h.inactive (by simp [hp, Phase.relaying]))

lemma push {m : Inbound} (hm : m.chunk? = none) :
    ({ c with rx := (c.rx.dropEntry.push m).1 } : Channel).Windowed := by
  refine h.of_rx (h.rx.push hm) rfl ?_ ?_ ?_ ?_ ?_ ?_ <;>
  · simp only [Receiver.push]
    split_ifs <;> rfl

lemma moves (hm : Moves env c c' e) : c'.Windowed := by
  cases hm with
  | task hr => exact h.rule hr
  | data b ht =>
    rcases c.onData_cases b with ⟨hb, hlive, heq⟩ | ⟨hb, hlive, heq⟩ | ⟨hb, heq⟩ <;> rw [heq]
    · exact h.of_rx (h.rx.accept hlive hb) rfl rfl rfl rfl rfl rfl rfl
    · exact h.of_rx h.rx.acceptGone rfl rfl rfl rfl rfl rfl rfl
    · exact h.push rfl
  | close ht => exact h.push rfl
  | windowUpdate n ht => exact h.of_rx h.rx rfl rfl rfl rfl rfl rfl rfl
  | opened success window ht =>
    unfold onOpened
    split_ifs
    · exact h
    · exact h.of_rx h.rx rfl rfl rfl rfl rfl rfl rfl
    · exact h.push rfl
  | drop => exact h.of_rx h.rx.dropEntry rfl rfl rfl rfl rfl rfl rfl
  | finishAdd hf =>
    obtain ⟨_, rfl⟩ := finishAdd_eq_some hf
    exact h.of_rx h.rx rfl rfl rfl rfl rfl rfl rfl

end Windowed

lemma controller_windowed (id : ChannelId) (host : String) (port : ℤ) (prebuf : Bytes) :
    (controller id host port prebuf).Windowed where
  rx := Receiver.new_accounted (by decide)
  early _ := ⟨rfl, rfl, rfl⟩
  inactive _ := rfl
  before := by simp [controller, Phase.beforeGrant]
  pending := by simp [controller]

lemma controlled_windowed (id : ChannelId) (window : ℕ) (u : String) :
    (controlled id window u).Windowed where
  rx := Receiver.new_accounted (by decide)
  early _ := ⟨rfl, rfl, rfl⟩
  inactive _ := rfl
  before _ := rfl
  pending _ := rfl

end Channel

lemma handleLts_windowed {h : TunnelHandle} (hr : handleLts.Reachable h) :
    ∀ c ∈ h.chans, c.Windowed :=
  handleLts_forall (fun _ _ _ _ hc hm => hc.moves hm) Channel.controller_windowed hr

lemma muxLts_windowed {t : String} {m : PortForwardMux} (hr : (muxLts t).Reachable m) :
    ∀ c ∈ m.chans, c.Windowed :=
  muxLts_forall (fun _ _ _ _ hc hm => hc.moves hm) Channel.controlled_windowed hr

/-! ### An overrun -/

namespace Channel

variable {c : Channel}

/-- A channel that has lost its entry, with what had been queued for it by then. -/
def Dropped (l : List Bytes) (c : Channel) : Prop := c.rx.txLive = false ∧ c.rx.delivered = l

lemma Dropped.moves {l : List Bytes} {env : Env} {c' : Channel} {e : Option Frame} (h : c.Dropped l)
    (hm : Moves env c c' e) : c'.Dropped l := by
  obtain ⟨hlive, hdel⟩ := h
  cases hm with
  | task hr => exact ⟨hr.sameEntry.txLive.trans hlive, hr.sameEntry.delivered.trans hdel⟩
  | data b ht | close ht | windowUpdate n ht | opened success window ht =>
    rw [hlive] at ht
    cases ht
  | drop => exact ⟨rfl, hdel⟩
  | finishAdd hf =>
    obtain ⟨_, rfl⟩ := finishAdd_eq_some hf
    exact ⟨hlive, hdel⟩

/-- A frame over the window costs the channel its entry and is not queued. -/
lemma onData_overrun {b : Bytes} (hb : c.rx.window.remaining < charge b.length) :
    (c.onData b).Dropped c.rx.delivered := by
  rcases c.onData_cases b with ⟨hle, _⟩ | ⟨hle, _⟩ | ⟨_, heq⟩
  · omega
  · omega
  · rw [heq]
    cases hlive : c.rx.rxLive <;> simp [Dropped, Receiver.push, Receiver.dropEntry, hlive]

/-- What a channel may hold for its socket. -/
structure Bounded (c : Channel) : Prop where
  window : charges c.rx.held ≤ channelWindow
  initial : c.phase.beforeGrant = true → charges c.rx.held ≤ initialWindow
  chunks : c.rx.held.length ≤ channelWindow / minFrameCharge

lemma Windowed.bounded (h : c.Windowed) : c.Bounded := by
  have hwindow := h.rx.charges_held_le.trans h.rx.granted_le
  refine ⟨hwindow, fun hb => ?_, ?_⟩
  · rw [← h.before hb]
    exact h.rx.charges_held_le
  · rw [Nat.le_div_iff_mul_le (by decide)]
    exact (length_mul_le_charges c.rx.held).trans hwindow

end Channel

section Overrun

variable {σ α : Type*} {M : LTS σ α} (chans : σ → List Channel) {N : Channel → Prop} {as : List α}
  {s s' : σ} {i : ℕ} {c : Channel}

/-- A channel that has lost its entry is handed nothing in any continuation. -/
lemma run_dropped (hgrows : ∀ s a s', M.step s a = some s' → Grows N (chans s) (chans s'))
    (hrun : M.run s as = some s') {l : List Bytes} (hc : (chans s)[i]? = some c)
    (hd : c.Dropped l) : ∃ c', (chans s')[i]? = some c' ∧ c'.Dropped l := by
  refine LTS.run_invariant (P := fun s => ∃ c, (chans s)[i]? = some c ∧ c.Dropped l) ?_ hrun
    ⟨c, hc, hd⟩
  rintro s a s' ⟨c, hc, hd⟩ hstep
  obtain ⟨c', hc', hev⟩ := (hgrows s a s' hstep).getElem? hc
  exact ⟨c', hc', hev.invariant (fun _ _ _ _ hd hm => hd.moves hm) hd⟩

/-- After the frame that overruns the window of the entry it finds, nothing more is queued. -/
lemma run_overrun (hgrows : ∀ s a s', M.step s a = some s' → Grows N (chans s) (chans s')) {a : α}
    {b : Bytes}
    (hframe : ∀ s₁, M.step s a = some s₁ →
      chans s₁ = withEntry (chans s) c.id fun c => c.onData b)
    (hc : (chans s)[i]? = some c) (hi : findEntry (chans s) c.id = some i)
    (hb : c.rx.window.remaining < charge b.length) (hrun : M.run s (a :: as) = some s') :
    ∃ c', (chans s')[i]? = some c' ∧ c'.rx.delivered = c.rx.delivered := by
  rw [LTS.run_cons] at hrun
  obtain ⟨s₁, hstep, hrun⟩ := Option.bind_eq_some_iff.mp hrun
  have hc₁ : (chans s₁)[i]? = some (c.onData b) := by
    rw [hframe s₁ hstep, getElem?_withEntry, if_pos hi, hc]
    rfl
  obtain ⟨c', hc', hd⟩ := run_dropped chans hgrows hrun hc₁ (Channel.onData_overrun hb)
  exact ⟨c', hc', hd.2⟩

end Overrun

/-- What either endpoint holds for a channel is bounded whatever its peer sends, and a frame over
the window is the last the channel is charged for. -/
theorem receive_memory_bounded :
    (∀ h, handleLts.Reachable h → ∀ i c, h.chans[i]? = some c → c.Bounded ∧
      ∀ b as h', findEntry h.chans c.id = some i → c.rx.window.remaining < charge b.length →
        handleLts.run h (.frame (.dataMsg c.id b) :: as) = some h' →
        ∃ c', h'.chans[i]? = some c' ∧ c'.rx.delivered = c.rx.delivered) ∧
    (∀ t m, (muxLts t).Reachable m → ∀ i c, m.chans[i]? = some c → c.Bounded ∧
      ∀ b permitted as m', findEntry m.chans c.id = some i →
        c.rx.window.remaining < charge b.length →
        (muxLts t).run m (.frame (.dataMsg c.id b) permitted :: as) = some m' →
        ∃ c', m'.chans[i]? = some c' ∧ c'.rx.delivered = c.rx.delivered) := by
  constructor
  · intro h hr i c hc
    refine ⟨(handleLts_windowed hr c (List.mem_of_getElem? hc)).bounded, ?_⟩
    intro b as h' hi hb hrun
    refine run_overrun TunnelHandle.chans handleLts_grows (fun h₁ hs => ?_) hc hi hb hrun
    obtain ⟨out, hr⟩ := handleLts_rule hs
    cases hr
    rfl
  · intro t m hr i c hc
    refine ⟨(muxLts_windowed hr c (List.mem_of_getElem? hc)).bounded, ?_⟩
    intro b permitted as m' hi hb hrun
    refine run_overrun PortForwardMux.chans (muxLts_grows t) (fun m₁ hs => ?_) hc hi hb hrun
    obtain ⟨out, hr⟩ := muxLts_rule hs
    cases hr
    rfl

/-- A frame one byte over the window of a channel the controller has just opened. -/
theorem receive_memory_bounded_one_over :
    let call : OpenCall := ⟨"", 22, []⟩
    let h := TunnelHandle.new.insert call
    let c := Channel.controller 1 call.host call.port call.prebuf
    let b : Bytes := List.replicate (channelWindow + 1) 0
    handleLts.run TunnelHandle.new [.beginOpen call, .insert] = some h ∧
    handleLts.run h [.frame (.dataMsg 1 b)] = some (h.onFrame (.dataMsg 1 b)) ∧
    c.Bounded ∧ ∃ c', (h.onFrame (.dataMsg 1 b)).chans[0]? = some c' ∧ c'.rx.delivered = [] := by
  intro call h c b
  have hopen : handleLts.run TunnelHandle.new [.beginOpen call, .insert] = some h := rfl
  have hover : handleLts.run h [.frame (.dataMsg 1 b)] = some (h.onFrame (.dataMsg 1 b)) := rfl
  have hb : c.rx.window.remaining < charge b.length := by
    rw [List.length_replicate]
    decide
  obtain ⟨hbounded, hfinal⟩ :=
    receive_memory_bounded.1 h ((LTS.Reachable.init rfl).run hopen) 0 c rfl
  exact ⟨hopen, hover, hbounded, hfinal b [] _ rfl hb hover⟩

end RustDesk.PortForward
