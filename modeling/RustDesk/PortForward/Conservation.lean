import RustDesk.PortForward.Credit
import RustDesk.PortForward.Simulation

/-!
# Conservation of credit

What one side may send, what it has sent, and what the other has accepted and not yet given back
add up to the window it was granted, in each direction and in every state. The lower half of the
account (`Pair.Funded`) holds of every pair: credit is never lost while both entries are there.
The upper half (`Pair.Balanced`) holds as long as no id is reused: credit is never created.
-/

namespace RustDesk.PortForward

variable {fs gs : List Frame}

/-! ### What a receiver owes -/

/-- The update the relay has in hand. -/
def ReceiverPc.owed : ReceiverPc → ℕ
  | updating n => n
  | _ => 0

namespace Receiver

variable {r r' : Receiver}

/-- The chunks accepted and not drained. -/
def undrained (r : Receiver) : List Bytes := r.delivered.drop r.drained.length

/-- What a receiver has accepted and not given back in a window update. -/
def owing (r : Receiver) : ℕ :=
  charges r.undrained + r.window.drainedSinceUpdate + r.pc.owed

lemma owing_congr (hdel : r'.delivered = r.delivered) (hdr : r'.drained = r.drained)
    (hw : r'.window.drainedSinceUpdate = r.window.drainedSinceUpdate)
    (hpc : r'.pc.owed = r.pc.owed) : r'.owing = r.owing := by
  simp only [owing, undrained, hdel, hdr, hw, hpc]

lemma Accounted.charges_undrained (h : r.Accounted) :
    charges r.drained + charges r.undrained = charges r.delivered := by
  obtain ⟨rest, hrest⟩ := h.drained_le
  rw [undrained, ← hrest, List.drop_left, charges_append]

/-- Draining the chunk in hand moves its charge on. -/
lemma Accounted.owing_drain (h : r.Accounted) {chunk : Bytes} (hpc : r.pc = .draining chunk)
    {pc : ReceiverPc}
    (hd : (r.window.drained chunk.length).2 = none ∧ pc = .next ∨
      ∃ add, (r.window.drained chunk.length).2 = some add ∧ pc = .updating add) :
    ({ r with
      window := (r.window.drained chunk.length).1
      drained := r.drained ++ [chunk]
      pc := pc } : Receiver).owing = r.owing := by
  have hact : pc = .next ∨ ∃ add, pc = .updating add := by
    rcases hd with ⟨_, rfl⟩ | ⟨add, _, rfl⟩
    · exact Or.inl rfl
    · exact Or.inr ⟨add, rfl⟩
  have hbefore := h.charges_undrained
  have hafter := (h.drain hpc hact).charges_undrained
  simp only [undrained, charges_append, charges_cons, charges_nil] at hbefore hafter
  have hle := h.window_le
  have hgr := h.granted_le
  have hu : channelWindow ≤ u32Max := by decide
  have hcases := r.window.drained_cases chunk.length (by omega)
  have howed : r.pc.owed = 0 := by rw [hpc]; rfl
  simp only [owing, undrained, howed]
  rcases hcases with ⟨heq, _⟩ | heq <;> rw [heq] at hd <;> rw [heq]
  · rcases hd with ⟨_, rfl⟩ | ⟨add, hadd, _⟩
    · simp only [ReceiverPc.owed]
      omega
    · cases hadd
  · rcases hd with ⟨hnone, _⟩ | ⟨add, hadd, rfl⟩
    · cases hnone
    · cases hadd
      simp only [ReceiverPc.owed]
      omega

@[simp] lemma grant_owing (r : Receiver) (n : ℕ) : (r.grant n).owing = r.owing := (rfl)

/-- A step of the relay gives back what it owes only by a window update, or with the tunnel. -/
lemma Rule.owing_cases {env : RelayEnv} {id : ChannelId} {e : Option Frame} (h : Rule env id r r' e)
    (ha : r.Accounted) :
    r'.owing + (updates e.toList).sum = r.owing ∨
    (e = none ∧ r'.owing ≤ r.owing ∧ env.closed = true) := by
  cases h with
  | drain hpc hd =>
    left
    simpa using ha.owing_drain hpc (Or.inl ⟨hd, rfl⟩)
  | drainUpdate hpc hd =>
    left
    simpa using ha.owing_drain hpc (Or.inr ⟨_, hd, rfl⟩)
  | update hpc hc =>
    left
    simp [owing, undrained, hpc, ReceiverPc.owed, updates, Frame.update?]
  | gone hpc hc =>
    refine Or.inr ⟨rfl, ?_, hc⟩
    simp [owing, undrained, Receiver.finish, Receiver.close, ReceiverPc.owed]
  | popPending hpc hp | recvData hpc hp | recvClose hpc hp | recvViolation hpc hp | recvGone hpc hp
  | cancelNext hpc hp | cancelWriting hpc hp | write hpc hp | wrote hpc | fail hpc =>
    left
    simp [owing, undrained, Receiver.finish, Receiver.close, ReceiverPc.owed, hpc]

end Receiver

namespace Channel

variable {c c' : Channel} {f : Frame} {n : ℕ}

@[simp] lemma afterRun_rx_owing (c : Channel) : c.afterRun.rx.owing = c.rx.owing := by
  unfold afterRun
  split <;> rfl

lemma Rule.owing_cases {env : Env} {e : Option Frame} (h : Rule env c c' e) (hw : c.Windowed) :
    c'.rx.owing + (updates e.toList).sum = c.rx.owing ∨
    (e = none ∧ c'.rx.owing ≤ c.rx.owing ∧ env.closed = true) := by
  have hstart : c.phase.early = true → c.start.rx.owing = c.rx.owing := fun he =>
    Receiver.owing_congr rfl rfl rfl (by simp [start, (hw.early he).1, ReceiverPc.owed])
  cases h with
  | receiver hp hs => exact hs.owing_cases hw.rx
  | sender hp hs =>
    left
    rcases hs.emits with rfl | ⟨b, _, rfl⟩ <;> rfl
  | sendOpen hp hc | announce hp hc =>
    left
    exact hstart (by simp [hp, Phase.early])
  | join | closeGone => exact Or.inl (by simp)
  | close => exact Or.inl (c.afterRun_rx_owing)
  | grant hp => exact Or.inl (by simp)
  | _ => exact Or.inl rfl

/-- Until the queue closes, what is owed goes into updates. -/
lemma Rule.owing_eq {env : Env} {e : Option Frame} (h : Rule env c c' e) (hw : c.Windowed)
    (hopen : env.closed = false) : c'.rx.owing + (updates e.toList).sum = c.rx.owing := by
  rcases h.owing_cases hw with heq | ⟨_, _, hclosed⟩
  · exact heq
  · cases hopen.symm.trans hclosed

/-! ### What a frame does to the account -/

/-- The window the channel's sender has been told of. -/
def base (c : Channel) : ℕ := if c.opened then channelWindow else initialWindow

lemma base_le (c : Channel) : c.base ≤ maxSendCredit := by
  unfold base
  split_ifs <;> decide

lemma push_owing (r : Receiver) (m : Inbound) : (r.dropEntry.push m).1.owing = r.owing := by
  unfold Receiver.push
  split_ifs <;> rfl

/-- A data frame that is queued is owed; one that is not costs the channel its entry. -/
lemma onData_owing (hw : c.Windowed) (b : Bytes) :
    (c.onData b).rx.owing = c.rx.owing + charge b.length ∨
    ((c.onData b).rx.owing = c.rx.owing ∧ (c.onData b).rx.txLive = false) := by
  rcases c.onData_cases b with ⟨_, _, heq⟩ | ⟨_, _, heq⟩ | ⟨_, heq⟩ <;> rw [heq]
  · left
    have hlen := hw.rx.drained_le.length_le
    simp only [Receiver.owing, Receiver.undrained, List.drop_append_of_le_length hlen,
      charges_append, charges_cons, charges_nil]
    omega
  · exact Or.inr ⟨rfl, rfl⟩
  · exact Or.inr ⟨push_owing _ _, push_txLive _ _⟩

/-- What a frame adds to what its receiver owes: the charge of its data, if the entry stays. -/
lemma Receives.owing (h : c.Receives f c') (hw : c.Windowed) :
    c'.rx.owing ≤ c.rx.owing + charges (payloads [f]) ∧
    (c.rx.txLive = true → c'.rx.txLive = true →
      c'.rx.owing = c.rx.owing + charges (payloads [f])) := by
  cases h with
  | same hf =>
    refine ⟨Nat.le_add_right _ _, fun ht _ => ?_⟩
    rw [(hf ht).1, charges_nil, add_zero]
  | @data id b ht hf =>
    have hpay : charges (payloads [f]) = charge b.length := by
      simp [hf, payloads, Frame.payload?]
    rw [hpay]
    rcases onData_owing hw b with heq | ⟨heq, hdead⟩
    · exact ⟨heq.le, fun _ _ => heq⟩
    · refine ⟨heq.le.trans (Nat.le_add_right _ _), fun _ hlive => ?_⟩
      rw [hdead] at hlive
      cases hlive
  | close ht hf =>
    refine ⟨(push_owing c.rx _).le.trans (Nat.le_add_right _ _), fun _ hlive => ?_⟩
    have hdead : c.onClose.rx.txLive = false := push_txLive c.rx _
    rw [hdead] at hlive
    cases hlive
  | windowUpdate ht hf => subst hf; exact ⟨le_rfl, fun _ _ => rfl⟩
  | opened ht hs ho hf => subst hf; exact ⟨Nat.le_add_right _ _, fun _ _ => rfl⟩

lemma raiseInitial_channelWindow (c : SendCredit) :
    c.raiseInitial channelWindow = c.add (channelWindow - initialWindow) := by
  have : effectiveWindow channelWindow = channelWindow := by decide
  unfold SendCredit.raiseInitial
  rw [this]
  exact if_pos (by decide)

/-- The first `opened` brings the rest of the window. -/
lemma raiseInitial_rights (c : Channel) :
    ({ c.tx with credit := c.tx.credit.raiseInitial channelWindow } : Sender).rights =
      (c.onWindowUpdate (channelWindow - initialWindow)).tx.rights := by
  rw [raiseInitial_channelWindow]
  rfl

variable (hf : c.side = .controller → ∀ id m w, f = .openedMsg id true m w → w = channelWindow)

include hf in
/-- What a frame adds to the sender's rights: the amount of an update, or the rest of the window
that `opened` brings; credit is lost to the cap only. -/
lemma Receives.rights (h : c.Receives f c') :
    c'.tx.rights + c.base ≤ c.tx.rights + (updates [f]).sum + c'.base ∧
    (c.rx.txLive = true → min (c.tx.rights + (updates [f]).sum + c'.base) (maxSendCredit + c.base) ≤
      c'.tx.rights + c.base) := by
  cases h with
  | same hsame =>
    refine ⟨by omega, fun ht => ?_⟩
    rw [(hsame ht).2, List.sum_nil]
    omega
  | @data id b ht heq =>
    have hbase : (c.onData b).base = c.base := by
      rcases c.onData_cases b with ⟨_, _, heq⟩ | ⟨_, _, heq⟩ | ⟨_, heq⟩ <;> rw [heq] <;> rfl
    have hupd : updates [f] = [] := by
      rw [heq]
      rfl
    rw [hupd, hbase, onData_tx, List.sum_nil]
    exact ⟨le_rfl, fun _ => min_le_left _ _⟩
  | close ht heq =>
    have hupd : updates [f] = [] := by
      rcases heq with ⟨id, rfl⟩ | ⟨id, m, w, rfl⟩ <;> rfl
    have hrights : c.onClose.tx.rights = c.tx.rights := rfl
    have hbase : c.onClose.base = c.base := rfl
    rw [hupd, hrights, hbase, List.sum_nil]
    exact ⟨le_rfl, fun _ => min_le_left _ _⟩
  | @windowUpdate id n ht heq =>
    obtain ⟨hle, hge⟩ := c.onWindowUpdate_rights n
    have hupd : (updates [f]).sum = n := by simp [heq, updates, Frame.update?]
    have hbase : (c.onWindowUpdate n).base = c.base := rfl
    rw [hupd, hbase]
    exact ⟨by omega, fun _ => by omega⟩
  | @opened id m w ht hs ho heq =>
    obtain rfl := hf hs id m w heq
    obtain ⟨hle, hge⟩ := c.onWindowUpdate_rights (channelWindow - initialWindow)
    have hupd : (updates [f]).sum = 0 := by
      rw [heq]
      rfl
    have hinit : initialWindow ≤ channelWindow := by decide
    rw [hupd, raiseInitial_rights]
    simp only [base, ho, if_true, Bool.false_eq_true, if_false]
    exact ⟨by omega, fun _ => by omega⟩

/-- No frame takes back what the sender has been told of. -/
lemma Receives.base_le (h : c.Receives f c') : c.base ≤ c'.base := by
  cases h with
  | @data id b ht heq =>
    rcases c.onData_cases b with ⟨_, _, heq⟩ | ⟨_, _, heq⟩ | ⟨_, heq⟩ <;> rw [heq] <;> exact le_rfl
  | opened ht hs ho heq =>
    simp only [base, ho, if_true, Bool.false_eq_true, if_false]
    decide
  | _ => exact le_rfl

lemma txLive_of_receive (h : (c.receive f).rx.txLive = true) : c.rx.txLive = true := by
  by_contra hdead
  rw [receive_of_dead (by simpa using hdead)] at h
  exact hdead h

include hf in
/-- A frame leaves the sender with what it has been told of, up to what is accounted for
elsewhere. -/
lemma receive_funded (hlive : c.rx.txLive = true)
    (h : c.base ≤ c.tx.rights + (updates [f]).sum + n) :
    (c.receive f).base ≤ (c.receive f).tx.rights + n := by
  have hge := ((c.receives f).rights hf).2 hlive
  have hle := (c.receive f).base_le
  omega

include hf in
/-- The same for a sender that has had the whole window from the start. -/
lemma receive_funded_full (hlive : c.rx.txLive = true)
    (h : channelWindow ≤ c.tx.rights + (updates [f]).sum + n) :
    channelWindow ≤ (c.receive f).tx.rights + n := by
  have hge := ((c.receives f).rights hf).2 hlive
  have hle := (c.receives f).base_le
  have : maxSendCredit = channelWindow := rfl
  omega

lemma controller_rights (id : ChannelId) (host : String) (port : ℤ) (prebuf : Bytes) :
    (controller id host port prebuf).tx.rights = initialWindow := by
  change min initialWindow maxSendCredit + 0 + 0 = initialWindow
  decide

lemma controlled_rights (id : ChannelId) (u : String) :
    (controlled id channelWindow u).tx.rights = channelWindow := by
  change min (effectiveWindow channelWindow) maxSendCredit + 0 + 0 = channelWindow
  decide

end Channel

/-! ### The lower half -/

@[simp] lemma payloads_ordered (fs : List Frame) : payloads (ordered fs) = payloads fs := by
  unfold payloads ordered
  rw [List.filterMap_filter]
  refine List.filterMap_congr fun f _ => ?_
  cases f <;> rfl

lemma charges_payloads_cons (f : Frame) (fs : List Frame) :
    charges (payloads (f :: fs)) = charges (payloads [f]) + charges (payloads fs) := by
  rw [← List.singleton_append, payloads_append, charges_append]

lemma updates_cons (f : Frame) (fs : List Frame) :
    updates (f :: fs) = updates [f] ++ updates fs := by
  rw [← List.singleton_append, updates_append]

namespace Pair

/-- While both entries are there, no credit is lost: what the near side has been told of, and the
whole window the far side started with, are accounted for. -/
structure Funded (p : Pair) : Prop where
  /-- before the `open` has arrived -/
  before : p.far = none → p.seen = [] → p.nearClosed = false → p.near.rx.txLive = true →
    p.near.base ≤ p.near.tx.rights + charges (payloads p.out)
  out : ∀ d ∈ p.far, p.near.rx.txLive = true → d.rx.txLive = true →
    p.near.base ≤ p.near.tx.rights + (charges (payloads p.out) + d.rx.owing + (updates p.back).sum)
  back : ∀ d ∈ p.far, p.near.rx.txLive = true → d.rx.txLive = true →
    channelWindow ≤ d.tx.rights + (charges (payloads p.back) + p.near.rx.owing + p.grants.sum)

namespace Reachable

variable {p : Pair}

lemma paced (hp : p.Reachable) : p.near.Paced ∧ ∀ d ∈ p.far, d.Paced :=
  hp.forall_channel Channel.controller_paced Channel.controlled_paced
    fun _ _ _ _ hc hm => hc.moves hm

/-- The frames of the far channel bring the whole window, if any. -/
lemma opened_window (hp : p.Reachable) {f : Frame} (hf : f ∈ p.seenBack ++ p.back) :
    ∀ id m w, f = .openedMsg id true m w → w = channelWindow := by
  intro id m w heq
  cases hfar : p.far with
  | none =>
    obtain ⟨hseen, hback⟩ := hp.back_log.2 hfar
    simp [hseen, hback] at hf
  | some d =>
    have hlog : f ∈ d.log := (hp.back_log.1 d hfar).1.subset hf
    have hmem : f ∈ ordered d.log := by
      simp only [ordered, List.mem_filter]
      exact ⟨hlog, by rw [heq]; rfl⟩
    rw [heq] at hmem
    exact ((hp.logged.2 d hfar).2.cases.controlledFrames (hp.side.2 d hfar)).opened_window hmem

/-- While both entries are there, both loops run. -/
lemma loops_open (hp : p.Reachable) {d : Channel} (hd : d ∈ p.far) (ht : p.near.rx.txLive = true)
    (htd : d.rx.txLive = true) : p.nearClosed = false ∧ p.farClosed = false := by
  constructor
  · by_contra hcl
    rw [(hp.near_shut (by simpa using hcl) ht).1] at hd
    cases hd
  · by_contra hcl
    rw [hp.far_shut (by simpa using hcl) d hd] at htd
    cases htd

end Reachable

namespace Funded

variable {p : Pair} {f : Frame} {noisy : Bool} {env : Env} {e : Option Frame}

variable (h : p.Funded) (hp : p.Reachable)

include h hp

/-- The near channel is handed a frame that may have come from the far one. -/
lemma near_receive
    (hf : ∀ id m w, f = .openedMsg id true m w → w = channelWindow) {back seenBack : List Frame}
    (hupd : (updates p.back).sum ≤ (updates [f]).sum + (updates back).sum)
    (hpay : charges (payloads p.back) ≤ charges (payloads [f]) + charges (payloads back)) :
    ({ p with near := p.near.receive f, back := back, seenBack := seenBack, noisy := noisy } :
      Pair).Funded where
  before hfar hseen hcl ht := by
    have hlive := Channel.txLive_of_receive ht
    have := h.before hfar hseen hcl hlive
    exact Channel.receive_funded (fun _ => hf) hlive (by dsimp only; omega)
  out d hd ht htd := by
    have hlive := Channel.txLive_of_receive ht
    have := h.out d hd hlive htd
    exact Channel.receive_funded (fun _ => hf) hlive (by dsimp only; omega)
  back d hd ht htd := by
    have hlive := Channel.txLive_of_receive ht
    have hb := h.back d hd hlive htd
    have := ((p.near.receives f).owing hp.logged.1.1).2 hlive ht
    dsimp only
    omega

/-- The far channel is handed a frame that may have come from the near one. -/
lemma far_receive {out seen : List Frame} {grants : List ℕ}
    (hseen : seen = [] → p.seen = [] ∧ out = p.out)
    (hpay : charges (payloads p.out) ≤ charges (payloads [f]) + charges (payloads out))
    (hgr : p.grants.sum ≤ (updates [f]).sum + grants.sum) : ({ p with
      far := p.far.map fun d => d.receive f
      out := out, seen := seen, grants := grants, noisy := noisy } : Pair).Funded where
  before hfar hs hcl ht := by
    obtain ⟨hs, ho⟩ := hseen hs
    rw [ho]
    exact h.before (by simpa using hfar) hs hcl ht
  out d' hd' ht htd := by
    obtain ⟨d, hd, rfl⟩ := Option.map_eq_some_iff.mp hd'
    have hlive := Channel.txLive_of_receive htd
    have := h.out d hd ht hlive
    have := ((d.receives f).owing (hp.logged.2 d hd).1).2 hlive htd
    dsimp only
    omega
  back d' hd' ht htd := by
    obtain ⟨d, hd, rfl⟩ := Option.map_eq_some_iff.mp hd'
    have hlive := Channel.txLive_of_receive htd
    have := h.back d hd ht hlive
    have hside : d.side ≠ .controller := by simp [hp.side.2 d hd]
    exact Channel.receive_funded_full (fun hs => (hside hs).elim) hlive (by dsimp only; omega)

lemma near_task {c : Channel} (hr : Channel.Rule env p.near c e) (hc : env.closed = p.nearClosed) :
    ({ p with
      near := c, out := p.out ++ ordered e.toList, grants := p.grants ++ updates e.toList } :
      Pair).Funded := by
  have hsame := hr.sameEntry
  have hbase : c.base = p.near.base := by simp only [Channel.base, hsame.opened]
  have hle := p.near.base_le
  refine ⟨fun hfar hseen hcl ht => ?_, fun d hd ht htd => ?_, fun d hd ht htd => ?_⟩
  · have := h.before hfar hseen hcl (hsame.txLive ▸ ht)
    have := hr.le_rights hp.paced.1 (hc.trans hcl)
    simp only [payloads_append, payloads_ordered, charges_append]
    omega
  · have hlive : p.near.rx.txLive = true := hsame.txLive ▸ ht
    have hcl := (hp.loops_open hd hlive htd).1
    have := h.out d hd hlive htd
    have := hr.le_rights hp.paced.1 (hc.trans hcl)
    simp only [payloads_append, payloads_ordered, charges_append]
    omega
  · have hlive : p.near.rx.txLive = true := hsame.txLive ▸ ht
    have hcl := (hp.loops_open hd hlive htd).1
    have := h.back d hd hlive htd
    have := hr.owing_eq hp.logged.1.1 (hc.trans hcl)
    simp only [List.sum_append]
    omega

lemma far_task {d d' : Channel} (hd : p.far = some d)
    (hr : Channel.Rule env d d' e) (hc : env.closed = p.farClosed) :
    ({ p with far := some d', back := p.back ++ e.toList } : Pair).Funded := by
  have hsame := hr.sameEntry
  refine ⟨by simp, fun d'' hd'' ht htd => ?_, fun d'' hd'' ht htd => ?_⟩
  · cases hd''
    have hlive : d.rx.txLive = true := hsame.txLive ▸ htd
    have hcl := (hp.loops_open hd ht hlive).2
    have := h.out d hd ht hlive
    have := hr.owing_eq (hp.logged.2 d hd).1 (hc.trans hcl)
    simp only [updates_append, List.sum_append]
    omega
  · cases hd''
    have hlive : d.rx.txLive = true := hsame.txLive ▸ htd
    have hcl := (hp.loops_open hd ht hlive).2
    have := h.back d hd ht hlive
    have := hr.le_rights (hp.paced.2 d hd) (hc.trans hcl)
    have : maxSendCredit = channelWindow := rfl
    simp only [payloads_append, charges_append]
    omega

/-- The `open` arrives and the far channel starts with the whole window. -/
lemma accept {id : ChannelId} {host : String} {port : ℤ}
    {window : ℕ} {rest : List Frame} (u : String) (hf : f = .openMsg id host port window)
    (ho : p.out = f :: rest) :
    ({ p with far := some (.controlled id window u), out := rest, seen := p.seen ++ [f] } :
      Pair).Funded := by
  obtain ⟨hseen, hfar, _, host', port', hopen⟩ := hp.head_open (by rw [hf]; rfl) ho
  have hwindow : window = channelWindow := by
    rw [hf] at hopen
    cases hopen
    rfl
  refine ⟨by simp, fun d hd ht htd => ?_, fun d hd ht htd => ?_⟩
  · have hcl : p.nearClosed = false := by
      by_contra hcl
      rw [(hp.near_shut (by simpa using hcl) ht).2] at ho
      cases ho
    have hle := h.before hfar hseen hcl ht
    rw [ho, hf] at hle
    have hpay : payloads (.openMsg id host port window :: rest) = payloads rest := rfl
    rw [hpay] at hle
    dsimp only
    omega
  · cases hd
    rw [hwindow, Channel.controlled_rights]
    omega

end Funded

lemma Reachable.funded {p : Pair} (hp : p.Reachable) : p.Funded := by
  induction hp with
  | new id host port prebuf nearClosed farClosed =>
    refine ⟨fun _ _ _ _ => ?_, by simp [Pair.new], by simp [Pair.new]⟩
    simp only [Pair.new, Channel.controller_rights]
    exact Nat.le_add_right _ _
  | @step p p' hp h ih =>
    cases h with
    | nearTask hr hc => exact ih.near_task hp hr hc
    | nearFinishAdd hf =>
      obtain ⟨_, rfl⟩ := Channel.finishAdd_eq_some hf
      exact ⟨ih.before, ih.out, ih.back⟩
    | nearDrop => exact ⟨by simp [Channel.dropEntry, Receiver.dropEntry],
        by simp [Channel.dropEntry, Receiver.dropEntry],
        by simp [Channel.dropEntry, Receiver.dropEntry]⟩
    | nearShut ho hg hl =>
      refine ⟨by simp, fun d hd ht _ => ?_, fun d hd ht _ => ?_⟩ <;>
      · rw [(hl ht).1] at hd
        cases hd
    | farTask hd hr hc => exact ih.far_task hp hd hr hc
    | @farFinishAdd d d' hd hf =>
      obtain ⟨_, rfl⟩ := Channel.finishAdd_eq_some hf
      refine ⟨by simp, fun d'' hd'' => ?_, fun d'' hd'' => ?_⟩
      · cases hd''
        exact ih.out d hd
      · cases hd''
        exact ih.back d hd
    | farDrop hd => exact ⟨by simp, by simp [Channel.dropEntry, Receiver.dropEntry],
        by simp [Channel.dropEntry, Receiver.dropEntry]⟩
    | farShut hb hl =>
      refine ⟨ih.before, fun d hd _ htd => ?_, fun d hd _ htd => ?_⟩ <;>
      · rw [hl d hd] at htd
        cases htd
    | accept u hf ho hc => exact ih.accept hp u hf ho
    | refuse hf ho | ignore hf ho =>
      have hfar := (hp.head_open hf ho).2.1
      exact ⟨by simp, by simp [hfar], by simp [hfar]⟩
    | @recv f rest hf ho =>
      refine ih.far_receive hp (by simp) ?_ (by simp)
      rw [ho, charges_payloads_cons]
    | @recvGrant n rest id hg =>
      refine ih.far_receive hp (fun hs => ⟨hs, rfl⟩) (by simp [payloads, Frame.payload?]) ?_
      simp [hg, updates, Frame.update?]
    | @recvBack f rest hb =>
      refine ih.near_receive hp (hp.opened_window (by simp [hb])) ?_ ?_
      · rw [hb, updates_cons, List.sum_append]
      · rw [hb, charges_payloads_cons]
    | reply id message =>
      exact ih.near_receive hp (f := .openedMsg id false message 0) (by simp) (by simp) (by simp)
    | noise hf => exact ih.far_receive hp (fun hs => ⟨hs, rfl⟩) (by simp) (by simp)
    | noiseBack hf => exact ih.near_receive hp hf (by simp) (by simp)

end Pair

/-! ### The upper half -/

lemma charges_prefix_le {as bs : List Bytes} (h : as <+: bs) : charges as ≤ charges bs := by
  obtain ⟨cs, rfl⟩ := h
  rw [charges_append]
  exact Nat.le_add_right _ _

lemma isPrefix_payloads (h : fs <+: gs) : payloads fs <+: payloads gs := by
  obtain ⟨hs, rfl⟩ := h
  rw [payloads_append]
  exact List.prefix_append _ _

lemma updates_prefix_le (h : fs <+: gs) : (updates fs).sum ≤ (updates gs).sum := by
  obtain ⟨hs, rfl⟩ := h
  rw [updates_append, List.sum_append]
  exact Nat.le_add_right _ _

lemma sum_prefix_le {l l' : List ℕ} (h : l <+: l') : l.sum ≤ l'.sum := by
  obtain ⟨_, rfl⟩ := h
  rw [List.sum_append]
  exact Nat.le_add_right _ _

namespace Channel

variable {c c' : Channel}

/-- Only the controller's entry has the flag that `opened` sets. -/
lemma Receives.opened_eq {f : Frame} (h : c.Receives f c') :
    c'.opened = c.opened ∨ (c.side = .controller ∧ ∃ id m w, f = .openedMsg id true m w) := by
  cases h with
  | @data id b ht heq =>
    left
    rcases c.onData_cases b with ⟨_, _, heq⟩ | ⟨_, _, heq⟩ | ⟨_, heq⟩ <;> rw [heq]
  | @opened id m w ht hs ho heq => exact Or.inr ⟨hs, id, m, w, heq⟩
  | _ => exact Or.inl rfl

/-- What a frame does to the rights of a sender that has had the whole window from the start. -/
lemma receive_rights_le (hs : c.side = .controlled) (f : Frame) :
    (c.receive f).tx.rights ≤ c.tx.rights + (updates [f]).sum := by
  have hle := ((c.receives f).rights (by simp [hs])).1
  have hbase : (c.receive f).base = c.base := by
    rcases (c.receives f).opened_eq with heq | ⟨hside, _⟩
    · simp only [base, heq]
    · rw [hs] at hside
      cases hside
  omega

lemma Rule.owing_le {env : Env} {e : Option Frame} (h : Rule env c c' e) (hw : c.Windowed) :
    c'.rx.owing + (updates e.toList).sum ≤ c.rx.owing := by
  rcases h.owing_cases hw with heq | ⟨rfl, hle, _⟩
  · exact heq.le
  · simpa using hle

end Channel

namespace Pair

variable {p : Pair}

def farOwing (p : Pair) : ℕ := p.far.elim 0 fun d => d.rx.owing

/-- No credit is ever created: neither side has more than its peer has granted. -/
structure Balanced (p : Pair) : Prop where
  out : p.near.tx.rights + charges (payloads p.out) + p.farOwing + (updates p.back).sum ≤
    p.near.base
  back : ∀ d ∈ p.far,
    d.tx.rights + charges (payloads p.back) + p.near.rx.owing + p.grants.sum ≤ channelWindow
  absent : p.far = none → p.near.rx.owing + p.grants.sum = 0

namespace Balanced

variable {env : Env} {e : Option Frame} {out back rest : List Frame} {grants : List ℕ}
  {d d' : Channel} {f : Frame} (h : p.Balanced)

include h

lemma near_task (hp : p.Reachable) {c : Channel} (hr : Channel.Rule env p.near c e) : ({ p with
      near := c, out := p.out ++ ordered e.toList, grants := p.grants ++ updates e.toList } :
      Pair).Balanced := by
  have hbase : c.base = p.near.base := by simp only [Channel.base, hr.sameEntry.opened]
  have hrights := hr.rights_le hp.paced.1
  have howing := hr.owing_le hp.logged.1.1
  refine ⟨?_, fun d hd => ?_, fun hfar => ?_⟩
  · have := h.out
    simp only [farOwing, payloads_append, payloads_ordered, charges_append] at this ⊢
    omega
  · have := h.back d hd
    simp only [List.sum_append]
    omega
  · have := h.absent hfar
    simp only [List.sum_append]
    omega

lemma near_shut (ho : out <+: p.out) (hg : grants <+: p.grants) :
    ({ p with out := out, grants := grants, nearClosed := true } : Pair).Balanced := by
  have hout := charges_prefix_le (isPrefix_payloads ho)
  have hgr := sum_prefix_le hg
  refine ⟨?_, fun d hd => ?_, fun hfar => ?_⟩
  · have := h.out
    simp only [farOwing] at this ⊢
    omega
  · have := h.back d hd
    dsimp only
    omega
  · have := h.absent hfar
    dsimp only
    omega

lemma far_shut (hb : back <+: p.back) :
    ({ p with back := back, farClosed := true } : Pair).Balanced := by
  have hpay := charges_prefix_le (isPrefix_payloads hb)
  have hupd := updates_prefix_le hb
  refine ⟨?_, fun d hd => ?_, h.absent⟩
  · have := h.out
    simp only [farOwing] at this ⊢
    omega
  · have := h.back d hd
    dsimp only
    omega

lemma far_task (hp : p.Reachable) (hd : p.far = some d) (hr : Channel.Rule env d d' e) :
    ({ p with far := some d', back := p.back ++ e.toList } : Pair).Balanced := by
  have hrights := hr.rights_le (hp.paced.2 d hd)
  have howing := hr.owing_le (hp.logged.2 d hd).1
  refine ⟨?_, fun d'' hd'' => ?_, by simp⟩
  · have := h.out
    simp only [farOwing, hd, Option.elim_some, updates_append, List.sum_append] at this ⊢
    omega
  · cases hd''
    have := h.back d hd
    simp only [payloads_append, charges_append]
    omega

/-- A change of the far channel that leaves the account alone. -/
lemma far_same (hd : p.far = some d) (hrights : d'.tx.rights = d.tx.rights)
    (howing : d'.rx.owing = d.rx.owing) : ({ p with far := some d' } : Pair).Balanced := by
  refine ⟨?_, fun d'' hd'' => ?_, by simp⟩
  · have := h.out
    simp only [farOwing, hd, Option.elim_some] at this ⊢
    omega
  · cases hd''
    have := h.back d hd
    dsimp only
    omega

lemma accept (hp : p.Reachable) {id : ChannelId} {host : String} {port : ℤ}
    {window : ℕ} (u : String) (hf : f = .openMsg id host port window) (ho : p.out = f :: rest) :
    ({ p with far := some (.controlled id window u), out := rest, seen := p.seen ++ [f] } :
      Pair).Balanced := by
  obtain ⟨_, hfar, _, host', port', hopen⟩ := hp.head_open (by rw [hf]; rfl) ho
  have hwindow : window = channelWindow := by
    rw [hf] at hopen
    cases hopen
    rfl
  have hback := (hp.back_log.2 hfar).2
  refine ⟨?_, fun d hd => ?_, by simp⟩
  · have hout := h.out
    have hpay : payloads p.out = payloads rest := by
      rw [ho, hf]
      rfl
    have howing : (Channel.controlled id window u).rx.owing = 0 := rfl
    rw [hpay] at hout
    simp only [farOwing, hfar, Option.elim_none, Option.elim_some] at hout ⊢
    omega
  · cases hd
    have := h.absent hfar
    simp only [hback, payloads_nil, charges_nil, hwindow, Channel.controlled_rights]
    omega

lemma unopened {refused : Bool} (ho : p.out = f :: rest) :
    ({ p with out := rest, seen := p.seen ++ [f], refused := refused } : Pair).Balanced := by
  refine ⟨?_, h.back, h.absent⟩
  have hout := h.out
  rw [ho, charges_payloads_cons] at hout
  simp only [farOwing] at hout ⊢
  omega

lemma far_receive (hp : p.Reachable) {seen : List Frame}
    (hpay : charges (payloads [f]) + charges (payloads out) ≤ charges (payloads p.out))
    (hgr : (updates [f]).sum + grants.sum ≤ p.grants.sum) : ({ p with
      far := p.far.map fun d => d.receive f, out := out, seen := seen, grants := grants } :
      Pair).Balanced := by
  refine ⟨?_, fun d' hd' => ?_, fun hfar => ?_⟩
  · have hout := h.out
    cases hfar : p.far with
    | none =>
      simp only [farOwing, hfar, Option.map_none, Option.elim_none] at hout ⊢
      omega
    | some d =>
      have := ((d.receives f).owing (hp.logged.2 d hfar).1).1
      simp only [farOwing, hfar, Option.map_some, Option.elim_some] at hout ⊢
      omega
  · obtain ⟨d, hd, rfl⟩ := Option.map_eq_some_iff.mp hd'
    have := h.back d hd
    have := d.receive_rights_le (hp.side.2 d hd) f
    dsimp only
    omega
  · have := h.absent (by simpa using hfar)
    dsimp only
    omega

lemma near_receive (hp : p.Reachable)
    (hf : ∀ id m w, f = .openedMsg id true m w → w = channelWindow) {seenBack : List Frame}
    {noisy : Bool} (hupd : (updates [f]).sum + (updates back).sum ≤ (updates p.back).sum)
    (hpay : charges (payloads [f]) + charges (payloads back) ≤ charges (payloads p.back)) :
    ({ p with near := p.near.receive f, back := back, seenBack := seenBack, noisy := noisy } :
      Pair).Balanced := by
  have howing := ((p.near.receives f).owing hp.logged.1.1).1
  have hrights := ((p.near.receives f).rights fun _ => hf).1
  refine ⟨?_, fun d hd => ?_, fun hfar => ?_⟩
  · have := h.out
    simp only [farOwing] at this ⊢
    omega
  · have := h.back d hd
    dsimp only
    omega
  · have hnil := (hp.back_log.2 hfar).2
    have := h.absent hfar
    simp only [hnil, payloads_nil, charges_nil] at hpay
    dsimp only
    omega

end Balanced

/-- The near channel emits its window updates on their own queue. -/
lemma Reachable.updates_out (hp : p.Reachable) : updates p.out = [] := by
  refine updates_of_data fun f hf => ?_
  have hmem := hp.out_log.1.subset (List.mem_append_right p.seen hf)
  simpa using (List.mem_filter.mp hmem).2

lemma Reachable.balanced (hp : p.Reachable) (hquiet : p.noisy = false) : p.Balanced := by
  induction hp with
  | new id host port prebuf nearClosed farClosed =>
    refine ⟨?_, by simp [Pair.new], fun _ => rfl⟩
    simp only [Pair.new, Channel.controller_rights]
    exact le_rfl
  | @step p p' hp h ih =>
    cases h with
    | nearTask hr hc => exact (ih hquiet).near_task hp hr
    | nearFinishAdd hf =>
      obtain ⟨_, rfl⟩ := Channel.finishAdd_eq_some hf
      exact ⟨(ih hquiet).out, (ih hquiet).back, (ih hquiet).absent⟩
    | nearDrop => exact ⟨(ih hquiet).out, (ih hquiet).back, (ih hquiet).absent⟩
    | nearShut ho hg hl => exact (ih hquiet).near_shut ho hg
    | farTask hd hr hc => exact (ih hquiet).far_task hp hd hr
    | farFinishAdd hd hf =>
      obtain ⟨_, rfl⟩ := Channel.finishAdd_eq_some hf
      exact (ih hquiet).far_same hd rfl rfl
    | farDrop hd => exact (ih hquiet).far_same hd rfl rfl
    | farShut hb hl => exact (ih hquiet).far_shut hb
    | accept u hf ho hc => exact (ih hquiet).accept hp u hf ho
    | refuse hf ho | ignore hf ho => exact (ih hquiet).unopened ho
    | @recv f rest hf ho =>
      have hupd := hp.updates_out
      rw [ho, updates_cons f rest, List.append_eq_nil_iff] at hupd
      refine (ih hquiet).far_receive hp ?_ (by simp [hupd.1])
      rw [ho]
      exact (charges_payloads_cons f rest).ge
    | @recvGrant n rest id hg =>
      have hpay : payloads [Frame.windowUpdateMsg id n] = [] := rfl
      have hupd : updates [Frame.windowUpdateMsg id n] = [n] := rfl
      refine (ih hquiet).far_receive hp (by simp [hpay]) ?_
      simp [hg, hupd]
    | @recvBack f rest hb =>
      refine (ih hquiet).near_receive hp (hp.opened_window (by simp [hb])) ?_ ?_
      · rw [hb, updates_cons f rest, List.sum_append]
      · rw [hb]
        exact (charges_payloads_cons f rest).ge
    | reply id message =>
      have hquiet : p.noisy = false := by simp_all
      have hpay : payloads [Frame.openedMsg id false message 0] = [] := rfl
      have hupd : updates [Frame.openedMsg id false message 0] = [] := rfl
      exact (ih hquiet).near_receive hp (f := .openedMsg id false message 0) (by simp)
        (by simp [hupd]) (by simp [hpay])
    | noise hf => cases hquiet
    | noiseBack hf => cases hquiet

end Pair

end RustDesk.PortForward
