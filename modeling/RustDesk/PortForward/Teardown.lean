import RustDesk.PortForward.Grammar

/-!
# Teardown

Once `close_all` has run and the receivers of the frame queues are gone, three signals together
end every task: the dropped senders of the inbound queues, the `teardown` watch and the closed
sinks. `Channel.rank` is a measure of what a task can still do; with the sinks closed every step
of the task lowers it, and no other step raises it, so it bounds the steps the task has left. Until
it has finished, the task has a step that waits for neither its socket nor the peer.
-/

namespace RustDesk.PortForward

variable {env : RelayEnv} {id : ChannelId} {s s' : Sender} {e : Option Frame} {r r' : Receiver}
  {c : Channel} {h : TunnelHandle} {t : String} {m : PortForwardMux}

/-! ### The measure -/

/-- The wake-ups a `Notify` still holds. -/
def Notify.rank (n : Notify) : ℕ :=
  (if n.permit then 1 else 0) + (if n.waiter = .notified then 1 else 0)

def SendCredit.rank (c : SendCredit) : ℕ := 3 * (c.notify.rank + c.adding)

def SenderPc.rank : SenderPc → ℕ
  | idle => 0
  | check => 15
  | poll => 14
  | parked => 13
  | reading _ => 12
  | refund _ _ => 11
  | notifying _ => 10
  | sending _ => 6
  | ended _ => 0

/-- A wake-up costs at most three more steps: back to `check`, `poll` and `parked`. -/
def Sender.rank (s : Sender) : ℕ := s.pc.rank + s.credit.rank

def ReceiverPc.rank : ReceiverPc → ℕ
  | idle => 0
  | next => 1
  | writing _ rest => 4 + rest.length
  | draining _ => 3
  | updating _ => 2
  | ended _ => 0

def Inbound.rank : Inbound → ℕ
  | data b => b.length + 6
  | _ => 1

/-- Every byte held is at most one write, and every chunk a few steps around it. -/
def Receiver.rank (r : Receiver) : ℕ :=
  r.pc.rank + (r.pending.map fun b => b.length + 5).sum + (r.inbound.map Inbound.rank).sum

def Phase.rank : Phase → ℕ
  | opening _ _ => 2
  | connecting true _ => 6
  | connecting false _ => 5
  | granting => 4
  | aborting | refusing _ | announcing => 3
  | selecting => 4
  | joining => 3
  | closing => 2
  | removing => 1
  | finished => 0

def Channel.rank (c : Channel) : ℕ := c.phase.rank + c.tx.rank + c.rx.rank

lemma Notify.rank_notifyOne (n : Notify) : n.notifyOne.rank ≤ n.rank + 1 := by
  obtain ⟨permit, waiter⟩ := n
  cases permit <;> cases waiter <;> decide

lemma Notify.rank_drop (n : Notify) : n.drop.rank ≤ n.rank := by
  obtain ⟨permit, waiter⟩ := n
  cases permit <;> cases waiter <;> decide

/-- With the sinks closed, every step of `relay_socket_to_tunnel` lowers its measure. -/
lemma Sender.Rule.rank_lt (h : Rule env id s s' e) (hc : env.closed = true) : s'.rank < s.rank := by
  cases h with
  | take hpc | short hpc | cancelCheck hpc | cancelReading hpc | refund hpc | gone hpc =>
    simp [rank, hpc, SenderPc.rank, SendCredit.rank, SendCredit.addLocked]
  | permit hpc hp =>
    simp only [rank, hpc, SenderPc.rank, SendCredit.rank, Notify.rank, hp, if_true]
    simp only [Bool.false_eq_true, if_false]
    omega
  | park hpc hp =>
    simp only [rank, hpc, SenderPc.rank, SendCredit.rank, Notify.rank]
    simp only [Bool.false_eq_true, if_false, reduceCtorEq]
    omega
  | wake hpc hw =>
    simp only [rank, hpc, SenderPc.rank, SendCredit.rank, Notify.rank, hw, if_true]
    simp only [reduceCtorEq, if_false]
    omega
  | cancelParked hpc =>
    have := s.credit.notify.rank_drop
    simp only [rank, hpc, SenderPc.rank, SendCredit.rank]
    omega
  | read hpc hr =>
    have hlt : ∀ allow got, (afterRead allow got).rank < 12 := by
      intro allow got
      by_cases hgot : got = []
      · rw [hgot, afterRead_nil]
        split_ifs <;> simp [SenderPc.rank]
      · rw [afterRead_of_ne hgot]
        split_ifs <;> simp [SenderPc.rank]
    rcases readInto_cases hr with ⟨_, _, rfl⟩ | ⟨_, _, rfl⟩ <;>
    · simp only [rank, hpc]
      exact Nat.add_lt_add_right (hlt _ _) _
  | notify hpc =>
    rename_i after
    have := s.credit.notify.rank_notifyOne
    cases after <;>
    · simp only [rank, hpc, After.pc, SenderPc.rank, SendCredit.rank, SendCredit.notifyOne]
      omega
  | send hpc hopen =>
    rw [hc] at hopen
    cases hopen

lemma Receiver.Rule.rank_lt (h : Rule env id r r' e) (hc : env.closed = true) :
    r'.rank < r.rank := by
  cases h with
  | popPending hpc hp =>
    simp only [rank, hpc, hp, ReceiverPc.rank, List.map_cons, List.sum_cons]
    omega
  | recvData hpc hp hq =>
    simp only [rank, hpc, hq, ReceiverPc.rank, List.map_cons, List.sum_cons, Inbound.rank]
    omega
  | recvClose hpc | recvViolation hpc | recvGone hpc | cancelNext hpc | cancelWriting hpc
  | fail hpc | gone hpc =>
    simp only [rank, finish, close, hpc, ReceiverPc.rank, List.map_nil, List.sum_nil]
    omega
  | write hpc hpos hn =>
    simp only [rank, hpc, ReceiverPc.rank, List.length_drop]
    omega
  | wrote hpc | drain hpc | drainUpdate hpc =>
    simp only [rank, hpc, ReceiverPc.rank]
    omega
  | update hpc hopen =>
    rw [hc] at hopen
    cases hopen

lemma Receiver.rank_close (r : Receiver) : r.close.rank ≤ r.rank := by
  simp only [rank, close, List.map_nil, List.sum_nil]
  omega

lemma Receiver.rank_grant (r : Receiver) (n : ℕ) : (r.grant n).rank = r.rank := (rfl)

namespace Channel

variable {c' : Channel}

lemma rank_finish (c : Channel) : c.finish.rank + c.phase.rank ≤ c.rank := by
  have := c.rx.rank_close
  simp only [rank, finish, Phase.rank]
  omega

lemma rank_afterRun (c : Channel) : c.afterRun.rank + c.phase.rank ≤ c.rank + 1 := by
  unfold afterRun
  split
  · simp only [rank, Phase.rank]
    omega
  · have := c.rank_finish
    omega

/-- With the sinks closed, every step of a channel's task lowers its measure, as long as a task
that is still connecting has lost its entry. -/
lemma Rule.rank_lt {env : Env} (h : Rule env c c' e) (hc : env.closed = true)
    (hcon : (∃ p u, c.phase = .connecting p u) → c.rx.txLive = false) : c'.rank < c.rank := by
  cases h with
  | sendOpen hp hopen | abort hp hopen | refuse hp hopen | announce hp hopen | close hp hopen =>
    rw [hc] at hopen
    cases hopen
  | cmdNone hp hq ht =>
    rw [hcon ⟨_, _, hp⟩] at ht
    cases ht
  | openGone hp | connectPending hp | connected hp | connectFailed hp | select hp
  | joinClose hp =>
    simp only [rank, hp, Phase.rank]
    omega
  | grant hp =>
    simp only [rank, hp, Phase.rank, Receiver.rank_grant]
    omega
  | buffer hp hq hf =>
    simp only [rank, Receiver.rank, hq, List.map_cons, List.map_append, List.sum_cons,
      List.sum_append, List.map_nil, List.sum_nil, Inbound.rank]
    omega
  | overflow hp hq | cmdViolation hp hq =>
    simp only [rank, Receiver.rank, hp, hq, Phase.rank, List.map_cons, List.sum_cons]
    omega
  | cmdClose hp | cmdGone hp | remove hp =>
    have := c.rank_finish
    simp only [hp, Phase.rank] at this
    omega
  | sinkGone hp =>
    have := c.rank_finish
    rcases hp with hp | ⟨m, hp⟩ | hp <;>
    · simp only [hp, Phase.rank] at this
      omega
  | sender hp hs | receiver hp hs =>
    have := hs.rank_lt hc
    simp only [rank]
    omega
  | join hp | closeGone hp =>
    have := c.rank_afterRun
    simp only [hp, Phase.rank] at this
    omega

/-- A `notify_one` hands on a wake-up that was counted already. -/
lemma rank_finishAdd (h : c.finishAdd = some c') : c'.rank ≤ c.rank := by
  obtain ⟨ha, rfl⟩ := finishAdd_eq_some h
  have := c.tx.credit.notify.rank_notifyOne
  simp only [rank, Sender.rank, SendCredit.rank]
  omega

end Channel

/-! ### Progress -/

/-- The steps that wait for the channel's own socket. -/
def Act.usesSocket : Act → Bool
  | connected _ => true
  | sender (.read _) => true
  | receiver (.write _) => true
  | receiver .fail => true
  | _ => false

lemma Sender.Rule.pc_ne_idle (h : Rule env id s s' e) : s'.pc ≠ .idle := by
  cases h with
  | read hpc hr =>
    have hne : ∀ allow got, afterRead allow got ≠ .idle := by
      intro allow got
      by_cases hgot : got = []
      · rw [hgot, afterRead_nil]
        split_ifs <;> simp
      · rw [afterRead_of_ne hgot]
        split_ifs <;> simp
    rcases readInto_cases hr with ⟨_, _, rfl⟩ | ⟨_, _, rfl⟩ <;> exact hne _ _
  | notify hpc =>
    rename_i after
    cases after <;> simp [After.pc]
  | _ => simp

lemma Receiver.Rule.pc_ne_idle (h : Rule env id r r' e) : r'.pc ≠ .idle := by
  cases h <;> simp [finish]

namespace Channel

/-- While the relays run they are past their start, and a task that joins them has raised
`cancel`. -/
structure Joins (c : Channel) : Prop where
  tx : c.phase.relaying = true → c.tx.pc ≠ .idle
  rx : c.phase.relaying = true → c.rx.pc ≠ .idle
  cancel : c.phase = .joining → c.cancel = true

namespace Joins

variable {c' : Channel}

lemma of_not_relaying (hp : c.phase.relaying = false) : c.Joins where
  tx hr := by simp [hp] at hr
  rx hr := by simp [hp] at hr
  cancel hj := by simp [hj, Phase.relaying] at hp

lemma rule {env : Env} (h : c.Joins) (hr : Rule env c c' e) : c'.Joins := by
  cases hr with
  | sendOpen | announce => exact ⟨by simp [start], by simp [start], by simp [start]⟩
  | sender hp hs => exact ⟨fun _ => hs.pc_ne_idle, h.rx, h.cancel⟩
  | receiver hp hs => exact ⟨h.tx, fun _ => hs.pc_ne_idle, h.cancel⟩
  | select hp hs =>
    have hrel : c.phase.relaying = true := by simp [hp, Phase.relaying]
    exact ⟨fun _ => h.tx hrel, fun _ => h.rx hrel, fun _ => rfl⟩
  | join | closeGone | close =>
    refine of_not_relaying ?_
    unfold afterRun
    cases c.side <;> rfl
  | buffer hp => exact of_not_relaying (by simp [hp, Phase.relaying])
  | _ => exact of_not_relaying rfl

lemma moves {env : Env} (h : c.Joins) (hm : Moves env c c' e) : c'.Joins := by
  rcases hm.task_or_same with hr | ⟨hs, _⟩
  · exact h.rule hr
  · obtain ⟨-, -, hphase, hcancel, -, ⟨credit, htx⟩, hpc, -⟩ := hs
    refine ⟨?_, ?_, ?_⟩
    · rw [hphase, htx]
      exact h.tx
    · rw [hphase, hpc]
      exact h.rx
    · rw [hphase, hcancel]
      exact h.cancel

end Joins

lemma controller_joins (id : ChannelId) (host : String) (port : ℤ) (prebuf : Bytes) :
    (controller id host port prebuf).Joins := .of_not_relaying rfl

lemma controlled_joins (id : ChannelId) (window : ℕ) (u : String) :
    (controlled id window u).Joins := .of_not_relaying rfl

end Channel

/-- A cancelled relay with its sink closed is never stuck on its socket or on the peer. -/
lemma Sender.cancel_step (env : RelayEnv) (id : ChannelId) (hc : env.closed = true)
    (hcancel : env.cancel = true) (hidle : s.pc ≠ .idle) (hend : ∀ e, s.pc ≠ .ended e) :
    ∃ a, (Act.sender a).usesSocket = false ∧ (s.step env id a).isSome = true := by
  cases hpc : s.pc with
  | idle => exact (hidle hpc).elim
  | check | parked | reading => exact ⟨.cancel, rfl, by simp [step, hpc, hcancel]⟩
  | poll => exact ⟨.poll, rfl, by simp [step, hpc]⟩
  | refund => exact ⟨.refund, rfl, by simp [step, hpc]⟩
  | notifying => exact ⟨.notify, rfl, by simp [step, hpc]⟩
  | sending => exact ⟨.send, rfl, by simp [step, hpc, hc]⟩
  | ended e => exact (hend e hpc).elim

lemma Receiver.cancel_step (env : RelayEnv) (id : ChannelId) (hc : env.closed = true)
    (hcancel : env.cancel = true) (hidle : r.pc ≠ .idle) (hend : ∀ e, r.pc ≠ .ended e) :
    ∃ a, (Act.receiver a).usesSocket = false ∧ (r.step env id a).isSome = true := by
  cases hpc : r.pc with
  | idle => exact (hidle hpc).elim
  | next =>
    -- what was buffered is popped before `cancel` is looked at
    cases hp : r.pending with
    | nil => exact ⟨.cancel, rfl, by simp [step, hpc, hcancel, hp]⟩
    | cons chunk rest => exact ⟨.next, rfl, by simp [step, hpc, hp]⟩
  | writing => exact ⟨.cancel, rfl, by simp [step, hpc, hcancel]⟩
  | draining => exact ⟨.drain, rfl, by simp [step, hpc]⟩
  | updating => exact ⟨.update, rfl, by simp [step, hpc, hc]⟩
  | ended e => exact (hend e hpc).elim

/-- An unfinished task always has a step that waits for neither its socket nor the peer. -/
lemma Channel.Joins.progress (h : c.Joins) (env : Env) (hc : env.closed = true)
    (ht : env.teardown = true) (hf : c.phase ≠ .finished) :
    ∃ a : Act, a.usesSocket = false ∧ (c.step env a).isSome = true := by
  cases hp : c.phase with
  | opening => exact ⟨.sendOpen, rfl, by simp [step, hp, hc]⟩
  | connecting polled u =>
    cases polled with
    | true => exact ⟨.connectPending, rfl, by simp [step, hp]⟩
    | false =>
      refine ⟨.recvCmd, rfl, ?_⟩
      simp only [step, hp]
      split
      · split_ifs <;> rfl
      · rfl
      · rfl
      · split_ifs <;> rfl
  | aborting => exact ⟨.abort, rfl, by simp [step, hp, hc]⟩
  | refusing => exact ⟨.refuse, rfl, by simp [step, hp, hc]⟩
  | granting => exact ⟨.grant, rfl, by simp [step, hp]⟩
  | announcing => exact ⟨.announce, rfl, by simp [step, hp, hc]⟩
  | selecting => exact ⟨.selectTeardown, rfl, by simp [step, hp, ht]⟩
  | joining =>
    have hrel : c.phase.relaying = true := by simp [hp, Phase.relaying]
    have hcancel : (c.relayEnv env).cancel = true := h.cancel hp
    by_cases htx : ∃ e, c.tx.pc = .ended e
    · by_cases hrx : ∃ e, c.rx.pc = .ended e
      · obtain ⟨first, htx⟩ := htx
        obtain ⟨second, hrx⟩ := hrx
        exact ⟨.join, rfl, by simp [step, hp, htx, hrx]⟩
      · obtain ⟨a, ha, hs⟩ := Receiver.cancel_step (c.relayEnv env) c.id hc hcancel
          (h.rx hrel) (fun e he => hrx ⟨e, he⟩)
        exact ⟨.receiver a, ha, by simp [step, hp, hs]⟩
    · obtain ⟨a, ha, hs⟩ := Sender.cancel_step (c.relayEnv env) c.id hc hcancel
        (h.tx hrel) (fun e he => htx ⟨e, he⟩)
      exact ⟨.sender a, ha, by simp [step, hp, hs]⟩
  | closing => exact ⟨.close, rfl, by simp [step, hp, hc]⟩
  | removing => exact ⟨.remove, rfl, by simp [step, hp]⟩
  | finished => exact (hf hp).elim

lemma Channel.rank_pos (hf : c.phase ≠ .finished) : 0 < c.rank := by
  have : 0 < c.phase.rank := by
    cases hp : c.phase with
    | connecting polled u => cases polled <;> simp [Phase.rank]
    | finished => exact (hf hp).elim
    | _ => simp [Phase.rank]
  unfold rank
  omega

/-! ### The endpoints -/

def HandleAct.isTask (i : ℕ) : HandleAct → Bool
  | task j _ => j = i
  | _ => false

def MuxAct.isTask (i : ℕ) : MuxAct → Bool
  | task j _ => j = i
  | _ => false

/-- A channel stays at its place, its measure does not rise, and falls if the step is its own. -/
def Lowers (l l' : List Channel) (i : ℕ) (own : Bool) : Prop :=
  ∀ c, l[i]? = some c →
    ∃ c' : Channel, l'[i]? = some c' ∧ c'.rank ≤ c.rank ∧ (own = true → c'.rank < c.rank)

namespace Lowers

variable {l : List Channel} {i j : ℕ} {c' : Channel}

lemma refl : Lowers l l i false := fun c hc => ⟨c, hc, le_rfl, by simp⟩

lemma append (c : Channel) : Lowers l (l ++ [c]) i false := by
  intro d hd
  have hi := (List.getElem?_eq_some_iff.mp hd).1
  exact ⟨d, by rwa [List.getElem?_append_left hi], le_rfl, by simp⟩

/-- A change of one channel that does not raise its measure. -/
lemma set (hc : l[j]? = some c) (hle : c'.rank ≤ c.rank) : Lowers l (l.set j c') i false := by
  intro d hd
  by_cases hij : j = i
  · subst hij
    rw [hc] at hd
    cases hd
    have hj := (List.getElem?_eq_some_iff.mp hc).1
    exact ⟨c', by simp [hj], hle, by simp⟩
  · exact ⟨d, by rwa [List.getElem?_set_ne hij], le_rfl, by simp⟩

lemma task (hc : l[j]? = some c) (hlt : c'.rank < c.rank) : Lowers l (l.set j c') i (j = i) := by
  intro d hd
  obtain ⟨d', hd', hle, _⟩ := set (i := i) hc hlt.le d hd
  refine ⟨d', hd', hle, fun hji => ?_⟩
  have hji : j = i := by simpa using hji
  subst hji
  have hj := (List.getElem?_eq_some_iff.mp hc).1
  rw [hc] at hd
  simp only [List.getElem?_set_self hj, Option.some.injEq] at hd'
  cases hd
  exact hd' ▸ hlt

lemma withEntry {l' : List Channel} {own : Bool} (h : Lowers l l' i own) (id : ChannelId) :
    Lowers l (PortForward.withEntry l' id Channel.dropEntry) i own := by
  intro c hc
  obtain ⟨c', hc', hle, hlt⟩ := h c hc
  rw [getElem?_withEntry, hc']
  split_ifs
  · exact ⟨c'.dropEntry, rfl, hle, hlt⟩
  · exact ⟨c', rfl, hle, hlt⟩

end Lowers

/-- The measure bounds the steps a channel's task takes along a run. -/
lemma run_lowers {σ α : Type*} {M : LTS σ α} (chans : σ → List Channel) {own : α → Bool}
    {P : σ → Prop} {i : ℕ}
    (hstep : ∀ s a s', P s → M.step s a = some s' → P s' ∧ Lowers (chans s) (chans s') i (own a))
    {as : List α} {s s' : σ} (hrun : M.run s as = some s') (hs : P s)
    (hc : (chans s)[i]? = some c) :
    P s' ∧ ∃ c', (chans s')[i]? = some c' ∧ as.countP own + c'.rank ≤ c.rank := by
  let μ (s : σ) : ℕ := ((chans s)[i]?.map Channel.rank).getD 0
  let Q (s : σ) : Prop := P s ∧ ∃ c, (chans s)[i]? = some c
  have hμ {s : σ} {c : Channel} (hc : (chans s)[i]? = some c) : μ s = c.rank := by simp [μ, hc]
  have hQ : ∀ s a s', Q s → M.step s a = some s' → Q s' := by
    rintro s a s' ⟨hs, c, hc⟩ hst
    obtain ⟨hs', hl⟩ := hstep s a s' hs hst
    obtain ⟨c', hc', _⟩ := hl c hc
    exact ⟨hs', c', hc'⟩
  have hmono : ∀ s a s', Q s → M.step s a = some s' → μ s' ≤ μ s := by
    rintro s a s' ⟨hs, c, hc⟩ hst
    obtain ⟨c', hc', hle, _⟩ := (hstep s a s' hs hst).2 c hc
    rwa [hμ hc, hμ hc']
  have hdec : ∀ s a s', Q s → own a → M.step s a = some s' → μ s' < μ s := by
    rintro s a s' ⟨hs, c, hc⟩ ha hst
    obtain ⟨c', hc', _, hlt⟩ := (hstep s a s' hs hst).2 c hc
    rw [hμ hc, hμ hc']
    exact hlt ha
  obtain ⟨hs', c', hc'⟩ := LTS.run_invariant hQ hrun ⟨hs, c, hc⟩
  have hle := LTS.run_countP_le μ hQ hdec hmono hrun ⟨hs, c, hc⟩
  rw [hμ hc, hμ hc'] at hle
  exact ⟨hs', c', hc', hle⟩

lemma handleLts_joins (hr : handleLts.Reachable h) : ∀ c ∈ h.chans, c.Joins :=
  handleLts_forall (fun _ _ _ _ hc hm => hc.moves hm) Channel.controller_joins hr

lemma muxLts_joins (hr : (muxLts t).Reachable m) : ∀ c ∈ m.chans, c.Joins :=
  muxLts_forall (fun _ _ _ _ hc hm => hc.moves hm) Channel.controlled_joins hr

/-- The connect loop belongs to the controlled side. -/
lemma handleLts_not_connecting (hr : handleLts.Reachable h) :
    ∀ c ∈ h.chans, ¬∃ p u, c.phase = .connecting p u := by
  rintro c hc ⟨p, u, hp⟩
  have hside := (handleLts_logged hr c hc).2.connecting (by simp [hp, Phase.early]) (by simp [hp])
  rw [handleLts_side hr c hc] at hside
  cases hside

/-- No frame is handled after the controlled side's `clear`, so no entry comes back. -/
lemma muxLts_cleared (hr : (muxLts t).Reachable m) :
    m.loop ≠ .running → ∀ c ∈ m.chans, c.rx.txLive = false := by
  refine hr.invariant
    (P := fun m => m.loop ≠ .running → ∀ c ∈ m.chans, c.rx.txLive = false) ?_ ?_
  · rintro _ rfl hl
    simp [PortForwardMux.new] at hl
  · intro m a m' _ ih hs hl
    obtain ⟨out, hrule⟩ := muxLts_rule hs
    cases hrule with
    | task hc hr =>
      rename_i c _ _
      have hm : m.loop ≠ .running := by simpa using hl
      rw [PortForwardMux.enqueue_chans]
      intro d hd
      rcases List.mem_or_eq_of_mem_set hd with hd | hd
      · exact ih hm d hd
      · rw [hd, hr.sameEntry.txLive]
        exact ih hm c (List.mem_of_getElem? hc)
    | finishAdd hc hf =>
      rename_i c _
      obtain ⟨_, rfl⟩ := Channel.finishAdd_eq_some hf
      intro d hd
      rcases List.mem_or_eq_of_mem_set hd with hd | hd
      · exact ih hl d hd
      · rw [hd]
        exact ih hl c (List.mem_of_getElem? hc)
    | frame hrun => exact (hl (by simpa using hrun)).elim
    | write hrun => exact (hl hrun).elim
    | clear hrun =>
      intro d hd
      obtain ⟨c, _, rfl⟩ := List.mem_map.mp hd
      rfl
    | signal hrun | drop hrun => exact ih (by simp [hrun])

/-- Once the queues' receivers are gone, the controller's channels only wind down. -/
lemma handleLts_lowers {h' : TunnelHandle} {a : HandleAct} (hr : handleLts.Reachable h)
    (hd : h.loop = .dropped) (hs : handleLts.step h a = some h') (i : ℕ) :
    h'.loop = .dropped ∧ Lowers h.chans h'.chans i (a.isTask i) := by
  have hlt {c c' : Channel} {e : Option Frame} (hc : c ∈ h.chans)
      (hrule : Channel.Rule h.env c c' e) : c'.rank < c.rank :=
    hrule.rank_lt (by simp [TunnelHandle.env, hd])
      (fun hcon => (handleLts_not_connecting hr c hc hcon).elim)
  obtain ⟨out, hrule⟩ := handleLts_rule hs
  cases hrule with
  | beginOpen hl => exact (hl hd).elim
  | insert hc =>
    rename_i call rest
    refine ⟨by simpa using hd, ?_⟩
    unfold TunnelHandle.insert
    split_ifs
    · exact .refl
    · exact .append _
  | task hc hrule =>
    refine ⟨by simpa using hd, ?_⟩
    rw [TunnelHandle.enqueue_chans]
    exact .task hc (hlt (List.mem_of_getElem? hc) hrule)
  | remove hc hp =>
    exact ⟨hd, (Lowers.task hc (hlt (List.mem_of_getElem? hc) (.remove hp))).withEntry _⟩
  | finishAdd hc hf => exact ⟨hd, .set hc (Channel.rank_finishAdd hf)⟩
  | frame hl | writeControl hl | writeData hl | clear hl | signal hl | drop hl =>
    rw [hd] at hl
    cases hl

lemma muxLts_lowers {m' : PortForwardMux} {a : MuxAct} (hr : (muxLts t).Reachable m)
    (hd : m.loop = .dropped) (hs : (muxLts t).step m a = some m') (i : ℕ) :
    m'.loop = .dropped ∧ Lowers m.chans m'.chans i (a.isTask i) := by
  obtain ⟨out, hrule⟩ := muxLts_rule hs
  cases hrule with
  | task hc hrule =>
    refine ⟨by simpa using hd, ?_⟩
    rw [PortForwardMux.enqueue_chans]
    exact .task hc (hrule.rank_lt (by simp [PortForwardMux.env, hd])
      (fun _ => muxLts_cleared hr (by simp [hd]) _ (List.mem_of_getElem? hc)))
  | finishAdd hc hf => exact ⟨hd, .set hc (Channel.rank_finishAdd hf)⟩
  | frame hl | write hl | clear hl | signal hl | drop hl =>
    rw [hd] at hl
    cases hl

/-- After the teardown of either endpoint, whatever phase its channels were in: along every
continuation a channel's task takes at most `rank` more steps, and in every state of it an
unfinished task has a step that waits for neither its socket nor the peer. -/
theorem teardown_finishes :
    (∀ h, handleLts.Reachable h → h.loop = .dropped → ∀ (i : ℕ) (c : Channel),
      h.chans[i]? = some c → ∀ as h', handleLts.run h as = some h' →
      ∃ c', h'.chans[i]? = some c' ∧ as.countP (HandleAct.isTask i) + c'.rank ≤ c.rank ∧
        (c'.phase ≠ .finished → 0 < c'.rank ∧
          ∃ a, a.usesSocket = false ∧ (handleLts.step h' (.task i a)).isSome = true)) ∧
    (∀ t m, (muxLts t).Reachable m → m.loop = .dropped → ∀ (i : ℕ) (c : Channel),
      m.chans[i]? = some c → ∀ as m', (muxLts t).run m as = some m' →
      ∃ c', m'.chans[i]? = some c' ∧ as.countP (MuxAct.isTask i) + c'.rank ≤ c.rank ∧
        (c'.phase ≠ .finished → 0 < c'.rank ∧
          ∃ a, a.usesSocket = false ∧ ((muxLts t).step m' (.task i a)).isSome = true)) := by
  constructor
  · intro h hr hd i c hc as h' hrun
    obtain ⟨⟨hr', hd'⟩, c', hc', hle⟩ := run_lowers TunnelHandle.chans
      (P := fun h => handleLts.Reachable h ∧ h.loop = .dropped)
      (fun s a s' hs hst => ⟨⟨hs.1.step hst, (handleLts_lowers hs.1 hs.2 hst i).1⟩,
        (handleLts_lowers hs.1 hs.2 hst i).2⟩) hrun ⟨hr, hd⟩ hc
    refine ⟨c', hc', hle, fun hf => ⟨Channel.rank_pos hf, ?_⟩⟩
    obtain ⟨a, ha, hs⟩ := (handleLts_joins hr' c' (List.mem_of_getElem? hc')).progress
      h'.env (by simp [TunnelHandle.env, hd'])
      (by simp [TunnelHandle.env, hd', LoopPhase.teardown]) hf
    refine ⟨a, ha, ?_⟩
    obtain ⟨⟨d, e⟩, hst⟩ := Option.isSome_iff_exists.mp hs
    simp [handleLts, TunnelHandle.step, TunnelHandle.taskStep, hc', hst]
  · intro t m hr hd i c hc as m' hrun
    obtain ⟨⟨hr', hd'⟩, c', hc', hle⟩ := run_lowers PortForwardMux.chans
      (P := fun m => (muxLts t).Reachable m ∧ m.loop = .dropped)
      (fun s a s' hs hst => ⟨⟨hs.1.step hst, (muxLts_lowers hs.1 hs.2 hst i).1⟩,
        (muxLts_lowers hs.1 hs.2 hst i).2⟩) hrun ⟨hr, hd⟩ hc
    refine ⟨c', hc', hle, fun hf => ⟨Channel.rank_pos hf, ?_⟩⟩
    obtain ⟨a, ha, hs⟩ := (muxLts_joins hr' c' (List.mem_of_getElem? hc')).progress
      m'.env (by simp [PortForwardMux.env, hd'])
      (by simp [PortForwardMux.env, hd', LoopPhase.teardown]) hf
    refine ⟨a, ha, ?_⟩
    obtain ⟨⟨d, e⟩, hst⟩ := Option.isSome_iff_exists.mp hs
    simp [muxLts, PortForwardMux.step, PortForwardMux.taskStep, hc', hst]

/-- A channel torn down while its relay waits for the socket. -/
theorem teardown_finishes_reading :
    ∃ h c h' c', handleLts.run TunnelHandle.new
      [.beginOpen ⟨"host", 22, []⟩, .insert, .task 0 .sendOpen, .task 0 (.sender .check),
        .teardown, .teardown, .teardown] = some h ∧
      h.loop = .dropped ∧ h.chans = [c] ∧ c.tx.pc = .reading initialWindow ∧
      handleLts.run h ([.selectTeardown, .sender .cancel, .sender .refund, .sender .notify,
        .receiver .cancel, .join, .remove].map (.task 0)) = some h' ∧
      h'.chans[0]? = some c' ∧ c'.phase = .finished ∧ 7 + c'.rank ≤ c.rank := by
  have hpcs : (handleLts.run TunnelHandle.new
      [.beginOpen ⟨"host", 22, []⟩, .insert, .task 0 .sendOpen, .task 0 (.sender .check),
        .teardown, .teardown, .teardown]).map (fun h => (h.loop, h.chans.map fun c => c.tx.pc)) =
      some (.dropped, [.reading initialWindow]) := rfl
  have hphases : (handleLts.run TunnelHandle.new
      ([.beginOpen ⟨"host", 22, []⟩, .insert, .task 0 .sendOpen, .task 0 (.sender .check),
        .teardown, .teardown, .teardown] ++ [.selectTeardown, .sender .cancel, .sender .refund,
        .sender .notify, .receiver .cancel, .join, .remove].map (.task 0))).map
      (fun h => h.chans.map fun c => c.phase) = some [.finished] := rfl
  obtain ⟨h, hrun, hh⟩ := Option.map_eq_some_iff.mp hpcs
  obtain ⟨hd, hpc⟩ := Prod.mk.inj hh
  obtain ⟨c, hc, hpc⟩ := List.map_eq_singleton_iff.mp hpc
  obtain ⟨h', hrun', hh'⟩ := Option.map_eq_some_iff.mp hphases
  obtain ⟨d, hd', hphase⟩ := List.map_eq_singleton_iff.mp hh'
  rw [LTS.run_append, hrun, Option.bind_some] at hrun'
  obtain ⟨c', hc', hle, _⟩ := teardown_finishes.1 h ((LTS.Reachable.init rfl).run hrun) hd 0 c
    (by simp [hc]) _ h' hrun'
  have hcd : c' = d := by simpa [hd'] using hc'.symm
  exact ⟨h, c, h', c', hrun, hd, hc, hpc, hrun', hc', hcd ▸ hphase, hle⟩

end RustDesk.PortForward
