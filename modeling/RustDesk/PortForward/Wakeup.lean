import RustDesk.PortForward.Endpoint

/-!
# No lost wake-up

A relay that finds less than one minimum charge goes on to poll `notified()`, and the frame
handler may add credit at any moment in between: before the poll, its `notify_one` leaves a
permit; after it, it wakes the task. `Sender.Awake` says what of this is still outstanding at each
point of `SendCredit::take`. It holds against any peer.
-/

namespace RustDesk.PortForward

/-- What stands between a relay inside `take` and the credit it waits for. -/
structure Sender.Awake (s : Sender) : Prop where
  /-- only a parked relay is registered, and a parked one is -/
  waiter : s.credit.notify.waiter ≠ .absent ↔ s.pc = .parked
  poll : s.pc = .poll → minFrameCharge ≤ s.credit.credit →
    s.credit.notify.permit = true ∨ 0 < s.credit.adding
  parked : s.credit.notify.waiter = .waiting →
    s.credit.notify.permit = false ∧ (minFrameCharge ≤ s.credit.credit → 0 < s.credit.adding)

namespace Sender.Awake

variable {s s' : Sender}

/-- Away from `take` nothing is registered and nothing is asked for. -/
lemma of_absent (hw : s.credit.notify.waiter = .absent) (hpark : s.pc ≠ .parked)
    (hpoll : s.pc ≠ .poll) : s.Awake where
  waiter := by simp [hw, hpark]
  poll hp := (hpoll hp).elim
  parked hp := by simp [hw] at hp

lemma absent (h : s.Awake) (hpc : s.pc ≠ .parked) : s.credit.notify.waiter = .absent := by
  by_contra hw
  exact hpc (h.waiter.mp hw)

lemma rule {env : RelayEnv} {id : ChannelId} {e : Option Frame} (h : s.Awake)
    (hr : Rule env id s s' e) : s'.Awake := by
  cases hr with
  | take hpc hc | permit hpc hp | cancelCheck hpc hc | cancelReading hpc hc | refund hpc
  | send hpc hc | gone hpc hc =>
    exact of_absent (h.absent (by simp [hpc])) (by simp) (by simp)
  | short hpc hc =>
    refine ⟨by simp [h.absent (s := s) (by simp [hpc])], fun _ hle => ?_, fun hw => ?_⟩
    · exact (Nat.not_le_of_lt hc hle).elim
    · simp [h.absent (by simp [hpc])] at hw
  | park hpc hp =>
    refine ⟨by simp, by simp, fun _ => ⟨rfl, fun hle => ?_⟩⟩
    rcases h.poll hpc hle with hperm | hadd
    · simp [hp] at hperm
    · exact hadd
  | wake hpc hw => exact of_absent rfl (by simp) (by simp)
  | cancelParked hpc hc =>
    refine of_absent ?_ (by simp) (by simp)
    cases hw : s.credit.notify.waiter <;> simp [Notify.drop, Notify.notifyOne, hw]
  | read hpc hr =>
    have habs := h.absent (by simp [hpc])
    rcases readInto_cases hr with ⟨_, _, rfl⟩ | ⟨_, _, rfl⟩ <;>
      exact of_absent habs (afterRead_ne_parked ..).1 (afterRead_ne_parked ..).2
  | notify hpc =>
    rename_i after
    have habs := h.absent (by simp [hpc])
    refine of_absent ?_ ?_ ?_
    · simp [SendCredit.notifyOne, Notify.notifyOne, habs]
    · cases after <;> simp [After.pc]
    · cases after <;> simp [After.pc]

/-- An `add` that has still to call `notify_one` is itself outstanding. -/
lemma add (h : s.Awake) (n : ℕ) : ({ s with credit := s.credit.add n } : Sender).Awake where
  waiter := h.waiter
  poll _ _ := Or.inr (Nat.succ_pos _)
  parked hw := ⟨(h.parked hw).1, fun _ => Nat.succ_pos _⟩

/-- `notify_one` wakes the parked relay, or leaves a permit. -/
lemma finishAdd (h : s.Awake) : ({ s with credit :=
    { s.credit with notify := s.credit.notify.notifyOne, adding := s.credit.adding - 1 } } :
    Sender).Awake := by
  cases hw : s.credit.notify.waiter with
  | absent =>
    have hpc : s.pc ≠ .parked := fun hpc => h.waiter.mpr hpc hw
    exact ⟨by simp [Notify.notifyOne, hw, hpc], by simp [Notify.notifyOne, hw],
      by simp [Notify.notifyOne, hw]⟩
  | waiting | notified =>
    have hpc : s.pc = .parked := h.waiter.mp (by simp [hw])
    exact ⟨by simp [Notify.notifyOne, hw, hpc], by simp [hpc], by simp [Notify.notifyOne, hw]⟩

end Sender.Awake

namespace Channel

/-- The sending half of a channel; before the relays start it is at rest. -/
structure Awake (c : Channel) : Prop where
  tx : c.tx.Awake
  early : c.phase.early = true → c.tx.pc = .idle

namespace Awake

variable {c c' : Channel} {env : Env} {e : Option Frame}

lemma of_tx (h : c.Awake) (htx : c'.tx.Awake) (hpc : c'.tx.pc = c.tx.pc)
    (hp : c'.phase.early = true → c.phase.early = true) : c'.Awake :=
  ⟨htx, fun he => hpc.trans (h.early (hp he))⟩

lemma with_credit (h : c.Awake) {credit : SendCredit}
    (htx : ({ c.tx with credit := credit } : Sender).Awake) (opened : Bool) :
    ({ c with opened := opened, tx := { c.tx with credit := credit } } : Channel).Awake :=
  ⟨htx, h.early⟩

lemma rule (h : c.Awake) (hr : Rule env c c' e) : c'.Awake := by
  rcases hr.tx_cases with ⟨htx, _, hp⟩ | ⟨htx, _, hp, hp'⟩ | ⟨hs, hp, hp'⟩
  · exact h.of_tx (htx ▸ h.tx) (by rw [htx]) hp
  · have habs := h.tx.absent (by simp [h.early hp])
    exact ⟨htx ▸ .of_absent habs (by simp) (by simp), by simp [hp', Phase.early]⟩
  · refine ⟨h.tx.rule hs, ?_⟩
    rw [hp']
    intro he
    cases hc : c.phase <;> simp_all [Phase.early, Phase.relaying]

lemma moves (h : c.Awake) (hm : Moves env c c' e) : c'.Awake := by
  cases hm with
  | task hr => exact h.rule hr
  | data b ht =>
    refine h.of_tx (by rw [onData_tx]; exact h.tx) (by rw [onData_tx]) ?_
    rw [(c.sameTask_onData b).phase]
    exact fun he => he
  | close ht | drop => exact h.of_tx h.tx rfl (fun he => he)
  | windowUpdate n ht => exact h.with_credit (h.tx.add n) _
  | opened success window ht =>
    unfold onOpened
    split_ifs
    · exact h
    · refine h.with_credit ?_ _
      unfold SendCredit.raiseInitial
      split_ifs
      · exact h.tx.add _
      · exact h.tx
    · exact h.of_tx h.tx rfl (fun he => he)
  | finishAdd hf =>
    obtain ⟨_, rfl⟩ := finishAdd_eq_some hf
    exact h.with_credit h.tx.finishAdd _

end Awake

lemma controller_awake (id : ChannelId) (host : String) (port : ℤ) (prebuf : Bytes) :
    (controller id host port prebuf).Awake :=
  ⟨.of_absent rfl (by simp [controller, Sender.new]) (by simp [controller, Sender.new]),
    fun _ => rfl⟩

lemma controlled_awake (id : ChannelId) (window : ℕ) (u : String) :
    (controlled id window u).Awake :=
  ⟨.of_absent rfl (by simp [controlled, Sender.new]) (by simp [controlled, Sender.new]),
    fun _ => rfl⟩

/-- A relay parked in `take` while there is credit for a frame: it has been woken, or the `add`
that brought the credit is about to wake it. -/
lemma Awake.woken {c : Channel} (h : c.Awake) (hpc : c.tx.pc = .parked)
    (hcredit : minFrameCharge ≤ c.tx.credit.credit) :
    c.tx.credit.notify.waiter = .notified ∨
    ∃ c', c.finishAdd = some c' ∧ c'.tx.credit.notify.waiter = .notified := by
  cases hw : c.tx.credit.notify.waiter with
  | absent => exact (h.tx.waiter.mpr hpc hw).elim
  | waiting =>
    have hadd : c.tx.credit.adding ≠ 0 := Nat.pos_iff_ne_zero.mp ((h.tx.parked hw).2 hcredit)
    have hsome : c.finishAdd.isSome := by simp [finishAdd, SendCredit.finishAdd, hadd]
    obtain ⟨c', hc'⟩ := Option.isSome_iff_exists.mp hsome
    refine Or.inr ⟨c', hc', ?_⟩
    rw [(finishAdd_eq_some hc').2]
    simp [Notify.notifyOne, hw]
  | notified => exact Or.inl rfl

end Channel

lemma handleLts_awake {h : TunnelHandle} (hr : handleLts.Reachable h) : ∀ c ∈ h.chans, c.Awake :=
  handleLts_forall (fun _ _ _ _ hc hm => hc.moves hm) Channel.controller_awake hr

lemma muxLts_awake {t : String} {m : PortForwardMux} (hr : (muxLts t).Reachable m) :
    ∀ c ∈ m.chans, c.Awake :=
  muxLts_forall (fun _ _ _ _ hc hm => hc.moves hm) Channel.controlled_awake hr

/-- A relay parked in `take` while there is credit for a frame has been woken, or is about to be. -/
def Channel.Woken (c : Channel) : Prop :=
  c.tx.pc = .parked → minFrameCharge ≤ c.tx.credit.credit → c.tx.credit.notify.waiter = .notified ∨
    ∃ c', c.finishAdd = some c' ∧ c'.tx.credit.notify.waiter = .notified

/-- **No wake-up is lost**, against any peer and under any schedule. -/
theorem no_wakeup_lost :
    (∀ h, handleLts.Reachable h → ∀ c ∈ h.chans, c.Woken) ∧
    ∀ t m, (muxLts t).Reachable m → ∀ c ∈ m.chans, c.Woken := by
  constructor
  · intro h hr c hc
    exact (handleLts_awake hr c hc).woken
  · intro t m hr c hc
    exact (muxLts_awake hr c hc).woken

end RustDesk.PortForward
