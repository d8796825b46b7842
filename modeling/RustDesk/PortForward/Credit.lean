import RustDesk.PortForward.Wakeup

/-!
# What a sender may still send

A sender's `rights` are its credit, what `take` has reserved and the relay has neither spent nor
refunded, and the charge of the frame it has built and not sent. A step of the relay moves these
about: nothing but the frame handler raises them, and nothing but a frame sent, a refund that hits
the cap or the end of the tunnel lowers them.
-/

namespace RustDesk.PortForward

namespace SenderPc

/-- What `take` returned and the relay has neither spent nor refunded. -/
def reserved : SenderPc → ℕ
  | reading allow => allow
  | refund n _ => n
  | _ => 0

/-- The frame that is built and not sent. -/
def inHand : SenderPc → List Bytes
  | refund _ (.send b) => [b]
  | notifying (.send b) => [b]
  | sending b => [b]
  | _ => []

/-- `take` never returns less than the minimum charge. -/
def Sized : SenderPc → Prop
  | reading allow => minFrameCharge ≤ allow
  | _ => True

end SenderPc

@[simp] lemma After.reserved_pc (after : After) : after.pc.reserved = 0 := by
  cases after <;> rfl

@[simp] lemma After.inHand_pc (after : After) :
    after.pc.inHand = (SenderPc.notifying after).inHand := by
  cases after <;> rfl

lemma After.sized_pc (after : After) : after.pc.Sized := by
  cases after <;> exact trivial

namespace Sender

variable {s s' : Sender} {allow : ℕ} {got : Bytes}

/-- All that a sender may still send without another grant. -/
def rights (s : Sender) : ℕ := s.credit.credit + s.pc.reserved + charges s.pc.inHand

lemma rights_of_pc {pc : SenderPc} (h : s.pc = pc) :
    s.rights = s.credit.credit + pc.reserved + charges pc.inHand := by
  rw [rights, h]

/-- A read spends part of what was reserved and leaves the rest to the refund. -/
lemma afterRead_rights (hmin : minFrameCharge ≤ allow) (hgot : got.length ≤ allow) :
    (afterRead allow got).reserved + charges (afterRead allow got).inHand = allow := by
  have hpos : 0 < minFrameCharge := by decide
  by_cases h : got = []
  · rw [h, afterRead_nil, if_pos (by omega)]
    simp [SenderPc.reserved, SenderPc.inHand]
  · have hle := charge_le_of_le hgot hmin
    rw [afterRead_of_ne h]
    split_ifs with hlt
    all_goals
      simp only [SenderPc.reserved, SenderPc.inHand, charges_cons, charges_nil]
      omega

lemma afterRead_sized (allow : ℕ) (got : Bytes) : (afterRead allow got).Sized := by
  unfold afterRead
  dsimp only
  split_ifs
  · exact trivial
  · exact After.sized_pc _
  · exact trivial
  · exact After.sized_pc _

lemma Rule.sized {env : RelayEnv} {id : ChannelId} {e : Option Frame} (h : Rule env id s s' e) :
    s'.pc.Sized := by
  cases h with
  | take hpc hc =>
    have : minFrameCharge ≤ maxFrame := by decide
    exact le_min hc this
  | read hpc hr =>
    rcases readInto_cases hr with ⟨_, _, rfl⟩ | ⟨_, _, rfl⟩ <;> exact afterRead_sized _ _
  | notify hpc => exact After.sized_pc _
  | _ => exact trivial

lemma readInto_rights (hpc : s.pc = .reading allow) (hsized : s.pc.Sized)
    (h : s.readInto allow got = some s') : s'.rights = s.rights := by
  rw [hpc] at hsized
  have hrights : s.rights = s.credit.credit + allow := by
    rw [rights_of_pc hpc]
    simp [SenderPc.reserved, SenderPc.inHand]
  rcases readInto_cases h with ⟨_, hgot, rfl⟩ | ⟨_, hgot, rfl⟩
  · have hlen : got.length ≤ allow := by
      rw [hgot]
      exact List.length_take_le _ _
    rw [hrights, rights, add_assoc]
    exact congrArg _ (afterRead_rights hsized hlen)
  · rw [hrights, rights, add_assoc]
    exact congrArg _ (afterRead_rights hsized hgot)

/-- What a step of the relay does to its rights: they are kept, a frame takes its charge along, a
refund may hit the cap, and the end of the tunnel forfeits the frame in hand. -/
lemma Rule.rights_cases {env : RelayEnv} {id : ChannelId} {s s' : Sender} {e : Option Frame}
    (h : Rule env id s s' e) (hsized : s.pc.Sized) :
    s'.rights + charges (payloads e.toList) = s.rights ∨
    (e = none ∧ s'.rights ≤ s.rights ∧ (min s.rights maxSendCredit ≤ s'.rights ∨
      env.closed = true)) := by
  cases h with
  | take hpc hc =>
    left
    rw [rights_of_pc hpc]
    simp only [rights, SenderPc.reserved, SenderPc.inHand, Option.toList_none, payloads_nil,
      charges_nil]
    omega
  | read hpc hr =>
    left
    simpa using readInto_rights hpc hsized hr
  | refund hpc =>
    rename_i n after
    right
    have hhand : (SenderPc.refund n after).inHand = (SenderPc.notifying after).inHand := by
      cases after <;> rfl
    have hrights : s.rights = s.credit.credit + n + charges (SenderPc.notifying after).inHand := by
      rw [rights_of_pc hpc, hhand]
      rfl
    rw [hrights]
    refine ⟨rfl, ?_, Or.inl ?_⟩ <;>
    · simp only [rights, SenderPc.reserved, SendCredit.addLocked_credit]
      omega
  | notify hpc =>
    left
    rw [rights_of_pc hpc, rights, After.reserved_pc, After.inHand_pc]
    simp [SendCredit.notifyOne, SenderPc.reserved]
  | send hpc hc =>
    left
    rw [rights_of_pc hpc]
    simp [rights, SenderPc.reserved, SenderPc.inHand, payloads, Frame.payload?]
  | gone hpc hc =>
    right
    rw [rights_of_pc hpc]
    refine ⟨rfl, ?_, Or.inr hc⟩
    simp only [rights, SenderPc.reserved, SenderPc.inHand, charges_nil]
    omega
  | short hpc | permit hpc | park hpc | wake hpc | cancelCheck hpc | cancelParked hpc
  | cancelReading hpc =>
    left
    rw [rights_of_pc hpc]
    simp [rights, SenderPc.reserved, SenderPc.inHand]

end Sender

namespace Channel

variable {env : Env} {c c' : Channel} {e : Option Frame}

/-- The sending half of a channel rests until the relays start, and its reservations are never
below the minimum charge. -/
structure Paced (c : Channel) : Prop where
  sized : c.tx.pc.Sized
  early : c.phase.early = true → c.tx.pc = .idle

lemma Paced.moves (h : c.Paced) (hm : Moves env c c' e) : c'.Paced := by
  rcases hm.task_or_same with hr | ⟨hs, _⟩
  · rcases hr.tx_cases with ⟨htx, _, hp⟩ | ⟨htx, _, hp, hp'⟩ | ⟨hs, hp, hp'⟩
    · exact ⟨htx ▸ h.sized, fun he => htx ▸ h.early (hp he)⟩
    · exact ⟨htx ▸ trivial, by simp [hp', Phase.early]⟩
    · refine ⟨hs.sized, ?_⟩
      rw [hp']
      intro he
      cases hc : c.phase <;> simp_all [Phase.early, Phase.relaying]
  · obtain ⟨credit, htx⟩ := hs.tx
    refine ⟨htx ▸ h.sized, ?_⟩
    rw [htx, hs.phase]
    exact h.early

lemma controller_paced (id : ChannelId) (host : String) (port : ℤ) (prebuf : Bytes) :
    (controller id host port prebuf).Paced := ⟨trivial, fun _ => rfl⟩

lemma controlled_paced (id : ChannelId) (window : ℕ) (u : String) :
    (controlled id window u).Paced := ⟨trivial, fun _ => rfl⟩

/-- The same for the whole task: what its step emits is taken from the sender's rights. -/
lemma Rule.rights_cases (h : Rule env c c' e) (hp : c.Paced) :
    c'.tx.rights + charges (payloads e.toList) = c.tx.rights ∨
    (e = none ∧ c'.tx.rights ≤ c.tx.rights ∧ (min c.tx.rights maxSendCredit ≤ c'.tx.rights ∨
      env.closed = true)) := by
  rcases h.tx_cases with ⟨htx, he, _⟩ | ⟨htx, he, hearly, _⟩ | ⟨hs, _, _⟩
  · left
    rw [htx, he, charges_nil, add_zero]
  · left
    rw [htx, he, Sender.rights_of_pc (hp.early hearly)]
    simp [Sender.rights, SenderPc.reserved, SenderPc.inHand]
  · exact hs.rights_cases hp.sized

/-- A task never sends more than its sender's rights. -/
lemma Rule.rights_le (h : Rule env c c' e) (hp : c.Paced) :
    c'.tx.rights + charges (payloads e.toList) ≤ c.tx.rights := by
  rcases h.rights_cases hp with heq | ⟨rfl, hle, _⟩
  · exact heq.le
  · simpa using hle

/-- While the tunnel is up, rights below the cap are never lost. -/
lemma Rule.le_rights (h : Rule env c c' e) (hp : c.Paced) (hc : env.closed = false) :
    min c.tx.rights maxSendCredit ≤ c'.tx.rights + charges (payloads e.toList) := by
  rcases h.rights_cases hp with heq | ⟨rfl, _, hle | hclosed⟩
  · rw [heq]
    exact min_le_left _ _
  · simpa using hle
  · rw [hc] at hclosed
    cases hclosed

lemma finishAdd_rights (h : c.finishAdd = some c') : c'.tx.rights = c.tx.rights := by
  obtain ⟨_, rfl⟩ := finishAdd_eq_some h
  rfl

/-- A window update raises the credit up to the cap, and nothing else. -/
lemma onWindowUpdate_rights_eq (c : Channel) (n : ℕ) : (c.onWindowUpdate n).tx.rights =
    min (c.tx.credit.credit + n) maxSendCredit + c.tx.pc.reserved + charges c.tx.pc.inHand := by
  rw [← SendCredit.addLocked_credit]
  rfl

/-- So it raises the rights by what it grants, or up to the cap. -/
lemma onWindowUpdate_rights (c : Channel) (n : ℕ) :
    (c.onWindowUpdate n).tx.rights ≤ c.tx.rights + n ∧
    min (c.tx.rights + n) maxSendCredit ≤ (c.onWindowUpdate n).tx.rights := by
  rw [onWindowUpdate_rights_eq, Sender.rights]
  omega

end Channel

end RustDesk.PortForward
