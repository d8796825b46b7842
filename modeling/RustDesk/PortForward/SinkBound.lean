import RustDesk.PortForward.Credit
import RustDesk.PortForward.Tasks

/-!
# The controlled side's sink

The `Direct` sink of the controlled side is unbounded, and `MAX_SEND_CREDIT` is meant to bound
what a channel has in it. The cap is on the credit held, not on the credit held together with what
is queued: a window update that arrives while the frames it pretends to have been drained still
wait in the sink raises the credit again. The bound holds in every run whose updates grant no more
than has left the sink (`updateFits`), which is what an honest controller does.
-/

namespace RustDesk.PortForward

namespace PortForwardMux

/-- What the data frames of channel `i` cost that the connection's writer has not taken out. -/
def queued (m : PortForwardMux) (i : ℕ) : ℕ := charges (payloads (framesOf i m.tx))

/-- A window update for a live entry stays within what has left the sink: the credit it leaves, what
is reserved, what is in hand and what is queued do not exceed the cap together. -/
def updateFits (m : PortForwardMux) : MuxAct → Bool
  | .frame (.windowUpdateMsg id add) _ =>
    (findEntry m.chans id).all fun i => m.chans[i]?.all fun c =>
      min (c.tx.credit.credit + add) maxSendCredit + c.tx.pc.reserved + charges c.tx.pc.inHand +
        m.queued i ≤ maxSendCredit
  | _ => true

/-- Every channel's rights and what it has in the sink stay within the cap together. -/
structure Sinked (m : PortForwardMux) : Prop where
  tags : ∀ x ∈ m.tx, ∀ i, x.task = some i → i < m.chans.length
  bound : ∀ (i : ℕ) (c : Channel), m.chans[i]? = some c → c.tx.rights + m.queued i ≤ maxSendCredit

namespace Sinked

variable {m m' : PortForwardMux} {f : Channel → Channel}

section

variable (h : m.Sinked)

include h

/-- A step after which every channel has come from one with at least its rights and its share of
the sink. -/
lemma of_le (htags : ∀ x ∈ m'.tx, x ∈ m.tx ∨ ∀ i, x.task = some i → i < m'.chans.length)
    (hlen : m.chans.length ≤ m'.chans.length)
    (hle : ∀ (i : ℕ) (c' : Channel), m'.chans[i]? = some c' →
      c'.tx.rights + m'.queued i ≤ maxSendCredit ∨
      ∃ c, m.chans[i]? = some c ∧ c'.tx.rights + m'.queued i ≤ c.tx.rights + m.queued i) :
    m'.Sinked where
  tags x hx i hi := by
    rcases htags x hx with hx | hx
    · exact (h.tags x hx i hi).trans_le hlen
    · exact hx i hi
  bound i c' hc' := by
    rcases hle i c' hc' with hb | ⟨c, hc, hb⟩
    · exact hb
    · exact hb.trans (h.bound i c hc)

/-- The same where the sink is left alone and every sending half with it. -/
lemma of_tx (htx : m'.tx = m.tx) (hlen : m'.chans.length = m.chans.length)
    (hchans : ∀ (i : ℕ) (c' : Channel), m'.chans[i]? = some c' →
      ∃ c, m.chans[i]? = some c ∧ c'.tx.rights = c.tx.rights) : m'.Sinked := by
  refine h.of_le (fun x hx => Or.inl (htx ▸ hx)) hlen.ge fun i c' hc' => ?_
  obtain ⟨c, hc, heq⟩ := hchans i c' hc'
  exact Or.inr ⟨c, hc, by rw [heq, queued, queued, htx]⟩

/-- Nothing of a channel still to come is in the sink. -/
lemma queued_length : m.queued m.chans.length = 0 := by
  have : m.tx.filter (fun x => x.task = some m.chans.length) = [] := by
    refine List.filter_eq_nil_iff.mpr fun x hx heq => ?_
    exact (h.tags x hx _ (by simpa using heq)).false
  simp [queued, framesOf, this]

lemma of_withEntry {id : ChannelId}
    (hf : ∀ (i : ℕ) (c : Channel), findEntry m.chans id = some i → m.chans[i]? = some c →
      (f c).tx.rights + m.queued i ≤ maxSendCredit) :
    ({ m with chans := withEntry m.chans id f } : PortForwardMux).Sinked := by
  refine h.of_le (fun x hx => Or.inl hx) (by simp) fun i c' hc' => ?_
  rw [getElem?_withEntry] at hc'
  split_ifs at hc' with hi
  · obtain ⟨c, hc, rfl⟩ := Option.map_eq_some_iff.mp hc'
    exact Or.inl (hf i c hi hc)
  · exact Or.inr ⟨c', hc', le_rfl⟩

lemma of_map (hf : ∀ c, (f c).tx = c.tx) :
    ({ m with chans := m.chans.map f } : PortForwardMux).Sinked := by
  refine h.of_tx rfl (by simp) fun i c' hc' => ?_
  rw [List.getElem?_map] at hc'
  obtain ⟨c, hc, rfl⟩ := Option.map_eq_some_iff.mp hc'
  exact ⟨c, hc, by rw [hf c]⟩

lemma retainOpen : ({ m with chans := retainOpen m.chans } : PortForwardMux).Sinked := by
  refine h.of_map fun c => ?_
  split_ifs <;> rfl

/-- A new channel starts within the cap, and with nothing in the sink. -/
lemma append (id : ChannelId) (window : ℕ) (u : String) :
    ({ m with chans := m.chans ++ [Channel.controlled id window u] } : PortForwardMux).Sinked := by
  refine h.of_le (fun x hx => Or.inl hx) (by simp) fun i c' hc' => ?_
  rcases lt_trichotomy i m.chans.length with hi | rfl | hi
  · rw [List.getElem?_append_left hi] at hc'
    exact Or.inr ⟨c', hc', le_rfl⟩
  · simp only [List.getElem?_concat_length, Option.some.injEq] at hc'
    left
    have hq : ({ m with chans := m.chans ++ [Channel.controlled id window u] } :
        PortForwardMux).queued m.chans.length = 0 := h.queued_length
    rw [hq, ← hc']
    exact min_le_right _ _
  · rw [List.getElem?_eq_none (by simp; omega)] at hc'
    cases hc'

lemma reply (f : Frame) : ({ m with tx := m.tx ++ [⟨none, f⟩] } : PortForwardMux).Sinked := by
  refine h.of_le (fun x hx => ?_) le_rfl fun i c' hc' => Or.inr ⟨c', hc', ?_⟩
  · rcases List.mem_append.mp hx with hx | hx
    · exact Or.inl hx
    · right
      rw [List.mem_singleton.mp hx]
      simp
  · simp [queued, framesOf]

lemma handle {f : Frame} {permitted : Bool}
    (hok : m.updateFits (.frame f permitted) = true) : (m.handle permitted f).Sinked := by
  cases f with
  | openMsg id host port window =>
    rcases m.onOpen_cases id host port window permitted with
      ⟨message, heq⟩ | ⟨_, heq⟩ | ⟨_, _, u, heq⟩ <;> simp only [PortForwardMux.handle, heq]
    · exact h.retainOpen.reply _
    · exact h.retainOpen
    · exact h.retainOpen.append id window u
  | openedMsg id success message window => exact h
  | dataMsg id b =>
    refine h.of_withEntry fun i c _ hc => ?_
    rw [Channel.onData_tx]
    exact h.bound i c hc
  | closeMsg id => exact h.of_withEntry fun i c _ hc => h.bound i c hc
  | windowUpdateMsg id add =>
    refine h.of_withEntry fun i c hi hc => ?_
    rw [Channel.onWindowUpdate_rights_eq]
    simpa [updateFits, hi, hc] using hok

end

lemma queued_enqueue (m : PortForwardMux) (i j : ℕ) (e : Option Frame) :
    (m.enqueue i e).queued j = m.queued j + if i = j then charges (payloads e.toList) else 0 := by
  cases e with
  | none => simp [enqueue]
  | some f =>
    by_cases h : i = j
    · simp [enqueue, queued, h, framesOf_cons_self]
    · simp [enqueue, queued, h, framesOf_cons_of_ne (x := ⟨some i, f⟩) (i := j) (by simpa using h)]

/-- A step that respects the condition keeps every channel within the cap. -/
lemma step (h : m.Sinked) (hp : ∀ c ∈ m.chans, c.Paced) {a : MuxAct} {out : Option Sent}
    (hok : m.updateFits a = true) (hr : Rule m a m' out) : m'.Sinked := by
  cases hr with
  | @task i a c c' e hc hr =>
    have hle := hr.rights_le (hp c (List.mem_of_getElem? hc))
    refine h.of_le (fun x hx => ?_) (by simp) fun j d hd => Or.inr ?_
    · cases e with
      | none => exact Or.inl hx
      | some f =>
        rcases List.mem_append.mp hx with hx | hx
        · exact Or.inl hx
        · right
          rw [List.mem_singleton.mp hx]
          simp [(List.getElem?_eq_some_iff.mp hc).1]
    · rw [queued_enqueue]
      rw [enqueue_chans, List.getElem?_set] at hd
      change ∃ c, m.chans[j]? = some c ∧ d.tx.rights + (m.queued j + _) ≤ _
      split_ifs at hd ⊢ with hij
      · cases hd
        subst hij
        exact ⟨c, hc, by omega⟩
      · exact ⟨d, hd, by omega⟩
  | finishAdd hc hf =>
    rename_i i c c'
    refine h.of_tx rfl (by simp) fun j d hd => ?_
    rw [List.getElem?_set] at hd
    split_ifs at hd with hij
    · cases hd
      subst hij
      exact ⟨c, hc, Channel.finishAdd_rights hf⟩
    · exact ⟨d, hd, rfl⟩
  | frame hl => exact h.handle hok
  | @write x rest hl hq =>
    refine h.of_le (fun y hy => Or.inl ?_) le_rfl fun i c hc => Or.inr ⟨c, hc, ?_⟩
    · rw [hq]
      exact List.mem_cons_of_mem x hy
    · have : m.queued i =
          charges (payloads (framesOf i [x])) + charges (payloads (framesOf i rest)) := by
        rw [queued, hq, ← List.singleton_append, framesOf_append, payloads_append, charges_append]
      simp only [queued] at this ⊢
      omega
  | clear hl =>
    have hmap : ({ m with chans := m.chans.map Channel.dropEntry } : PortForwardMux).Sinked :=
      h.of_map fun _ => rfl
    exact ⟨hmap.tags, hmap.bound⟩
  | signal hl => exact ⟨h.tags, h.bound⟩
  | drop hl =>
    refine h.of_le (by simp) le_rfl fun i c hc => Or.inr ⟨c, hc, ?_⟩
    simp [queued]

end Sinked

end PortForwardMux

lemma muxLts_paced {t : String} {m : PortForwardMux} (hr : (muxLts t).Reachable m) :
    ∀ c ∈ m.chans, c.Paced :=
  muxLts_forall (fun _ _ _ _ hc hm => hc.moves hm) Channel.controlled_paced hr

/-- Whatever else the peer sends and whatever the schedule: as long as its window updates grant no
more than has left the sink, no channel has more than `MAX_SEND_CREDIT` in it. -/
theorem sink_bounded {t : String} {m : PortForwardMux}
    (hr : ((muxLts t).restrict PortForwardMux.updateFits).Reachable m) :
    ∀ (i : ℕ) (c : Channel), m.chans[i]? = some c → m.queued i ≤ maxSendCredit := by
  have hsinked : m.Sinked := by
    refine hr.invariant (P := PortForwardMux.Sinked) ?_ ?_
    · rintro _ rfl
      exact ⟨by simp [PortForwardMux.new], by simp [PortForwardMux.new]⟩
    · intro m a m' hm ih hs
      obtain ⟨hok, hs⟩ := LTS.restrict_step_some hs
      obtain ⟨out, hrule⟩ := muxLts_rule hs
      exact ih.step (muxLts_paced hm.of_restrict) hok hrule
  intro i c hc
  have := hsinked.bound i c hc
  omega

/-- A byte of the target's that was written is granted again, and the next one is in the sink. -/
theorem sink_bounded_one_byte :
    ∃ m c, ((muxLts blockedTarget).restrict PortForwardMux.updateFits).run (.new blockedTarget)
      (.frame (.openMsg 1 "host" 22 channelWindow) true ::
        [.recvCmd, .connected true, .grant, .announce, .sender .check, .sender (.read [0]),
          .sender .refund, .sender .notify, .sender .send].map (.task 0) ++
        [.write, .write, .frame (.windowUpdateMsg 1 minFrameCharge) true] ++
        [.sender .check, .sender (.read [0]), .sender .refund, .sender .notify,
          .sender .send].map (.task 0)) = some m ∧
      m.chans[0]? = some c ∧ m.queued 0 = minFrameCharge ∧ m.queued 0 ≤ maxSendCredit := by
  simp only [exists_and_left]
  refine LTS.exists_run_of (P := fun m => m.chans.length = 1 ∧ m.queued 0 = minFrameCharge)
    (by decide) ?_
  rintro m hrun ⟨hlen, hqueued⟩
  obtain ⟨c, hc⟩ := List.length_eq_one_iff.mp hlen
  have hc : m.chans[0]? = some c := by simp [hc]
  exact ⟨c, hc, hqueued, sink_bounded ((LTS.Reachable.init rfl).run hrun) 0 c hc⟩

/-! ### An update for frames still in the sink -/

section Flood

variable {t : String} {b : Bytes} {credit : SendCredit}

/-- A channel that has put `b` into the sink `k` times and has `credit` left. -/
def flooded (b : Bytes) (credit : SendCredit) (k : ℕ) : Channel where
  side := .controlled
  id := 1
  phase := .selecting
  opened := false
  cancel := false
  tx := {
    credit := credit
    pc := .check
    prebuf := []
    rest := []
    socket := (List.replicate k b).flatten
    framed := List.replicate k b }
  rx := { Receiver.new channelWindow with pc := .next }
  log := .openedMsg 1 true "" channelWindow :: List.replicate k (.dataMsg 1 b)

/-- The controlled end with this channel, nothing of what it sent having been written. -/
def floodedMux (t : String) (b : Bytes) (credit : SendCredit) (k : ℕ) : PortForwardMux where
  chans := [flooded b credit k]
  tx := ⟨some 0, .openedMsg 1 true "" channelWindow⟩ :: List.replicate k ⟨some 0, .dataMsg 1 b⟩
  loginTarget := t
  loop := .running

/-- A read of the largest size takes the whole reservation. -/
lemma run_flood (hb : b.length = maxFrame) (h : maxFrame ≤ credit.credit) (k : ℕ) :
    (muxLts t).run (floodedMux t b credit k)
      [.task 0 (.sender .check), .task 0 (.sender (.read b)), .task 0 (.sender .send)] =
      some (floodedMux t b { credit with credit := credit.credit - maxFrame } (k + 1)) := by
  have hmin : minFrameCharge ≤ credit.credit := (by decide : minFrameCharge ≤ maxFrame).trans h
  have hcharge : charge maxFrame = maxFrame := by decide
  have hne : b ≠ [] := by
    rintro rfl
    cases hb
  let c₁ : Channel := { flooded b credit k with tx := { (flooded b credit k).tx with
    credit := { credit with credit := credit.credit - maxFrame }, pc := .reading maxFrame } }
  let c₂ : Channel := { c₁ with tx := { c₁.tx with
    pc := .sending b
    socket := (List.replicate k b).flatten ++ b
    framed := List.replicate k b ++ [b] } }
  let c₃ : Channel := { c₂ with
    tx := { c₂.tx with pc := .check }, log := c₂.log ++ [.dataMsg 1 b] }
  have h₁ : (flooded b credit k).step ⟨false, false, false⟩ (.sender .check) = some (c₁, none) := by
    simp [c₁, flooded, Channel.step, Sender.step, SendCredit.tryTake, hmin, h]
  have h₂ : c₁.step ⟨false, false, false⟩ (.sender (.read b)) = some (c₂, none) := by
    simp [c₁, c₂, flooded, Channel.step, Sender.step, Sender.readInto, hb, hne,
      Sender.afterRead_of_ne hne, hcharge]
  have h₃ : c₂.step ⟨false, false, false⟩ (.sender .send) = some (c₃, some (.dataMsg 1 b)) := rfl
  have h₄ : c₃ = flooded b { credit with credit := credit.credit - maxFrame } (k + 1) := by
    simp [c₁, c₂, c₃, flooded, List.replicate_succ']
  refine (LTS.run_cons_of_step (mux_step_task_last (l := []) h₁) _).trans ?_
  refine (LTS.run_cons_of_step (mux_step_task_last (l := []) h₂) _).trans ?_
  refine (LTS.run_cons_of_step (mux_step_task_last (l := []) h₃) _).trans ?_
  rw [LTS.run_nil, h₄]
  simp [floodedMux, List.replicate_succ']

/-- `n` such frames, one after the other, use up `n` times their charge. -/
lemma flood_reachable (hb : b.length = maxFrame) {k : ℕ}
    (hr : (muxLts t).Reachable (floodedMux t b credit k)) (n : ℕ)
    (h : n * maxFrame ≤ credit.credit) :
    (muxLts t).Reachable
      (floodedMux t b { credit with credit := credit.credit - n * maxFrame } (k + n)) := by
  induction n with
  | zero => simpa using hr
  | succ n ih =>
    rw [add_mul, one_mul] at h
    have hrun := (ih (by omega)).run (run_flood hb (by dsimp only; omega) (k + n))
    simpa only [add_mul, one_mul, Nat.sub_sub, add_assoc] using hrun

lemma queued_floodedMux (hb : b.length = maxFrame) (credit : SendCredit) (k : ℕ) :
    (floodedMux t b credit k).queued 0 = k * maxFrame := by
  have hcharge : charge b.length = maxFrame := by
    rw [hb]
    decide
  induction k with
  | zero => rfl
  | succ k ih =>
    simp only [PortForwardMux.queued, floodedMux, List.replicate_succ', ← List.cons_append,
      framesOf_append, payloads_append, charges_append] at ih ⊢
    rw [ih, add_mul]
    simp [framesOf, payloads, Frame.payload?, hcharge]

/-- An update that arrives when the credit is used up. -/
lemma flood_update (b : Bytes) (k : ℕ) :
    (muxLts t).step (floodedMux t b ⟨0, Notify.new, 0⟩ k)
      (.frame (.windowUpdateMsg 1 maxFrame) true) =
      some (floodedMux t b ⟨maxFrame, Notify.new, 1⟩ k) := by
  have hadd : SendCredit.add ⟨0, Notify.new, 0⟩ maxFrame = ⟨maxFrame, Notify.new, 1⟩ := by decide
  have hc : (flooded b ⟨0, Notify.new, 0⟩ k).onWindowUpdate maxFrame =
      flooded b ⟨maxFrame, Notify.new, 1⟩ k := by
    simp only [Channel.onWindowUpdate, flooded, hadd]
  refine (mux_step_update_last (c := flooded b ⟨0, Notify.new, 0⟩ k) (l := []) (by simp) rfl
    maxFrame true).trans ?_
  rw [hc]
  rfl

end Flood

/-- Four frames use up the window; an update for one of them, still in the sink like the others,
lets the relay send a fifth. -/
theorem sink_overfilled : ∃ m c, (muxLts blockedTarget).Reachable m ∧ m.chans[0]? = some c ∧
    c.rx.txLive = true ∧ maxSendCredit < m.queued 0 := by
  obtain ⟨b, hb⟩ : ∃ b : Bytes, b.length = maxFrame :=
    ⟨List.replicate maxFrame 0, List.length_replicate⟩
  have hopen : (muxLts blockedTarget).run (.new blockedTarget)
      (.frame (.openMsg 1 "host" 22 channelWindow) true ::
        [.recvCmd, .connected true, .grant, .announce].map (.task 0)) =
      some (floodedMux blockedTarget [] (SendCredit.new channelWindow) 0) := by decide +kernel
  have hzero : floodedMux blockedTarget [] (SendCredit.new channelWindow) 0 =
      floodedMux blockedTarget b ⟨channelWindow, Notify.new, 0⟩ 0 := rfl
  have hstart := (LTS.Reachable.init rfl).run hopen
  rw [hzero] at hstart
  have hfour := flood_reachable hb hstart 4 (by decide)
  have hupdate := flood_update (t := blockedTarget) b 4
  have hfive := flood_reachable hb (hfour.step hupdate) 1 (by decide)
  refine ⟨_, _, hfive, rfl, rfl, ?_⟩
  rw [queued_floodedMux hb]
  decide

end RustDesk.PortForward
