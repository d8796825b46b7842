import RustDesk.PortForward.Endpoint

/-!
# How many channels the controlled side serves

`MAX_CHANNELS` caps the entries of the map. An entry goes as soon as the peer closes the channel
or overruns its window, and the task may still be on its way out then: one whose target accepts no
more bytes stays in `write_all` until the tunnel is torn down. So the cap bounds the tasks that
still have their entry (`live_tasks_le`), and not the tasks as such (`tasks_unbounded`).
-/

namespace RustDesk.PortForward

variable {l l' : List Channel}

/-- An entry that is gone does not come back. -/
lemma Channel.Evolves.txLive {c c' : Channel} (h : c.Evolves c') (hlive : c'.rx.txLive = true) :
    c.rx.txLive = true := by
  by_contra hc
  have hc : c.rx.txLive = false := by simpa using hc
  have hc' := h.invariant (P := fun d => d.rx.txLive = false) ?_ hc
  · rw [hlive] at hc'
    cases hc'
  · intro env d d' e hd hm
    cases hm with
    | task hr => exact hr.sameEntry.txLive.trans hd
    | data b ht | close ht | windowUpdate n ht | opened success window ht =>
      rw [hd] at ht
      cases ht
    | drop => rfl
    | finishAdd hf =>
      obtain ⟨_, rfl⟩ := Channel.finishAdd_eq_some hf
      exact hd

lemma liveEntries_le_of_forall (hlen : l'.length = l.length)
    (h : ∀ (i : ℕ) (c c' : Channel), l[i]? = some c → l'[i]? = some c' →
      c'.rx.txLive = true → c.rx.txLive = true) :
    liveEntries l' ≤ liveEntries l := by
  induction l' generalizing l with
  | nil => simp [liveEntries]
  | cons c' l' ih =>
    cases l with
    | nil => simp at hlen
    | cons c l =>
      have hle := ih (by simpa using hlen)
        (fun i d d' hd hd' => h (i + 1) d d' (by simpa) (by simpa))
      have hhead := h 0 c c' rfl rfl
      simp only [liveEntries, List.countP_cons] at hle ⊢
      refine Nat.add_le_add hle ?_
      split_ifs with hlive' hlive
      · exact le_rfl
      · exact absurd (hhead hlive') hlive
      · exact Nat.zero_le _
      · exact le_rfl

lemma Grows.liveEntries_le (h : Grows (fun _ => False) l l') : liveEntries l' ≤ liveEntries l := by
  have hlen : l'.length = l.length := by
    refine le_antisymm ?_ h.1
    by_contra hlt
    have hi : l.length < l'.length := by omega
    rcases h.2 l.length l'[l.length] (List.getElem?_eq_getElem hi) with ⟨c, hc, _⟩ | ⟨_, hf⟩
    · simp at hc
    · exact hf
  refine liveEntries_le_of_forall hlen fun i c c' hc hc' hlive => ?_
  obtain ⟨d, hd, hev⟩ := h.getElem? hc
  rw [hc'] at hd
  cases hd
  exact hev.txLive hlive

lemma muxLts_liveEntries_le {t : String} {m : PortForwardMux} (hr : (muxLts t).Reachable m) :
    liveEntries m.chans ≤ maxChannels := by
  refine hr.invariant (P := fun m => liveEntries m.chans ≤ maxChannels) ?_ ?_
  · rintro _ rfl
    simp [PortForwardMux.new, liveEntries]
  · intro m a m' _ ih hs
    obtain ⟨out, hrule⟩ := muxLts_rule hs
    rcases hrule.grows_or_new with hg | ⟨hcap, id, window, u, _, heq⟩
    · exact hg.liveEntries_le.trans ih
    · rw [heq]
      simp only [liveEntries, List.countP_append, List.countP_cons, List.countP_nil] at hcap ⊢
      split_ifs <;> omega

/-! ### Steps of the last channel -/

section LastChannel

variable {t : String} {l : List Channel} {tx : List Sent} {c c' : Channel}

lemma retainOpen_of_dead (hl : ∀ d ∈ l, d.rx.txLive = false) : PortForwardMux.retainOpen l = l := by
  unfold PortForwardMux.retainOpen
  conv_rhs => rw [← List.map_id l]
  refine List.map_congr_left fun d hd => ?_
  split_ifs
  · rfl
  · obtain ⟨side, id, phase, opened, cancel, tx, rx, log⟩ := d
    obtain ⟨window, granted, inbound, txLive, rxLive, pc, pending, len, written, delivered, drained⟩
      := rx
    have : txLive = false := hl _ hd
    subst this
    rfl

lemma mux_step_task_last {a : Act} {e : Option Frame}
    (h : c.step ⟨false, false, false⟩ a = some (c', e)) :
    (muxLts t).step ⟨l ++ [c], tx, t, .running⟩ (.task l.length a) =
      some ⟨l ++ [c'], tx ++ e.toList.map (⟨some l.length, ·⟩), t, .running⟩ := by
  have henv : PortForwardMux.env ⟨l ++ [c], tx, t, .running⟩ = ⟨false, false, false⟩ := rfl
  simp only [muxLts, PortForwardMux.step, PortForwardMux.taskStep, henv]
  cases e <;> simp [h, PortForwardMux.enqueue]

variable (hl : ∀ d ∈ l, d.rx.txLive = false)

include hl

lemma mux_step_data_last (hc : c.rx.txLive = true) (b : Bytes) (permitted : Bool) :
    (muxLts t).step ⟨l ++ [c], tx, t, .running⟩ (.frame (.dataMsg c.id b) permitted) =
      some ⟨l ++ [c.onData b], tx, t, .running⟩ := by
  simp [muxLts, PortForwardMux.step, PortForwardMux.handle,
    withEntry_append_last _ (fun d hd _ => hl d hd) hc]

lemma mux_step_close_last (hc : c.rx.txLive = true) (permitted : Bool) :
    (muxLts t).step ⟨l ++ [c], tx, t, .running⟩ (.frame (.closeMsg c.id) permitted) =
      some ⟨l ++ [c.onClose], tx, t, .running⟩ := by
  simp [muxLts, PortForwardMux.step, PortForwardMux.handle,
    withEntry_append_last _ (fun d hd _ => hl d hd) hc]

lemma mux_step_update_last (hc : c.rx.txLive = true) (n : ℕ) (permitted : Bool) :
    (muxLts t).step ⟨l ++ [c], tx, t, .running⟩ (.frame (.windowUpdateMsg c.id n) permitted) =
      some ⟨l ++ [c.onWindowUpdate n], tx, t, .running⟩ := by
  simp [muxLts, PortForwardMux.step, PortForwardMux.handle,
    withEntry_append_last _ (fun d hd _ => hl d hd) hc]

/-- An `open` for the tunnel's target while no entry is left. -/
lemma mux_step_open_last (id : ChannelId) (host : String)
    (port : ℤ) (window : ℕ) (ht : (normalizePortForwardTarget host port).1 = t) :
    (muxLts t).step ⟨l, tx, t, .running⟩ (.frame (.openMsg id host port window) true) =
      some ⟨l ++ [Channel.controlled id window
        (unreachableMessage t (normalizePortForwardTarget host port).2)], tx, t, .running⟩ := by
  have hlive : liveEntries l = 0 := liveEntries_of_dead hl
  have hfree : findEntry l id = none := findEntry_of_dead fun d hd _ => hl d hd
  simp [muxLts, PortForwardMux.step, PortForwardMux.handle, PortForwardMux.onOpen,
    retainOpen_of_dead hl, hlive, hfree, maxChannels, ht]

end LastChannel

/-! ### The cap -/

/-- The target of the tunnel below. -/
def blockedTarget : String := (normalizePortForwardTarget "host" 22).1

/-- The tasks of the controlled side that have not finished and still have their entry: at most
`MAX_CHANNELS`, whatever the peer sends. -/
theorem live_tasks_le {t : String} {m : PortForwardMux} (hr : (muxLts t).Reachable m) :
    m.chans.countP (fun c => c.phase ≠ .finished ∧ c.rx.txLive = true) ≤ maxChannels := by
  refine le_trans (List.countP_mono_left fun c _ hc => ?_) (muxLts_liveEntries_le hr)
  simp only [decide_eq_true_eq] at hc
  exact hc.2

/-- The cap holds of the first channel of a tunnel. -/
theorem live_tasks_le_one :
    ∃ m c, (muxLts blockedTarget).step (.new blockedTarget)
      (.frame (.openMsg 1 "host" 22 channelWindow) true) = some m ∧ m.chans = [c] ∧
      c.phase ≠ .finished ∧ c.rx.txLive = true ∧
      m.chans.countP (fun c => c.phase ≠ .finished ∧ c.rx.txLive = true) ≤ maxChannels := by
  have hopen : (muxLts blockedTarget).step (.new blockedTarget)
      (.frame (.openMsg 1 "host" 22 channelWindow) true) = some ⟨[] ++ [_], [], blockedTarget, _⟩ :=
    mux_step_open_last (by simp) 1 "host" 22 channelWindow rfl
  exact ⟨_, _, hopen, rfl, by simp [Channel.controlled], rfl,
    live_tasks_le (LTS.Reachable.step (.init rfl) hopen)⟩

/-- A task whose target accepts nothing, after the peer has closed the channel: the byte it was
handed is still being written, and the `close` waits behind it. -/
def blocked : Channel where
  side := .controlled
  id := 1
  phase := .selecting
  opened := false
  cancel := false
  tx := { Sender.new channelWindow [] with pc := .check }
  rx := { Receiver.new channelWindow with
    window := ⟨channelWindow - minFrameCharge, 0⟩
    inbound := [.close]
    txLive := false
    pc := .writing [0] [0]
    delivered := [[0]] }
  log := [.openedMsg 1 true "" channelWindow]

/-- One more channel: opened, connected, handed one byte, and closed by the peer. -/
def blockOne (n : ℕ) : List MuxAct :=
  [.frame (.openMsg 1 "host" 22 channelWindow) true, .task n .recvCmd, .task n (.connected true),
    .task n .grant, .task n .announce, .write, .frame (.dataMsg 1 [0]) true,
    .task n (.receiver .next), .frame (.closeMsg 1) true]

lemma run_blockOne (hl : ∀ d ∈ l, d.rx.txLive = false) :
    (muxLts blockedTarget).run ⟨l, [], blockedTarget, .running⟩ (blockOne l.length) =
      some ⟨l ++ [blocked], [], blockedTarget, .running⟩ := by
  let u := unreachableMessage blockedTarget (normalizePortForwardTarget "host" 22).2
  let c₀ := Channel.controlled 1 channelWindow u
  let c₁ : Channel := { c₀ with phase := .connecting true u }
  let c₂ : Channel := { c₀ with phase := .granting }
  let c₃ : Channel := { c₀ with phase := .announcing, rx := Receiver.new channelWindow }
  let c₄ : Channel := { c₃.start with log := [.openedMsg 1 true "" channelWindow] }
  let c₅ : Channel := { c₄.onData [0] with
    rx := { (c₄.onData [0]).rx with inbound := [], pc := .writing [0] [0] } }
  have hgrant : (Receiver.new initialWindow).grant (channelWindow - initialWindow) =
      Receiver.new channelWindow := by decide +kernel
  have h₁ : c₀.step ⟨false, false, false⟩ .recvCmd = some (c₁, none) := rfl
  have h₂ : c₁.step ⟨false, false, false⟩ (.connected true) = some (c₂, none) := rfl
  have h₃ : c₂.step ⟨false, false, false⟩ .grant = some (c₃, none) := by
    change some (({ c₂ with
      phase := .announcing
      rx := (Receiver.new initialWindow).grant (channelWindow - initialWindow) } : Channel),
      none) = _
    rw [hgrant]
  have h₄ : c₃.step ⟨false, false, false⟩ .announce =
      some (c₄, some (.openedMsg 1 true "" channelWindow)) := rfl
  have hwrite : (muxLts blockedTarget).step
      ⟨l ++ [c₄], [⟨some l.length, .openedMsg 1 true "" channelWindow⟩], blockedTarget, .running⟩
      .write = some ⟨l ++ [c₄], [], blockedTarget, .running⟩ := rfl
  have h₅ : (c₄.onData [0]).step ⟨false, false, false⟩ (.receiver .next) = some (c₅, none) := rfl
  have h₆ : c₅.onClose = blocked := rfl
  refine (LTS.run_cons_of_step (mux_step_open_last hl 1 "host" 22 channelWindow rfl) _).trans ?_
  refine (LTS.run_cons_of_step (mux_step_task_last h₁) _).trans ?_
  refine (LTS.run_cons_of_step (mux_step_task_last h₂) _).trans ?_
  refine (LTS.run_cons_of_step (mux_step_task_last h₃) _).trans ?_
  refine (LTS.run_cons_of_step (mux_step_task_last h₄) _).trans ?_
  refine (LTS.run_cons_of_step hwrite _).trans ?_
  refine (LTS.run_cons_of_step (mux_step_data_last (c := c₄) hl rfl [0] true) _).trans ?_
  refine (LTS.run_cons_of_step (mux_step_task_last h₅) _).trans ?_
  refine (LTS.run_cons_of_step (mux_step_close_last (c := c₅) hl rfl true) _).trans ?_
  rw [LTS.run_nil, h₆]
  rfl

/-- `n` such channels, one after the other; the id is free again each time. -/
lemma blocked_reachable (n : ℕ) : (muxLts blockedTarget).Reachable
    ⟨List.replicate n blocked, [], blockedTarget, .running⟩ := by
  induction n with
  | zero => exact .init rfl
  | succ n ih =>
    have hl : ∀ d ∈ List.replicate n blocked, d.rx.txLive = false := by
      intro d hd
      rw [List.eq_of_mem_replicate hd]
      rfl
    rw [List.replicate_succ']
    exact ih.run (run_blockOne hl)

/-- More tasks than `MAX_CHANNELS` run at once: none of them can move before its target accepts
the byte. -/
theorem tasks_unbounded : ∃ m, (muxLts blockedTarget).Reachable m ∧
    maxChannels < m.chans.countP (fun c => c.phase ≠ .finished) := by
  refine ⟨_, blocked_reachable (maxChannels + 1), ?_⟩
  rw [List.countP_replicate]
  decide

end RustDesk.PortForward
