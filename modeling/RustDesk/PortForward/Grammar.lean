import RustDesk.PortForward.Window

/-!
# The frames a channel emits

The two relays of a channel, the supervisor that joins them and the connect loop of the
controlled side together emit a fixed shape: a header (`open`, or `opened` with success), data
frames and window updates in any order, and at most one `close` as the last frame of all. The
invariant follows the phase of the task (`Channel.Logged`); which of the relays ended first and
why plays no part beyond `sendsClose`.
-/

namespace RustDesk.PortForward

/-- The frames that go through `send_ordered`. -/
def ordered (fs : List Frame) : List Frame := fs.filter fun f => !f.isControl

@[simp] lemma ordered_append (fs gs : List Frame) :
    ordered (fs ++ gs) = ordered fs ++ ordered gs := List.filter_append _ _

@[simp] lemma ordered_data (id : ChannelId) (b : Bytes) :
    ordered [.dataMsg id b] = [.dataMsg id b] := rfl

@[simp] lemma ordered_close (id : ChannelId) : ordered [.closeMsg id] = [.closeMsg id] := rfl

@[simp] lemma ordered_update (id : ChannelId) (n : ℕ) : ordered [.windowUpdateMsg id n] = [] := rfl

/-- The frame with which a side starts its relays. -/
def Header (side : Side) (id : ChannelId) (f : Frame) : Prop :=
  match side with
  | .controller => ∃ host port, f = .openMsg id host port channelWindow
  | .controlled => f = .openedMsg id true "" channelWindow

/-- What the relays of a channel have emitted: a header, then data and window updates. -/
inductive Session (side : Side) (id : ChannelId) : List Frame → Prop where
  | header {f : Frame} (h : Header side id f) : Session side id [f]
  | data {l : List Frame} (b : Bytes) (h : Session side id l) :
      Session side id (l ++ [.dataMsg id b])
  | update {l : List Frame} (n : ℕ) (h : Session side id l) :
      Session side id (l ++ [.windowUpdateMsg id n])

namespace Session

variable {side : Side} {id : ChannelId} {l : List Frame} (h : Session side id l)

include h

lemma ordered_eq : ∃ (f : Frame) (ds : List Bytes), Header side id f ∧
      ordered l = f :: ds.map (Frame.dataMsg id) := by
  induction h with
  | @header f h =>
    refine ⟨f, [], h, ?_⟩
    cases side with
    | controller =>
      obtain ⟨host, port, rfl⟩ := h
      rfl
    | controlled =>
      cases h
      rfl
  | data b _ ih =>
    obtain ⟨f, ds, hf, heq⟩ := ih
    exact ⟨f, ds ++ [b], hf, by simp [heq]⟩
  | update n _ ih =>
    obtain ⟨f, ds, hf, heq⟩ := ih
    exact ⟨f, ds, hf, by simp [heq]⟩

/-- The header stands before everything else. -/
lemma eq_cons : ∃ f rest, Header side id f ∧ l = f :: rest := by
  induction h with
  | header h => exact ⟨_, [], h, rfl⟩
  | data b _ ih | update n _ ih =>
    obtain ⟨f, rest, hf, rfl⟩ := ih
    exact ⟨f, _, hf, rfl⟩

lemma close_notMem : Frame.closeMsg id ∉ l := by
  induction h with
  | header h =>
    cases side with
    | controller =>
      obtain ⟨host, port, rfl⟩ := h
      simp
    | controlled =>
      cases h
      simp
  | data b _ ih | update n _ ih => simp [ih]

lemma channelId_eq : ∀ f ∈ l, f.channelId = id := by
  induction h with
  | header h =>
    cases side with
    | controller =>
      obtain ⟨host, port, rfl⟩ := h
      simp [Frame.channelId]
    | controlled =>
      cases h
      simp [Frame.channelId]
  | data b _ ih | update n _ ih =>
    intro f hf
    rcases List.mem_append.mp hf with hf | hf
    · exact ih f hf
    · rw [List.mem_singleton.mp hf]
      rfl

end Session

namespace Channel

/-- The log of a task that has left its relays, or never started them. -/
def Ended (c : Channel) : Prop :=
  c.log = [] ∨ Session c.side c.id c.log ∨
  (c.side = .controlled ∧ ∃ m, c.log = [.openedMsg c.id false m 0]) ∨
  (c.rx.pc ≠ .ended .peerClosed ∧ ((c.side = .controlled ∧ c.log = [.closeMsg c.id]) ∨
    ∃ l, Session c.side c.id l ∧ c.log = l ++ [.closeMsg c.id]))

/-- What the phase of a task says about its log. -/
structure Logged (c : Channel) : Prop where
  early : c.phase.early = true → c.log = []
  opening : (∃ host port, c.phase = .opening host port) → c.side = .controller
  connecting : c.phase.early = true → (¬∃ host port, c.phase = .opening host port) →
    c.side = .controlled
  relaying : c.phase.relaying = true → Session c.side c.id c.log
  closing : c.phase = .closing → Session c.side c.id c.log ∧ c.rx.pc ≠ .ended .peerClosed
  ended : c.phase = .removing ∨ c.phase = .finished → c.Ended

namespace Logged

variable {c c' : Channel} {env : Env} {e : Option Frame}

/-- The task moves on before the header, emitting nothing. -/
lemma stay (h : c.Logged) (he : c.phase.early = true) (hlog : c'.log = c.log)
    (hside : c'.side = c.side) (he' : c'.phase.early = true)
    (hop : (∃ host port, c'.phase = .opening host port) ↔
      ∃ host port, c.phase = .opening host port) :
    c'.Logged where
  early _ := hlog.trans (h.early he)
  opening ho := hside.trans (h.opening (hop.mp ho))
  connecting _ hn := hside.trans (h.connecting he (fun ho => hn (hop.mpr ho)))
  relaying hr := by cases hp : c'.phase <;> simp_all [Phase.early, Phase.relaying]
  closing hp := by simp [hp, Phase.early] at he'
  ended hp := by rcases hp with hp | hp <;> simp [hp, Phase.early] at he'

lemma of_ended (h : c.Ended) (hp : c.phase = .removing ∨ c.phase = .finished) : c.Logged where
  early he := by rcases hp with hp | hp <;> simp [hp, Phase.early] at he
  opening ho := by
    obtain ⟨host, port, ho⟩ := ho
    simp [ho] at hp
  connecting he := by rcases hp with hp | hp <;> simp [hp, Phase.early] at he
  relaying hr := by rcases hp with hp | hp <;> simp [hp, Phase.relaying] at hr
  closing hc := by simp [hc] at hp
  ended _ := h

lemma of_session (h : Session c.side c.id c.log) (hp : c.phase = .selecting ∨ c.phase = .joining) :
    c.Logged where
  early he := by rcases hp with hp | hp <;> simp [hp, Phase.early] at he
  opening ho := by
    obtain ⟨host, port, ho⟩ := ho
    simp [ho] at hp
  connecting he := by rcases hp with hp | hp <;> simp [hp, Phase.early] at he
  relaying _ := h
  closing hc := by simp [hc] at hp
  ended he := by rcases hp with hp | hp <;> simp [hp] at he

lemma session (h : c.Logged) (hp : c.phase = .selecting ∨ c.phase = .joining) :
    Session c.side c.id c.log :=
  h.relaying (by rcases hp with hp | hp <;> simp [hp, Phase.relaying])

lemma afterRun (h : c.Ended) : c.afterRun.Logged := by
  unfold Channel.afterRun
  split
  · exact of_ended h (Or.inl rfl)
  · exact of_ended h (Or.inr rfl)

lemma rule (h : c.Logged) (hw : c.Windowed) (hr : Rule env c c' e) : c'.Logged := by
  cases hr with
  | openGone hp hc => exact of_ended (Or.inl (h.early (by simp [hp, Phase.early]))) (Or.inl rfl)
  | sendOpen hp hc =>
    refine of_session ?_ (Or.inl rfl)
    simp only [Channel.start, h.early (by simp [hp, Phase.early]), List.nil_append,
      h.opening ⟨_, _, hp⟩]
    exact .header ⟨_, _, rfl⟩
  | buffer hp hq hf =>
    exact h.stay (by simp [hp, Phase.early]) rfl rfl (by simp [hp, Phase.early]) Iff.rfl
  | overflow hp hq hf | cmdViolation hp hq | cmdNone hp hq ht | connectPending hp | connected hp
  | connectFailed hp | grant hp =>
    exact h.stay (by simp [hp, Phase.early]) rfl rfl (by simp [Phase.early]) (by simp [hp])
  | cmdClose hp hq | cmdGone hp hq ht =>
    exact of_ended (Or.inl (h.early (by simp [hp, Phase.early]))) (Or.inr rfl)
  | abort hp hc =>
    have hpc := (hw.early (by simp [hp, Phase.early])).1
    refine of_ended (Or.inr (Or.inr (Or.inr ⟨?_, Or.inl ⟨?_, ?_⟩⟩))) (Or.inr rfl)
    · simp [Channel.finish, Receiver.close, hpc]
    · exact h.connecting (by simp [hp, Phase.early]) (by simp [hp])
    · simp [Channel.finish, h.early (by simp [hp, Phase.early])]
  | refuse hp hc =>
    rename_i m
    refine of_ended (Or.inr (Or.inr (Or.inl ⟨?_, m, ?_⟩))) (Or.inr rfl)
    · exact h.connecting (by simp [hp, Phase.early]) (by simp [hp])
    · simp [Channel.finish, h.early (by simp [hp, Phase.early])]
  | announce hp hc =>
    refine of_session ?_ (Or.inl rfl)
    simp only [Channel.start, h.early (by simp [hp, Phase.early]), List.nil_append,
      h.connecting (by simp [hp, Phase.early]) (by simp [hp])]
    exact .header rfl
  | sinkGone hp hc =>
    refine of_ended (Or.inl (h.early ?_)) (Or.inr rfl)
    rcases hp with hp | ⟨m, hp⟩ | hp <;> simp [hp, Phase.early]
  | sender hp hs =>
    refine of_session ?_ hp
    rcases hs.emits with rfl | ⟨b, _, rfl⟩
    · simpa using h.session hp
    · exact .data b (h.session hp)
  | receiver hp hs =>
    refine of_session ?_ hp
    rcases hs.emits with rfl | ⟨n, _, rfl⟩
    · simpa using h.session hp
    · exact .update n (h.session hp)
  | select hp hs => exact of_session (h.session (Or.inl hp)) (Or.inr rfl)
  | joinClose hp ht hr hs =>
    exact {
      early := by simp [Phase.early]
      opening := by simp
      connecting := by simp [Phase.early]
      relaying := by simp [Phase.relaying]
      closing := fun _ => ⟨h.session (Or.inr hp), by
        rintro heq
        rw [hr] at heq
        cases heq
        simp [sendsClose] at hs⟩
      ended := by simp }
  | join hp ht hr hs => exact afterRun (Or.inr (Or.inl (h.session (Or.inr hp))))
  | close hp hc =>
    obtain ⟨hses, hpc⟩ := h.closing hp
    have hend : ({ c with log := c.log ++ [.closeMsg c.id] } : Channel).Ended :=
      Or.inr (Or.inr (Or.inr ⟨hpc, Or.inr ⟨c.log, hses, rfl⟩⟩))
    rw [afterRun_with_log]
    exact afterRun hend
  | closeGone hp hc => exact afterRun (Or.inr (Or.inl (h.closing hp).1))
  | remove hp => exact of_ended (h.ended (Or.inl hp)) (Or.inr rfl)

lemma sameTask (h : c.Logged) (hs : c.SameTask c') : c'.Logged := by
  obtain ⟨hid, hside, hphase, -, hlog, -, hpc, -⟩ := hs
  have hended : c.Ended → c'.Ended := by
    unfold Ended
    rw [hid, hside, hlog, hpc]
    exact fun he => he
  exact {
    early := by rw [hphase, hlog]; exact h.early
    opening := by rw [hphase, hside]; exact h.opening
    connecting := by rw [hphase, hside]; exact h.connecting
    relaying := by rw [hphase, hside, hid, hlog]; exact h.relaying
    closing := by rw [hphase, hside, hid, hlog, hpc]; exact h.closing
    ended := fun hp => hended (h.ended (hphase ▸ hp)) }

lemma moves (h : c.Windowed ∧ c.Logged) (hm : Moves env c c' e) : c'.Windowed ∧ c'.Logged := by
  refine ⟨h.1.moves hm, ?_⟩
  rcases hm.task_or_same with hr | ⟨hs, _⟩
  · exact h.2.rule h.1 hr
  · exact h.2.sameTask hs

/-- Every phase leaves one of the logs of a task that may still emit or has ended. -/
lemma cases (h : c.Logged) : c.Ended := by
  cases hp : c.phase with
  | opening | connecting | aborting | refusing | granting | announcing =>
    exact Or.inl (h.early (by simp [hp, Phase.early]))
  | selecting | joining => exact Or.inr (Or.inl (h.relaying (by simp [hp, Phase.relaying])))
  | closing => exact Or.inr (Or.inl (h.closing hp).1)
  | removing => exact h.ended (Or.inl hp)
  | finished => exact h.ended (Or.inr hp)

end Logged

lemma controller_logged (id : ChannelId) (host : String) (port : ℤ) (prebuf : Bytes) :
    (controller id host port prebuf).Logged where
  early _ := rfl
  opening _ := rfl
  connecting _ hn := (hn ⟨host, port, rfl⟩).elim
  relaying := by simp [controller, Phase.relaying]
  closing := by simp [controller]
  ended := by simp [controller]

lemma controlled_logged (id : ChannelId) (window : ℕ) (u : String) :
    (controlled id window u).Logged where
  early _ := rfl
  opening := by simp [controlled]
  connecting _ _ := rfl
  relaying := by simp [controlled, Phase.relaying]
  closing := by simp [controlled]
  ended := by simp [controlled]

end Channel

lemma handleLts_logged {h : TunnelHandle} (hr : handleLts.Reachable h) :
    ∀ c ∈ h.chans, c.Windowed ∧ c.Logged :=
  handleLts_forall (fun _ _ _ _ hc hm => Channel.Logged.moves hc hm)
    (fun _ _ _ _ => ⟨Channel.controller_windowed .., Channel.controller_logged ..⟩) hr

lemma muxLts_logged {t : String} {m : PortForwardMux} (hr : (muxLts t).Reachable m) :
    ∀ c ∈ m.chans, c.Windowed ∧ c.Logged :=
  muxLts_forall (fun _ _ _ _ hc hm => Channel.Logged.moves hc hm)
    (fun _ _ _ => ⟨Channel.controlled_windowed .., Channel.controlled_logged ..⟩) hr

/-! ### The grammar -/

/-- Data frames, and at most one `close` after them. -/
def Body (id : ChannelId) (fs : List Frame) : Prop :=
  ∃ ds : List Bytes,
    fs = ds.map (Frame.dataMsg id) ∨ fs = ds.map (Frame.dataMsg id) ++ [.closeMsg id]

/-- `open data* close?`, as far as the task has come. -/
def ControllerFrames (id : ChannelId) (fs : List Frame) : Prop :=
  fs = [] ∨ ∃ host port rest, fs = .openMsg id host port channelWindow :: rest ∧ Body id rest

/-- `opened(false)`, or `close`, or nothing, or `opened(true) data* close?`. -/
def ControlledFrames (id : ChannelId) (fs : List Frame) : Prop :=
  fs = [] ∨ (∃ m, fs = [.openedMsg id false m 0]) ∨ fs = [.closeMsg id] ∨
  ∃ rest, fs = .openedMsg id true "" channelWindow :: rest ∧ Body id rest

namespace Channel

variable {c : Channel}

/-- What holds of a log on either side. -/
structure Emits (c : Channel) : Prop where
  own : ∀ f ∈ c.log, f.channelId = c.id
  close_last : ∀ l₁ l₂, c.log = l₁ ++ .closeMsg c.id :: l₂ → l₂ = []
  peerClosed : c.rx.pc = .ended .peerClosed → .closeMsg c.id ∉ c.log

variable (h : c.Ended)

include h

lemma Ended.own : ∀ f ∈ c.log, f.channelId = c.id := by
  rcases h with h | h | ⟨_, m, h⟩ | ⟨_, ⟨_, h⟩ | ⟨l, hl, h⟩⟩
  · simp [h]
  · exact h.channelId_eq
  · simp [h, Frame.channelId]
  · simp [h, Frame.channelId]
  · intro f hf
    rw [h] at hf
    rcases List.mem_append.mp hf with hf | hf
    · exact hl.channelId_eq f hf
    · rw [List.mem_singleton.mp hf]
      rfl

/-- Before a `close` there is none. -/
lemma Ended.close_split (hc : .closeMsg c.id ∈ c.log) :
    c.rx.pc ≠ .ended .peerClosed ∧ ∃ l, c.log = l ++ [.closeMsg c.id] ∧ .closeMsg c.id ∉ l := by
  rcases h with h | h | ⟨_, m, h⟩ | ⟨hpc, ⟨_, h⟩ | ⟨l, hl, h⟩⟩
  · simp [h] at hc
  · exact (h.close_notMem hc).elim
  · simp [h] at hc
  · exact ⟨hpc, [], h, by simp⟩
  · exact ⟨hpc, l, h, hl.close_notMem⟩

lemma Ended.emits : c.Emits where
  own := h.own
  close_last l₁ l₂ heq := by
    obtain ⟨_, l, hl, hnot⟩ := h.close_split (by simp [heq])
    rcases List.eq_nil_or_concat l₂ with rfl | ⟨l₃, f, rfl⟩
    · rfl
    · have heq' : l ++ [.closeMsg c.id] = (l₁ ++ .closeMsg c.id :: l₃) ++ [f] := by
        rw [← hl, heq]
        simp
      have := (List.append_inj' heq' rfl).1
      simp [this] at hnot
  peerClosed hpc hc := (h.close_split hc).1 hpc

/-- On the controlled side everything but a lone refusal or `close` follows `opened(true)`. -/
lemma Ended.after_opened (hs : c.side = .controlled) {l₁ l₂ : List Frame} {n : ℕ}
    (heq : c.log = l₁ ++ .windowUpdateMsg c.id n :: l₂) :
    .openedMsg c.id true "" channelWindow ∈ l₁ := by
  have hcons : ∃ rest, c.log = .openedMsg c.id true "" channelWindow :: rest := by
    rcases h with h | h | ⟨_, m, h⟩ | ⟨_, ⟨_, h⟩ | ⟨l, hl, h⟩⟩
    · simp [h] at heq
    · rw [hs] at h
      obtain ⟨f, rest, rfl, hcons⟩ := h.eq_cons
      exact ⟨rest, hcons⟩
    · rw [h] at heq
      cases l₁ <;> simp at heq
    · rw [h] at heq
      cases l₁ <;> simp at heq
    · rw [hs] at hl
      obtain ⟨f, rest, rfl, rfl⟩ := hl.eq_cons
      exact ⟨_, h⟩
  obtain ⟨rest, hcons⟩ := hcons
  rw [hcons] at heq
  cases l₁ with
  | nil => simp at heq
  | cons f l₁ => simp_all

lemma Ended.controllerFrames (hs : c.side = .controller) :
    ControllerFrames c.id (ordered c.log) := by
  rcases h with h | h | ⟨h, _⟩ | ⟨_, ⟨h, _⟩ | ⟨l, hl, h⟩⟩
  · exact Or.inl (by rw [h]; rfl)
  · rw [hs] at h
    obtain ⟨f, ds, ⟨host, port, rfl⟩, heq⟩ := h.ordered_eq
    exact Or.inr ⟨host, port, _, heq, ds, Or.inl rfl⟩
  · rw [hs] at h
    cases h
  · rw [hs] at h
    cases h
  · rw [hs] at hl
    obtain ⟨f, ds, ⟨host, port, rfl⟩, heq⟩ := hl.ordered_eq
    exact Or.inr ⟨host, port, ds.map (Frame.dataMsg c.id) ++ [.closeMsg c.id], by simp [h, heq],
      ds, Or.inr rfl⟩

lemma Ended.controlledFrames (hs : c.side = .controlled) :
    ControlledFrames c.id (ordered c.log) := by
  rcases h with h | h | ⟨_, m, h⟩ | ⟨_, ⟨_, h⟩ | ⟨l, hl, h⟩⟩
  · exact Or.inl (by rw [h]; rfl)
  · rw [hs] at h
    obtain ⟨f, ds, rfl, heq⟩ := h.ordered_eq
    exact Or.inr (Or.inr (Or.inr ⟨_, heq, ds, Or.inl rfl⟩))
  · exact Or.inr (Or.inl ⟨m, by rw [h]; rfl⟩)
  · exact Or.inr (Or.inr (Or.inl (by rw [h]; rfl)))
  · rw [hs] at hl
    obtain ⟨f, ds, rfl, heq⟩ := hl.ordered_eq
    exact Or.inr (Or.inr (Or.inr ⟨ds.map (Frame.dataMsg c.id) ++ [.closeMsg c.id],
      by simp [h, heq], ds, Or.inr rfl⟩))

end Channel

/-- Whatever the peer and the sockets do, a channel of the controller emits `open data* close?`
and one of the controlled side `opened(false)`, or `close`, or nothing, or
`opened(true) data* close?`; a `close` is the last frame of its channel, never echoes the peer's,
and no window update of the controlled side is ahead of `opened`. A channel of the controller is
told from the others by its id as long as the counter has not come round. -/
theorem frame_grammar :
    (∀ h, handleLts.Reachable h →
      (∀ c ∈ h.chans, ControllerFrames c.id (ordered c.log) ∧ c.Emits) ∧
      (h.chans.length ≤ 2 ^ 32 → ∀ (i j : ℕ) (c d : Channel), h.chans[i]? = some c →
        h.chans[j]? = some d → c.id = d.id → i = j)) ∧
    (∀ t m, (muxLts t).Reachable m → ∀ c ∈ m.chans,
      ControlledFrames c.id (ordered c.log) ∧ c.Emits ∧
      ∀ l₁ n l₂, c.log = l₁ ++ .windowUpdateMsg c.id n :: l₂ →
        .openedMsg c.id true "" channelWindow ∈ l₁) := by
  refine ⟨fun h hr => ⟨fun c hc => ?_, fun hlen i j c d hc hd hid => ?_⟩, fun t m hr c hc => ?_⟩
  · have hended := (handleLts_logged hr c hc).2.cases
    exact ⟨hended.controllerFrames (handleLts_side hr c hc), hended.emits⟩
  · exact handleLts_id_inj hr hlen hc hd hid
  · have hended := (muxLts_logged hr c hc).2.cases
    have hside := muxLts_side hr c hc
    exact ⟨hended.controlledFrames hside, hended.emits,
      fun _ _ _ heq => hended.after_opened hside heq⟩

/-- A channel whose socket ends at once: `open`, then `close`. -/
theorem frame_grammar_eof :
    ∃ h c, handleLts.run TunnelHandle.new
      ([.beginOpen ⟨"host", 22, []⟩, .insert] ++
        [.sendOpen, .sender .check, .sender (.read []), .sender .refund, .sender .notify,
          .selectSender, .receiver .cancel, .join, .close].map (.task 0)) = some h ∧
      h.chans = [c] ∧ c.log = [.openMsg 1 "host" 22 channelWindow, .closeMsg 1] ∧
      ControllerFrames c.id (ordered c.log) ∧ c.Emits := by
  simp only [exists_and_left]
  refine LTS.exists_run_of (P := fun h => h.chans.map Channel.log =
    [[.openMsg 1 "host" 22 channelWindow, .closeMsg 1]]) ⟨_, rfl, rfl⟩ ?_
  intro h hrun hlogs
  obtain ⟨c, hc, hlog⟩ := List.map_eq_singleton_iff.mp hlogs
  refine ⟨c, hc, hlog, ?_⟩
  exact (frame_grammar.1 h ((LTS.Reachable.init rfl).run hrun)).1 c (by simp [hc])

end RustDesk.PortForward
