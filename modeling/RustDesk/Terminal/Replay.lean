import RustDesk.Lib.Transition
import RustDesk.Terminal.OutputBuffer
import RustDesk.Terminal.Response

/-!
# Replay and live output of a terminal

The reader thread of a terminal puts output into a channel. `read_outputs` takes it from there into
the buffer of the session and, while a client has the terminal open, into messages. A client that
opens the terminal again gets the end of the buffer first, as the pending buffer of the session, and
then what comes out of the channel. So what it gets is one piece of the output.

Output can enter the channel while it is being drained; `during` is what does. A session whose shell
has exited is removed, and opening makes a new one.
-/

namespace RustDesk.Terminal

/-- `CHANNEL_BUFFER_SIZE` -/
def channelBufferSize : ℕ := 500

/-- `DEFAULT_RECONNECT_BUFFER_BYTES` -/
def defaultReconnectBufferBytes : ℕ := 8 * 1024

/-- `MAX_SIGWINCH_PHASE_ATTEMPTS` -/
def maxSigwinchPhaseAttempts : ℕ := 3

inductive SigwinchPhase where
  | idle
  | tempResize (retries : ℕ)
  | restore (retries : ℕ)
  deriving DecidableEq

/-- What a call of `read_outputs` does about the phase; `resizeOk` says that the resize works, if
there is one. -/
def SigwinchPhase.next (resizeOk : Bool) : SigwinchPhase → SigwinchPhase
  | .idle => .idle
  | .tempResize 0 => .idle
  | .tempResize (retries + 1) =>
    if resizeOk then .restore maxSigwinchPhaseAttempts else .tempResize retries
  | .restore 0 => .idle
  | .restore (retries + 1) => if resizeOk then .idle else .restore retries

inductive SessionState where
  | closed
  | active (pendingBuffer : Option Bytes) (sigwinch : SigwinchPhase)
  deriving DecidableEq

/-- `TerminalSession`, with the output channel of its reader thread. -/
structure Session where
  outputBuffer : OutputBuffer := {}
  channel : List Bytes := []
  closedMessageSent : Bool := false
  state : SessionState := .closed
  deriving DecidableEq

/-- What a client is told about the terminal it has opened. -/
structure TerminalOpened where
  success : Bool
  message : String
  replayTerminalOutput : Bool
  deriving DecidableEq

namespace Session

/-- A new terminal. -/
def opened : TerminalOpened × Session :=
  (⟨true, "Terminal opened", false⟩, { state := .active none .idle })

/-- `handle_open` for a terminal that is there. -/
def reconnect (s : Session) (during : List Bytes) : TerminalOpened × Session :=
  let recent := s.outputBuffer.getRecent defaultReconnectBufferBytes
  let available := s.channel ++ during
  let backlog := available.take channelBufferSize
  let outputBuffer := backlog.foldl OutputBuffer.append s.outputBuffer
  let buffer :=
    if backlog.isEmpty then recent else outputBuffer.getRecent defaultReconnectBufferBytes
  let hasPending := !buffer.isEmpty
  (⟨true,
    if hasPending then "Reconnected to existing terminal with pending output"
    else "Reconnected to existing terminal", hasPending⟩,
    { s with
      outputBuffer
      channel := available.drop channelBufferSize
      state := .active (if hasPending then some buffer else none)
        (.tempResize maxSigwinchPhaseAttempts) })

/-- `read_outputs` for one terminal: the data of its messages. `ended` says that the reader thread
or the shell is found to have finished. -/
def readOutputs (s : Session) (during : List Bytes) (ended resizeOk : Bool) :
    List Bytes × Session :=
  let receivedData := s.channel ++ during
  let s := { s with
    closedMessageSent := s.closedMessageSent || ended
    channel := []
    outputBuffer := receivedData.foldl OutputBuffer.append s.outputBuffer }
  match s.state with
  | .closed => ([], s)
  | .active pendingBuffer sigwinch =>
    ((pendingBuffer.filter (!·.isEmpty)).toList ++ receivedData,
      { s with state := .active none (sigwinch.next resizeOk) })

end Session

/-- A message of output, with the call of the compressor it was made with. -/
structure Message (z : Zstd) where
  data : Bytes
  attempt : Attempt z data

/-- What the client makes of the message. -/
def Message.received {z : Zstd} (terminalId : ℤ) (m : Message z) : Bytes :=
  (createTerminalDataResponse terminalId m.data m.attempt).output z

/-- A terminal and its client: all output that has entered the channel, how much of it had been
taken from there when the terminal was last opened, and the messages to the client since. -/
structure World (z : Zstd) where
  session : Option Session := none
  produced : Bytes := []
  point : ℕ := 0
  sent : List (Message z) := []

inductive Act (z : Zstd) where
  | produce (data : Bytes)
  | handleOpen (during : List Bytes)
  | resetStatus
  | readOutputs (during : List Bytes) (ended resizeOk : Bool) (zip : ℕ → ∀ data, Attempt z data)
  /-- The session is locked, so that `read_outputs` passes it by. -/
  | locked
  | remove
  | handleClose

namespace World

variable {z : Zstd}

/-- The bytes of all messages. -/
def sentBytes (w : World z) : Bytes := w.sent.flatMap Message.data

def openNew : World z := { session := some Session.opened.2 }

def reopen (w : World z) (s : Session) (during : List Bytes) : World z :=
  let produced := w.produced ++ during.flatten
  let s := (s.reconnect during).2
  { session := some s
    produced
    point := produced.length - s.channel.flatten.length }

def readOutputs (w : World z) (s : Session) (during : List Bytes) (ended resizeOk : Bool)
    (zip : ℕ → ∀ data, Attempt z data) : World z :=
  let (datas, s) := s.readOutputs during ended resizeOk
  { w with
    session := some s
    produced := w.produced ++ during.flatten
    sent := w.sent ++ datas.zipIdx.map fun (data, i) => ⟨data, zip i data⟩ }

def step (w : World z) : Act z → Option (World z)
  | .produce data =>
    match w.session with
    | some s =>
      -- a chunk that finds the channel full is lost
      if s.channel.length < channelBufferSize then
        some { w with
          session := some { s with channel := s.channel ++ [data] }
          produced := w.produced ++ data }
      else none
    | none => none
  | .handleOpen during =>
    match w.session with
    | some s => some (w.reopen s during)
    | none => some openNew
  | .resetStatus =>
    some { w with session := w.session.map fun s => { s with state := .closed } }
  | .readOutputs during ended resizeOk zip =>
    w.session.map fun s => w.readOutputs s during ended resizeOk zip
  | .locked => some w
  | .remove =>
    match w.session with
    | some s => if s.closedMessageSent then some { w with session := none } else none
    | none => none
  | .handleClose => some { w with session := none }

end World

/-- A terminal that is opened, used and opened again. -/
def terminals (z : Zstd) : LTS (World z) (Act z) where
  init w := w = {}
  step := World.step

/-! ### One piece of the output -/

/-- The bytes are the end of the output up to `point` and then the output up to `upto`. -/
structure Contiguous (output : Bytes) (point upto : ℕ) (bytes : Bytes) : Prop where
  point_le : point ≤ upto
  upto_le : upto ≤ output.length
  bytes_eq : ∃ replay, replay <:+ output.take point ∧
    bytes = replay ++ (output.take upto).drop point

variable {output bytes : Bytes} {point upto : ℕ} {s : Session}

lemma contiguous_nil (h : point ≤ output.length) : Contiguous output point point [] := by
  refine ⟨le_rfl, h, [], List.nil_suffix, ?_⟩
  simp

lemma Contiguous.mono (h : Contiguous output point upto bytes) (more : Bytes) :
    Contiguous (output ++ more) point upto bytes := by
  obtain ⟨hpoint, hupto, replay, hreplay, hbytes⟩ := h
  refine ⟨hpoint, hupto.trans (by simp), replay, ?_, ?_⟩
  · rwa [List.take_append_of_le_length (hpoint.trans hupto)]
  · rwa [List.take_append_of_le_length hupto]

lemma Contiguous.live (h : Contiguous output point output.length bytes) (more : Bytes) :
    Contiguous (output ++ more) point (output ++ more).length (bytes ++ more) := by
  obtain ⟨hpoint, -, replay, hreplay, hbytes⟩ := h
  refine ⟨hpoint.trans (by simp), le_rfl, replay, ?_, ?_⟩
  · rwa [List.take_append_of_le_length hpoint]
  · rw [List.take_length] at hbytes ⊢
    rw [hbytes, List.drop_append_of_le_length hpoint, List.append_assoc]

/-- The end of the output is where live output goes on. -/
lemma contiguous_of_suffix (h : bytes <:+ output) :
    Contiguous output output.length output.length bytes := by
  refine ⟨le_rfl, le_rfl, bytes, ?_, ?_⟩
  · rwa [List.take_length]
  · simp

/-! ### What the calls do to a session -/

/-- Where the client of a session is, of the output that was taken from the channel. -/
inductive Serves (taken : Bytes) (point : ℕ) : Bytes → SessionState → Prop where
  | waiting {pending : Bytes} {sigwinch : SigwinchPhase} (hpoint : point = taken.length)
    (hpending : pending <:+ taken) : Serves taken point [] (.active (some pending) sigwinch)
  | streaming {bytes : Bytes} {sigwinch : SigwinchPhase}
    (h : Contiguous taken point taken.length bytes) :
    Serves taken point bytes (.active none sigwinch)
  | closed {bytes : Bytes} {upto : ℕ} (h : Contiguous taken point upto bytes) :
    Serves taken point bytes .closed

lemma Serves.contiguous {state : SessionState} (h : Serves output point bytes state) :
    ∃ upto, Contiguous output point upto bytes := by
  cases h with
  | waiting hpoint => exact ⟨point, contiguous_nil hpoint.le⟩
  | streaming h => exact ⟨_, h⟩
  | closed h => exact ⟨_, h⟩

/-- After a call of `read_outputs` the client has what it had, and the messages. -/
lemma Serves.readOutputs (h : Serves output point bytes s.state) (during : List Bytes)
    (ended resizeOk : Bool) : Serves (output ++ (s.channel ++ during).flatten) point
      (bytes ++ (s.readOutputs during ended resizeOk).1.flatten)
      (s.readOutputs during ended resizeOk).2.state := by
  obtain ⟨buffer, channel, closedMessageSent, state⟩ := s
  cases h with
  | @waiting pending sigwinch hpoint hpending =>
    subst hpoint
    have hreplay : ((some pending).filter (!·.isEmpty)).toList.flatten = pending := by
      cases pending with
      | nil => rfl
      | cons => simp [Option.filter]
    have hlive := (contiguous_of_suffix hpending).live (channel ++ during).flatten
    refine .streaming ?_
    rw [← hreplay, ← List.flatten_append] at hlive
    exact hlive
  | streaming h => exact .streaming (h.live _)
  | closed h =>
    have hmore := h.mono (channel ++ during).flatten
    exact .closed (by simpa [Session.readOutputs] using hmore)

/-- Draining nothing leaves the buffer as it is, so the replay is always the end of the buffer. -/
lemma Session.state_reconnect (s : Session) (during : List Bytes) : (s.reconnect during).2.state =
      .active ((some ((s.reconnect during).2.outputBuffer.getRecent
          defaultReconnectBufferBytes)).filter (!·.isEmpty))
        (.tempResize maxSigwinchPhaseAttempts) := by
  have hbuffer (backlog : List Bytes) (maxBytes : ℕ) :
      (if backlog.isEmpty then s.outputBuffer.getRecent maxBytes
        else (backlog.foldl OutputBuffer.append s.outputBuffer).getRecent maxBytes) =
      (backlog.foldl OutputBuffer.append s.outputBuffer).getRecent maxBytes := by
    cases backlog <;> rfl
  simp only [reconnect, hbuffer, Option.filter_some]

/-- The client that opens a terminal again waits for the end of what the buffer then holds. -/
lemma serves_reconnect {during : List Bytes}
    (h : (s.reconnect during).2.outputBuffer.content <:+ output) :
    Serves output output.length [] (s.reconnect during).2.state := by
  have hrecent := (OutputBuffer.getRecent_suffix (s.reconnect during).2.outputBuffer
    defaultReconnectBufferBytes).trans h
  rw [Session.state_reconnect, Option.filter_some]
  split_ifs with hpending
  · exact .waiting rfl hrecent
  · exact .streaming (contiguous_nil le_rfl)

/-! ### The invariant -/

namespace World

variable {z : Zstd} {w : World z} {s : Session} {taken : Bytes}

/-- What was taken from the channel is the output but for what is in the channel, and the buffer
holds the end of it. -/
structure Keeps (w : World z) (s : Session) (taken : Bytes) : Prop where
  produced : w.produced = taken ++ s.channel.flatten
  buffered : s.outputBuffer.content <:+ taken
  serves : Serves taken w.point w.sentBytes s.state

inductive Continuous (w : World z) : Prop where
  | present {s : Session} {taken : Bytes} (hsession : w.session = some s) (h : w.Keeps s taken)
  | absent {upto : ℕ} (hsession : w.session = none)
    (h : Contiguous w.produced w.point upto w.sentBytes)

lemma Keeps.contiguous (h : w.Keeps s taken) :
    ∃ upto, Contiguous w.produced w.point upto w.sentBytes := by
  obtain ⟨upto, hupto⟩ := h.serves.contiguous
  exact ⟨upto, h.produced ▸ hupto.mono _⟩

lemma sentBytes_readOutputs (w : World z) (s : Session) (during : List Bytes)
    (ended resizeOk : Bool) (zip : ℕ → ∀ data, Attempt z data) :
    (w.readOutputs s during ended resizeOk zip).sentBytes =
      w.sentBytes ++ (s.readOutputs during ended resizeOk).1.flatten := by
  have hdata (datas : List Bytes) :
      (datas.zipIdx.map fun (data, i) => (⟨data, zip i data⟩ : Message z)).flatMap Message.data =
        datas.flatten := by
    rw [List.flatMap, List.map_map]
    exact congrArg List.flatten (List.zipIdx_map_fst 0 datas)
  rw [sentBytes, readOutputs, List.flatMap_append, hdata]
  rfl

lemma Keeps.readOutputs (h : w.Keeps s taken) (during : List Bytes) (ended resizeOk : Bool)
    (zip : ℕ → ∀ data, Attempt z data) :
    (w.readOutputs s during ended resizeOk zip).Keeps (s.readOutputs during ended resizeOk).2
      (taken ++ (s.channel ++ during).flatten) where
  produced := by
    have hchannel : (s.readOutputs during ended resizeOk).2.channel = [] := by
      unfold Session.readOutputs
      cases s.state <;> rfl
    rw [hchannel, List.flatten_nil, List.append_nil, List.flatten_append, ← List.append_assoc,
      ← h.produced]
    rfl
  buffered := by
    have hbuffer : (s.readOutputs during ended resizeOk).2.outputBuffer =
        (s.channel ++ during).foldl OutputBuffer.append s.outputBuffer := by
      unfold Session.readOutputs
      cases s.state <;> rfl
    rw [hbuffer]
    exact (OutputBuffer.foldl_append_suffix _ _).trans (List.suffix_append_self_iff.mpr h.buffered)
  serves := by
    rw [sentBytes_readOutputs]
    exact h.serves.readOutputs during ended resizeOk

lemma Keeps.reopen (h : w.Keeps s taken) (during : List Bytes) :
    (w.reopen s during).Keeps (s.reconnect during).2
      (taken ++ ((s.channel ++ during).take channelBufferSize).flatten) := by
  have hproduced : (w.reopen s during).produced =
      taken ++ ((s.channel ++ during).take channelBufferSize).flatten ++
        (s.reconnect during).2.channel.flatten := by
    show w.produced ++ during.flatten = _ ++ ((s.channel ++ during).drop channelBufferSize).flatten
    rw [List.append_assoc, ← List.flatten_append, List.take_append_drop, h.produced,
      List.flatten_append, List.append_assoc]
  have hbuffered : (s.reconnect during).2.outputBuffer.content <:+
      taken ++ ((s.channel ++ during).take channelBufferSize).flatten :=
    (OutputBuffer.foldl_append_suffix _ _).trans (List.suffix_append_self_iff.mpr h.buffered)
  have hpoint : (w.reopen s during).point =
      (taken ++ ((s.channel ++ during).take channelBufferSize).flatten).length := by
    show (w.reopen s during).produced.length - (s.reconnect during).2.channel.flatten.length = _
    rw [hproduced, List.length_append, Nat.add_sub_cancel]
  refine ⟨hproduced, hbuffered, ?_⟩
  rw [hpoint]
  exact serves_reconnect hbuffered

lemma Continuous.step {w' : World z} {a : Act z} (h : w.Continuous) (hstep : w.step a = some w') :
    w'.Continuous := by
  rcases h with @⟨s, taken, hsession, h⟩ | @⟨upto, hsession, h⟩ <;> cases a <;>
    simp only [World.step, hsession, Option.map_some, Option.map_none, reduceCtorEq,
      Option.ite_none_right_eq_some, Option.some.injEq] at hstep
  case present.produce data =>
    obtain ⟨-, rfl⟩ := hstep
    refine .present rfl ⟨?_, h.buffered, h.serves⟩
    simp [h.produced]
  case present.remove =>
    obtain ⟨-, rfl⟩ := hstep
    obtain ⟨upto, hupto⟩ := h.contiguous
    exact .absent rfl hupto
  all_goals subst hstep
  case present.handleOpen during => exact .present rfl (h.reopen during)
  case present.resetStatus =>
    obtain ⟨upto, hupto⟩ := h.serves.contiguous
    exact .present rfl ⟨h.produced, h.buffered, .closed hupto⟩
  case present.readOutputs during ended resizeOk zip =>
    exact .present rfl (h.readOutputs during ended resizeOk zip)
  case present.locked => exact .present hsession h
  case present.handleClose =>
    obtain ⟨upto, hupto⟩ := h.contiguous
    exact .absent rfl hupto
  case absent.handleOpen during =>
    have hkeeps : (openNew : World z).Keeps Session.opened.2 [] :=
      ⟨rfl, List.suffix_rfl, .streaming (contiguous_nil le_rfl)⟩
    exact .present rfl hkeeps
  case absent.locked => exact .absent hsession h
  all_goals exact .absent rfl h

lemma continuous_of_reachable (h : (terminals z).Reachable w) : w.Continuous := by
  refine LTS.Reachable.invariant ?_ ?_ h
  · rintro w rfl
    exact .absent rfl (contiguous_nil le_rfl)
  · intro w a w' _ h hstep
    exact h.step hstep

/-- A client that has the replay is behind by what is in the channel. -/
lemma Keeps.streaming (h : w.Keeps s taken) :
    ∃ upto, Contiguous w.produced w.point upto w.sentBytes ∧
      ∀ sigwinch, s.state = .active none sigwinch →
        w.produced = w.produced.take upto ++ s.channel.flatten := by
  obtain ⟨hproduced, -, hserves⟩ := h
  rw [hproduced]
  generalize w.sentBytes = bytes, s.state = state at hserves ⊢
  cases hserves with
  | waiting hpoint => exact ⟨_, (contiguous_nil hpoint.le).mono _, nofun⟩
  | streaming h =>
    refine ⟨_, h.mono _, fun _ _ => ?_⟩
    rw [List.take_left]
  | closed h => exact ⟨_, h.mono _, nofun⟩

lemma Keeps.waiting (h : w.Keeps s taken) {pending : Bytes} {sigwinch : SigwinchPhase}
    (hstate : s.state = .active (some pending) sigwinch) :
    w.sentBytes = [] ∧ pending <:+ w.produced.take w.point ∧
      w.produced = w.produced.take w.point ++ s.channel.flatten := by
  obtain ⟨hproduced, -, hserves⟩ := h
  rw [hstate] at hserves
  generalize w.sentBytes = bytes at hserves ⊢
  cases hserves with
  | waiting hpoint hpending =>
    rw [hproduced, hpoint, List.take_left]
    exact ⟨rfl, hpending, rfl⟩

/-- The messages are the data again for a client whose output they restore. -/
lemma flatMap_received {sent : List (Message z)} (terminalId : ℤ)
    (h : ∀ m ∈ sent, m.data.length ≤ compressThreshold ∨ m.attempt.restores = true) :
    sent.flatMap (Message.received terminalId) = sent.flatMap Message.data := by
  refine List.flatMap_congr fun m hm => ?_
  exact (output_createTerminalDataResponse_iff terminalId m.attempt).mpr (h m hm)

end World

/-- In every state of a terminal, what its client was sent since it opened it is the end of the
output up to that point and then the output from there on, with nothing left out or sent twice: up
to what is still in the channel while the client has the terminal open and the replay was sent, and
nothing at all before that. What the client makes of the messages is the same unless the compressor
has failed on one. -/
theorem replay_continuous {z : Zstd} {w : World z} (h : (terminals z).Reachable w) :
    (∃ upto, Contiguous w.produced w.point upto w.sentBytes ∧
      ∀ s, w.session = some s → ∀ sigwinch, s.state = .active none sigwinch →
        w.produced = w.produced.take upto ++ s.channel.flatten) ∧
    (∀ s, w.session = some s → ∀ pending sigwinch, s.state = .active (some pending) sigwinch →
      w.sentBytes = [] ∧ pending <:+ w.produced.take w.point ∧
        w.produced = w.produced.take w.point ++ s.channel.flatten) ∧
    ∀ terminalId,
      (∀ m ∈ w.sent, m.data.length ≤ compressThreshold ∨ m.attempt.restores = true) →
      w.sent.flatMap (Message.received terminalId) = w.sentBytes := by
  refine ⟨?_, ?_, fun terminalId => World.flatMap_received terminalId⟩
  · cases World.continuous_of_reachable h with
    | absent hsession h =>
      refine ⟨_, h, fun s hs => ?_⟩
      cases hsession.symm.trans hs
    | present hsession h =>
      obtain ⟨upto, hupto, hchannel⟩ := h.streaming
      refine ⟨upto, hupto, fun s hs => ?_⟩
      cases hsession.symm.trans hs
      exact hchannel
  · intro s hs pending sigwinch hstate
    cases World.continuous_of_reachable h with
    | absent hsession => cases hsession.symm.trans hs
    | present hsession h =>
      cases hsession.symm.trans hs
      exact h.waiting hstate

/-- Two lines are printed, the client goes, a third comes while it is away and a fourth when it is
back: it gets the three as the replay, and then the fourth. -/
theorem replay_continuous_back :
    let z : Zstd := ⟨some, rfl⟩
    let poll : Act z := .readOutputs [] false true fun _ data => .done data rfl
    ∃ w ∈ (terminals z).run {} [.handleOpen [], .produce [97, 10], .produce [98, 10], poll,
        .resetStatus, .produce [99, 10], .handleOpen [], .produce [100, 10], poll],
      (w.point = 6 ∧ w.sent.map Message.data = [[97, 10, 98, 10, 99, 10], [100, 10]]) ∧
        ∃ upto, Contiguous w.produced w.point upto w.sentBytes := by
  intro z poll
  refine LTS.exists_run (by decide) fun w hw _ => ?_
  have hreach : (terminals z).Reachable w := (LTS.Reachable.init rfl).run hw
  obtain ⟨⟨upto, hupto, -⟩, -⟩ := replay_continuous hreach
  exact ⟨upto, hupto⟩

end RustDesk.Terminal
