import RustDesk.Net.Framed
import RustDesk.Relay.Pairing

/-!
# What the relay passes on

Two clients connect without WebSocket, each sends its `RequestRelay`, and from then on the relay
passes on what each of them sends. One stream waits in `PEERS` while the other is still to come;
when they are paired the framing is taken off both, with whatever their buffers hold behind the
request.

A client sends and closes when it likes, and a read takes any part of what has arrived. The loop of
`relay` is one step for each thing it waits for: a round of one of the two reads, the limiters, a
write, the timer. How long a limiter holds the bytes back is left to the run.
-/

namespace RustDesk.Relay

/-- The stream that waited in `PEERS`, and the stream whose task relays. -/
inductive Side where
  | peer
  | stream
  deriving DecidableEq

namespace Side

def other : Side → Side
  | peer => stream
  | stream => peer

@[simp] lemma other_other (side : Side) : side.other.other = side := by cases side <;> rfl

lemma other_ne (side : Side) : side.other ≠ side := by cases side <;> decide

lemma eq_other_of_ne {side side' : Side} (h : side' ≠ side) : side' = side.other := by
  cases side <;> cases side' <;> first | rfl | exact absurd rfl h

end Side

/-! ### One connection -/

/-- A connection: all the client has sent, what of it has not been read, whether the client has
closed, the stream, and all that was written to the client. -/
structure End where
  sent : Bytes := []
  arriving : Bytes := []
  closed : Bool := false
  framed : Framed := {}
  written : Bytes := []
  deriving DecidableEq

/-- What a socket makes of a read. -/
inductive Answer where
  | pending
  | error (e : IoError)
  /-- The read takes `n` bytes, or all there are, and at least one. -/
  | take (n : ℕ)
  deriving DecidableEq

namespace End

def send (e : End) (bytes : Bytes) : End :=
  { e with sent := e.sent ++ bytes, arriving := e.arriving ++ bytes }

def close (e : End) : End := { e with closed := true }

/-- A read finds the end of the stream once the client has closed and nothing is left. -/
def read (e : End) : Answer → Poll × End
  | .pending => (.pending, e)
  | .error err => (.ready (.error err), e)
  | .take n =>
    if e.arriving.isEmpty then (if e.closed then .ready (.ok []) else .pending, e)
    else
      (.ready (.ok (e.arriving.take (max n 1))), { e with arriving := e.arriving.drop (max n 1) })

/-- One round of `recv`. -/
def poll (e : End) (answer : Answer) : Round × End :=
  let (read, e) := if e.framed.wantsRead then e.read answer else (.pending, e)
  let (round, framed) := e.framed.poll read
  (round, { e with framed })

def setRaw (e : End) : End := { e with framed := e.framed.setRaw }

/-- One write of a flush, of at least one byte. -/
def write (e : End) (n : ℕ) : End :=
  { e with
    written := e.written ++ e.framed.writeBuffer.take (max n 1)
    framed := e.framed.wrote (max n 1) }

end End

/-! ### The loop of `relay` -/

/-- What the loop reads from elsewhere when it gets around: the clock in milliseconds, the lists the
address may be on, and the option. -/
structure Env where
  now : ℕ
  blocked : Bool := false
  blacked : Bool := false
  downgradeStartCheck : ℕ := 0
  deriving DecidableEq

/-- The counters of the loop, in bits. -/
structure Meter where
  tm : ℕ
  elapsed : ℕ := 0
  total : ℕ := 0
  totalS : ℕ := 0
  highestS : ℕ := 0
  downgrade : Bool := false
  blacked : Bool := false
  lastRecvTime : ℕ
  deriving DecidableEq

inductive Limiter where
  | single
  | blacklist
  deriving DecidableEq

namespace Meter

def count (m : Meter) (bytes : Bytes) : Meter :=
  let nb := bytes.length * 8
  { m with total := m.total + nb, totalS := m.totalS + nb }

/-- The limiter bytes have to pass before that of all relays. -/
def limiter (m : Meter) : Limiter := if m.blacked || m.downgrade then .blacklist else .single

/-- The end of a turn of the loop; `none` where the address has been blocked. -/
def account (threshold : ℕ) (m : Meter) (env : Env) : Option Meter :=
  let n := env.now - m.tm
  if n < 1000 then some m
  else if env.blocked then none
  else
    let elapsed := m.elapsed + n
    some { m with
      tm := env.now
      elapsed
      totalS := 0
      highestS := max (m.totalS / n) m.highestS
      blacked := env.blacked
      downgrade := m.downgrade ||
        (env.downgradeStartCheck < elapsed && elapsed * threshold < m.total) }

end Meter

/-- What the loop is doing: it waits for either stream or the timer, bytes of a stream wait for the
limiters, or a stream is being written to. -/
inductive Activity where
  | selecting
  | limited (source : Side) (bytes : Bytes) (limiter : Limiter)
  | sending (target : Side)
  deriving DecidableEq

inductive Ending where
  | closed (side : Side)
  | failed (side : Side)
  | sendFailed (side : Side)
  | timeout
  | blocked
  deriving DecidableEq

inductive Phase where
  /-- The uuid that each client has asked for so far. -/
  | pairing (requests : Side → Option String)
  | refused
  | relaying (meter : Meter) (activity : Activity)
  | ended (ending : Ending)

structure Pair where
  ends : Side → End
  phase : Phase

inductive PairAct where
  | send (side : Side) (bytes : Bytes)
  | close (side : Side)
  | poll (side : Side) (answer : Answer) (now : ℕ)
  | pair (now : ℕ)
  /-- The limiters let the bytes pass. -/
  | pass (env : Env)
  | write (n : ℕ) (env : Env)
  | writeError
  | tick (env : Env)
  deriving DecidableEq

/-- What decides about requests, and the threshold of the downgrade in bits per millisecond. -/
structure Config where
  parse : Bytes → Option RequestRelay
  key : String
  vlessAuthenticated : Side → Bool
  threshold : ℕ

/-- The uuid of a first message that `make_pair_` goes on with. -/
def Config.request (cfg : Config) (side : Side) (bytes : Bytes) : Option String :=
  match cfg.parse bytes with
  | none => none
  | some rf =>
    if !relayKeyIsValid cfg.key rf.licenceKey (cfg.vlessAuthenticated side) then none
    else if rf.uuid.isEmpty then none
    else some rf.uuid

namespace Pair

def setEnd (p : Pair) (side : Side) (e : End) : Pair :=
  { p with ends := Function.update p.ends side e }

@[simp] lemma phase_setEnd (p : Pair) (side : Side) (e : End) : (p.setEnd side e).phase = p.phase :=
  rfl

@[simp] lemma ends_setEnd (p : Pair) (side : Side) (e : End) : (p.setEnd side e).ends side = e :=
  Function.update_self ..

/-- A turn of the loop ends. -/
def turn (cfg : Config) (p : Pair) (meter : Meter) (env : Env) : Pair :=
  match meter.account cfg.threshold env with
  | some meter => { p with phase := .relaying meter .selecting }
  | none => { p with phase := .ended .blocked }

/-- `make_pair_` waits for its first message. -/
def firstMessage (cfg : Config) (p : Pair) (side : Side) (requests : Side → Option String) :
    Round → Pair
  | .item (.ok bytes) =>
    match cfg.request side bytes with
    | some uuid => { p with phase := .pairing (Function.update requests side (some uuid)) }
    | none => { p with phase := .refused }
  | .item (.error _) | .finished => { p with phase := .refused }
  | .again | .pending => p

/-- A branch of the loop receives. -/
def received (p : Pair) (side : Side) (meter : Meter) (now : ℕ) : Round → Pair
  | .item (.ok bytes) =>
    let meter := { meter with lastRecvTime := now }
    { p with phase := .relaying meter (.limited side bytes meter.limiter) }
  | .item (.error _) => { p with phase := .ended (.failed side) }
  | .finished => { p with phase := .ended (.closed side) }
  | .again | .pending => p

def step (cfg : Config) (p : Pair) : PairAct → Option Pair
  | .send side bytes =>
    if (p.ends side).closed then none else some (p.setEnd side ((p.ends side).send bytes))
  | .close side => some (p.setEnd side (p.ends side).close)
  | .poll side answer now =>
    let (round, e) := (p.ends side).poll answer
    match p.phase with
    | .pairing requests =>
      if (requests side).isSome then none
      else some ((p.setEnd side e).firstMessage cfg side requests round)
    | .relaying meter .selecting => some ((p.setEnd side e).received side meter now round)
    | _ => none
  | .pair now =>
    match p.phase with
    | .pairing requests =>
      if (requests .peer).isSome && requests .peer = requests .stream then
        some ⟨fun side => (p.ends side).setRaw,
          .relaying { tm := now, lastRecvTime := now } .selecting⟩
      else none
    | _ => none
  | .pass env =>
    match p.phase with
    | .relaying meter (.limited source bytes _) =>
      let meter := meter.count bytes
      if bytes.isEmpty then some (p.turn cfg meter env)
      else
        match (p.ends source.other).framed.startSend bytes with
        | .error _ => some { p with phase := .ended (.sendFailed source.other) }
        | .ok framed =>
          some { p.setEnd source.other { p.ends source.other with framed } with
            phase := .relaying meter (.sending source.other) }
    | _ => none
  | .write n env =>
    match p.phase with
    | .relaying meter (.sending target) =>
      let p := p.setEnd target ((p.ends target).write n)
      if (p.ends target).framed.writeBuffer.isEmpty then some (p.turn cfg meter env) else some p
    | _ => none
  | .writeError =>
    match p.phase with
    | .relaying _ (.sending target) => some { p with phase := .ended (.sendFailed target) }
    | _ => none
  | .tick env =>
    match p.phase with
    | .relaying meter .selecting =>
      if 30 < (env.now - meter.lastRecvTime) / 1000 then
        some { p with phase := .ended .timeout }
      else some (p.turn cfg meter env)
    | _ => none

/-- The streams have been paired. -/
def paired (p : Pair) : Bool :=
  match p.phase with
  | .relaying _ _ | .ended _ => true
  | .pairing _ | .refused => false

end Pair

/-- Two connections from their beginning on. -/
def pairs (cfg : Config) : LTS Pair PairAct where
  init p := p = ⟨fun _ => {}, .pairing fun _ => none⟩
  step := Pair.step cfg

/-! ### What is between a client and the relay -/

namespace End

open BytesCodec

variable {e e' : End} {payload passed : Bytes} {answer : Answer} {round : Round}

/-- The end of the stream is read once nothing more can come, and no error was met. -/
structure Sound (e : End) : Prop where
  eof : e.framed.eof = true → e.closed = true ∧ e.arriving = []
  noError : e.framed.hasErrored = false

/-- The request is still to come: all that was read is in the decoder. -/
structure Opening (e : End) : Prop extends e.Sound where
  sent : ∃ w, Holds usizeMax (e.framed.codec, e.framed.buffer) w ∧ e.sent = w ++ e.arriving

/-- The request has come, and nothing behind it was handed out. -/
structure Waiting (payload : Bytes) (e : End) : Prop extends e.Sound where
  sent : Begins payload (e.framed.buffer ++ e.arriving) e.sent
  readable : e.framed.isReadable = true

/-- The framing is off, and `passed` was handed out of what is behind the request. -/
structure Raw (payload passed : Bytes) (e : End) : Prop extends e.Sound where
  raw : e.framed.codec.raw = true
  sent : Begins payload (passed ++ e.framed.buffer ++ e.arriving) e.sent
  drained : e.framed.isReadable = false → e.framed.buffer = []

/-- What a poll leaves alone. -/
structure SameOutput (e e' : End) : Prop where
  sent : e'.sent = e.sent
  closed : e'.closed = e.closed
  written : e'.written = e.written
  writeBuffer : e'.framed.writeBuffer = e.framed.writeBuffer

/-- A read splits what was arriving, and finds the end of the stream where nothing can come. -/
lemma read_spec (e : End) (answer : Answer) :
    ((e.read answer).1.bytes ++ (e.read answer).2.arriving = e.arriving ∧
      (e.read answer).2 = { e with arriving := (e.read answer).2.arriving }) ∧
    ((e.read answer).1 = .ready (.ok []) → e.closed = true ∧ e.arriving = []) := by
  cases answer with
  | pending => exact ⟨⟨rfl, rfl⟩, nofun⟩
  | error err => exact ⟨⟨rfl, rfl⟩, fun h => by cases h⟩
  | take n =>
    unfold read
    dsimp only
    split_ifs with hempty hclosed
    · exact ⟨⟨rfl, rfl⟩, fun _ => ⟨hclosed, List.isEmpty_iff.mp hempty⟩⟩
    · exact ⟨⟨rfl, rfl⟩, fun h => by cases h⟩
    · refine ⟨⟨List.take_append_drop _ _, rfl⟩, fun h => ?_⟩
      have htake : e.arriving.take (max n 1) = [] := by simpa using h
      rcases List.take_eq_nil_iff.mp htake with hzero | hnil
      · omega
      · rw [hnil] at hempty
        exact absurd rfl hempty

/-- A round, with what the socket answered and what it left. -/
lemma poll_inv (h : e.poll answer = (round, e')) :
    ∃ read arriving framed, e.framed.Polled read round framed ∧ e' = { e with arriving, framed } ∧
      read.bytes ++ arriving = e.arriving ∧
      (e.framed.isReadable = true → arriving = e.arriving) ∧
      (read = .ready (.ok []) → e.closed = true ∧ e.arriving = []) := by
  unfold poll at h
  cases hwants : e.framed.wantsRead with
  | true =>
    rw [if_pos hwants] at h
    obtain ⟨⟨hsplit, hleft⟩, heof⟩ := read_spec e answer
    generalize e.read answer = out at h hsplit hleft heof
    obtain ⟨read, left⟩ := out
    dsimp only at h hsplit hleft heof
    generalize left.arriving = arriving at hsplit hleft
    subst hleft
    cases h
    refine ⟨read, arriving, _, Framed.polled_of_poll rfl, rfl, hsplit, fun hreadable => ?_, heof⟩
    rw [Framed.wantsRead_of_readable hreadable] at hwants
    cases hwants
  | false =>
    rw [if_neg (by simp [hwants])] at h
    cases h
    exact ⟨.pending, e.arriving, _, Framed.polled_of_poll rfl, rfl, rfl, fun _ => rfl, nofun⟩

lemma sameOutput_poll (h : e.poll answer = (round, e')) : e.SameOutput e' := by
  obtain ⟨read, arriving, framed, hpolled, rfl, -⟩ := poll_inv h
  refine ⟨rfl, rfl, rfl, ?_⟩
  cases hpolled <;> rfl

/-- Rounds before the request hand out nothing, or the request. -/
lemma Opening.poll (h : e.Opening) (hp : e.poll answer = (round, e')) :
    (∀ payload, round = .item (.ok payload) → e'.Waiting payload) ∧
      (round = .again ∨ round = .pending → e'.Opening) := by
  obtain ⟨read, arriving, framed, hpolled, rfl, hsplit, hkept, hended⟩ := poll_inv hp
  obtain ⟨w, hholds, hsent⟩ := h.sent
  cases hpolled with
  | errored herrored =>
    rw [h.noError] at herrored
    cases herrored
  | failed err => exact ⟨nofun, nofun⟩
  | decoded hreadable hdecode =>
    obtain rfl := hkept hreadable
    refine ⟨fun payload hpayload => ?_, nofun⟩
    cases hpayload
    have hbegins := (hholds.decode_some hdecode).append e.arriving
    rw [← hsent] at hbegins
    exact ⟨⟨h.eof, h.noError⟩, hbegins, hreadable⟩
  | short hreadable heof hdecode =>
    obtain rfl := hkept hreadable
    exact ⟨nofun, fun _ => ⟨⟨h.eof, h.noError⟩, w, hholds.decode_none hdecode, hsent⟩⟩
  | ended => exact ⟨nofun, nofun⟩
  | pending hread =>
    subst hread
    obtain rfl : arriving = e.arriving := hsplit
    exact ⟨nofun, fun _ => h⟩
  | closed hwants hread heof =>
    subst hread
    obtain rfl : arriving = e.arriving := hsplit
    exact ⟨nofun, fun _ => ⟨⟨fun _ => hended rfl, h.noError⟩, w, hholds, hsent⟩⟩
  | paused => exact ⟨nofun, nofun⟩
  | @read bytes hwants hread hne =>
    subst hread
    refine ⟨nofun, fun _ => ⟨⟨nofun, h.noError⟩, w ++ bytes, hholds.append bytes, ?_⟩⟩
    show e.sent = w ++ bytes ++ arriving
    rw [hsent, ← hsplit]
    exact (List.append_assoc _ _ _).symm

/-- Rounds of a raw stream hand out the bytes in their order, and end where nothing is left. -/
lemma Raw.poll (h : e.Raw payload passed) (hp : e.poll answer = (round, e')) :
    (∀ bytes, round = .item (.ok bytes) → e'.Raw payload (passed ++ bytes)) ∧
      (round = .again ∨ round = .pending → e'.Raw payload passed) ∧
      (round = .finished → e.closed = true ∧ Begins payload passed e.sent) := by
  obtain ⟨read, arriving, framed, hpolled, rfl, hsplit, hkept, hended⟩ := poll_inv hp
  have hsent := h.sent
  cases hpolled with
  | errored herrored =>
    rw [h.noError] at herrored
    cases herrored
  | failed err => exact ⟨nofun, nofun, nofun⟩
  | decoded hreadable hdecode =>
    obtain rfl := hkept hreadable
    obtain ⟨rfl, rfl, rfl, -⟩ := decode_raw_some h.raw hdecode
    refine ⟨fun bytes hbytes => ?_, nofun, nofun⟩
    cases hbytes
    refine ⟨⟨h.eof, h.noError⟩, h.raw, ?_, fun _ => rfl⟩
    show Begins payload (passed ++ e.framed.buffer ++ [] ++ e.arriving) e.sent
    rw [List.append_nil]
    exact hsent
  | short hreadable heof hdecode =>
    obtain rfl := hkept hreadable
    obtain ⟨rfl, rfl, hempty⟩ := decode_raw_none h.raw hdecode
    exact ⟨nofun, fun _ => ⟨⟨h.eof, h.noError⟩, h.raw, hsent, fun _ => hempty⟩, nofun⟩
  | ended hreadable heof hdecode =>
    obtain ⟨-, -, hempty⟩ := decode_raw_none h.raw hdecode
    obtain ⟨hclosed, harriving⟩ := h.eof heof
    refine ⟨nofun, nofun, fun _ => ⟨hclosed, ?_⟩⟩
    rwa [hempty, harriving, List.append_nil, List.append_nil] at hsent
  | pending hread =>
    subst hread
    obtain rfl : arriving = e.arriving := hsplit
    exact ⟨nofun, fun _ => h, nofun⟩
  | closed hwants hread heof =>
    subst hread
    obtain rfl : arriving = e.arriving := hsplit
    exact ⟨nofun, fun _ => ⟨⟨fun _ => hended rfl, h.noError⟩, h.raw, hsent, nofun⟩, nofun⟩
  | paused hwants heof =>
    obtain ⟨hclosed, harriving⟩ := h.eof heof
    refine ⟨nofun, nofun, fun _ => ⟨hclosed, ?_⟩⟩
    rwa [h.drained (Framed.isReadable_of_wantsRead hwants), harriving, List.append_nil,
      List.append_nil] at hsent
  | @read bytes hwants hread hne =>
    subst hread
    refine ⟨nofun, fun _ => ⟨⟨nofun, h.noError⟩, h.raw, ?_, nofun⟩, nofun⟩
    show Begins payload (passed ++ (e.framed.buffer ++ bytes) ++ arriving) e.sent
    rw [← hsplit] at hsent
    rwa [← List.append_assoc, List.append_assoc _ bytes]

lemma Waiting.setRaw (h : e.Waiting payload) : e.setRaw.Raw payload [] where
  eof := h.eof
  noError := h.noError
  raw := rfl
  sent := h.sent
  drained hreadable := by
    have : e.framed.isReadable = false := hreadable
    rw [h.readable] at this
    cases this

/-- What is written to a client has nothing to do with what it sends. -/
lemma Raw.output (h : e.Raw payload passed) (written writeBuffer : Bytes) :
    ({ e with written, framed := { e.framed with writeBuffer } } : End).Raw payload passed :=
  ⟨⟨h.eof, h.noError⟩, h.raw, h.sent, h.drained⟩

/-! ### Clients that send -/

section

variable (hopen : e.closed = false) (bytes : Bytes)
include hopen

lemma Sound.send (h : e.Sound) : (e.send bytes).Sound where
  eof heof := by
    rw [(h.eof heof).1] at hopen
    cases hopen
  noError := h.noError

lemma Opening.send (h : e.Opening) : (e.send bytes).Opening := by
  obtain ⟨w, hholds, hsent⟩ := h.sent
  refine ⟨h.toSound.send hopen bytes, w, hholds, ?_⟩
  show e.sent ++ bytes = w ++ (e.arriving ++ bytes)
  rw [hsent, List.append_assoc]

lemma Waiting.send (h : e.Waiting payload) : (e.send bytes).Waiting payload := by
  refine ⟨h.toSound.send hopen bytes, ?_, h.readable⟩
  have hsent := h.sent.append bytes
  rwa [List.append_assoc] at hsent

lemma Raw.send (h : e.Raw payload passed) : (e.send bytes).Raw payload passed := by
  refine ⟨h.toSound.send hopen bytes, h.raw, ?_, h.drained⟩
  have hsent := h.sent.append bytes
  rwa [List.append_assoc] at hsent

end

/-! ### Clients that close -/

lemma Sound.close (h : e.Sound) : e.close.Sound :=
  ⟨fun heof => ⟨rfl, (h.eof heof).2⟩, h.noError⟩

lemma Opening.close (h : e.Opening) : e.close.Opening := ⟨h.toSound.close, h.sent⟩

lemma Waiting.close (h : e.Waiting payload) : e.close.Waiting payload :=
  ⟨h.toSound.close, h.sent, h.readable⟩

lemma Raw.close (h : e.Raw payload passed) : e.close.Raw payload passed :=
  ⟨h.toSound.close, h.raw, h.sent, h.drained⟩

end End

/-! ### The pair -/

open BytesCodec

/-- The bytes of a side that are on their way through the loop. -/
def Activity.held (side : Side) : Activity → Bytes
  | .limited source bytes _ => if source = side then bytes else []
  | _ => []

/-- What has left a side's stream: it was written to the other client, is being written to it, or is
held back. -/
def passed (ends : Side → End) (activity : Activity) (side : Side) : Bytes :=
  (ends side.other).written ++ (ends side.other).framed.writeBuffer ++ activity.held side

/-- A connection before it is paired; its client gets nothing. -/
structure Unpaired (cfg : Config) (side : Side) (uuid : Option String) (e : End) : Prop where
  written : e.written = []
  writeBuffer : e.framed.writeBuffer = []
  opening : uuid = none → e.Opening
  waiting : uuid.isSome = true →
    ∃ payload, (cfg.request side payload).isSome = true ∧ e.Waiting payload

/-- A side of the loop: its stream is raw, and only a write in progress leaves bytes to write. -/
structure Relayed (cfg : Config) (ends : Side → End) (activity : Activity) (side : Side) :
    Prop where
  stream : ∃ payload, (cfg.request side payload).isSome = true ∧
    (ends side).Raw payload (passed ends activity side)
  flushed : activity ≠ .sending side → (ends side).framed.writeBuffer = []

/-- Of a client that was paired: its request, what is behind it, and what the other one got. -/
structure Delivered (cfg : Config) (ends : Side → End) (side : Side) (rest : Bytes) : Prop where
  request : ∃ payload, (cfg.request side payload).isSome = true ∧
    Begins payload rest (ends side).sent
  sofar : (ends side.other).written <+: rest

/-- The invariant of a pair, phase by phase. -/
inductive Faithful (cfg : Config) : Pair → Prop where
  | pairing {ends : Side → End} {requests : Side → Option String}
    (h : ∀ side, Unpaired cfg side (requests side) (ends side)) :
    Faithful cfg ⟨ends, .pairing requests⟩
  | refused {ends : Side → End} : Faithful cfg ⟨ends, .refused⟩
  | relaying {ends : Side → End} {meter : Meter} {activity : Activity}
    (h : ∀ side, Relayed cfg ends activity side) : Faithful cfg ⟨ends, .relaying meter activity⟩
  | ended {ends : Side → End} {ending : Ending}
    (h : ∀ side, ∃ rest, Delivered cfg ends side rest ∧ (ending = .closed side →
      (ends side).closed = true ∧ (ends side.other).written = rest)) :
    Faithful cfg ⟨ends, .ended ending⟩

section

variable {ends' : Side → End} {answer : Answer} {round : Round} {now : ℕ} {env : Env}

variable {cfg : Config} {ends : Side → End} {activity : Activity} {side side' : Side} {e : End}

lemma update_other (side : Side) : Function.update ends side e side.other = ends side.other :=
  Function.update_of_ne side.other_ne e ends

/-- A family over the sides, changed at one of them. -/
lemma forall_update (side : Side) (e : End) {P : Side → End → Prop} (h : ∀ side, P side (ends side))
    (he : P side e) : ∀ side', P side' (Function.update ends side e side') :=
  (Function.forall_update_iff ends P).mpr ⟨he, fun side' _ => h side'⟩

/-- A side of the loop from which nothing was read. -/
lemma Relayed.congr {activity' : Activity} (h : Relayed cfg ends activity side)
    (hraw : ∀ payload passed, (ends side).Raw payload passed → (ends' side).Raw payload passed)
    (hpassed : passed ends' activity' side = passed ends activity side)
    (hflushed : activity' ≠ .sending side → (ends' side).framed.writeBuffer = []) :
    Relayed cfg ends' activity' side := by
  obtain ⟨payload, hrequest, hstream⟩ := h.stream
  refine ⟨⟨payload, hrequest, ?_⟩, hflushed⟩
  rw [hpassed]
  exact hraw payload _ hstream

lemma raw_update (he : ∀ payload passed, (ends side).Raw payload passed → e.Raw payload passed) :
    ∀ side' payload passed, (ends side').Raw payload passed →
      (Function.update ends side e side').Raw payload passed :=
  forall_update side e
    (P := fun s e => ∀ payload passed, (ends s).Raw payload passed → e.Raw payload passed)
    (fun _ _ _ => id) he

section

variable (hwritten : e.written = (ends side).written)
  (hbuffer : e.framed.writeBuffer = (ends side).framed.writeBuffer)

include hwritten hbuffer

/-- The output of an end that another replaces is what it was. -/
lemma passed_update :
    passed (Function.update ends side e) activity side' = passed ends activity side' := by
  have hsame := forall_update side e
    (P := fun s e => e.written = (ends s).written ∧
      e.framed.writeBuffer = (ends s).framed.writeBuffer)
    (fun _ => ⟨rfl, rfl⟩) ⟨hwritten, hbuffer⟩ side'.other
  rw [passed, hsame.1, hsame.2, passed]

/-- A change of one end that leaves its output alone changes the loop at that end only. -/
lemma relayed_update (h : ∀ side, Relayed cfg ends activity side)
    (he : ∀ payload passed, (ends side).Raw payload passed → e.Raw payload passed) :
    ∀ side', Relayed cfg (Function.update ends side e) activity side' := by
  have hflushed := forall_update side e
    (P := fun s e => activity ≠ .sending s → e.framed.writeBuffer = []) (fun s => (h s).flushed)
    fun hactivity => hbuffer.trans ((h side).flushed hactivity)
  exact fun side' => (h side').congr (raw_update he side') (passed_update hwritten hbuffer)
    (hflushed side')

lemma faithful_unpaired {requests : Side → Option String}
    (h : ∀ side, Unpaired cfg side (requests side) (ends side))
    (hopening : (ends side).Opening → e.Opening)
    (hwaiting : (requests side).isSome → ∀ payload, (ends side).Waiting payload →
      e.Waiting payload) :
    Faithful cfg ⟨Function.update ends side e, .pairing requests⟩ := by
  refine .pairing (forall_update _ _ (P := fun side e => Unpaired cfg side (requests side) e) h ?_)
  refine ⟨hwritten.trans (h side).written, hbuffer.trans (h side).writeBuffer,
    fun hnone => hopening ((h side).opening hnone), fun hsome => ?_⟩
  obtain ⟨payload, hrequest, hpayload⟩ := (h side).waiting hsome
  exact ⟨payload, hrequest, hwaiting hsome payload hpayload⟩

end

lemma Relayed.delivered (h : Relayed cfg ends activity side) :
    ∃ rest, Delivered cfg ends side rest := by
  obtain ⟨payload, hrequest, hraw⟩ := h.stream
  refine ⟨_, ⟨payload, hrequest, hraw.sent⟩, ?_⟩
  unfold passed
  simp only [List.append_assoc]
  exact List.prefix_append _ _

/-- What was delivered is read off what one client sent and the other got. -/
lemma Delivered.congr {rest : Bytes} (h : Delivered cfg ends side rest)
    (hsent : (ends' side).sent = (ends side).sent)
    (hwritten : (ends' side.other).written = (ends side.other).written) :
    Delivered cfg ends' side rest := by
  refine ⟨?_, ?_⟩
  · rw [hsent]
    exact h.request
  · rw [hwritten]
    exact h.sofar

lemma faithful_ended (h : ∀ side, Relayed cfg ends activity side) {ending : Ending}
    (hending : ∀ side, ending ≠ .closed side) : Faithful cfg ⟨ends, .ended ending⟩ := by
  refine .ended fun side => ?_
  obtain ⟨rest, hrest⟩ := (h side).delivered
  exact ⟨rest, hrest, fun heq => absurd heq (hending side)⟩

lemma faithful_turn {phase : Phase} (h : ∀ side, Relayed cfg ends .selecting side) (meter : Meter)
    (env : Env) : Faithful cfg (Pair.turn cfg ⟨ends, phase⟩ meter env) := by
  unfold Pair.turn
  cases meter.account cfg.threshold env with
  | some meter => exact .relaying h
  | none => exact faithful_ended h nofun

/-! ### Steps keep the invariant -/

variable {p p' : Pair}

lemma Faithful.send (h : Faithful cfg p) (hopen : (p.ends side).closed = false) (bytes : Bytes) :
    Faithful cfg (p.setEnd side ((p.ends side).send bytes)) := by
  cases h with
  | pairing h =>
    exact faithful_unpaired (by rfl) (by rfl) h (.send hopen bytes) fun _ _ => .send hopen bytes
  | refused => exact .refused
  | relaying h => exact .relaying (relayed_update rfl rfl h fun _ _ => .send hopen bytes)
  | ended h =>
    refine .ended fun side' => ?_
    obtain ⟨rest, hrest, hending⟩ := h side'
    by_cases hside : side' = side
    · -- what was written is a beginning of the longer stream too, and a clean end is excluded
      subst hside
      obtain ⟨payload, hrequest, hbegins⟩ := hrest.request
      refine ⟨rest ++ bytes, ⟨⟨payload, hrequest, ?_⟩, ?_⟩, fun hclean => ?_⟩
      · rw [Function.update_self]
        exact hbegins.append bytes
      · rw [update_other]
        exact hrest.sofar.trans (List.prefix_append _ _)
      · rw [(hending hclean).1] at hopen
        cases hopen
    · obtain rfl := Side.eq_other_of_ne hside
      refine ⟨rest, hrest.congr (by rw [update_other]) ?_, fun hclean => ?_⟩
      · rw [Side.other_other, Function.update_self]
        rfl
      · rw [update_other, Side.other_other, Function.update_self]
        rw [Side.other_other] at hending
        exact hending hclean

lemma Faithful.close (h : Faithful cfg p) (side : Side) :
    Faithful cfg (p.setEnd side (p.ends side).close) := by
  cases h with
  | pairing h => exact faithful_unpaired (by rfl) (by rfl) h .close fun _ _ => .close
  | refused => exact .refused
  | relaying h => exact .relaying (relayed_update rfl rfl h fun _ _ => .close)
  | @ended ends ending h =>
    have hsame := forall_update side (ends side).close
      (P := fun s e => e.sent = (ends s).sent ∧ e.written = (ends s).written ∧
        ((ends s).closed = true → e.closed = true))
      (fun _ => ⟨rfl, rfl, id⟩) ⟨rfl, rfl, fun _ => rfl⟩
    refine .ended fun side' => ?_
    obtain ⟨rest, hrest, hending⟩ := h side'
    refine ⟨rest, hrest.congr (hsame side').1 (hsame side'.other).2.1, fun hclean => ?_⟩
    obtain ⟨hclosed, hall⟩ := hending hclean
    exact ⟨(hsame side').2.2 hclosed, (hsame side'.other).2.1.trans hall⟩

lemma faithful_firstMessage {requests : Side → Option String}
    (h : ∀ side, Unpaired cfg side (requests side) (ends side)) (hnone : requests side = none)
    (hpoll : (ends side).poll answer = (round, e)) :
    Faithful cfg (Pair.firstMessage cfg ⟨Function.update ends side e, .pairing requests⟩ side
      requests round) := by
  have hout := End.sameOutput_poll hpoll
  have hwritten : e.written = [] := hout.written.trans (h side).written
  have hbuffer : e.framed.writeBuffer = [] := hout.writeBuffer.trans (h side).writeBuffer
  obtain ⟨hitem, hwait⟩ := ((h side).opening hnone).poll hpoll
  have hagain : round = .again ∨ round = .pending →
      Faithful cfg ⟨Function.update ends side e, .pairing requests⟩ := fun hround =>
    faithful_unpaired hout.written hout.writeBuffer h (fun _ => hwait hround) (by simp [hnone])
  cases round with
  | item result =>
    cases result with
    | error err => exact .refused
    | ok payload =>
      unfold Pair.firstMessage
      dsimp only
      cases hrequest : cfg.request side payload with
      | none => exact .refused
      | some uuid =>
        refine .pairing fun side' => ?_
        by_cases hside : side' = side
        · subst hside
          rw [Function.update_self, Function.update_self]
          exact ⟨hwritten, hbuffer, nofun, fun _ =>
            ⟨payload, by rw [hrequest]; rfl, hitem payload rfl⟩⟩
        · rw [Function.update_of_ne hside, Function.update_of_ne hside]
          exact h side'
  | finished => exact .refused
  | again => exact hagain (.inl rfl)
  | pending => exact hagain (.inr rfl)

lemma passed_selecting (h : ∀ side, Relayed cfg ends .selecting side) (side : Side) :
    passed ends .selecting side = (ends side.other).written := by
  unfold passed Activity.held
  rw [(h side.other).flushed nofun, List.append_nil, List.append_nil]

lemma faithful_received {meter : Meter} (h : ∀ side, Relayed cfg ends .selecting side)
    (hpoll : (ends side).poll answer = (round, e)) :
    Faithful cfg (Pair.received ⟨Function.update ends side e, .relaying meter .selecting⟩ side
      meter now round) := by
  have hout := End.sameOutput_poll hpoll
  have hagain : round = .again ∨ round = .pending →
      Faithful cfg ⟨Function.update ends side e, .relaying meter .selecting⟩ := fun hround =>
    .relaying (relayed_update hout.written hout.writeBuffer h fun _ _ hraw =>
      (hraw.poll hpoll).2.1 hround)
  have hsame := forall_update side e
    (P := fun s e => e.sent = (ends s).sent ∧ e.written = (ends s).written ∧
      e.closed = (ends s).closed)
    (fun _ => ⟨rfl, rfl, rfl⟩) ⟨hout.sent, hout.written, hout.closed⟩
  cases round with
  | item result =>
    cases result with
    | error err =>
      refine .ended fun side' => ?_
      obtain ⟨rest, hrest⟩ := (h side').delivered
      exact ⟨rest, hrest.congr (hsame side').1 (hsame side'.other).2.1, nofun⟩
    | ok bytes =>
      refine .relaying fun side' => ⟨?_, fun _ => ?_⟩
      · obtain ⟨payload, hrequest, hraw⟩ := (h side').stream
        refine ⟨payload, hrequest, ?_⟩
        rw [passed_update hout.written hout.writeBuffer]
        dsimp only
        by_cases hside : side' = side
        · subst hside
          have hheld := (hraw.poll hpoll).1 bytes rfl
          rw [Function.update_self]
          simpa [passed, Activity.held] using hheld
        · rw [Function.update_of_ne hside]
          simpa [passed, Activity.held, Ne.symm hside] using hraw
      · refine forall_update _ _ (P := fun _ e => e.framed.writeBuffer = [])
          (fun s => (h s).flushed nofun) ?_ side'
        exact hout.writeBuffer.trans ((h side).flushed nofun)
  | finished =>
    refine .ended fun side' => ?_
    by_cases hside : side' = side
    · subst hside
      obtain ⟨payload, hrequest, hraw⟩ := (h side').stream
      rw [passed_selecting h] at hraw
      obtain ⟨hclosed, hbegins⟩ := (hraw.poll hpoll).2.2 rfl
      have hrest : Delivered cfg ends side' (ends side'.other).written :=
        ⟨⟨payload, hrequest, hbegins⟩, List.prefix_rfl⟩
      exact ⟨_, hrest.congr (hsame side').1 (hsame side'.other).2.1, fun _ =>
        ⟨(hsame side').2.2.trans hclosed, (hsame side'.other).2.1⟩⟩
    · obtain ⟨rest, hrest⟩ := (h side').delivered
      refine ⟨rest, hrest.congr (hsame side').1 (hsame side'.other).2.1, fun hclean => ?_⟩
      cases hclean
      exact absurd rfl hside
  | again => exact hagain (.inl rfl)
  | pending => exact hagain (.inr rfl)

lemma faithful_pair {requests : Side → Option String} {meter : Meter}
    (h : ∀ side, Unpaired cfg side (requests side) (ends side))
    (hsome : ∀ side, (requests side).isSome = true) :
    Faithful cfg ⟨fun side => (ends side).setRaw, .relaying meter .selecting⟩ := by
  refine .relaying fun side => ⟨?_, fun _ => (h side).writeBuffer⟩
  obtain ⟨payload, hrequest, hwaiting⟩ := (h side).waiting (hsome side)
  refine ⟨payload, hrequest, ?_⟩
  have hpassed : passed (fun side => (ends side).setRaw) .selecting side = [] := by
    have hwritten := (h side.other).written
    have hbuffer := (h side.other).writeBuffer
    simp [passed, Activity.held, End.setRaw, Framed.setRaw, hwritten, hbuffer]
  rw [hpassed]
  exact hwaiting.setRaw

/-- The limiters let bytes pass into the other stream's write buffer. -/
lemma relayed_pass {source : Side} {bytes : Bytes} {limiter : Limiter} {framed : Framed}
    (h : ∀ side, Relayed cfg ends (.limited source bytes limiter) side)
    (hsend : (ends source.other).framed.startSend bytes = .ok framed) (side : Side) :
    Relayed cfg (Function.update ends source.other { ends source.other with framed })
      (.sending source.other) side := by
  obtain ⟨payload, -, hraw⟩ := (h source.other).stream
  have hbuffer := (h source.other).flushed nofun
  rw [Framed.startSend_raw hraw.raw] at hsend
  cases hsend
  refine (h side).congr (raw_update (fun _ _ hraw => hraw.output _ _) side) ?_ fun hside => ?_
  · by_cases hsource : side = source
    · subst hsource
      simp [passed, Activity.held, hbuffer]
    · obtain rfl := Side.eq_other_of_ne hsource
      have hne : source ≠ source.other := Ne.symm source.other_ne
      simp [passed, Activity.held, hne]
  · have hne : side ≠ source.other := fun heq => hside (congrArg _ heq.symm)
    rw [Function.update_of_ne hne]
    exact (h side).flushed nofun

lemma relayed_write {target : Side} {n : ℕ} (h : ∀ side, Relayed cfg ends (.sending target) side)
    (hsent : activity = .sending target ∨ activity = .selecting ∧
      ((ends target).write n).framed.writeBuffer = []) (side : Side) :
    Relayed cfg (Function.update ends target ((ends target).write n)) activity side := by
  have hheld : activity.held side = (Activity.sending target).held side := by
    rcases hsent with rfl | ⟨rfl, -⟩ <;> rfl
  refine (h side).congr (raw_update (fun _ _ hraw => hraw.output _ _) side) ?_ fun hactivity => ?_
  · rw [passed, passed, hheld]
    by_cases hside : side.other = target
    · subst hside
      simp [End.write, Framed.wrote]
    · rw [Function.update_of_ne hside]
  · by_cases hside : side = target
    · subst hside
      rw [Function.update_self]
      exact (hsent.resolve_left hactivity).2
    · rw [Function.update_of_ne hside]
      exact (h side).flushed fun heq => hside (Activity.sending.inj heq).symm

lemma Faithful.step {a : PairAct} (h : Faithful cfg p) (hstep : p.step cfg a = some p') :
    Faithful cfg p' := by
  unfold Pair.step at hstep
  cases a with
  | send side bytes =>
    dsimp only at hstep
    split_ifs at hstep with hclosed
    cases hstep
    exact h.send (by simpa using hclosed) bytes
  | close side =>
    cases hstep
    exact h.close side
  | poll side answer now =>
    rcases h with h | _ | @⟨_, _, _ | _ | _, h⟩ | _ <;> try cases hstep
    · dsimp only at hstep
      split_ifs at hstep with hsome
      cases hstep
      exact faithful_firstMessage h (by simpa using hsome) rfl
    · exact faithful_received h rfl
  | pair now =>
    rcases h with @⟨ends, requests, h⟩ | _ | _ | _ <;> try cases hstep
    dsimp only at hstep
    split_ifs at hstep with hboth
    cases hstep
    obtain ⟨hpeer, hsame⟩ :
        (requests .peer).isSome = true ∧ requests .peer = requests .stream := by
      simpa using hboth
    refine faithful_pair h fun side => ?_
    cases side with
    | peer => exact hpeer
    | stream => rwa [← hsame]
  | pass env =>
    rcases h with _ | _ | @⟨ends, meter, _ | ⟨source, bytes, limiter⟩ | _, h⟩ | _ <;>
      try cases hstep
    dsimp only at hstep
    split_ifs at hstep with hempty
    · cases hstep
      refine faithful_turn (fun side => (h side).congr (fun _ _ => id) ?_ fun _ =>
        (h side).flushed nofun) _ env
      rw [List.isEmpty_iff.mp hempty]
      simp [passed, Activity.held]
    · cases hsend : (ends source.other).framed.startSend bytes <;> rw [hsend] at hstep <;>
        cases hstep
      · exact faithful_ended h nofun
      · exact .relaying (relayed_pass h hsend)
  | write n env =>
    rcases h with _ | _ | @⟨ends, meter, _ | _ | target, h⟩ | _ <;> try cases hstep
    simp only [Pair.setEnd, Function.update_self] at hstep
    split_ifs at hstep with hempty <;> cases hstep
    · exact faithful_turn (relayed_write h (.inr ⟨rfl, List.isEmpty_iff.mp hempty⟩)) meter env
    · exact .relaying (relayed_write h (.inl rfl))
  | writeError =>
    rcases h with _ | _ | @⟨_, _, _ | _ | _, h⟩ | _ <;> cases hstep
    exact faithful_ended h nofun
  | tick env =>
    rcases h with _ | _ | @⟨ends, meter, _ | _ | _, h⟩ | _ <;> try cases hstep
    dsimp only at hstep
    split_ifs at hstep <;> cases hstep
    · exact faithful_ended h nofun
    · exact faithful_turn h meter env

lemma faithful_of_reachable (h : (pairs cfg).Reachable p) : Faithful cfg p := by
  refine h.invariant (fun s hs => ?_) fun s a s' _ hs hstep => hs.step hstep
  rw [show s = _ from hs]
  refine .pairing fun side => ⟨rfl, rfl, fun _ => ?_, nofun⟩
  exact ⟨⟨nofun, rfl⟩, [], ⟨rfl, rfl, .inl ⟨rfl, rfl⟩⟩, rfl⟩

end

/-! ### A client that has closed -/

/-- Everything a client has sent was read and handed out, and the client has closed. -/
structure End.Drained (e : End) : Prop where
  closed : e.closed = true
  arriving : e.arriving = []
  buffer : e.framed.buffer = []
  raw : e.framed.codec.raw = true
  noError : e.framed.hasErrored = false

namespace End

variable {e : End}

lemma Drained.decode (h : e.Drained) :
    e.framed.codec.decode [] = .ok (none, e.framed.codec, []) := by
  simp [BytesCodec.decode, h.raw]

/-- Once the end of the stream has been read, the next round says so. -/
lemma Drained.poll_eof (h : e.Drained) (heof : e.framed.eof = true) (n : ℕ) :
    (e.poll (.take n)).1 = .finished := by
  cases hreadable : e.framed.isReadable with
  | true =>
    simp [End.poll, Framed.wantsRead, Framed.poll, BytesCodec.decodeEof, h.noError, hreadable, heof,
      h.decode, h.buffer]
  | false =>
    simp [End.poll, Framed.wantsRead, Framed.poll, End.read, h.noError, hreadable, heof,
      h.arriving, h.closed]

lemma Drained.poll_unread (h : e.Drained) (heof : e.framed.eof = false)
    (hreadable : e.framed.isReadable = false) (n : ℕ) :
    e.poll (.take n) =
      (.again, { e with framed := { e.framed with eof := true, isReadable := true } }) := by
  simp [End.poll, Framed.wantsRead, Framed.poll, End.read, h.noError, hreadable, heof,
    h.arriving, h.closed]

lemma Drained.poll_readable (h : e.Drained) (heof : e.framed.eof = false)
    (hreadable : e.framed.isReadable = true) (n : ℕ) :
    e.poll (.take n) = (.again, { e with framed := { e.framed with isReadable := false } }) := by
  simp [End.poll, Framed.wantsRead, Framed.poll, h.noError, hreadable, heof, h.buffer, h.decode]

end End

section

variable (cfg : Config) {p : Pair} {meter : Meter} {side : Side} {e : End}

lemma step_poll (hphase : p.phase = .relaying meter .selecting) (answer : Answer) (now : ℕ) :
    (pairs cfg).step p (.poll side answer now) =
      some ((p.setEnd side ((p.ends side).poll answer).2).received side meter now
        ((p.ends side).poll answer).1) := by
  change Pair.step cfg p (.poll side answer now) = _
  unfold Pair.step
  dsimp only
  rw [hphase]

lemma step_poll_again (hphase : p.phase = .relaying meter .selecting) {answer : Answer} (now : ℕ)
    (hpoll : (p.ends side).poll answer = (.again, e)) :
    (pairs cfg).step p (.poll side answer now) = some (p.setEnd side e) := by
  rw [step_poll cfg hphase, hpoll]
  rfl

/-- After `k` rounds of reading from a side the loop has ended because that client closed. -/
def Closes (p : Pair) (side : Side) (n now k : ℕ) : Prop :=
  ∃ p', (pairs cfg).run p (List.replicate k (.poll side (.take n) now)) = some p' ∧
    p'.phase = .ended (.closed side)

lemma Closes.again {n now k : ℕ} (hphase : p.phase = .relaying meter .selecting)
    (hpoll : (p.ends side).poll (.take n) = (.again, e))
    (h : Closes cfg (p.setEnd side e) side n now k) : Closes cfg p side n now (k + 1) := by
  rwa [Closes, List.replicate_succ, LTS.run_cons_of_step (step_poll_again cfg hphase now hpoll)]

variable (hphase : p.phase = .relaying meter .selecting) (h : (p.ends side).Drained) (n now : ℕ)
include hphase h

/-- The loop ends with the round after the one that reads the end of the stream. -/
lemma closes_of_eof (heof : (p.ends side).framed.eof = true) : Closes cfg p side n now 1 := by
  refine ⟨_, LTS.run_cons_of_step (step_poll cfg hphase (.take n) now) [], ?_⟩
  rw [h.poll_eof heof]
  rfl

lemma closes_of_unread (heof : (p.ends side).framed.eof = false)
    (hreadable : (p.ends side).framed.isReadable = false) : Closes cfg p side n now 2 := by
  refine .again cfg hphase (h.poll_unread heof hreadable n) ?_
  refine closes_of_eof cfg ((Pair.phase_setEnd ..).trans hphase) ?_ n now ?_ <;>
    rw [Pair.ends_setEnd]
  exact ⟨h.closed, h.arriving, h.buffer, h.raw, h.noError⟩

/-- Wherever the read of a client is that has closed and has nothing left, three rounds of it at
most end the loop. -/
lemma closes_of_drained : ∃ k ≤ 3, Closes cfg p side n now k := by
  cases heof : (p.ends side).framed.eof with
  | true => exact ⟨1, by decide, closes_of_eof cfg hphase h n now heof⟩
  | false =>
    cases hreadable : (p.ends side).framed.isReadable with
    | false => exact ⟨2, by decide, closes_of_unread cfg hphase h n now heof hreadable⟩
    | true =>
      refine ⟨3, le_rfl, .again cfg hphase (h.poll_readable heof hreadable n) ?_⟩
      refine closes_of_unread cfg ((Pair.phase_setEnd ..).trans hphase) ?_ n now ?_ ?_ <;>
        rw [Pair.ends_setEnd]
      · exact ⟨h.closed, h.arriving, h.buffer, h.raw, h.noError⟩
      · exact heof

end

/-- The relay is transparent: of two streams that are paired, each client gets at all times a
beginning of what the other sent behind its request, and all of it when that other one has closed
and everything was read. In that case the loop ends within three rounds of reading. -/
theorem relay_transparent {cfg : Config} {p : Pair} (hp : (pairs cfg).Reachable p)
    (hpaired : p.paired = true) (side : Side) :
    ∃ payload rest, firstFrame (p.ends side).sent = some (payload, rest) ∧
      (cfg.request side payload).isSome = true ∧
      (p.ends side.other).written <+: rest ∧
      (p.phase = .ended (.closed side) →
        (p.ends side).closed = true ∧ (p.ends side.other).written = rest) ∧
      ∀ meter, p.phase = .relaying meter .selecting → (p.ends side).arriving = [] →
        (p.ends side).framed.buffer = [] → (p.ends side.other).written = rest ∧
          ((p.ends side).closed = true → ∀ n now, ∃ k ≤ 3, ∃ p', (pairs cfg).run p
            (List.replicate k (.poll side (.take n) now)) = some p' ∧
              p'.phase = .ended (.closed side)) := by
  cases faithful_of_reachable hp with
  | pairing => cases hpaired
  | refused => cases hpaired
  | @relaying ends meter activity h =>
    obtain ⟨payload, hrequest, hraw⟩ := (h side).stream
    have hsofar : (ends side.other).written <+:
        passed ends activity side ++ (ends side).framed.buffer ++ (ends side).arriving := by
      unfold passed
      simp only [List.append_assoc]
      exact List.prefix_append _ _
    refine ⟨payload, _, hraw.sent.firstFrame_eq, hrequest, hsofar, nofun, ?_⟩
    intro meter' hphase harriving hbuffer
    cases hphase
    refine ⟨?_, fun hclosed n now => ?_⟩
    · simp only at harriving hbuffer
      rw [harriving, hbuffer, List.append_nil, List.append_nil, passed_selecting h]
    · exact closes_of_drained cfg rfl ⟨hclosed, harriving, hbuffer, hraw.raw, hraw.noError⟩ n now
  | @ended ends ending h =>
    obtain ⟨rest, ⟨⟨payload, hrequest, hbegins⟩, hsofar⟩, hending⟩ := h side
    refine ⟨payload, rest, hbegins.firstFrame_eq, hrequest, hsofar, fun hphase => ?_, nofun⟩
    cases hphase
    exact hending rfl

/-- A relay that asks for no key and takes one message for a request. -/
def openRelay : Config where
  parse bytes := if bytes = [7] then some ⟨"a uuid", ""⟩ else none
  key := ""
  vlessAuthenticated _ := false
  threshold := 0

/-- Two bytes that come right behind the request, in one segment with it and before the other client
is there, are passed on in two writes. -/
theorem relay_transparent_early :
    ∃ p payload rest, (pairs openRelay).run ⟨fun _ => {}, .pairing fun _ => none⟩
        [.send .peer [4, 7, 1, 2], .poll .peer (.take 9) 0, .poll .peer .pending 0, .close .peer,
          .send .stream [4, 7], .poll .stream (.take 1) 5, .poll .stream .pending 5,
          .poll .stream (.take 1) 6, .poll .stream .pending 6, .pair 7, .poll .peer .pending 8,
          .pass ⟨9, false, false, 0⟩, .write 1 ⟨9, false, false, 0⟩,
          .write 1 ⟨9, false, false, 0⟩] = some p ∧
      firstFrame (p.ends .peer).sent = some (payload, rest) ∧ payload = [7] ∧
      (p.ends .stream).written = rest ∧ rest = [1, 2] := by
  simp only [exists_and_left]
  refine LTS.exists_run_of (P := fun p => p.paired = true ∧
    firstFrame (p.ends .peer).sent = some ([7], [1, 2]) ∧ (p.ends .stream).written = [1, 2])
    (by decide) ?_
  rintro p hp ⟨hpaired, hfirst, hwritten⟩
  have hreach : (pairs openRelay).Reachable p := (LTS.Reachable.init rfl).run hp
  obtain ⟨payload, rest, hframe, -, hsofar, -⟩ := relay_transparent hreach hpaired .peer
  obtain ⟨rfl, rfl⟩ : payload = [7] ∧ rest = [1, 2] := by
    rw [hfirst] at hframe
    simpa [eq_comm] using hframe
  have hall : (p.ends .stream).written = [1, 2] :=
    hsofar.eq_of_length (congrArg List.length hwritten)
  exact ⟨_, _, hframe, rfl, hall, rfl⟩

end RustDesk.Relay
