import RustDesk.PortForward.Flow

/-!
# The two relays of a channel

`Sender` is `relay_socket_to_tunnel` with the `SendCredit` it draws on, `Receiver` is
`relay_tunnel_to_socket` with its `RecvWindow` and inbound queue. Each is a program counter with
one value for every point at which another task can run, and a step function whose label holds
what the scheduler and the socket choose.

`Sender.Rule` and `Receiver.Rule` list what a step can do; the proofs over the relays go by cases
on these and never unfold the step functions.
-/

namespace RustDesk.PortForward

abbrev Bytes := List UInt8

/-- The `i32` of the wire, by its bit pattern. -/
abbrev ChannelId := BitVec 32

/-- The frames of a tunnel, under the names of the functions that build them. -/
inductive Frame where
  | openMsg (id : ChannelId) (host : String) (port : ℤ) (window : ℕ)
  | openedMsg (id : ChannelId) (success : Bool) (message : String) (window : ℕ)
  | dataMsg (id : ChannelId) (data : Bytes)
  | closeMsg (id : ChannelId)
  | windowUpdateMsg (id : ChannelId) (add : ℕ)
  deriving DecidableEq

namespace Frame

def channelId : Frame → ChannelId
  | openMsg id _ _ _ => id
  | openedMsg id _ _ _ => id
  | dataMsg id _ => id
  | closeMsg id => id
  | windowUpdateMsg id _ => id

/-- `window_update` is the one frame that goes through `send_control`. -/
def isControl : Frame → Bool
  | windowUpdateMsg _ _ => true
  | _ => false

def payload? : Frame → Option Bytes
  | dataMsg _ b => some b
  | _ => none

def update? : Frame → Option ℕ
  | windowUpdateMsg _ n => some n
  | _ => none

end Frame

/-- The payloads of the data frames in a list of frames. -/
def payloads (fs : List Frame) : List Bytes := fs.filterMap Frame.payload?

/-- The amounts of the window updates in a list of frames. -/
def updates (fs : List Frame) : List ℕ := fs.filterMap Frame.update?

/-- What a list of chunks costs the window. -/
def charges (bs : List Bytes) : ℕ := (bs.map fun b => charge b.length).sum

inductive Inbound where
  | data (b : Bytes)
  | close
  | violation
  deriving DecidableEq

def Inbound.chunk? : Inbound → Option Bytes
  | data b => some b
  | _ => none

/-- The data chunks of an inbound queue. -/
def chunks (q : List Inbound) : List Bytes := q.filterMap Inbound.chunk?

inductive RelayEnd where
  | localEof
  | peerClosed
  | violation
  | cancelled
  | tunnelGone
  deriving DecidableEq

/-- What a relay sees of its surroundings: whether the frame queues' receivers are gone, whether
the ordered queue has no room, and whether its `cancel` has been raised. -/
structure RelayEnv where
  closed : Bool
  full : Bool
  cancel : Bool
  deriving DecidableEq

@[simp] lemma payloads_nil : payloads [] = [] := rfl

@[simp] lemma payloads_append (fs gs : List Frame) :
    payloads (fs ++ gs) = payloads fs ++ payloads gs := List.filterMap_append

@[simp] lemma updates_nil : updates [] = [] := rfl

@[simp] lemma updates_append (fs gs : List Frame) :
    updates (fs ++ gs) = updates fs ++ updates gs := List.filterMap_append

@[simp] lemma charges_nil : charges [] = 0 := rfl

@[simp] lemma charges_cons (b : Bytes) (bs : List Bytes) :
    charges (b :: bs) = charge b.length + charges bs := by simp [charges]

@[simp] lemma charges_append (as bs : List Bytes) :
    charges (as ++ bs) = charges as + charges bs := by simp [charges]

@[simp] lemma chunks_nil : chunks [] = [] := rfl

@[simp] lemma chunks_data (b : Bytes) (q : List Inbound) :
    chunks (.data b :: q) = b :: chunks q := rfl

@[simp] lemma chunks_close (q : List Inbound) : chunks (.close :: q) = chunks q := rfl

@[simp] lemma chunks_violation (q : List Inbound) : chunks (.violation :: q) = chunks q := rfl

@[simp] lemma chunks_append (p q : List Inbound) : chunks (p ++ q) = chunks p ++ chunks q :=
  List.filterMap_append

/-- Every chunk held costs at least the minimum charge. -/
lemma length_mul_le_charges (bs : List Bytes) : bs.length * minFrameCharge ≤ charges bs := by
  induction bs with
  | nil => simp
  | cons b bs ih =>
    have := minFrameCharge_le_charge b.length
    simp only [List.length_cons, charges_cons, add_mul, one_mul]
    omega

/-! ### Socket to tunnel -/

/-- What `relay_socket_to_tunnel` does once the refund is made. -/
inductive After where
  | send (data : Bytes)
  | finish (e : RelayEnd)
  deriving DecidableEq

/-- Where `relay_socket_to_tunnel` is. `check`, `poll` and `parked` are inside `SendCredit::take`:
about to lock the credit, about to poll `notified()`, and registered as the waiting task. -/
inductive SenderPc where
  | idle
  | check
  | poll
  | parked
  | reading (allow : ℕ)
  | refund (n : ℕ) (after : After)
  | notifying (after : After)
  | sending (data : Bytes)
  | ended (e : RelayEnd)
  deriving DecidableEq

def After.pc : After → SenderPc
  | send data => .sending data
  | finish e => .ended e

structure Sender where
  credit : SendCredit
  pc : SenderPc
  /-- the whole `prebuf`, and the part of it the cursor has not passed -/
  prebuf : Bytes
  rest : Bytes
  /-- the bytes read from the socket itself, after the `prebuf` -/
  socket : Bytes
  /-- the payloads of the data frames built so far -/
  framed : List Bytes
  deriving DecidableEq

inductive SenderAct where
  | check
  | poll
  | wake
  | cancel
  /-- the socket gives these bytes; none at all is the end of the stream or an error -/
  | read (got : Bytes)
  | refund
  | notify
  | send
  deriving DecidableEq

namespace Sender

variable {got : Bytes} {env : RelayEnv} {id : ChannelId} {s s' : Sender} {e : Option Frame}

def new (credit : ℕ) (prebuf : Bytes) : Sender :=
  ⟨SendCredit.new credit, .idle, prebuf, prebuf, [], []⟩

/-- The continuation of a read of `got` bytes under `allow`: what was not spent is refunded. -/
def afterRead (allow : ℕ) (got : Bytes) : SenderPc :=
  let spent := if got = [] then 0 else charge got.length
  let after := if got = [] then After.finish .localEof else .send got
  if spent < allow then .refund (allow - spent) after else after.pc

lemma afterRead_nil (allow : ℕ) : afterRead allow [] =
    if 0 < allow then .refund allow (.finish .localEof) else .ended .localEof := rfl

lemma afterRead_of_ne (h : got ≠ []) (allow : ℕ) :
    afterRead allow got =
    if charge got.length < allow then .refund (allow - charge got.length) (.send got)
    else .sending got := by
  simp only [afterRead, if_neg h, After.pc]

/-- After a read the relay is past `take`. -/
lemma afterRead_ne_parked (allow : ℕ) (got : Bytes) :
    afterRead allow got ≠ .parked ∧ afterRead allow got ≠ .poll := by
  by_cases h : got = []
  · rw [h, afterRead_nil]
    split_ifs <;> simp
  · rw [afterRead_of_ne h]
    split_ifs <;> simp

/-- `reader.read(&mut scratch[..allow])`: the cursor over `prebuf` first, then the socket. -/
def readInto (s : Sender) (allow : ℕ) (got : Bytes) : Option Sender :=
  if s.rest ≠ [] then
    if got = s.rest.take allow then
      some { s with
        rest := s.rest.drop allow, framed := s.framed ++ [got], pc := afterRead allow got }
    else none
  else if got.length ≤ allow then
    some { s with
      socket := s.socket ++ got
      framed := if got = [] then s.framed else s.framed ++ [got]
      pc := afterRead allow got }
  else none

def step (env : RelayEnv) (id : ChannelId) (a : SenderAct) (s : Sender) :
    Option (Sender × Option Frame) :=
  match a, s.pc with
  | .check, .check =>
    match s.credit.tryTake maxFrame with
    | some (n, credit) => some ({ s with credit := credit, pc := .reading n }, none)
    | none => some ({ s with pc := .poll }, none)
  | .poll, .poll =>
    let (notify, ready) := s.credit.notify.poll
    some ({ s with
      credit := { s.credit with notify := notify }
      pc := if ready then .check else .parked }, none)
  | .wake, .parked =>
    if s.credit.notify.waiter = .notified then
      some ({ s with
        credit := { s.credit with notify := { s.credit.notify with waiter := .absent } }
        pc := .check }, none)
    else none
  | .cancel, .check => if env.cancel then some ({ s with pc := .ended .cancelled }, none) else none
  | .cancel, .parked =>
    -- the pending `take` is dropped, and with it its place in the `Notify`
    if env.cancel then
      some ({ s with
        credit := { s.credit with notify := s.credit.notify.drop }
        pc := .ended .cancelled }, none)
    else none
  | .cancel, .reading allow =>
    if env.cancel then some ({ s with pc := .refund allow (.finish .cancelled) }, none) else none
  | .read got, .reading allow => (s.readInto allow got).map fun s' => (s', none)
  | .refund, .refund n after =>
    some ({ s with credit := s.credit.addLocked n, pc := .notifying after }, none)
  | .notify, .notifying after =>
    some ({ s with credit := s.credit.notifyOne, pc := after.pc }, none)
  | .send, .sending data =>
    if env.closed then some ({ s with pc := .ended .tunnelGone }, none)
    else if env.full then none
    else some ({ s with pc := .check }, some (.dataMsg id data))
  | _, _ => none

/-- Everything a step of `relay_socket_to_tunnel` can do. -/
inductive Rule (env : RelayEnv) (id : ChannelId) : Sender → Sender → Option Frame → Prop where
  | take {s : Sender} (hpc : s.pc = .check) (hc : minFrameCharge ≤ s.credit.credit) :
      Rule env id s { s with
        credit := { s.credit with credit := s.credit.credit - min s.credit.credit maxFrame }
        pc := .reading (min s.credit.credit maxFrame) } none
  | short {s : Sender} (hpc : s.pc = .check) (hc : s.credit.credit < minFrameCharge) :
      Rule env id s { s with pc := .poll } none
  | permit {s : Sender} (hpc : s.pc = .poll) (hp : s.credit.notify.permit = true) :
      Rule env id s { s with
        credit := { s.credit with notify := { s.credit.notify with permit := false } }
        pc := .check } none
  | park {s : Sender} (hpc : s.pc = .poll) (hp : s.credit.notify.permit = false) :
      Rule env id s { s with
        credit := { s.credit with notify := ⟨false, .waiting⟩ }
        pc := .parked } none
  | wake {s : Sender} (hpc : s.pc = .parked) (hw : s.credit.notify.waiter = .notified) :
      Rule env id s { s with
        credit := { s.credit with notify := { s.credit.notify with waiter := .absent } }
        pc := .check } none
  | cancelCheck {s : Sender} (hpc : s.pc = .check) (hc : env.cancel = true) :
      Rule env id s { s with pc := .ended .cancelled } none
  | cancelParked {s : Sender} (hpc : s.pc = .parked) (hc : env.cancel = true) :
      Rule env id s { s with
        credit := { s.credit with notify := s.credit.notify.drop }
        pc := .ended .cancelled } none
  | cancelReading {s : Sender} {allow : ℕ} (hpc : s.pc = .reading allow)
      (hc : env.cancel = true) :
      Rule env id s { s with pc := .refund allow (.finish .cancelled) } none
  | read {s s' : Sender} {allow : ℕ} {got : Bytes} (hpc : s.pc = .reading allow)
      (hr : s.readInto allow got = some s') : Rule env id s s' none
  | refund {s : Sender} {n : ℕ} {after : After} (hpc : s.pc = .refund n after) :
      Rule env id s { s with credit := s.credit.addLocked n, pc := .notifying after } none
  | notify {s : Sender} {after : After} (hpc : s.pc = .notifying after) :
      Rule env id s { s with credit := s.credit.notifyOne, pc := after.pc } none
  | send {s : Sender} {data : Bytes} (hpc : s.pc = .sending data) (hc : env.closed = false) :
      Rule env id s { s with pc := .check } (some (.dataMsg id data))
  | gone {s : Sender} {data : Bytes} (hpc : s.pc = .sending data) (hc : env.closed = true) :
      Rule env id s { s with pc := .ended .tunnelGone } none

lemma Rule.of_step {a : SenderAct} (h : s.step env id a = some (s', e)) : Rule env id s s' e := by
  unfold step at h
  split at h <;> rename_i hpc
  · -- `take` finds enough credit or goes on to wait
    split at h <;> rename_i htake
    · obtain ⟨hc, rfl, rfl⟩ := SendCredit.tryTake_eq_some htake
      cases h
      exact .take hpc hc
    · cases h
      exact .short hpc (SendCredit.tryTake_eq_none htake)
  · cases hp : s.credit.notify.permit <;> simp [Notify.poll, hp] at h <;> obtain ⟨rfl, rfl⟩ := h
    · exact .park hpc hp
    · exact .permit hpc hp
  · split_ifs at h with hw
    cases h
    exact .wake hpc hw
  · split_ifs at h with hc
    cases h
    exact .cancelCheck hpc hc
  · split_ifs at h with hc
    cases h
    exact .cancelParked hpc hc
  · split_ifs at h with hc
    cases h
    exact .cancelReading hpc hc
  · obtain ⟨t, ht, ⟨⟩⟩ := Option.map_eq_some_iff.mp h
    exact .read hpc ht
  · cases h
    exact .refund hpc
  · cases h
    exact .notify hpc
  · split_ifs at h with hc hf <;> cases h
    · exact .gone hpc hc
    · exact .send hpc (by simpa using hc)
  · cases h

/-- The one frame the relay emits is the data frame it has in hand. -/
lemma Rule.emits (h : Rule env id s s' e) :
    e = none ∨ ∃ b, s.pc = .sending b ∧ e = some (.dataMsg id b) := by
  cases h with
  | send hpc hc => exact Or.inr ⟨_, hpc, rfl⟩
  | _ => exact Or.inl rfl

/-- A read returns the head of the unread `prebuf`, or what the socket gives. -/
lemma readInto_cases {allow : ℕ} (h : s.readInto allow got = some s') :
    (s.rest ≠ [] ∧ got = s.rest.take allow ∧ s' = { s with
        rest := s.rest.drop allow, framed := s.framed ++ [got], pc := afterRead allow got }) ∨
    (s.rest = [] ∧ got.length ≤ allow ∧ s' = { s with
        socket := s.socket ++ got
        framed := if got = [] then s.framed else s.framed ++ [got]
        pc := afterRead allow got }) := by
  unfold readInto at h
  by_cases hrest : s.rest = []
  · rw [if_neg (not_not.mpr hrest), Option.ite_none_right_eq_some] at h
    obtain ⟨hlen, h⟩ := h
    exact Or.inr ⟨hrest, hlen, (Option.some.inj h).symm⟩
  · rw [if_pos hrest, Option.ite_none_right_eq_some] at h
    obtain ⟨hgot, h⟩ := h
    exact Or.inl ⟨hrest, hgot, (Option.some.inj h).symm⟩

end Sender

/-! ### Tunnel to socket -/

/-- Where `relay_tunnel_to_socket` is. In `writing` the first list is the whole chunk and the
second what the socket has not accepted of it. -/
inductive ReceiverPc where
  | idle
  | next
  | writing (chunk rest : Bytes)
  | draining (chunk : Bytes)
  | updating (add : ℕ)
  | ended (e : RelayEnd)
  deriving DecidableEq

structure Receiver where
  window : RecvWindow
  /-- the window granted so far: the one the channel started with, and `grant` -/
  granted : ℕ
  /-- the queue between the frame handler and the task; `txLive` says that the map still holds
  the entry that owns its sender, `rxLive` that the receiver has not been dropped -/
  inbound : List Inbound
  txLive : Bool
  rxLive : Bool
  pc : ReceiverPc
  /-- chunks buffered while connecting, written before anything from the queue -/
  pending : List Bytes
  pendingLen : ℕ
  /-- the bytes the socket has accepted, the chunks queued by the frame handler, and those
  written and drained -/
  written : Bytes
  delivered : List Bytes
  drained : List Bytes
  deriving DecidableEq

inductive ReceiverAct where
  | next
  | cancel
  /-- the socket accepts this many bytes of the chunk -/
  | write (n : ℕ)
  | wrote
  | fail
  | drain
  | update
  deriving DecidableEq

namespace Receiver

variable {env : RelayEnv} {id : ChannelId} {r r' : Receiver} {e : Option Frame}

def new (window : ℕ) : Receiver where
  window := RecvWindow.new window
  granted := effectiveWindow window
  inbound := []
  txLive := true
  rxLive := true
  pc := .idle
  pending := []
  pendingLen := 0
  written := []
  delivered := []
  drained := []

/-- Dropping the queue's receiver drops what it still holds. -/
def close (r : Receiver) : Receiver := { r with rxLive := false, inbound := [], pending := [] }

def finish (r : Receiver) (e : RelayEnd) : Receiver := { r.close with pc := .ended e }

/-- `inbound.send(..)`: `false` when the receiver is gone. -/
def push (r : Receiver) (m : Inbound) : Receiver × Bool :=
  if r.rxLive then ({ r with inbound := r.inbound ++ [m] }, true) else (r, false)

/-- `window.lock().unwrap().grant(n)`. -/
def grant (r : Receiver) (n : ℕ) : Receiver :=
  { r with window := r.window.grant n, granted := r.granted + n }

@[simp] lemma grant_pc (r : Receiver) (n : ℕ) : (r.grant n).pc = r.pc := (rfl)

@[simp] lemma grant_inbound (r : Receiver) (n : ℕ) : (r.grant n).inbound = r.inbound := (rfl)

@[simp] lemma grant_txLive (r : Receiver) (n : ℕ) : (r.grant n).txLive = r.txLive := (rfl)

@[simp] lemma grant_written (r : Receiver) (n : ℕ) : (r.grant n).written = r.written := (rfl)

@[simp] lemma grant_delivered (r : Receiver) (n : ℕ) : (r.grant n).delivered = r.delivered := (rfl)

@[simp] lemma grant_drained (r : Receiver) (n : ℕ) : (r.grant n).drained = r.drained := (rfl)

/-- The map drops the entry, and with it the queue's only sender. -/
def dropEntry (r : Receiver) : Receiver := { r with txLive := false }

def step (env : RelayEnv) (id : ChannelId) (a : ReceiverAct) (r : Receiver) :
    Option (Receiver × Option Frame) :=
  match a, r.pc with
  | .next, .next =>
    match r.pending, r.inbound with
    | chunk :: rest, _ => some ({ r with pending := rest, pc := .writing chunk chunk }, none)
    | [], .data chunk :: rest =>
      some ({ r with inbound := rest, pc := .writing chunk chunk }, none)
    | [], .close :: _ => some (r.finish .peerClosed, none)
    | [], .violation :: _ => some (r.finish .violation, none)
    | [], [] => if r.txLive then none else some (r.finish .tunnelGone, none)
  | .cancel, .next =>
    if env.cancel ∧ r.pending = [] then some (r.finish .cancelled, none) else none
  | .cancel, .writing _ _ => if env.cancel then some (r.finish .cancelled, none) else none
  | .write n, .writing chunk rest =>
    if 0 < n ∧ n ≤ rest.length then
      some ({ r with
        written := r.written ++ rest.take n, pc := .writing chunk (rest.drop n) }, none)
    else none
  | .wrote, .writing chunk [] => some ({ r with pc := .draining chunk }, none)
  | .fail, .writing _ (_ :: _) => some (r.finish .localEof, none)
  | .drain, .draining chunk =>
    let (window, update) := r.window.drained chunk.length
    some ({ r with
      window := window
      drained := r.drained ++ [chunk]
      pc := match update with
        | some add => .updating add
        | none => .next }, none)
  | .update, .updating add =>
    if env.closed then some (r.finish .tunnelGone, none)
    else some ({ r with pc := .next }, some (.windowUpdateMsg id add))
  | _, _ => none

/-- Everything a step of `relay_tunnel_to_socket` can do. -/
inductive Rule (env : RelayEnv) (id : ChannelId) : Receiver → Receiver → Option Frame → Prop where
  | popPending {r : Receiver} {chunk : Bytes} {rest : List Bytes} (hpc : r.pc = .next)
      (hp : r.pending = chunk :: rest) :
      Rule env id r { r with pending := rest, pc := .writing chunk chunk } none
  | recvData {r : Receiver} {chunk : Bytes} {rest : List Inbound} (hpc : r.pc = .next)
      (hp : r.pending = []) (hq : r.inbound = .data chunk :: rest) :
      Rule env id r { r with inbound := rest, pc := .writing chunk chunk } none
  | recvClose {r : Receiver} {rest : List Inbound} (hpc : r.pc = .next)
      (hp : r.pending = []) (hq : r.inbound = .close :: rest) :
      Rule env id r (r.finish .peerClosed) none
  | recvViolation {r : Receiver} {rest : List Inbound} (hpc : r.pc = .next)
      (hp : r.pending = []) (hq : r.inbound = .violation :: rest) :
      Rule env id r (r.finish .violation) none
  | recvGone {r : Receiver} (hpc : r.pc = .next) (hp : r.pending = []) (hq : r.inbound = [])
      (ht : r.txLive = false) : Rule env id r (r.finish .tunnelGone) none
  | cancelNext {r : Receiver} (hpc : r.pc = .next) (hc : env.cancel = true)
      (hp : r.pending = []) : Rule env id r (r.finish .cancelled) none
  | cancelWriting {r : Receiver} {chunk rest : Bytes} (hpc : r.pc = .writing chunk rest)
      (hc : env.cancel = true) : Rule env id r (r.finish .cancelled) none
  | write {r : Receiver} {chunk rest : Bytes} {n : ℕ} (hpc : r.pc = .writing chunk rest)
      (hpos : 0 < n) (hn : n ≤ rest.length) :
      Rule env id r { r with
        written := r.written ++ rest.take n, pc := .writing chunk (rest.drop n) } none
  | wrote {r : Receiver} {chunk : Bytes} (hpc : r.pc = .writing chunk []) :
      Rule env id r { r with pc := .draining chunk } none
  | fail {r : Receiver} {chunk rest : Bytes} (hpc : r.pc = .writing chunk rest)
      (hne : rest ≠ []) : Rule env id r (r.finish .localEof) none
  | drain {r : Receiver} {chunk : Bytes} (hpc : r.pc = .draining chunk)
      (hd : (r.window.drained chunk.length).2 = none) :
      Rule env id r { r with
        window := (r.window.drained chunk.length).1
        drained := r.drained ++ [chunk]
        pc := .next } none
  | drainUpdate {r : Receiver} {chunk : Bytes} {add : ℕ} (hpc : r.pc = .draining chunk)
      (hd : (r.window.drained chunk.length).2 = some add) :
      Rule env id r { r with
        window := (r.window.drained chunk.length).1
        drained := r.drained ++ [chunk]
        pc := .updating add } none
  | update {r : Receiver} {add : ℕ} (hpc : r.pc = .updating add) (hc : env.closed = false) :
      Rule env id r { r with pc := .next } (some (.windowUpdateMsg id add))
  | gone {r : Receiver} {add : ℕ} (hpc : r.pc = .updating add) (hc : env.closed = true) :
      Rule env id r (r.finish .tunnelGone) none

lemma Rule.of_step {a : ReceiverAct} (h : r.step env id a = some (r', e)) : Rule env id r r' e := by
  unfold step at h
  split at h <;> rename_i hpc
  · split at h
    · cases h
      exact .popPending hpc ‹_›
    · cases h
      exact .recvData hpc ‹_› ‹_›
    · cases h
      exact .recvClose hpc ‹_› ‹_›
    · cases h
      exact .recvViolation hpc ‹_› ‹_›
    · split_ifs at h with ht
      cases h
      exact .recvGone hpc ‹_› ‹_› (by simpa using ht)
  · split_ifs at h with hc
    cases h
    exact .cancelNext hpc hc.1 hc.2
  · split_ifs at h with hc
    cases h
    exact .cancelWriting hpc hc
  · split_ifs at h with hn
    cases h
    exact .write hpc hn.1 hn.2
  · cases h
    exact .wrote hpc
  · cases h
    exact .fail hpc (by simp)
  · rename_i chunk
    cases hd : (r.window.drained chunk.length).2 <;> simp only [hd] at h <;> cases h
    · exact .drain hpc hd
    · exact .drainUpdate hpc hd
  · split_ifs at h with hc <;> cases h
    · exact .gone hpc hc
    · exact .update hpc (by simpa using hc)
  · cases h

lemma Rule.emits (h : Rule env id r r' e) :
    e = none ∨ ∃ n, r.pc = .updating n ∧ e = some (.windowUpdateMsg id n) := by
  cases h with
  | update hpc hc => exact Or.inr ⟨_, hpc, rfl⟩
  | _ => exact Or.inl rfl

/-- The relay leaves the entry and what was delivered to the frame handler. -/
lemma Rule.delivered_eq (h : Rule env id r r' e) :
    r'.delivered = r.delivered ∧ r'.txLive = r.txLive := by
  cases h <;> exact ⟨rfl, rfl⟩

end Receiver

end RustDesk.PortForward
