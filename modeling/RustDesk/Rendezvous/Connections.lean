import RustDesk.Lib.Slots
import RustDesk.Lib.Transition
import RustDesk.Net.AddrMangle

/-!
# TCP connections of the rendezvous server

`handle_listener_inner` runs once for each connection, for a WebSocket, for a tunnel that has
authenticated as VLESS and for a direct client. All of them share two maps whose keys are
addresses: `tcp_punch` has the write halves of connections that wait for a reply, `tcp_senders` the
channels to the connections that can be pushed to. Each access takes the lock of the map by itself,
so a step of a task is what it does up to the next one.

A write half is named by the number of its connection. Sockets accept every write.
-/

namespace RustDesk.Rendezvous.Tcp

/-! ### Addresses -/

inductive Kind where
  | ws
  | vless
  | direct
  deriving DecidableEq

/-- The values of `X-Real-IP` and `X-Forwarded-For`. -/
structure Headers where
  realIp : Option Bytes
  forwardedFor : Option Bytes
  deriving DecidableEq

/-- `HeaderValue::to_str`: visible ASCII characters, blanks and tabs. -/
def toStr (value : Bytes) : Option Bytes :=
  if value.all fun b => 32 ≤ b ∧ b < 127 ∨ b = 9 then some value else none

/-- The address a WebSocket goes by: the one a header gives, with port 0, or its own. -/
def Headers.addr (headers : Headers) (addr : SocketAddr) : SocketAddr :=
  match (headers.realIp.or headers.forwardedFor).bind toStr with
  | none => addr
  | some ip =>
    let port := [ascii ':', ascii '0']
    if ip.contains (ascii '.') then (SocketAddr.parse (ip ++ port)).getD addr
    else (SocketAddr.parse (ascii '[' :: ip ++ ascii ']' :: port)).getD addr

/-- Headers are read on WebSockets only. -/
def Kind.addr (kind : Kind) (addr : SocketAddr) (headers : Headers) : SocketAddr :=
  if kind = .ws then headers.addr addr else addr

/-! ### Messages -/

/-- What `Data::Msg` brings to a peer; a request brings the mangled address of who asked. -/
inductive Push where
  | punchHole (socketAddr : Bytes)
  | fetchLocalAddr (socketAddr : Bytes)
  | requestRelay (socketAddr : Bytes)
  | other (bytes : Bytes)
  deriving DecidableEq

inductive Failure where
  | idNotExist
  | offline
  | licenseMismatch
  deriving DecidableEq

inductive Ask where
  | punchHole (licenceKey : String)
  | relay
  deriving DecidableEq

inductive Reply where
  | failure (failure : Failure)
  | relayResponse
  | punchHoleResponse (isLocal : Bool)
  deriving DecidableEq

/-- Whose mangled address a reply carries: that of a request, or one that nobody was sent. -/
inductive Origin where
  | request (r : ℕ)
  | forged (socketAddr : Bytes)
  deriving DecidableEq

/-- What comes in. `other` is any other message and what does not parse, `ignored` what does not
reach `handle_tcp`: an empty frame of a tunnel, a WebSocket message that is not binary. -/
inductive Message where
  | punchHoleRequest (licenceKey : String)
  | requestRelay
  | relayResponse (origin : Origin)
  | punchHoleSent (origin : Origin)
  | localAddr (origin : Origin)
  | testNatRequest
  | registerPeer (id : String)
  | registerPk
  | other
  | ignored
  deriving DecidableEq

/-- What goes out on a connection: a reply that was routed to it, a push, a heartbeat, or an answer
that its own task writes. -/
inductive Written where
  | reply (origin : Origin) (reply : Reply)
  | push (push : Push)
  | heartbeat
  | answer
  deriving DecidableEq

/-! ### Tasks -/

/-- Where the task of a connection is: it waits in its loop, is about to put its write half into
`tcp_punch`, to look the peer up, to take the write half for a refusal or for a reply, or to write
to the one it took; or the loop has ended and it is about to clean up. `again` is what `handle_tcp`
returns after the write. -/
inductive Phase where
  | reading
  | parking (ask : Ask) (r : ℕ)
  | asking (ask : Ask) (r : ℕ)
  | refusing (failure : Failure) (r : ℕ)
  | replying (reply : Reply) (origin : Origin)
  | sending (sink : Option ℕ) (reply : Reply) (origin : Origin) (again : Bool)
  | leaving
  | closing
  | closed
  deriving DecidableEq

/-- A connection. `sink` says that its task has the write half, `asked` that a `PunchHoleRequest` or
a `RequestRelay` has come in; `rx` is what its channel holds, `pushed` all that was put there and
`taken` what was taken from it. -/
structure Conn where
  kind : Kind
  addr : SocketAddr
  phase : Phase
  sink : Bool
  asked : Bool
  rx : List Push
  pushed : List Push
  taken : List Push
  written : List Written
  deriving DecidableEq

namespace Conn

variable {c : Conn}

def start (kind : Kind) (addr : SocketAddr) : Conn :=
  { kind, addr, phase := .reading, sink := true, asked := false, rx := [], pushed := [],
    taken := [], written := [] }

/-- The loop of the connection has not ended. -/
def running (c : Conn) : Bool := c.phase ∉ [.leaving, .closing, .closed]

/-- `send_to_sink` on what the task has. -/
def send (c : Conn) (m : Written) : Conn :=
  if c.sink then { c with written := c.written ++ [m] } else c

@[simp] lemma send_addr (c : Conn) (m : Written) : (c.send m).addr = c.addr := by
  rw [send]; split_ifs <;> rfl

@[simp] lemma send_phase (c : Conn) (m : Written) : (c.send m).phase = c.phase := by
  rw [send]; split_ifs <;> rfl

@[simp] lemma send_sink (c : Conn) (m : Written) : (c.send m).sink = c.sink := by
  rw [send]; split_ifs <;> rfl

@[simp] lemma send_asked (c : Conn) (m : Written) : (c.send m).asked = c.asked := by
  rw [send]; split_ifs <;> rfl

lemma mem_written_send {m m' : Written} (h : m' ∈ (c.send m).written) :
    m' ∈ c.written ∨ m' = m := by
  rw [send] at h
  split_ifs at h
  · exact (List.mem_append.mp h).imp_right List.mem_singleton.mp
  · exact .inl h

def goto (c : Conn) (phase : Phase) : Conn := { c with phase }

/-- A request has come in: the write half leaves the task, if it still has it. -/
def ask (c : Conn) (ask : Ask) (r : ℕ) : Conn :=
  { c with
    phase := if c.sink then .parking ask r else .asking ask r
    sink := false
    asked := true }

/-- The arms of `handle_tcp` that touch nothing but the connection. -/
def handle (c : Conn) : Message → Conn
  | .testNatRequest => (c.send .answer).goto .leaving
  | .registerPeer id =>
    if c.kind ≠ .vless then c.goto .leaving
    else if id.isEmpty then c
    else c.send .answer
  | .registerPk => if c.kind = .vless then c.send .answer else (c.send .answer).goto .leaving
  | .relayResponse origin => c.goto (.replying .relayResponse origin)
  | .punchHoleSent origin => c.goto (.replying (.punchHoleResponse false) origin)
  | .localAddr origin => c.goto (.replying (.punchHoleResponse true) origin)
  | .ignored => if c.kind = .direct then c.goto .leaving else c
  | _ => c.goto .leaving

/-- The task writes an answer of its own or nothing, and stays, leaves or has a reply to route. -/
lemma handle_eq (c : Conn) (msg : Message) : ∃ c₁ phase, (c₁ = c ∨ c₁ = c.send .answer) ∧
    (phase = c.phase ∨ phase = .leaving ∨ ∃ reply origin, phase = .replying reply origin) ∧
    c.handle msg = c₁.goto phase := by
  have hstay : c = c.goto c.phase := rfl
  have hanswer : c.send .answer = (c.send .answer).goto c.phase := by
    rw [← send_phase c .answer]; rfl
  cases msg with
  | testNatRequest => exact ⟨_, .leaving, .inr rfl, .inr (.inl rfl), rfl⟩
  | registerPeer id =>
    rw [handle]
    split_ifs
    · exact ⟨_, .leaving, .inl rfl, .inr (.inl rfl), rfl⟩
    · exact ⟨_, _, .inl rfl, .inl rfl, hstay⟩
    · exact ⟨_, _, .inr rfl, .inl rfl, hanswer⟩
  | registerPk =>
    rw [handle]
    split_ifs
    · exact ⟨_, _, .inr rfl, .inl rfl, hanswer⟩
    · exact ⟨_, .leaving, .inr rfl, .inr (.inl rfl), rfl⟩
  | relayResponse origin | punchHoleSent origin | localAddr origin =>
    exact ⟨_, _, .inl rfl, .inr (.inr ⟨_, _, rfl⟩), rfl⟩
  | ignored =>
    rw [handle]
    split_ifs
    · exact ⟨_, .leaving, .inl rfl, .inr (.inl rfl), rfl⟩
    · exact ⟨_, _, .inl rfl, .inl rfl, hstay⟩
  | _ => exact ⟨_, .leaving, .inl rfl, .inr (.inl rfl), rfl⟩

/-- `rx.recv()`: a push is written if the task has the write half. -/
def receivePush (c : Conn) : Conn :=
  match c.rx with
  | [] => c
  | push :: rx => { c with rx, taken := c.taken ++ [push] }.send (.push push)

lemma receivePush_of_cons {push : Push} {rx : List Push} (h : c.rx = push :: rx) :
    c.receivePush = { c with rx, taken := c.taken ++ [push] }.send (.push push) := by
  simp only [receivePush, h]

lemma receivePush_of_nil (h : c.rx = []) : c.receivePush = c := by
  simp only [receivePush, h]

/-- `tx.send`, which fails once the receiver is gone. -/
def enqueue (c : Conn) (push : Push) : Conn :=
  if c.running then { c with rx := c.rx ++ [push], pushed := c.pushed ++ [push] } else c

end Conn

structure Request where
  conn : ℕ
  socketAddr : Option Bytes
  deriving DecidableEq

/-- A task that `send_to_tcp` spawned. -/
structure Writer where
  sink : Option ℕ
  reply : Reply
  origin : Origin
  done : Bool
  deriving DecidableEq

/-- What a look-up finds: the time since the peer has registered and its address, whether `is_lan`
holds of the two addresses, and the clock. -/
structure Env where
  peer : Option (ℤ × SocketAddr)
  isLan : Bool
  peerIsLan : Bool
  micros : ℕ
  deriving DecidableEq

/-- The server: requests are numbered as they come in; `queue` is what `io_loop` has to send. -/
structure World where
  key : String
  conns : List Conn
  tcpPunch : SocketAddr → Option ℕ
  tcpSenders : SocketAddr → Option ℕ
  requests : List Request
  writers : List Writer
  queue : List (Push × SocketAddr)

inductive Act where
  | accept (kind : Kind) (addr : SocketAddr) (headers : Headers)
  | receive (k : ℕ) (msg : Message)
  | hangUp (k : ℕ)
  | receivePush (k : ℕ)
  | heartbeat (k : ℕ)
  | advance (k : ℕ) (env : Env)
  | write (i : ℕ)
  | post (push : Push) (addr : SocketAddr)
  | sendNext
  deriving DecidableEq

def regTimeout : ℤ := 30000

namespace World

variable {w : World} {k : ℕ}

def start (key : String) : World :=
  { key, conns := [], tcpPunch := fun _ => none, tcpSenders := fun _ => none, requests := [],
    writers := [], queue := [] }

def modify (w : World) (k : ℕ) (f : Conn → Conn) : World :=
  { w with conns := w.conns.modify k f }

/-- The connection is in `tcp_senders` from before its loop to after it. -/
def accept (w : World) (kind : Kind) (addr : SocketAddr) (headers : Headers) : World :=
  let addr := kind.addr addr headers
  let tcpSenders :=
    if kind = .vless then Function.update w.tcpSenders (tryIntoV4 addr) (some w.conns.length)
    else w.tcpSenders
  { w with conns := w.conns ++ [.start kind addr], tcpSenders }

def ask (w : World) (k : ℕ) (ask : Ask) : World :=
  { w with requests := w.requests ++ [Request.mk k none] }.modify k (·.ask ask w.requests.length)

def receive (w : World) (k : ℕ) : Message → World
  | .punchHoleRequest licenceKey => w.ask k (.punchHole licenceKey)
  | .requestRelay => w.ask k .relay
  | msg => w.modify k (·.handle msg)

/-- The message for the peer and where it goes, or why there is none. -/
def handlePunchHoleRequest (w : World) (c : Conn) (licenceKey : String) (env : Env) :
    Except Failure (Push × SocketAddr) :=
  if !w.key.isEmpty && licenceKey ≠ w.key then
    .error .licenseMismatch
  else
    match env.peer with
    | none => .error .idNotExist
    | some (elapsed, peerAddr) =>
      if elapsed ≥ regTimeout then
        .error .offline
      else
        let peerIsVless := (w.tcpSenders (tryIntoV4 peerAddr)).isSome
        let peerIsLan := !peerIsVless && env.peerIsLan
        let isLan := c.kind ≠ .vless && env.isLan
        let sameIp := peerAddr.ip = c.addr.ip
        let sameIntranet := c.kind = .direct && !peerIsVless && (peerIsLan && isLan || sameIp)
        let socketAddr := AddrMangle.encode c.addr env.micros
        if sameIntranet then .ok (.fetchLocalAddr socketAddr, peerAddr)
        else .ok (.punchHole socketAddr, peerAddr)

/-- The request goes out to the peer, with the address of the connection. -/
def forward (w : World) (k : ℕ) (c : Conn) (r : ℕ) (env : Env) (push : Push)
    (dest : SocketAddr) : World :=
  { w with
    requests := w.requests.modify r fun q =>
      { q with socketAddr := some (AddrMangle.encode c.addr env.micros) }
    queue := w.queue ++ [(push, dest)] }.modify k (·.goto .reading)

/-- `tcp_punch.lock().await.insert(try_into_v4(addr), sink)`: an entry that is there is dropped. -/
def park (w : World) (k : ℕ) (addr : SocketAddr) : World :=
  { w with tcpPunch := Function.update w.tcpPunch (tryIntoV4 addr) (some k) }

/-- `tcp_punch.lock().await.remove(&try_into_v4(addr))`. -/
def unpark (w : World) (addr : SocketAddr) : World :=
  { w with tcpPunch := Function.update w.tcpPunch (tryIntoV4 addr) none }

lemma tcpPunch_park (w : World) (k : ℕ) (addr : SocketAddr) :
    (w.park k addr).tcpPunch = Function.update w.tcpPunch (tryIntoV4 addr) (some k) := rfl

lemma tcpPunch_unpark (w : World) (addr : SocketAddr) :
    (w.unpark addr).tcpPunch = Function.update w.tcpPunch (tryIntoV4 addr) none := rfl

/-- `send_to_sink`. -/
def sendTo (w : World) (sink : Option ℕ) (m : Written) : World :=
  match sink with
  | some o => w.modify o fun c => { c with written := c.written ++ [m] }
  | none => w

@[simp] lemma writers_sendTo (w : World) (sink : Option ℕ) (m : Written) :
    (w.sendTo sink m).writers = w.writers := by
  cases sink <;> rfl

@[simp] lemma requests_sendTo (w : World) (sink : Option ℕ) (m : Written) :
    (w.sendTo sink m).requests = w.requests := by
  cases sink <;> rfl

lemma get_sendTo {c : Conn} (hc : w.conns[k]? = some c) (sink : Option ℕ) (m : Written) :
    ∃ c', (w.sendTo sink m).conns[k]? = some c' ∧ c'.phase = c.phase := by
  cases sink with
  | none => exact ⟨c, hc, rfl⟩
  | some o =>
    by_cases hk : k = o
    · subst hk
      exact ⟨_, Slots.get_modify_self hc _, rfl⟩
    · exact ⟨c, by rw [sendTo, modify, List.getElem?_modify_ne _ _ (Ne.symm hk), hc], rfl⟩

/-- The `socket_addr` field of a reply. -/
def socketAddr (w : World) : Origin → Option Bytes
  | .request r => w.requests[r]?.bind (·.socketAddr)
  | .forged socketAddr => some socketAddr

/-- `send_to_tcp_sync` for a relay response, `send_to_tcp` for the others: the entry leaves the map,
and the task or a task of its own writes to it. An address that cannot be decoded ends the task. -/
def reply (w : World) (k : ℕ) (reply : Reply) (origin : Origin) (socketAddr : Bytes) : World :=
  match AddrMangle.decode socketAddr with
  | none => w.modify k (·.goto .closed)
  | some addr =>
    let sink := w.tcpPunch (tryIntoV4 addr)
    if reply = .relayResponse then
      (w.unpark addr).modify k (·.goto (.sending sink reply origin false))
    else
      { w.unpark addr with writers := w.writers ++ [Writer.mk sink reply origin false] }.modify k
        (·.goto .leaving)

/-- One step of a task between two points where it waits. -/
def advance (w : World) (k : ℕ) (c : Conn) (env : Env) : Option World :=
  match c.phase with
  | .reading => none
  | .parking ask r => some ((w.park k c.addr).modify k (·.goto (.asking ask r)))
  | .asking (.punchHole licenceKey) r =>
    match w.handlePunchHoleRequest c licenceKey env with
    | .error failure => some (w.modify k (·.goto (.refusing failure r)))
    | .ok (push, dest) => some (w.forward k c r env push dest)
  | .asking .relay r =>
    match env.peer with
    | none => some (w.modify k (·.goto .reading))
    | some (_, peerAddr) =>
      let push := .requestRelay (AddrMangle.encode c.addr env.micros)
      some (w.forward k c r env push peerAddr)
  | .refusing failure r =>
    let sink := w.tcpPunch (tryIntoV4 c.addr)
    some ((w.unpark c.addr).modify k (·.goto (.sending sink (.failure failure) (.request r) true)))
  | .replying reply origin => (w.socketAddr origin).map (w.reply k reply origin)
  | .sending sink reply origin again =>
    some ((w.sendTo sink (.reply origin reply)).modify k
      (·.goto (if again then .reading else .leaving)))
  | .leaving =>
    let tcpSenders :=
      if c.kind = .vless then Function.update w.tcpSenders (tryIntoV4 c.addr) none
      else w.tcpSenders
    some ({ w with tcpSenders }.modify k (·.goto .closing))
  | .closing => some ((if c.sink then w else w.unpark c.addr).modify k (·.goto .closed))
  | .closed => none

/-- `Data::Msg` in `io_loop`; without a channel the message goes out by UDP. -/
def deliver (w : World) (push : Push) (addr : SocketAddr) : World :=
  match w.tcpSenders (tryIntoV4 addr) with
  | some k => w.modify k (·.enqueue push)
  | none => w

/-- Something that only a task in its loop takes. -/
def whenReading (w : World) (k : ℕ) (f : Conn → Option World) : Option World :=
  w.conns[k]?.bind fun c => if c.phase = .reading then f c else none

lemma whenReading_some {w' : World} {f : Conn → Option World} (h : w.whenReading k f = some w') :
    ∃ c, w.conns[k]? = some c ∧ c.phase = .reading ∧ f c = some w' := by
  obtain ⟨c, hc, h⟩ := Option.bind_eq_some_iff.mp h
  split_ifs at h with hphase
  exact ⟨c, hc, hphase, h⟩

def step (w : World) : Act → Option World
  | .accept kind addr headers => some (w.accept kind addr headers)
  | .receive k msg => w.whenReading k fun _ => some (w.receive k msg)
  | .hangUp k => w.whenReading k fun _ => some (w.modify k (·.goto .leaving))
  | .receivePush k => w.whenReading k fun c =>
    if c.kind = .vless ∧ c.rx ≠ [] then some (w.modify k (·.receivePush)) else none
  | .heartbeat k => w.whenReading k fun c =>
    if c.kind = .vless then some (w.modify k (·.send .heartbeat)) else none
  | .advance k env => w.conns[k]?.bind fun c => w.advance k c env
  | .write i => w.writers[i]?.bind fun x =>
    if x.done then none
    else some { w.sendTo x.sink (.reply x.origin x.reply) with
      writers := w.writers.set i { x with done := true } }
  | .post push addr => some { w with queue := w.queue ++ [(push, addr)] }
  | .sendNext => w.queue.head?.map fun out =>
    { w with queue := w.queue.tail }.deliver out.1 out.2

end World

/-- The server with the given licence key, with no connection at the beginning. -/
def lts : LTS World Act where
  init w := ∃ key, w = .start key
  step := World.step

end RustDesk.Rendezvous.Tcp
