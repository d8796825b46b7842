import RustDesk.Rendezvous.PeerMap

/-!
# Registering a key

`RegisterPk` comes over UDP, or over TCP through the VLESS gateway; the TCP handler mirrors the UDP
one. A handler looks the peer up (`get_or`), checks the identity against the peer in memory, counts
the request, notes a change of address, and where something changed writes the peer, first in
memory and then in the database.

Each definition here is what a handler does under one lock, or one call of the database;
`registerPk` is a handler that nothing runs beside.
-/

namespace RustDesk.Rendezvous

/-- The body of the message. -/
structure RegisterPk where
  id : String
  uuid : Bytes
  pk : Bytes
  deriving DecidableEq

/-- `register_pk_response::Result`, as far as a handler answers with it. -/
inductive Response where
  | ok
  | uuidMismatch
  | tooFrequent
  | notSupport
  | serverError
  deriving DecidableEq

inductive Path where
  | udp
  | tcp (vlessAuthenticated : Bool)
  deriving DecidableEq

structure Request where
  path : Path
  addr : SocketAddr
  rk : RegisterPk
  deriving DecidableEq

/-- The text of the address the request came from. -/
def Request.ip (rq : Request) : Bytes := rq.addr.ip.toText

/-- What the database does with the calls of a handler: which fail, and the guid drawn for a new
row. -/
structure Env where
  readFails : Bool
  writeFails : Bool
  guid : Bytes
  length : guid.length = 16

/-- How often an address has asked, and for which ids. -/
structure IpBlock where
  count : UInt32
  since : Instant
  ids : List String
  idsSince : Instant
  deriving DecidableEq

structure Server where
  now : Instant
  pm : PeerMap
  db : Table
  ipBlocker : Bytes → Option IpBlock
  ipChanges : String → Option (Instant × (Bytes → Option ℤ))

def ipBlockDur : ℕ := 60

def daySeconds : ℕ := 3600 * 24

def ipChangeDur : ℕ := 180

namespace Server

def checkIpBlocker (s : Server) (ip : Bytes) (id : String) : Bool × Server :=
  let set (block : IpBlock) : Server :=
    { s with ipBlocker := Function.update s.ipBlocker ip (some block) }
  match s.ipBlocker ip with
  | none => (true, set ⟨0, s.now, [], s.now⟩)
  | some old =>
    if elapsedSecs s.now old.since ≤ ipBlockDur ∧ old.count > 30 then
      (false, s)
    else
      let count := if elapsedSecs s.now old.since > ipBlockDur then 0 else old.count
      let old := { old with count := count + 1, since := s.now }
      let isNew := id ∉ old.ids
      if elapsedSecs s.now old.idsSince ≤ daySeconds ∧ old.ids.length > 300 then
        (!isNew, set old)
      else
        let ids := if elapsedSecs s.now old.idsSince > daySeconds then [] else old.ids
        (true, set { old with ids := if isNew then id :: ids else ids, idsSince := s.now })

/-- What is checked before the peer is looked up; `.error none` is a request left without an
answer. -/
def screen (s : Server) (rq : Request) : Except (Option Response) Unit × Server :=
  match rq.path with
  | .udp =>
    if rq.rk.uuid.isEmpty ∨ rq.rk.pk.isEmpty then
      (.error none, s)
    else if rq.rk.id.utf8ByteSize < 6 then
      (.error (some .uuidMismatch), s)
    else
      match s.checkIpBlocker rq.ip rq.rk.id with
      | (true, s) => (.ok (), s)
      | (false, s) => (.error (some .tooFrequent), s)
  | .tcp false => (.error (some .notSupport), s)
  | .tcp true =>
    if rq.rk.uuid.isEmpty ∨ rq.rk.pk.isEmpty then
      (.error (some .notSupport), s)
    else if rq.rk.id.utf8ByteSize < 6 then
      (.error (some .uuidMismatch), s)
    else
      (.ok (), s)

/-- The peer of a row of the database. -/
def loadPeer (s : Server) (row : Row) : Peer :=
  { Peer.default s.now with
    guid := row.guid, uuid := row.uuid, pk := row.pk, info := row.info.getD ⟨[]⟩ }

/-- `db.get_peer`, an error being no row. -/
def readDb (s : Server) (id : String) (env : Env) : Option Row :=
  if env.readFails then none else s.db.getPeer id

/-- The handle into the map. -/
def insert (s : Server) (id : String) (peer : Peer) : ℕ × Server :=
  (s.pm.next, { s with pm := s.pm.insert id peer })

/-- The second half of `get_or`, which looks again. -/
def insertDefault (s : Server) (id : String) : ℕ × Server :=
  match s.pm.map id with
  | some h => (h, s)
  | none => s.insert id (.default s.now)

def modify (s : Server) (h : ℕ) (f : Peer → Peer) : Server :=
  { s with pm := s.pm.modify h f }

end Server

/-- The comparison with the peer in memory over UDP: `none` refuses, else whether anything changed
and whether the address did. -/
def checkUdp (peer : Peer) (rk : RegisterPk) (ip : Bytes) : Option (Bool × Bool) :=
  if peer.uuid.isEmpty then
    some (true, false)
  else if peer.uuid = rk.uuid then
    if peer.info.ip ≠ ip ∧ peer.pk ≠ rk.pk then
      none
    else
      let ipChanged := peer.info.ip ≠ ip
      some (peer.uuid ≠ rk.uuid ∨ peer.pk ≠ rk.pk ∨ ipChanged, ipChanged)
  else
    none

/-- The comparison over TCP. -/
def checkTcp (peer : Peer) (rk : RegisterPk) (ip : Bytes) : Option (Bool × Bool) :=
  if peer.uuid.isEmpty then
    some (true, false)
  else if peer.uuid = rk.uuid then
    if peer.info.ip ≠ ip ∧ peer.pk ≠ rk.pk then
      none
    else
      let ipChanged := peer.info.ip ≠ ip
      some (peer.pk ≠ rk.pk ∨ ipChanged, ipChanged)
  else
    none

/-- The uuids are equal where UDP compares them again. -/
lemma checkTcp_eq (peer : Peer) (rk : RegisterPk) (ip : Bytes) :
    checkTcp peer rk ip = checkUdp peer rk ip := by
  simp only [checkTcp, checkUdp]
  split_ifs with hempty huuid hpk
  · rfl
  · rfl
  · simp [huuid]
  · rfl

def check (rq : Request) (peer : Peer) : Option (Bool × Bool) :=
  match rq.path with
  | .udp => checkUdp peer rq.rk rq.ip
  | .tcp _ => checkTcp peer rq.rk rq.ip

/-- The count of registrations after one more, `none` when there were too many. -/
def countRegPk (now : Instant) (reqPk : UInt32 × Instant) : Option (UInt32 × Instant) :=
  if elapsedSecs now reqPk.2 > 6 then
    some (1, now)
  else if reqPk.1 > 2 then
    none
  else
    some (reqPk.1 + 1, now)

namespace Server

/-- The note in `IP_CHANGES`. -/
def noteIpChange (s : Server) (id : String) (ip : Bytes) : Server :=
  let entry : Instant × (Bytes → Option ℤ) :=
    match s.ipChanges id with
    | some (tm, ips) =>
      if elapsedSecs s.now tm > ipChangeDur then
        (s.now, Function.update (fun _ => none) ip (some 1))
      else
        match ips ip with
        | some v => (tm, Function.update ips ip (some (v + 1)))
        | none => (tm, Function.update ips ip (some 1))
    | none => (s.now, Function.update (fun _ => none) ip (some 1))
  { s with ipChanges := Function.update s.ipChanges id (some entry) }

/-- The first part of `update_pk`: the peer in memory takes what was sent. -/
def writePeer (s : Server) (h : ℕ) (rq : Request) : Server :=
  s.modify h fun peer => { peer with
    socketAddr := rq.addr, uuid := rq.rk.uuid, pk := rq.rk.pk, lastRegTime := s.now,
    info := ⟨rq.ip⟩ }

/-- The second part, with the guid the peer had: a new row, or the new key for the row there is.
The guid of a new row comes with it. -/
def writeDb (s : Server) (guid : Bytes) (rq : Request) (env : Env) :
    Option (Option Bytes × Server) :=
  if env.writeFails then
    none
  else if guid.isEmpty then
    (s.db.insertPeer env.guid rq.rk.id rq.rk.uuid rq.rk.pk ⟨rq.ip⟩).map fun db =>
      (some env.guid, { s with db := db })
  else
    (s.db.updatePk guid rq.rk.id rq.rk.pk ⟨rq.ip⟩).map fun db => (none, { s with db := db })

/-- The third part, after an insertion. -/
def writeGuid (s : Server) (h : ℕ) (guid : Bytes) : Server :=
  s.modify h fun peer => { peer with guid := guid }

/-! ### A handler by itself -/

def get (s : Server) (id : String) (env : Env) : Option ℕ × Server :=
  match s.pm.map id with
  | some h => (some h, s)
  | none =>
    match s.readDb id env with
    | some row =>
      let (h, s) := s.insert id (s.loadPeer row)
      (some h, s)
    | none => (none, s)

def getOr (s : Server) (id : String) (env : Env) : ℕ × Server :=
  match s.get id env with
  | (some h, s) => (h, s)
  | (none, s) => s.insertDefault id

def updatePk (s : Server) (h : ℕ) (rq : Request) (env : Env) : Response × Server :=
  let guid := (s.pm.heap h).guid
  let s := s.writePeer h rq
  match s.writeDb guid rq env with
  | none => (.serverError, s)
  | some (none, s) => (.ok, s)
  | some (some guid, s) => (.ok, s.writeGuid h guid)

end Server

/-- What becomes of a request: the answer, what `update_pk` returned where it was called, and the
server. -/
structure Outcome where
  answer : Option Response
  written : Option Response
  server : Server

/-- UDP answers OK whatever `update_pk` returns. -/
def answerOf (path : Path) (written : Response) : Response :=
  match path with
  | .udp => .ok
  | .tcp _ => written

namespace Server

variable {s s' : Server} {env : Env} {rq : Request}

/-- The request has been counted: the notes and the writes. -/
def record (s : Server) (h : ℕ) (rq : Request) (env : Env) (changed ipChanged : Bool) : Outcome :=
  let s := if ipChanged then s.noteIpChange rq.rk.id rq.ip else s
  if changed then
    let (written, s) := s.updatePk h rq env
    ⟨some (answerOf rq.path written), some written, s⟩
  else
    ⟨some .ok, none, s⟩

/-- From the check on. -/
def serve (s : Server) (h : ℕ) (rq : Request) (env : Env) : Outcome :=
  match check rq (s.pm.heap h) with
  | none => ⟨some .uuidMismatch, none, s⟩
  | some (changed, ipChanged) =>
    match countRegPk s.now (s.pm.heap h).regPk with
    | none => ⟨some .tooFrequent, none, s⟩
    | some reqPk =>
      (s.modify h fun peer => { peer with regPk := reqPk }).record h rq env changed ipChanged

def registerPk (s : Server) (rq : Request) (env : Env) : Outcome :=
  match s.screen rq with
  | (.error answer, s) => ⟨answer, none, s⟩
  | (.ok (), s) =>
    let (h, s) := s.getOr rq.rk.id env
    s.serve h rq env

/-- The peer a request is checked against: the one in memory, or the one in the database, or a new
one. -/
def peer (s : Server) (id : String) (env : Env) : Peer :=
  match s.pm.inMemory id with
  | some peer => peer
  | none =>
    match s.readDb id env with
    | some row => s.loadPeer row
    | none => .default s.now

lemma heap_modify_self (s : Server) (h : ℕ) (f : Peer → Peer) :
    (s.modify h f).pm.heap h = f (s.pm.heap h) := Function.update_self ..

lemma heap_modify_of_ne (s : Server) {h h' : ℕ} (f : Peer → Peer) (hne : h' ≠ h) :
    (s.modify h f).pm.heap h' = s.pm.heap h' := Function.update_of_ne hne ..

/-- A write that leaves a field of every peer leaves it under every handle. -/
lemma heap_modify {α : Type*} (s : Server) (h : ℕ) (f : Peer → Peer) (field : Peer → α)
    (hf : ∀ peer, field (f peer) = field peer) (h' : ℕ) :
    field ((s.modify h f).pm.heap h') = field (s.pm.heap h') := by
  by_cases heq : h' = h
  · subst heq
    rw [heap_modify_self, hf]
  · rw [heap_modify_of_ne s f heq]

lemma readDb_eq_some {id : String} {row : Row} (h : s.readDb id env = some row) :
    row ∈ s.db.rows ∧ row.id = id := by
  rw [readDb] at h
  split_ifs at h
  exact s.db.getPeer_eq_some.mp h

/-- The two differ in the limits on addresses only. -/
structure Same (s s' : Server) : Prop where
  now : s'.now = s.now
  pm : s'.pm = s.pm
  db : s'.db = s.db

lemma same_checkIpBlocker (s : Server) (ip : Bytes) (id : String) :
    s.Same (s.checkIpBlocker ip id).2 := by
  simp only [checkIpBlocker]
  split
  · exact ⟨rfl, rfl, rfl⟩
  · split_ifs <;> exact ⟨rfl, rfl, rfl⟩

lemma same_screen (s : Server) (rq : Request) : s.Same (s.screen rq).2 := by
  rw [screen]
  match rq.path with
  | .udp =>
    simp only
    split_ifs
    · exact ⟨rfl, rfl, rfl⟩
    · exact ⟨rfl, rfl, rfl⟩
    · have hsame := s.same_checkIpBlocker rq.ip rq.rk.id
      split <;> next heq => rwa [heq] at hsame
  | .tcp false => exact ⟨rfl, rfl, rfl⟩
  | .tcp true =>
    simp only
    split_ifs <;> exact ⟨rfl, rfl, rfl⟩

lemma Same.peer (h : s.Same s') (id : String) (env : Env) : s'.peer id env = s.peer id env := by
  simp only [Server.peer, readDb, loadPeer, h.now, h.pm, h.db]

/-- `get_or` leaves the peer in the map, under the handle it returns. -/
structure Found (s : Server) (id : String) (env : Env) (h : ℕ) (s' : Server) : Prop where
  now : s'.now = s.now
  db : s'.db = s.db
  map : s'.pm.map id = some h
  heap : s'.pm.heap h = s.peer id env

lemma found_getOr (s : Server) (id : String) (env : Env) :
    s.Found id env (s.getOr id env).1 (s.getOr id env).2 := by
  cases hmap : s.pm.map id with
  | some h =>
    simp only [getOr, get, hmap]
    exact ⟨rfl, rfl, hmap, by simp only [peer, PeerMap.inMemory, hmap, Option.map_some]⟩
  | none =>
    cases hrow : s.readDb id env with
    | some row | none =>
      simp only [getOr, get, hmap, hrow, insertDefault]
      exact ⟨rfl, rfl, Function.update_self .., by
        simp only [peer, PeerMap.inMemory, hmap, hrow, Option.map_none]
        exact Function.update_self ..⟩

/-- A request that comes to nothing. -/
inductive Refuses (s : Server) (rq : Request) (env : Env) : Prop where
  | screen {answer : Option Response} (h : (s.screen rq).1 = .error answer)
  | check (h : check rq (s.peer rq.rk.id env) = none)
  | count (h : countRegPk s.now (s.peer rq.rk.id env).regPk = none)

/-- The row of the id holds what the request says. -/
def Stored (s : Server) (rk : RegisterPk) : Prop :=
  ∃ row, s.db.getPeer rk.id = some row ∧ row.uuid = rk.uuid ∧ row.pk = rk.pk

/-- What `update_pk` leaves: the peer in memory has the uuid and the key in any case. -/
lemma updatePk_spec (s : Server) (h : ℕ) (rq : Request) (env : Env) :
    (((s.updatePk h rq env).2.pm.heap h).uuid = rq.rk.uuid ∧
      ((s.updatePk h rq env).2.pm.heap h).pk = rq.rk.pk ∧
      (s.updatePk h rq env).2.pm.map = s.pm.map) ∧
    match s.writeDb (s.pm.heap h).guid rq env with
    | none => (s.updatePk h rq env).1 = .serverError ∧ (s.updatePk h rq env).2.db = s.db
    | some (_, s') => (s.updatePk h rq env).1 = .ok ∧ (s.updatePk h rq env).2.db = s'.db := by
  have hwrite : (s.writePeer h rq).writeDb (s.pm.heap h).guid rq env =
      (s.writeDb (s.pm.heap h).guid rq env).map fun (guid, s') =>
        (guid, { s.writePeer h rq with db := s'.db }) := by
    simp only [writeDb]
    split_ifs
    · rfl
    all_goals
      simp only [writePeer, modify, Option.map_map]
      rfl
  have hpeer : (s.writePeer h rq).pm.heap h = { s.pm.heap h with
      socketAddr := rq.addr, uuid := rq.rk.uuid, pk := rq.rk.pk, lastRegTime := s.now,
      info := ⟨rq.ip⟩ } := Function.update_self ..
  simp only [updatePk, hwrite]
  match s.writeDb (s.pm.heap h).guid rq env with
  | none | some (none, s') =>
    exact ⟨⟨congrArg Peer.uuid hpeer, congrArg Peer.pk hpeer, rfl⟩, rfl, rfl⟩
  | some (some guid, s') =>
    refine ⟨⟨?_, ?_, rfl⟩, rfl, rfl⟩ <;>
      simp only [Option.map_some, writeGuid, modify, PeerMap.modify, Function.update_self, hpeer]

/-- How a request can end. -/
inductive Registers (s : Server) (rq : Request) (env : Env) (out : Outcome) : Prop where
  | refused (h : s.Refuses rq env) (hanswer : out.answer ≠ some .ok) (hwritten : out.written = none)
  | unchanged {ipChanged : Bool} (h : ¬s.Refuses rq env)
      (hcheck : Rendezvous.check rq (s.peer rq.rk.id env) = some (false, ipChanged))
      (hanswer : out.answer = some .ok) (hwritten : out.written = none)
      (hdb : out.server.db = s.db)
  | failed {ipChanged : Bool} {q : Peer} (h : ¬s.Refuses rq env)
      (hcheck : Rendezvous.check rq (s.peer rq.rk.id env) = some (true, ipChanged))
      (hwrite : s.writeDb (s.peer rq.rk.id env).guid rq env = none)
      (hmemory : out.server.pm.inMemory rq.rk.id = some q) (huuid : q.uuid = rq.rk.uuid)
      (hpk : q.pk = rq.rk.pk) (hanswer : out.answer = some (answerOf rq.path .serverError))
      (hwritten : out.written = some .serverError) (hdb : out.server.db = s.db)
  | written {ipChanged : Bool} {guid : Option Bytes} {s' : Server} (h : ¬s.Refuses rq env)
      (hcheck : Rendezvous.check rq (s.peer rq.rk.id env) = some (true, ipChanged))
      (hwrite : s.writeDb (s.peer rq.rk.id env).guid rq env = some (guid, s'))
      (hanswer : out.answer = some .ok) (hwritten : out.written = some .ok)
      (hdb : out.server.db = s'.db)

lemma screen_ne_ok {answer : Option Response} (h : (s.screen rq).1 = .error answer) :
    answer ≠ some .ok := by
  rintro rfl
  rw [screen] at h
  match hpath : rq.path with
  | .udp =>
    simp only [hpath] at h
    split_ifs at h
    · cases h
    · cases h
    · split at h <;> cases h
  | .tcp false => simp [hpath] at h
  | .tcp true =>
    simp only [hpath] at h
    split_ifs at h <;> simp at h

lemma writeDb_congr (hdb : s'.db = s.db) (guid : Bytes) (rq : Request) (env : Env) :
    (s'.writeDb guid rq env).map (fun w => (w.1, w.2.db)) =
      (s.writeDb guid rq env).map fun w => (w.1, w.2.db) := by
  simp only [writeDb, hdb]
  split_ifs
  · rfl
  · simp only [Option.map_map]
    rfl
  · simp only [Option.map_map]
    rfl

lemma record_unchanged (s : Server) (h : ℕ) (rq : Request) (env : Env) (ipChanged : Bool) :
    (s.record h rq env false ipChanged).answer = some .ok ∧
      (s.record h rq env false ipChanged).written = none ∧
      (s.record h rq env false ipChanged).server.db = s.db := by
  cases ipChanged <;> exact ⟨rfl, rfl, rfl⟩

/-- The notes change neither the peers nor the table. -/
lemma record_changed (s : Server) (h : ℕ) (rq : Request) (env : Env) (ipChanged : Bool) :
    ∃ s' : Server, s'.pm = s.pm ∧ s'.db = s.db ∧ s.record h rq env true ipChanged =
      ⟨some (answerOf rq.path (s'.updatePk h rq env).1), some (s'.updatePk h rq env).1,
        (s'.updatePk h rq env).2⟩ := by
  cases ipChanged
  · exact ⟨s, rfl, rfl, rfl⟩
  · exact ⟨s.noteIpChange rq.rk.id rq.ip, rfl, rfl, rfl⟩

lemma registers_registerPk (s : Server) (rq : Request) (env : Env) :
    s.Registers rq env (s.registerPk rq env) := by
  have hsame := s.same_screen rq
  rw [registerPk]
  match hscreen : s.screen rq with
  | (.error answer, s₁) =>
    have herror := congrArg Prod.fst hscreen
    exact .refused (.screen herror) (screen_ne_ok herror) rfl
  | (.ok (), s₁) =>
    rw [hscreen] at hsame
    have hfound := s₁.found_getOr rq.rk.id env
    simp only
    generalize (s₁.getOr rq.rk.id env).1 = h at hfound ⊢
    generalize (s₁.getOr rq.rk.id env).2 = s₂ at hfound ⊢
    have hpeer : s₂.pm.heap h = s.peer rq.rk.id env := hfound.heap.trans (hsame.peer ..)
    have hnow : s₂.now = s.now := hfound.now.trans hsame.now
    have hdb : s₂.db = s.db := hfound.db.trans hsame.db
    simp only [serve, hpeer, hnow]
    match hcheck : Rendezvous.check rq (s.peer rq.rk.id env) with
    | none => exact .refused (.check hcheck) nofun rfl
    | some (changed, ipChanged) =>
      simp only
      cases hcount : countRegPk s.now (s.peer rq.rk.id env).regPk with
      | none => exact .refused (.count hcount) nofun rfl
      | some reqPk =>
        have hgood : ¬s.Refuses rq env := by
          rintro (h | h | h)
          · rw [hscreen] at h
            cases h
          · rw [hcheck] at h
            cases h
          · rw [hcount] at h
            cases h
        simp only
        generalize hcounted : s₂.modify h (fun peer => { peer with regPk := reqPk }) = s₃
        have hmap : s₃.pm.map rq.rk.id = some h := hcounted ▸ hfound.map
        have hdb : s₃.db = s.db := hcounted ▸ hdb
        have hguid : (s₃.pm.heap h).guid = (s.peer rq.rk.id env).guid := by
          rw [← hcounted, ← hpeer]
          simp only [modify, PeerMap.modify, Function.update_self]
        cases changed with
        | false =>
          obtain ⟨hanswer, hwritten, hsaved⟩ := s₃.record_unchanged h rq env ipChanged
          exact .unchanged hgood hcheck hanswer hwritten (hsaved.trans hdb)
        | true =>
          obtain ⟨s₄, hpm, hdb', hrecord⟩ := s₃.record_changed h rq env ipChanged
          rw [hrecord]
          have hcongr := writeDb_congr (hdb'.trans hdb) (s.peer rq.rk.id env).guid rq env
          obtain ⟨⟨huuid, hpk, hkeep⟩, hupdate⟩ := s₄.updatePk_spec h rq env
          have hmemory : (s₄.updatePk h rq env).2.pm.inMemory rq.rk.id =
              some ((s₄.updatePk h rq env).2.pm.heap h) := by
            rw [PeerMap.inMemory, hkeep, hpm, hmap, Option.map_some]
          rw [hpm, hguid] at hupdate
          cases hwrite : s₄.writeDb (s.peer rq.rk.id env).guid rq env with
          | none =>
            rw [hwrite] at hupdate hcongr
            simp only [hupdate.1]
            refine .failed hgood hcheck ?_ hmemory huuid hpk rfl rfl
              (hupdate.2.trans (hdb'.trans hdb))
            simpa [eq_comm] using hcongr
          | some w =>
            rw [hwrite] at hupdate hcongr
            obtain ⟨w', hw', heq⟩ := Option.map_eq_some_iff.mp hcongr.symm
            simp only [hupdate.1]
            refine .written hgood hcheck hw' ?_ rfl (hupdate.2.trans (congrArg Prod.snd heq).symm)
            cases rq.path <;> rfl

/-! ### What is answered and what is stored -/

/-- An OK means that the row holds what was sent, and a write that failed leaves the peer in memory
as it was. -/
structure Honest (s : Server) (rq : Request) (env : Env) : Prop where
  stored : (s.registerPk rq env).answer = some .ok → (s.registerPk rq env).server.Stored rq.rk
  restored : (s.registerPk rq env).written = some .serverError →
    ∀ q, (s.registerPk rq env).server.pm.inMemory rq.rk.id = some q →
      q.uuid = (s.peer rq.rk.id env).uuid ∧ q.pk = (s.peer rq.rk.id env).pk

/-- The requests for which a handler is honest, by the peer and the table it finds. -/
inductive Persists (s : Server) (rq : Request) (env : Env) : Prop where
  | refused (h : s.Refuses rq env)
  -- nothing to write: the row has it already
  | unchanged {ipChanged : Bool}
      (hcheck : Rendezvous.check rq (s.peer rq.rk.id env) = some (false, ipChanged))
      (hstored : s.Stored rq.rk)
  | inserted {ipChanged : Bool}
      (hcheck : Rendezvous.check rq (s.peer rq.rk.id env) = some (true, ipChanged))
      (hguid : (s.peer rq.rk.id env).guid = [])
      (hwrite : (s.writeDb (s.peer rq.rk.id env).guid rq env).isSome)
  -- the update leaves the uuid of the row
  | updated {ipChanged : Bool} {row : Row}
      (hcheck : Rendezvous.check rq (s.peer rq.rk.id env) = some (true, ipChanged))
      (hwrite : (s.writeDb (s.peer rq.rk.id env).guid rq env).isSome)
      (hrow : row ∈ s.db.rows) (hguid : row.guid = (s.peer rq.rk.id env).guid)
      (huuid : row.uuid = rq.rk.uuid)
  -- the update meets no row
  | absent {ipChanged : Bool}
      (hcheck : Rendezvous.check rq (s.peer rq.rk.id env) = some (true, ipChanged))
      (hwrite : (s.writeDb (s.peer rq.rk.id env).guid rq env).isSome)
      (hguid : ∀ row ∈ s.db.rows, row.guid ≠ (s.peer rq.rk.id env).guid)
      (hstored : s.Stored rq.rk)
  -- the write fails, but only the address was new
  | failed {ipChanged : Bool}
      (hcheck : Rendezvous.check rq (s.peer rq.rk.id env) = some (true, ipChanged))
      (hwrite : s.writeDb (s.peer rq.rk.id env).guid rq env = none)
      (huuid : (s.peer rq.rk.id env).uuid = rq.rk.uuid) (hpk : (s.peer rq.rk.id env).pk = rq.rk.pk)
      (hstored : rq.path = .udp → s.Stored rq.rk)

lemma stored_of_db (hdb : s'.db = s.db) (rk : RegisterPk) : s'.Stored rk ↔ s.Stored rk := by
  rw [Stored, Stored, hdb]

/-- A write that the table takes stores the request if it makes a row or meets one with the
uuid. -/
lemma stored_writeDb {guid : Bytes} {new : Option Bytes}
    (h : s.writeDb guid rq env = some (new, s')) :
    s'.Stored rq.rk ↔ guid = [] ∨ (∃ row ∈ s.db.rows, row.guid = guid ∧ row.uuid = rq.rk.uuid) ∨
      (∀ row ∈ s.db.rows, row.guid ≠ guid) ∧ s.Stored rq.rk := by
  simp only [writeDb, List.isEmpty_iff] at h
  split_ifs at h with hfails hguid
  · obtain ⟨db, hinsert, heq⟩ := Option.map_eq_some_iff.mp h
    cases heq
    exact iff_of_true ⟨_, Table.getPeer_insertPeer hinsert, rfl, rfl⟩ (.inl hguid)
  · obtain ⟨db, hupdate, heq⟩ := Option.map_eq_some_iff.mp h
    cases heq
    rw [or_iff_right hguid]
    by_cases hrow : ∃ row ∈ s.db.rows, row.guid = guid
    · obtain ⟨row, hmem, hguid'⟩ := hrow
      have hget := Table.getPeer_updatePk hupdate hmem hguid'
      rw [or_iff_left fun h => h.1 row hmem hguid']
      constructor
      · rintro ⟨row', hrow', huuid, -⟩
        obtain rfl := Option.some.inj (hget.symm.trans hrow')
        exact ⟨row, hmem, hguid', huuid⟩
      · rintro ⟨row', hmem', hguid'', huuid⟩
        obtain rfl := s.db.eq_of_guid hmem hmem' (hguid'.trans hguid''.symm)
        exact ⟨_, hget, huuid, rfl⟩
    · have hnone : ∀ row ∈ s.db.rows, row.guid ≠ guid := fun row hmem hguid' =>
        hrow ⟨row, hmem, hguid'⟩
      have hrows := Table.updatePk_of_absent hupdate hnone
      rw [or_iff_right fun ⟨row, hmem, hguid', _⟩ => hnone row hmem hguid', and_iff_right hnone]
      simp only [Stored, Table.getPeer, hrows]

section Persists

variable {s s' : Server} {rq : Request} {env : Env} {ipChanged : Bool}

/-- Where nothing is to be written, the row must have the request already. -/
lemma persists_iff_of_unchanged (h : ¬s.Refuses rq env)
    (hcheck : Rendezvous.check rq (s.peer rq.rk.id env) = some (false, ipChanged)) :
    s.Persists rq env ↔ s.Stored rq.rk := by
  constructor
  · intro hpersists
    cases hpersists with
    | refused hrefused => exact absurd hrefused h
    | unchanged _ hstored => exact hstored
    | inserted hcheck' | updated hcheck' | absent hcheck' | failed hcheck' =>
      rw [hcheck] at hcheck'
      cases hcheck'
  · exact fun hstored => .unchanged hcheck hstored

/-- Where the write fails, uuid and key must have been the old ones. -/
lemma persists_iff_of_failed (h : ¬s.Refuses rq env)
    (hcheck : Rendezvous.check rq (s.peer rq.rk.id env) = some (true, ipChanged))
    (hwrite : s.writeDb (s.peer rq.rk.id env).guid rq env = none) :
    s.Persists rq env ↔ (s.peer rq.rk.id env).uuid = rq.rk.uuid ∧
      (s.peer rq.rk.id env).pk = rq.rk.pk ∧ (rq.path = .udp → s.Stored rq.rk) := by
  constructor
  · intro hpersists
    cases hpersists with
    | refused hrefused => exact absurd hrefused h
    | unchanged hcheck' =>
      rw [hcheck] at hcheck'
      cases hcheck'
    | inserted _ _ hsome | updated _ hsome | absent _ hsome =>
      rw [hwrite] at hsome
      cases hsome
    | failed _ _ huuid hpk hstored => exact ⟨huuid, hpk, hstored⟩
  · rintro ⟨huuid, hpk, hstored⟩
    exact .failed hcheck hwrite huuid hpk hstored

/-- Where the table takes the write, it must store the request. -/
lemma persists_iff_of_written {new : Option Bytes} (h : ¬s.Refuses rq env)
    (hcheck : Rendezvous.check rq (s.peer rq.rk.id env) = some (true, ipChanged))
    (hwrite : s.writeDb (s.peer rq.rk.id env).guid rq env = some (new, s')) :
    s.Persists rq env ↔ s'.Stored rq.rk := by
  have hsome : (s.writeDb (s.peer rq.rk.id env).guid rq env).isSome := by rw [hwrite]; rfl
  rw [stored_writeDb hwrite]
  constructor
  · intro hpersists
    cases hpersists with
    | refused hrefused => exact absurd hrefused h
    | unchanged hcheck' =>
      rw [hcheck] at hcheck'
      cases hcheck'
    | inserted _ hguid _ => exact .inl hguid
    | updated _ _ hrow hguid huuid => exact .inr (.inl ⟨_, hrow, hguid, huuid⟩)
    | absent _ _ hnone hold => exact .inr (.inr ⟨hnone, hold⟩)
    | failed _ hnone =>
      rw [hwrite] at hnone
      cases hnone
  · rintro (hguid | ⟨row, hrow, hguid, huuid⟩ | ⟨hnone, hold⟩)
    · exact .inserted hcheck hguid hsome
    · exact .updated hcheck hsome hrow hguid huuid
    · exact .absent hcheck hsome hnone hold

/-- A handler that answers OK and met no error is honest if the request is stored. -/
lemma honest_iff_stored (hanswer : (s.registerPk rq env).answer = some .ok)
    (hwritten : (s.registerPk rq env).written ≠ some .serverError) :
    s.Honest rq env ↔ (s.registerPk rq env).server.Stored rq.rk := by
  constructor
  · exact fun hhonest => hhonest.stored hanswer
  · exact fun hstored => ⟨fun _ => hstored, fun herror => absurd herror hwritten⟩

end Persists

/-- **What a registration says about the database.** For every state of the server and every
failure of the database, over both paths, a handler is honest exactly when the database takes the
write it makes, or when there was nothing to write and the row was right already. -/
theorem honest_iff (s : Server) (rq : Request) (env : Env) :
    s.Honest rq env ↔ s.Persists rq env := by
  cases s.registers_registerPk rq env with
  | refused h hanswer hwritten =>
    refine iff_of_true ⟨fun hok => absurd hok hanswer, fun herror => ?_⟩ (.refused h)
    rw [hwritten] at herror
    cases herror
  | unchanged h hcheck hanswer hwritten hdb =>
    rw [honest_iff_stored hanswer (by rw [hwritten]; simp), stored_of_db hdb,
      persists_iff_of_unchanged h hcheck]
  | written h hcheck hwrite hanswer hwritten hdb =>
    rw [honest_iff_stored hanswer (by rw [hwritten]; simp), stored_of_db hdb,
      persists_iff_of_written h hcheck hwrite]
  | @failed ipChanged q h hcheck hwrite hmemory huuid hpk hanswer hwritten hdb =>
    rw [persists_iff_of_failed h hcheck hwrite]
    constructor
    · intro hhonest
      obtain ⟨huuid', hpk'⟩ := hhonest.restored hwritten q hmemory
      refine ⟨huuid'.symm.trans huuid, hpk'.symm.trans hpk, fun hudp => ?_⟩
      rw [hudp] at hanswer
      exact (stored_of_db hdb _).mp (hhonest.stored hanswer)
    · rintro ⟨huuid', hpk', hstored⟩
      constructor
      · intro hok
        apply (stored_of_db hdb _).mpr (hstored _)
        rw [hanswer] at hok
        cases hpath : rq.path with
        | udp => rfl
        | tcp =>
          rw [hpath] at hok
          cases hok
      · intro _ q' hq'
        rw [hmemory] at hq'
        cases hq'
        exact ⟨huuid.trans huuid'.symm, hpk.trans hpk'.symm⟩

/-- A server that has just started, over an empty table. -/
def fresh : Server where
  now := 0
  pm := .new 0
  db := ⟨[], .nil, .nil⟩
  ipBlocker := fun _ => none
  ipChanges := fun _ => none

/-- The first registration of an id over UDP, while the database is down: OK, and no row. -/
theorem udp_ok_unstored :
    ¬fresh.Honest ⟨.udp, .v4 (.new 10 0 0 1) 5000, ⟨"123456789", [1], [2]⟩⟩
      ⟨false, true, List.replicate 16 0, rfl⟩ := by
  intro hhonest
  obtain ⟨row, hrow, -⟩ := hhonest.stored (by decide)
  exact absurd (Option.isSome_of_mem hrow) (by decide)

end Server

end RustDesk.Rendezvous
