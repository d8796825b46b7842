import RustDesk.Net.Addr

/-!
# The peers a rendezvous server knows

A peer lives in memory behind a handle (`LockPeer`), in a map from ids to handles, and in a table
of the database. The table has two unique keys, so a write can be refused for what it holds; any
call of the database can fail besides.
-/

namespace RustDesk.Rendezvous

/-- `Instant`s are milliseconds. -/
abbrev Instant := ℕ

def elapsedSecs (now since : Instant) : ℕ := (now - since) / 1000

/-- An hour ago, if there was one. -/
def getExpiredTime (now : Instant) : Instant :=
  if 3600000 ≤ now then now - 3600000 else now

structure PeerInfo where
  ip : Bytes
  deriving DecidableEq

structure Peer where
  socketAddr : SocketAddr
  lastRegTime : Instant
  guid : Bytes
  uuid : Bytes
  pk : Bytes
  info : PeerInfo
  regPk : UInt32 × Instant
  deriving DecidableEq

def Peer.default (now : Instant) : Peer where
  socketAddr := .v4 (.new 0 0 0 0) 0
  lastRegTime := getExpiredTime now
  guid := []
  uuid := []
  pk := []
  info := ⟨[]⟩
  regPk := (0, getExpiredTime now)

/-! ### The table -/

/-- A row of `peer`. `info` is the text of a `PeerInfo`, `none` for a text that is not one. -/
structure Row where
  guid : Bytes
  id : String
  uuid : Bytes
  pk : Bytes
  info : Option PeerInfo
  deriving DecidableEq

/-- The primary key is `guid`; `index_peer_id` is unique. -/
structure Table where
  rows : List Row
  guids : (rows.map Row.guid).Nodup
  ids : (rows.map Row.id).Nodup

namespace Table

variable {guid uuid pk : Bytes} {row row' : Row} {id : String} {db db' : Table} {info : PeerInfo}

def getPeer (db : Table) (id : String) : Option Row :=
  db.rows.find? fun row => row.id = id

/-- `insert into peer`, unless the guid or the id is there already. -/
def insertPeer (db : Table) (guid : Bytes) (id : String) (uuid pk : Bytes) (info : PeerInfo) :
    Option Table :=
  if h : guid ∉ db.rows.map Row.guid ∧ id ∉ db.rows.map Row.id then
    some {
      rows := db.rows ++ [⟨guid, id, uuid, pk, some info⟩]
      guids := by simpa [List.nodup_append, db.guids] using h.1
      ids := by simpa [List.nodup_append, db.ids] using h.2 }
  else
    none

/-- What `update peer set id=?, pk=?, info=? where guid=?` makes of a row. -/
def updated (guid : Bytes) (id : String) (pk : Bytes) (info : PeerInfo) (row : Row) : Row :=
  if row.guid = guid then { row with id := id, pk := pk, info := some info } else row

/-- The id of the row is free for it. -/
def Admits (db : Table) (guid : Bytes) (id : String) : Prop :=
  (∀ row ∈ db.rows, row.guid ≠ guid) ∨ ∀ row ∈ db.rows, row.id = id → row.guid = guid

instance (db : Table) (guid : Bytes) (id : String) : Decidable (db.Admits guid id) :=
  inferInstanceAs (Decidable (_ ∨ _))

lemma guid_updated (guid : Bytes) (id : String) (pk : Bytes) (info : PeerInfo) (row : Row) :
    (updated guid id pk info row).guid = row.guid := by
  rw [updated]
  split_ifs <;> rfl

lemma updated_of_ne (h : row.guid ≠ guid) (id : String) (pk : Bytes) (info : PeerInfo) :
    updated guid id pk info row = row := if_neg h

lemma eq_of_guid (db : Table) (h : row ∈ db.rows) (h' : row' ∈ db.rows)
    (hguid : row.guid = row'.guid) : row = row' :=
  List.inj_on_of_nodup_map db.guids h h' hguid

lemma eq_of_id (db : Table) (h : row ∈ db.rows) (h' : row' ∈ db.rows) (hid : row.id = row'.id) :
    row = row' :=
  List.inj_on_of_nodup_map db.ids h h' hid

lemma nodup_ids_updated (db : Table) (h : db.Admits guid id) (pk : Bytes) (info : PeerInfo) :
    ((db.rows.map (updated guid id pk info)).map Row.id).Nodup := by
  rcases h with hnone | hfree
  · rw [List.map_congr_left fun row hrow => updated_of_ne (hnone row hrow) id pk info,
      List.map_id']
    exact db.ids
  · rw [List.map_map]
    apply List.Nodup.map_on _ db.guids.of_map
    intro row hrow row' hrow' heq
    simp only [Function.comp_apply, updated] at heq
    split_ifs at heq with hguid hguid' hguid'
    · exact db.eq_of_guid hrow hrow' (hguid.trans hguid'.symm)
    · exact absurd (hfree row' hrow' heq.symm) hguid'
    · exact absurd (hfree row hrow heq) hguid
    · exact db.eq_of_id hrow hrow' heq

/-- The update, unless another row has the id; where no row has the guid it changes nothing. -/
def updatePk (db : Table) (guid : Bytes) (id : String) (pk : Bytes) (info : PeerInfo) :
    Option Table :=
  if h : db.Admits guid id then
    some {
      rows := db.rows.map (updated guid id pk info)
      guids := by
        rw [List.map_map, show Row.guid ∘ updated guid id pk info = Row.guid from
          funext (guid_updated guid id pk info)]
        exact db.guids
      ids := db.nodup_ids_updated h pk info }
  else
    none

lemma getPeer_eq_none (db : Table) : db.getPeer id = none ↔ ∀ row ∈ db.rows, row.id ≠ id := by
  simp [getPeer]

lemma getPeer_eq_some (db : Table) : db.getPeer id = some row ↔ row ∈ db.rows ∧ row.id = id := by
  constructor
  · intro h
    exact ⟨List.mem_of_find?_eq_some h, by simpa using List.find?_some h⟩
  · rintro ⟨hmem, rfl⟩
    cases h : db.getPeer row.id with
    | none => exact absurd rfl (db.getPeer_eq_none.mp h row hmem)
    | some row' =>
      have hid : row'.id = row.id := by simpa using List.find?_some h
      rw [db.eq_of_id (List.mem_of_find?_eq_some h) hmem hid]

lemma insertPeer_eq_some (h : db.insertPeer guid id uuid pk info = some db') :
    guid ∉ db.rows.map Row.guid ∧ id ∉ db.rows.map Row.id ∧
      db'.rows = db.rows ++ [⟨guid, id, uuid, pk, some info⟩] := by
  simp only [insertPeer] at h
  split_ifs at h with hfree
  cases h
  exact ⟨hfree.1, hfree.2, rfl⟩

lemma getPeer_insertPeer (h : db.insertPeer guid id uuid pk info = some db') :
    db'.getPeer id = some ⟨guid, id, uuid, pk, some info⟩ := by
  rw [getPeer_eq_some, (insertPeer_eq_some h).2.2]
  exact ⟨List.mem_append_right _ (List.mem_singleton_self _), rfl⟩

variable (h : db.updatePk guid id pk info = some db')

include h

lemma rows_updatePk : db'.rows = db.rows.map (updated guid id pk info) := by
  simp only [updatePk] at h
  split_ifs at h
  cases h
  rfl

/-- The row with the guid is the row of the id then, with the uuid it had. -/
lemma getPeer_updatePk (hrow : row ∈ db.rows) (hguid : row.guid = guid) :
    db'.getPeer id = some { row with id := id, pk := pk, info := some info } := by
  rw [getPeer_eq_some, rows_updatePk h]
  exact ⟨List.mem_map.mpr ⟨row, hrow, if_pos hguid⟩, rfl⟩

lemma updatePk_of_absent (hnone : ∀ row ∈ db.rows, row.guid ≠ guid) : db'.rows = db.rows := by
  rw [rows_updatePk h,
    List.map_congr_left fun row hrow => updated_of_ne (hnone row hrow) id pk info, List.map_id']

end Table

/-! ### The map -/

/-- Handles are numbered; `heap` is what each points to, and one that is in the map has been
given out. -/
structure PeerMap where
  map : String → Option ℕ
  heap : ℕ → Peer
  next : ℕ
  allocated : ∀ {id h}, map id = some h → h < next

namespace PeerMap

def new (now : Instant) : PeerMap where
  map := fun _ => none
  heap := fun _ => .default now
  next := 0
  allocated := nofun

/-- `Arc::new(RwLock::new(peer))`, and the handle into the map. -/
def insert (pm : PeerMap) (id : String) (peer : Peer) : PeerMap where
  map := Function.update pm.map id (some pm.next)
  heap := Function.update pm.heap pm.next peer
  next := pm.next + 1
  allocated {id' h} hmap := by
    by_cases hid : id' = id
    · subst hid
      rw [Function.update_self] at hmap
      cases hmap
      exact Nat.lt_succ_self _
    · rw [Function.update_of_ne hid] at hmap
      exact Nat.lt_succ_of_lt (pm.allocated hmap)

lemma map_insert_self (pm : PeerMap) (id : String) (peer : Peer) :
    (pm.insert id peer).map id = some pm.next := Function.update_self ..

lemma map_insert_of_ne (pm : PeerMap) {id id' : String} (h : id' ≠ id) (peer : Peer) :
    (pm.insert id peer).map id' = pm.map id' := Function.update_of_ne h ..

lemma heap_insert_self (pm : PeerMap) (id : String) (peer : Peer) :
    (pm.insert id peer).heap pm.next = peer := Function.update_self ..

lemma heap_insert_of_ne (pm : PeerMap) (id : String) (peer : Peer) {h : ℕ} (hne : h ≠ pm.next) :
    (pm.insert id peer).heap h = pm.heap h := Function.update_of_ne hne ..

/-- A write under the lock of a peer. -/
def modify (pm : PeerMap) (h : ℕ) (f : Peer → Peer) : PeerMap :=
  { pm with heap := Function.update pm.heap h (f (pm.heap h)) }

/-- The peer of an id, if it is in memory. -/
def inMemory (pm : PeerMap) (id : String) : Option Peer := (pm.map id).map pm.heap

end PeerMap

end RustDesk.Rendezvous
