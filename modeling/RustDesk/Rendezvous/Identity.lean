import RustDesk.Rendezvous.Handlers

/-!
# Whose id it is

An id belongs to the uuid that registered it first, or that has it in the database. The check of a
handler against the peer in memory and its write are steps of their own, so two handlers can both
find an unclaimed peer; and a `get_or` whose read of the database fails makes an unclaimed peer of
a registered one. Where neither happens, every peer that is ever handed out for an id has the uuid
the id belongs to, and a key that came with it.
-/

namespace RustDesk.Rendezvous

variable {db db' : Table} {guid uuid pk guid' : Bytes} {id id' : String} {info : PeerInfo}
  {t t' : Task} {s s' : Server} {rq : Request} {env : Env} {peer : Peer} {genuine : Bytes → Prop}
  {entry : Prop} {handle : Option ℕ} {answer : Option Response}

/-- The guid of a peer names a row of its id, if it has one. -/
def Table.Links (db : Table) (id : String) (guid : Bytes) : Prop :=
  guid = [] ∨ ∃ row ∈ db.rows, row.guid = guid ∧ row.id = id

lemma Table.Links.insertPeer (hdb : db.insertPeer guid id uuid pk info = some db')
    (h : db.Links id' guid') : db'.Links id' guid' := by
  rcases h with h | ⟨row, hrow, hguid, hid⟩
  · exact .inl h
  · refine .inr ⟨row, ?_, hguid, hid⟩
    rw [(insertPeer_eq_some hdb).2.2]
    exact List.mem_append_left _ hrow

lemma Table.Links.id_eq (h : db.Links id guid) (hguid : guid ≠ []) {row : Row}
    (hrow : row ∈ db.rows) (hsame : row.guid = guid) : row.id = id := by
  obtain ⟨row₁, hrow₁, hguid₁, hid₁⟩ := h.resolve_left hguid
  rw [db.eq_of_guid hrow hrow₁ (hsame.trans hguid₁.symm), hid₁]

lemma Table.Links.id_updated (h : db.Links id guid) (hguid : guid ≠ []) {row : Row}
    (hrow : row ∈ db.rows) (pk : Bytes) (info : PeerInfo) :
    (updated guid id pk info row).id = row.id := by
  rw [updated]
  split_ifs with hsame
  · exact (h.id_eq hguid hrow hsame).symm
  · rfl

lemma Table.Links.updatePk (hdb : db.updatePk guid id pk info = some db') (hguid : guid ≠ [])
    (hlinks : db.Links id guid) (h : db.Links id' guid') : db'.Links id' guid' := by
  rcases h with h | ⟨row, hrow, hguid', hid⟩
  · exact .inl h
  · refine .inr ⟨updated guid id pk info row, ?_, ?_, ?_⟩
    · rw [rows_updatePk hdb]
      exact List.mem_map_of_mem hrow
    · rw [guid_updated, hguid']
    · rw [hlinks.id_updated hguid hrow, hid]

/-- What a task is about to write names a row of its id. -/
def Task.Linked (db : Table) : Task → Prop
  | .looking call (.insertRow peer) => db.Links call.id peer.guid
  | .serving rq _ (.writeDb guid) => db.Links rq.rk.id guid
  | .serving rq _ (.writeGuid guid) => db.Links rq.rk.id guid
  | _ => True

lemma Task.Linked.mono (h : t.Linked db)
    (hmono : ∀ {id guid}, db.Links id guid → db'.Links id guid) : t.Linked db' := by
  unfold Task.Linked at *
  split at h <;> first | exact hmono h | trivial

/-- The request of a registration. -/
def Task.request? : Task → Option Request
  | .admitting rq => some rq
  | .looking (.register rq) _ => some rq
  | .serving rq _ _ => some rq
  | .answered rq _ _ => some rq
  | _ => none

/-- A request past `screen` has a uuid. -/
def Task.Admitted : Task → Prop
  | .looking (.register rq) _ => rq.rk.uuid ≠ []
  | .serving rq _ _ => rq.rk.uuid ≠ []
  | _ => True

lemma uuid_ne_of_screen (h : s.screen rq = (.ok (), s')) : rq.rk.uuid ≠ [] := by
  intro hempty
  rw [Server.screen] at h
  cases hpath : rq.path with
  | udp => simp [hpath, hempty] at h
  | tcp vlessAuthenticated => cases vlessAuthenticated <;> simp [hpath, hempty] at h

lemma Advances.admitted (h : Advances s env t s' t') (ht : t.Admitted) : t'.Admitted := by
  cases h with
  | screen h => exact uuid_ne_of_screen h
  | @hit call | @meet call | @insertRow call | @insertDefault call => cases call <;> exact ht
  | @miss call | @load call | @missed call => cases call <;> exact ht
  | @counted rq h changed ipChanged =>
    cases ipChanged <;> cases changed <;> first | exact ht | trivial
  | @noted rq h changed => cases changed <;> first | exact ht | trivial
  | refuse | mismatch | frequent | fail | updateDb | writeGuid => trivial
  | check | count | writePeer | insertDb => exact ht

/-- An unclaimed peer is anybody's. -/
lemma check_of_empty (h : peer.uuid = []) : check rq peer = some (true, false) := by
  have hudp : checkUdp peer rq.rk rq.ip = some (true, false) := by
    rw [checkUdp, if_pos (by rw [h]; rfl)]
  rw [check]
  split
  · exact hudp
  · rw [checkTcp_eq, hudp]

/-- A claimed one is only its owner's. -/
lemma uuid_eq_of_check {changed ipChanged : Bool} (h : check rq peer = some (changed, ipChanged))
    (hne : peer.uuid ≠ []) : rq.rk.uuid = peer.uuid := by
  have hudp : checkUdp peer rq.rk rq.ip = some (changed, ipChanged) := by
    rw [check] at h
    split at h
    · exact h
    · rwa [checkTcp_eq] at h
  rw [checkUdp, if_neg (by simpa using hne)] at hudp
  split_ifs at hudp with huuid
  exact huuid.symm

/-- A step that changes no identity. -/
structure Quiet (s s' : Server) : Prop where
  map : s'.pm.map = s.pm.map
  db : s'.db = s.db
  uuid : ∀ h, (s'.pm.heap h).uuid = (s.pm.heap h).uuid
  pk : ∀ h, (s'.pm.heap h).pk = (s.pm.heap h).pk
  guid : ∀ h, (s'.pm.heap h).guid = (s.pm.heap h).guid

lemma Quiet.refl (s : Server) : Quiet s s := ⟨rfl, rfl, fun _ => rfl, fun _ => rfl, fun _ => rfl⟩

/-- The steps that are not. -/
inductive Alters (s : Server) (env : Env) : Task → Server → Task → Prop where
  | quiet {t t' : Task} {s' : Server} (h : Quiet s s') : Alters s env t s' t'
  | insertRow {call : Call} {peer : Peer} :
      Alters s env (.looking call (.insertRow peer)) { s with pm := s.pm.insert call.id peer }
        (call.found s.pm.next)
  | insertDefault {call : Call} (hmap : s.pm.map call.id = none) :
      Alters s env (.looking call .insertDefault)
        { s with pm := s.pm.insert call.id (.default s.now) } (call.found s.pm.next)
  | writePeer {rq : Request} {h : ℕ} :
      Alters s env (.serving rq h .writePeer) (s.writePeer h rq)
        (.serving rq h (.writeDb (s.pm.heap h).guid))
  | insertDb {rq : Request} {h : ℕ} {db : Table}
      (hdb : s.db.insertPeer env.guid rq.rk.id rq.rk.uuid rq.rk.pk ⟨rq.ip⟩ = some db) :
      Alters s env (.serving rq h (.writeDb [])) { s with db := db }
        (.serving rq h (.writeGuid env.guid))
  | updateDb {rq : Request} {h : ℕ} {guid : Bytes} {db : Table} (hguid : guid ≠ [])
      (hdb : s.db.updatePk guid rq.rk.id rq.rk.pk ⟨rq.ip⟩ = some db) :
      Alters s env (.serving rq h (.writeDb guid)) { s with db := db }
        (.answered rq (some h) (some (answerOf rq.path .ok)))
  | writeGuid {rq : Request} {h : ℕ} {guid : Bytes} :
      Alters s env (.serving rq h (.writeGuid guid)) (s.writeGuid h guid)
        (.answered rq (some h) (some (answerOf rq.path .ok)))

lemma uuid_writeGuid (s : Server) (h : ℕ) (guid : Bytes) (h' : ℕ) :
    ((s.writeGuid h guid).pm.heap h').uuid = (s.pm.heap h').uuid :=
  Server.heap_modify s h (fun peer => { peer with guid := guid }) Peer.uuid (fun _ => rfl) h'

lemma pk_writeGuid (s : Server) (h : ℕ) (guid : Bytes) (h' : ℕ) :
    ((s.writeGuid h guid).pm.heap h').pk = (s.pm.heap h').pk :=
  Server.heap_modify s h (fun peer => { peer with guid := guid }) Peer.pk (fun _ => rfl) h'

lemma quiet_screen {r : Except (Option Response) Unit} (h : s.screen rq = (r, s')) :
    Quiet s s' := by
  have hsame := s.same_screen rq
  rw [h] at hsame
  have hpm : s'.pm = s.pm := hsame.pm
  exact ⟨by rw [hpm], hsame.db, by simp [hpm], by simp [hpm], by simp [hpm]⟩

lemma quiet_counted (s : Server) (h : ℕ) (reqPk : UInt32 × Instant) :
    Quiet s (s.modify h fun peer => { peer with regPk := reqPk }) :=
  ⟨rfl, rfl, Server.heap_modify s h _ Peer.uuid fun _ => rfl,
    Server.heap_modify s h _ Peer.pk fun _ => rfl,
    Server.heap_modify s h _ Peer.guid fun _ => rfl⟩

lemma quiet_noteIpChange (s : Server) (id : String) (ip : Bytes) :
    Quiet s (s.noteIpChange id ip) := ⟨rfl, rfl, fun _ => rfl, fun _ => rfl, fun _ => rfl⟩

lemma Advances.alters (h : Advances s env t s' t') : Alters s env t s' t' := by
  cases h with
  | refuse h | screen h => exact .quiet (quiet_screen h)
  | insertRow => exact .insertRow
  | insertDefault hmap => exact .insertDefault hmap
  | counted => exact .quiet (quiet_counted s _ _)
  | noted => exact .quiet (quiet_noteIpChange s _ _)
  | writePeer => exact .writePeer
  | insertDb hdb => exact .insertDb hdb
  | updateDb hguid hdb => exact .updateDb hguid hdb
  | writeGuid => exact .writeGuid
  | hit | miss | load | missed | meet | mismatch | check | frequent | count | fail =>
    exact .quiet (.refl s)

lemma Advances.request_eq (h : Advances s env t s' t') (hrq : t.request? = some rq) :
    t'.request? = some rq := by
  cases h with
  | @hit call | @meet call | @insertRow call | @insertDefault call =>
    cases call <;> exact hrq
  | @missed call => cases call <;> exact hrq
  | @counted rq h changed ipChanged => cases ipChanged <;> cases changed <;> exact hrq
  | @noted rq h changed => cases changed <;> exact hrq
  | refuse | screen | mismatch | check | frequent | count | writePeer | fail | insertDb | updateDb
  | writeGuid => exact hrq
  | @miss call | @load call => cases call <;> exact hrq

/-- Between the check and the write in memory. -/
def Task.armed : Task → Bool
  | .serving _ _ (.readRegPk _ _) => true
  | .serving _ _ (.writeRegPk _ _ _) => true
  | .serving _ _ (.noteIp _) => true
  | .serving _ _ .writePeer => true
  | _ => false

/-- Where a task can be while nobody has claimed its id. -/
def Task.FreshAt : Task → Prop
  | .looking _ (.insertRow _) => False
  | .serving _ _ (.readRegPk changed _) => changed = true
  | .serving _ _ (.writeRegPk changed _ _) => changed = true
  | .serving _ _ (.noteIp changed) => changed = true
  | .serving _ _ (.writeDb _) => False
  | .serving _ _ (.writeGuid _) => False
  | .answered _ _ (some .ok) => False
  | _ => True

/-- Where it can be when the id belongs to `uuid`. -/
def Task.BoundAt (genuine : Bytes → Prop) (entry : Prop) (uuid : Bytes) : Task → Prop
  | .looking _ (.insertRow peer) => peer.uuid = uuid ∧ genuine peer.pk
  | .looking _ .insertDefault => entry
  | .serving _ _ .check => True
  | .serving rq _ _ => rq.rk.uuid = uuid
  | .answered rq _ (some .ok) => rq.rk.uuid = uuid
  | _ => True

lemma Task.BoundAt.mono {genuine' : Bytes → Prop} {entry' : Prop} (h : t.BoundAt genuine entry uuid)
    (hgenuine : ∀ {pk}, genuine pk → genuine' pk) (hentry : entry → entry') :
    t.BoundAt genuine' entry' uuid := by
  unfold Task.BoundAt at *
  split at h
  case h_1 => exact h.imp_right hgenuine
  case h_2 => exact hentry h
  all_goals exact h

lemma Task.freshAt_answered (h : answer ≠ some .ok) : (Task.answered rq handle answer).FreshAt := by
  unfold Task.FreshAt
  split <;> simp_all

lemma Task.boundAt_answered (h : answer ≠ some .ok) :
    (Task.answered rq handle answer).BoundAt genuine entry uuid := by
  unfold Task.BoundAt
  split <;> simp_all

/-- The first write claims the id for the uuid of its request. -/
lemma Task.FreshAt.boundAt (h : t.FreshAt) (harmed : t.armed = false) (hentry : entry)
    (uuid : Bytes) : t.BoundAt genuine entry uuid := by
  unfold Task.BoundAt
  split
  case h_2 => exact hentry
  case h_4 pc _ => cases pc <;> simp_all [Task.FreshAt, Task.armed]
  all_goals trivial

namespace World

variable {w w' : World} {act : Act} {h k : ℕ} {db₀ : Table}

/-- A handle that a look-up of the id has returned. -/
def Owned (w : World) (id : String) (h : ℕ) : Prop :=
  ∃ (k : ℕ) (t : Task), w.tasks[k]? = some t ∧ t.id = id ∧ t.handle = some h

/-- Every handle belongs to one id, and every guid that is about names a row of the id it is
with. -/
structure Sound (w : World) : Prop where
  handles : w.Handles
  separate : ∀ {id id' h}, w.Owned id h → w.Owned id' h → id = id'
  heap : ∀ {id h}, w.Owned id h → w.server.db.Links id (w.server.pm.heap h).guid
  task : ∀ {k : ℕ} {t : Task}, w.tasks[k]? = some t → t.Linked w.server.db
  admitted : ∀ {k : ℕ} {t : Task}, w.tasks[k]? = some t → t.Admitted

lemma Sound.lt_next (hw : w.Sound) (howned : w.Owned id h) : h < w.server.pm.next := by
  obtain ⟨k, t, ht, -, hhandle⟩ := howned
  exact hw.handles.given k t h ht hhandle

lemma Sound.owned (hw : w.Sound) (hmap : w.server.pm.map id = some h) :
    w.Owned id h := hw.handles.held id h hmap

/-- A handle after a step is an old one, or the one that was just made for the id. -/
lemma Sound.owned_cases (hw : w.Sound) (hstep : w.step act = some w') (howned : w'.Owned id h) :
    w.Owned id h ∨ ∃ (k : ℕ) (env : Env) (t : Task) (peer : Peer), act = .step k env ∧
      w.tasks[k]? = some t ∧ t.id = id ∧ h = w.server.pm.next ∧
      w'.server.pm = w.server.pm.insert id peer := by
  obtain ⟨k, t', ht', rfl, hhandle⟩ := howned
  rcases handle_cases hstep ht' hhandle with ⟨t, ht, hid, hold⟩ | hmap
  · exact .inl ⟨k, t, ht, hid, hold⟩
  · cases maps_of_step hstep with
    | keeps hkeep => exact .inl (hw.owned (hkeep ▸ hmap))
    | @inserts k₁ env t₁ t₂ peer hact ht₁ hpm =>
      by_cases hid : t'.id = t₁.id
      · rw [hpm, hid, PeerMap.map_insert_self] at hmap
        exact .inr ⟨k₁, env, t₁, peer, hact, ht₁, hid.symm, (Option.some.inj hmap).symm, hid ▸ hpm⟩
      · rw [hpm, PeerMap.map_insert_of_ne _ hid] at hmap
        exact .inl (hw.owned hmap)

lemma Sound.separate_step (hw : w.Sound) (hstep : w.step act = some w') (h₁ : w'.Owned id h)
    (h₂ : w'.Owned id' h) : id = id' := by
  rcases hw.owned_cases hstep h₁ with hold₁ | ⟨k₁, env₁, t₁, _, hact₁, ht₁, hid₁, hnext₁, _⟩
  · rcases hw.owned_cases hstep h₂ with hold₂ | ⟨_, _, _, _, _, _, _, hnext₂, _⟩
    · exact hw.separate hold₁ hold₂
    · exact absurd hnext₂ (hw.lt_next hold₁).ne
  · rcases hw.owned_cases hstep h₂ with hold₂ | ⟨k₂, env₂, t₂, _, hact₂, ht₂, hid₂, _, _⟩
    · exact absurd hnext₁ (hw.lt_next hold₂).ne
    · rw [hact₁] at hact₂
      cases hact₂
      rw [ht₁] at ht₂
      cases ht₂
      exact hid₁.symm.trans hid₂

section

variable (hw : w.Sound) (ht : w.tasks[k]? = some t) (hadvances : Advances w.server env t s' t')

include hw ht hadvances

lemma Sound.links_step (h : w.server.db.Links id guid) : s'.db.Links id guid := by
  have hlinked := hw.task ht
  cases hadvances.alters with
  | quiet hquiet => rwa [hquiet.db]
  | insertRow | insertDefault | writePeer | writeGuid => exact h
  | insertDb hdb => exact h.insertPeer hdb
  | updateDb hguid hdb => exact Table.Links.updatePk hdb hguid hlinked h

/-- The guid under a handle that is out names a row of its id also after a step. -/
lemma Sound.heap_step (howned : w.Owned id h) : s'.db.Links id (s'.pm.heap h).guid := by
  have hlinks := hw.links_step ht hadvances (hw.heap howned)
  have hlinked := hw.task ht
  cases hadvances.alters with
  | quiet hquiet => rwa [hquiet.guid]
  | insertRow | insertDefault =>
    rwa [PeerMap.heap_insert_of_ne _ _ _ (hw.lt_next howned).ne]
  | @writePeer rq h₁ =>
    have hguid := Server.heap_modify w.server h₁ (fun peer => { peer with
      socketAddr := rq.addr, uuid := rq.rk.uuid, pk := rq.rk.pk, lastRegTime := w.server.now,
      info := ⟨rq.ip⟩ }) Peer.guid (fun _ => rfl) h
    rwa [Server.writePeer, hguid]
  | insertDb | updateDb => exact hlinks
  | @writeGuid rq h₁ guid =>
    by_cases heq : h = h₁
    · subst heq
      have hid : rq.rk.id = id := hw.separate ⟨k, _, ht, rfl, rfl⟩ howned
      rw [Server.writeGuid, Server.heap_modify_self]
      exact hid ▸ hlinked
    · rwa [Server.writeGuid, Server.heap_modify_of_ne _ _ heq]

lemma Sound.task_step : t'.Linked s'.db := by
  cases hadvances with
  | @load call row hrow =>
    right
    obtain ⟨hmem, hid⟩ := Server.readDb_eq_some hrow
    exact ⟨row, hmem, rfl, hid⟩
  | @writePeer rq h => exact hw.heap ⟨k, _, ht, rfl, rfl⟩
  | insertDb hdb =>
    obtain ⟨-, -, hrows⟩ := Table.insertPeer_eq_some hdb
    exact .inr ⟨_, by rw [hrows]; exact List.mem_append_right _ (List.mem_singleton_self _), rfl,
      rfl⟩
  | @hit call | @meet call | @insertRow call | @insertDefault call | @missed call =>
    cases call <;> trivial
  | @counted _ _ changed ipChanged => cases ipChanged <;> cases changed <;> trivial
  | @noted _ _ changed => cases changed <;> trivial
  | refuse | screen | miss | mismatch | check | frequent | count | fail | updateDb | writeGuid =>
    trivial

lemma Sound.new_step (hpm : s'.pm = w.server.pm.insert t.id peer) :
    s'.db.Links t.id (s'.pm.heap w.server.pm.next).guid := by
  have hlinked := hw.task ht
  have hnext : w.server.pm.next ≠ w.server.pm.next + 1 := Nat.ne_of_lt (Nat.lt_succ_self _)
  cases hadvances.alters with
  | quiet hquiet =>
    have hmap := PeerMap.map_insert_self w.server.pm t.id peer
    rw [← hpm, hquiet.map] at hmap
    exact absurd (w.server.pm.allocated hmap) (lt_irrefl _)
  | insertRow =>
    rw [PeerMap.heap_insert_self]
    exact hlinked
  | insertDefault =>
    rw [PeerMap.heap_insert_self]
    exact .inl rfl
  | writePeer | insertDb | updateDb | writeGuid => exact absurd (congrArg PeerMap.next hpm) hnext

/-- A task of another id changes no row of this one. -/
lemma Sound.rows_other {row : Row} (hid : row.id ≠ t.id) :
    row ∈ s'.db.rows ↔ row ∈ w.server.db.rows := by
  have hlinked := hw.task ht
  cases hadvances.alters with
  | quiet hquiet => rw [hquiet.db]
  | insertRow | insertDefault | writePeer | writeGuid => rfl
  | insertDb hdb =>
    simp only [(Table.insertPeer_eq_some hdb).2.2, List.mem_append, List.mem_singleton]
    refine or_iff_left ?_
    rintro rfl
    exact hid rfl
  | @updateDb rq h guid db hguid hdb =>
    have hother : ∀ row' ∈ w.server.db.rows, row'.id ≠ rq.rk.id → row'.guid ≠ guid :=
      fun row' hrow' hid hsame => hid (Table.Links.id_eq hlinked hguid hrow' hsame)
    simp only [Table.rows_updatePk hdb, List.mem_map]
    constructor
    · rintro ⟨row', hrow', rfl⟩
      rw [Table.Links.id_updated hlinked hguid hrow'] at hid
      rwa [Table.updated_of_ne (hother row' hrow' hid)]
    · intro hrow
      exact ⟨row, hrow, Table.updated_of_ne (hother row hrow hid) _ _ _⟩

lemma Sound.heap_other (howned : w.Owned id h) (hid : id ≠ t.id) :
    (s'.pm.heap h).uuid = (w.server.pm.heap h).uuid ∧
      (s'.pm.heap h).pk = (w.server.pm.heap h).pk := by
  cases hadvances.alters with
  | quiet hquiet => exact ⟨hquiet.uuid h, hquiet.pk h⟩
  | insertRow | insertDefault =>
    rw [PeerMap.heap_insert_of_ne _ _ _ (hw.lt_next howned).ne]
    exact ⟨rfl, rfl⟩
  | insertDb | updateDb => exact ⟨rfl, rfl⟩
  | @writePeer rq h₁ | @writeGuid rq h₁ =>
    have hne : h ≠ h₁ := by
      rintro rfl
      exact hid (hw.separate howned ⟨k, _, ht, rfl, rfl⟩)
    constructor
    · exact congrArg Peer.uuid (Server.heap_modify_of_ne w.server _ hne)
    · exact congrArg Peer.pk (Server.heap_modify_of_ne w.server _ hne)

end

lemma Sound.step (hw : w.Sound) (hstep : w.step act = some w') : w'.Sound := by
  have htask : ∀ {k : ℕ} {t : Task}, w'.tasks[k]? = some t →
      t.Linked w'.server.db ∧ t.Admitted := by
    intro k t ht
    cases steps_of_step hstep with
    | tick d => exact ⟨hw.task ht, hw.admitted ht⟩
    | call call =>
      rcases Slots.concat_cases ht with rfl | ht
      · cases call <;> exact ⟨trivial, trivial⟩
      · exact ⟨hw.task ht, hw.admitted ht⟩
    | step ht₁ hadvances =>
      rcases Slots.set_cases ht with ⟨-, rfl⟩ | ⟨-, ht⟩
      · exact ⟨hw.task_step ht₁ hadvances, hadvances.admitted (hw.admitted ht₁)⟩
      · exact ⟨(hw.task ht).mono (hw.links_step ht₁ hadvances), hw.admitted ht⟩
  refine ⟨hw.handles.step hstep, hw.separate_step hstep, fun {id h} howned => ?_,
    fun ht => (htask ht).1, fun ht => (htask ht).2⟩
  have hcases := hw.owned_cases hstep howned
  cases steps_of_step hstep with
  | tick d | call call =>
    rcases hcases with hold | ⟨_, _, _, _, hact, _⟩
    · exact hw.heap hold
    · cases hact
  | @step k env t t' s' ht hadvances =>
    rcases hcases with hold | ⟨k₁, env₁, t₁, peer, hact, ht₁, rfl, rfl, hpm⟩
    · exact hw.heap_step ht hadvances hold
    · cases hact
      rw [ht] at ht₁
      cases ht₁
      exact hw.new_step ht hadvances hpm

lemma Starts.no_task (h : w.Starts) : w.tasks[k]? ≠ some t := by simp [h.2]

lemma Starts.not_owned (h : w.Starts) {h' : ℕ} : ¬w.Owned id h' :=
  fun ⟨_, _, ht, _⟩ => h.no_task ht

lemma Starts.sound (h : w.Starts) : w.Sound where
  handles := h.handles
  separate howned _ := absurd howned h.not_owned
  heap howned := absurd howned h.not_owned
  task ht := absurd ht h.no_task
  admitted ht := absurd ht h.no_task

/-! ### What a key came with -/

/-- The key was sent for the id under this uuid. -/
def Submitted (w : World) (id : String) (uuid pk : Bytes) : Prop :=
  ∃ (k : ℕ) (t : Task) (rq : Request), w.tasks[k]? = some t ∧ t.request? = some rq ∧
    rq.rk.id = id ∧ rq.rk.uuid = uuid ∧ rq.rk.pk = pk

/-- It was, or the database had it under this uuid from the beginning. -/
def Genuine (db₀ : Table) (w : World) (id : String) (uuid pk : Bytes) : Prop :=
  (∃ row ∈ db₀.rows, row.id = id ∧ row.uuid = uuid ∧ row.pk = pk) ∨ w.Submitted id uuid pk

lemma Genuine.step (h : Genuine db₀ w id uuid pk) (hstep : w.step act = some w') :
    Genuine db₀ w' id uuid pk := by
  refine h.imp_right ?_
  rintro ⟨k, t, rq, ht, hrq, hsent⟩
  cases steps_of_step hstep with
  | tick d => exact ⟨k, t, rq, ht, hrq, hsent⟩
  | call call => exact ⟨k, t, rq, Slots.get_concat ht _, hrq, hsent⟩
  | @step k₁ env t₁ t₂ s' ht₁ hadvances =>
    by_cases hk : k = k₁
    · subst hk
      rw [ht] at ht₁
      cases ht₁
      exact ⟨k, t₂, rq, Slots.get_set_self ht _,
        hadvances.request_eq hrq, hsent⟩
    · exact ⟨k, t, rq, (Slots.get_set_of_ne hk _).trans ht, hrq,
        hsent⟩

/-! ### To whom an id belongs -/

/-- Nobody has claimed the id: no row, and no more than one peer, without a uuid; and at most one
handler has seen it so and not written yet. -/
structure Fresh (w : World) (id : String) : Prop where
  row : ∀ row ∈ w.server.db.rows, row.id ≠ id
  heap : ∀ {h}, w.Owned id h → (w.server.pm.heap h).uuid = [] ∧ w.server.pm.map id = some h
  task : ∀ {k : ℕ} {t : Task}, w.tasks[k]? = some t → t.id = id → t.FreshAt
  alone : ∀ {k k' : ℕ} {t t' : Task}, w.tasks[k]? = some t → w.tasks[k']? = some t' → t.id = id →
    t'.id = id → t.armed → t'.armed → k = k'

/-- The id belongs to `uuid`: every row, every peer and every handler past its check has it. -/
structure Bound (db₀ : Table) (w : World) (id : String) (uuid : Bytes) : Prop where
  row : ∀ row ∈ w.server.db.rows, row.id = id → row.uuid = uuid ∧ Genuine db₀ w id uuid row.pk
  heap : ∀ {h}, w.Owned id h → (w.server.pm.heap h).uuid = uuid ∧
    Genuine db₀ w id uuid (w.server.pm.heap h).pk
  task : ∀ {k : ℕ} {t : Task}, w.tasks[k]? = some t → t.id = id →
    t.BoundAt (Genuine db₀ w id uuid) (w.server.pm.map id ≠ none) uuid
  known : (∃ row ∈ w.server.db.rows, row.id = id) ∨ w.server.pm.map id ≠ none

/-- A step that has nothing to do with the id, at most a call for it. -/
structure Idle (w w' : World) (id : String) : Prop where
  map : w'.server.pm.map id = w.server.pm.map id
  rows : ∀ row, row.id = id → (row ∈ w'.server.db.rows ↔ row ∈ w.server.db.rows)
  tasks : ∀ {k : ℕ} {t : Task}, w'.tasks[k]? = some t → t.id = id →
    w.tasks[k]? = some t ∨ ∃ call, t = .start call
  uuid : ∀ {h}, w.Owned id h → (w'.server.pm.heap h).uuid = (w.server.pm.heap h).uuid
  pk : ∀ {h}, w.Owned id h → (w'.server.pm.heap h).pk = (w.server.pm.heap h).pk

lemma Idle.owned (h : w.Idle w' id) {h' : ℕ} (howned : w'.Owned id h') : w.Owned id h' := by
  obtain ⟨k, t, ht, hid, hhandle⟩ := howned
  rcases h.tasks ht hid with ht | ⟨call, rfl⟩
  · exact ⟨k, t, ht, hid, hhandle⟩
  · rw [Task.handle_start] at hhandle
    cases hhandle

lemma Fresh.idle (hw : w.Fresh id) (h : w.Idle w' id) : w'.Fresh id where
  row row hrow hid := hw.row row ((h.rows row hid).mp hrow) hid
  heap howned := by
    have hold := h.owned howned
    rw [h.uuid hold, h.map]
    exact hw.heap hold
  task ht hid := by
    rcases h.tasks ht hid with ht | ⟨call, rfl⟩
    · exact hw.task ht hid
    · cases call <;> trivial
  alone ht ht' hid hid' harmed harmed' := by
    rcases h.tasks ht hid with ht | ⟨call, rfl⟩
    · rcases h.tasks ht' hid' with ht' | ⟨call, rfl⟩
      · exact hw.alone ht ht' hid hid' harmed harmed'
      · cases call <;> cases harmed'
    · cases call <;> cases harmed

lemma Bound.idle (hw : Bound db₀ w id uuid) (h : w.Idle w' id)
    (hgenuine : ∀ {pk}, Genuine db₀ w id uuid pk → Genuine db₀ w' id uuid pk) :
    Bound db₀ w' id uuid where
  row row hrow hid := (hw.row row ((h.rows row hid).mp hrow) hid).imp_right hgenuine
  heap howned := by
    have hold := h.owned howned
    rw [h.uuid hold, h.pk hold]
    exact (hw.heap hold).imp_right hgenuine
  task ht hid := by
    rw [h.map]
    rcases h.tasks ht hid with ht | ⟨call, rfl⟩
    · exact (hw.task ht hid).mono hgenuine fun hentry => hentry
    · cases call <;> trivial
  known := by
    rw [h.map]
    refine hw.known.imp_left ?_
    rintro ⟨row, hrow, hid⟩
    exact ⟨row, (h.rows row hid).mpr hrow, hid⟩

lemma Sound.idle (hw : w.Sound) (hstep : w.step act = some w')
    (hother : ∀ k env t, act = .step k env → w.tasks[k]? = some t → t.id ≠ id) : w.Idle w' id := by
  cases steps_of_step hstep with
  | tick d =>
    exact ⟨rfl, fun _ _ => Iff.rfl, fun ht _ => .inl ht, fun _ => rfl, fun _ => rfl⟩
  | call call =>
    refine ⟨rfl, fun _ _ => Iff.rfl, fun ht _ => ?_, fun _ => rfl, fun _ => rfl⟩
    exact (Slots.concat_cases ht).symm.imp_right fun h => ⟨call, h⟩
  | @step k env t t' s' ht hadvances =>
    have hid := hother k env t rfl ht
    refine ⟨?_, fun row hrow => ?_, fun {k'} {t₁} ht₁ hid₁ => ?_, fun howned => ?_,
      fun howned => ?_⟩
    · cases hadvances.moves with
      | keeps hmap => exact congrFun hmap id
      | finds hpm => exact congrFun (congrArg PeerMap.map hpm) id
      | inserts hpm =>
        simp only [setTask, hpm]
        exact PeerMap.map_insert_of_ne _ hid.symm _
    · exact hw.rows_other ht hadvances (hrow.trans_ne hid.symm)
    · rcases Slots.set_cases ht₁ with ⟨-, rfl⟩ | ⟨-, ht₁⟩
      · exact absurd (hadvances.id_eq.symm.trans hid₁) hid
      · exact .inl ht₁
    · exact (hw.heap_other ht hadvances howned hid.symm).1
    · exact (hw.heap_other ht hadvances howned hid.symm).2

/-- No handler finds a peer unclaimed while another that found it so has still to write, and no
`get_or` misses a row because the read failed. -/
def orderly (w : World) : Act → Bool
  | .step k env =>
    match w.tasks[k]? with
    | some (.looking (.get _) .readDb) => true
    | some (.looking call .readDb) => !env.readFails || (w.server.db.getPeer call.id).isNone
    | some (.serving rq h .check) =>
      !(w.server.pm.heap h).uuid.isEmpty ||
        w.tasks.all fun t => t.id ≠ rq.rk.id || !t.armed
    | _ => true
  | _ => true

section Acting

variable {call : Call}

/-- The handles after the task of the id has moved: the old ones, and its own. -/
lemma owned_setTask (howned : ({ w with server := s' }.setTask k t').Owned id h) :
    w.Owned id h ∨ t'.id = id ∧ t'.handle = some h := by
  obtain ⟨k', t₁, ht₁, hid, hhandle⟩ := howned
  rcases Slots.set_cases ht₁ with ⟨-, rfl⟩ | ⟨-, ht₁⟩
  · exact .inr ⟨hid, hhandle⟩
  · exact .inl ⟨k', t₁, ht₁, hid, hhandle⟩

/-- A task of an unclaimed id moves without a claim. -/
lemma Fresh.setTask (hf : w.Fresh id) (hw' : w' = { w with server := s' }.setTask k t')
    (hw : w.Sound) (ht : w.tasks[k]? = some t) (hid : t.id = id) (hquiet : Quiet w.server s')
    (hhandle : ∀ h, t'.handle = some h → w.server.pm.map id = some h) (hfresh : t'.FreshAt)
    (harmed : t'.armed → t.armed ∨ ∀ (k₁ : ℕ) (t₁ : Task), w.tasks[k₁]? = some t₁ → t₁.id = id →
      t₁.armed → k₁ = k) : w'.Fresh id := by
  subst hw'
  have halone : ∀ {k₁ : ℕ} {t₁ : Task}, w.tasks[k₁]? = some t₁ → t₁.id = id → t₁.armed →
      t'.armed → k₁ = k := by
    intro k₁ t₁ ht₁ hid₁ harmed₁ harmed'
    rcases harmed harmed' with hold | hnone
    · exact hf.alone ht₁ ht hid₁ hid harmed₁ hold
    · exact hnone k₁ t₁ ht₁ hid₁ harmed₁
  refine ⟨fun row hrow => hf.row row (hquiet.db ▸ hrow), fun {h} howned => ?_, fun ht₁ hid₁ => ?_,
    fun ht₁ ht₂ hid₁ hid₂ harmed₁ harmed₂ => ?_⟩
  · have hold := (owned_setTask howned).elim (fun h => h) fun h => hw.owned (hhandle _ h.2)
    show (s'.pm.heap h).uuid = [] ∧ s'.pm.map id = some h
    rw [hquiet.uuid, hquiet.map]
    exact hf.heap hold
  · rcases Slots.set_cases ht₁ with ⟨-, rfl⟩ | ⟨-, ht₁⟩
    · exact hfresh
    · exact hf.task ht₁ hid₁
  · rcases Slots.set_cases ht₁ with ⟨hk₁, heq₁⟩ | ⟨-, hold₁⟩
    · rcases Slots.set_cases ht₂ with ⟨hk₂, -⟩ | ⟨-, hold₂⟩
      · exact hk₁.trans hk₂.symm
      · exact hk₁.trans (halone hold₂ hid₂ harmed₂ (heq₁ ▸ harmed₁)).symm
    · rcases Slots.set_cases ht₂ with ⟨hk₂, heq₂⟩ | ⟨-, hold₂⟩
      · exact (halone hold₁ hid₁ harmed₁ (heq₂ ▸ harmed₂)).trans hk₂.symm
      · exact hf.alone hold₁ hold₂ hid₁ hid₂ harmed₁ harmed₂

lemma Fresh.insertDefault (hf : w.Fresh id) (hid : call.id = id)
    (hmap : w.server.pm.map id = none) :
    ({ w with server := { w.server with
      pm := w.server.pm.insert call.id (.default w.server.now) } }.setTask k
        (call.found w.server.pm.next)).Fresh id := by
  have hnone : ∀ h, ¬w.Owned id h := by
    intro h howned
    rw [(hf.heap howned).2] at hmap
    cases hmap
  have hunarmed : ∀ {k₁ : ℕ} {t₁ : Task}, w.tasks[k₁]? = some t₁ → t₁.id = id → ¬t₁.armed := by
    rintro k₁ (rq | _ | _ | ⟨rq, h, _⟩ | _) ht₁ hid₁ harmed
    case serving => exact hnone h ⟨k₁, _, ht₁, hid₁, rfl⟩
    all_goals cases harmed
  have hnew : ∀ h, (call.found w.server.pm.next).handle = some h → h = w.server.pm.next :=
    fun h hhandle => (Option.some.inj ((call.handle_found _).symm.trans hhandle)).symm
  have hfound : (call.found w.server.pm.next).FreshAt ∧ ¬(call.found w.server.pm.next).armed := by
    cases call <;> exact ⟨trivial, nofun⟩
  refine ⟨hf.row, fun {h} howned => ?_, fun ht₁ hid₁ => ?_,
    fun ht₁ ht₂ hid₁ hid₂ harmed₁ harmed₂ => ?_⟩
  · rcases owned_setTask howned with hold | ⟨-, hhandle⟩
    · exact absurd hold (hnone h)
    · subst hid
      obtain rfl := hnew h hhandle
      exact ⟨congrArg Peer.uuid (PeerMap.heap_insert_self ..), PeerMap.map_insert_self ..⟩
  · rcases Slots.set_cases ht₁ with ⟨-, rfl⟩ | ⟨-, ht₁⟩
    · exact hfound.1
    · exact hf.task ht₁ hid₁
  · rcases Slots.set_cases ht₁ with ⟨-, rfl⟩ | ⟨-, hold₁⟩
    · exact absurd harmed₁ hfound.2
    · exact absurd harmed₁ (hunarmed hold₁ hid₁)

lemma Fresh.writePeer (hf : w.Fresh id) (ht : w.tasks[k]? = some (.serving rq h .writePeer))
    (hid : rq.rk.id = id)
    (hw' : w' = { w with server := w.server.writePeer h rq }.setTask k
      (.serving rq h (.writeDb (w.server.pm.heap h).guid))) : Bound db₀ w' id rq.rk.uuid := by
  have hmap := (hf.heap ⟨k, _, ht, hid, rfl⟩).2
  have hgenuine : Genuine db₀ w' id rq.rk.uuid rq.rk.pk := by
    subst hw'
    exact .inr ⟨k, _, rq, Slots.get_set_self ht _, rfl, hid, rfl, rfl⟩
  subst hw'
  refine ⟨fun row hrow hrowid => absurd hrowid (hf.row row hrow), fun {h'} howned => ?_,
    fun ht₁ hid₁ => ?_, .inr ?_⟩
  · -- the peer under the one handle there is
    obtain rfl : h' = h := by
      rcases owned_setTask howned with hold | ⟨-, hhandle⟩
      · exact Option.some.inj ((hf.heap hold).2.symm.trans hmap)
      · exact (Option.some.inj hhandle).symm
    show ((w.server.writePeer h' rq).pm.heap h').uuid = _ ∧
      Genuine db₀ _ id rq.rk.uuid ((w.server.writePeer h' rq).pm.heap h').pk
    rw [Server.writePeer, Server.heap_modify_self]
    exact ⟨rfl, hgenuine⟩
  · rcases Slots.set_cases ht₁ with ⟨-, rfl⟩ | ⟨hk, ht₁⟩
    · rfl
    · apply (hf.task ht₁ hid₁).boundAt
      · rw [← Bool.not_eq_true]
        exact fun harmed => hk (hf.alone ht₁ ht hid₁ hid harmed rfl)
      · exact hmap.trans_ne (Option.some_ne_none h)
  · exact hmap.trans_ne (Option.some_ne_none h)

/-- Under an unclaimed id a step claims nothing, except the first write in memory. -/
lemma Fresh.advance (hf : w.Fresh id) (hw' : w' = { w with server := s' }.setTask k t')
    (hw : w.Sound) (ht : w.tasks[k]? = some t) (hid : t.id = id)
    (hadvances : Advances w.server env t s' t') (hok : w.orderly (.step k env)) :
    w'.Fresh id ∨ ∃ uuid ≠ [], Bound db₀ w' id uuid := by
  have hat := hf.task ht hid
  have hmoves := hf.setTask hw' hw ht hid
  have hhandle : ∀ h, t.handle = some h → w.server.pm.map id = some h := fun h hhandle =>
    (hf.heap ⟨k, t, ht, hid, hhandle⟩).2
  cases hadvances with
  | @refuse rq answer s' h =>
    have hanswer := Server.screen_ne_ok (congrArg Prod.fst h)
    exact .inl (hmoves (quiet_screen h) nofun (Task.freshAt_answered hanswer) nofun)
  | screen h => exact .inl (hmoves (quiet_screen h) nofun trivial nofun)
  | @hit call h hmap | @meet call h hmap =>
    refine .inl (hmoves (.refl _) (fun h' hfound => ?_) ?_ ?_)
    · rw [call.handle_found] at hfound
      exact hid ▸ hmap.trans hfound
    · cases call <;> trivial
    · cases call <;> nofun
  | miss => exact .inl (hmoves (.refl _) nofun trivial nofun)
  | @load call row hrow =>
    obtain ⟨hmem, hrowid⟩ := Server.readDb_eq_some hrow
    exact absurd (hrowid.trans hid) (hf.row row hmem)
  | @missed call =>
    refine .inl (hmoves (.refl _) (fun h hmiss => ?_) ?_ ?_)
    · rw [call.handle_missed] at hmiss
      cases hmiss
    · cases call <;> trivial
    · cases call <;> nofun
  | insertRow => exact hat.elim
  | insertDefault hmap => exact .inl (hw' ▸ hf.insertDefault hid (hid ▸ hmap))
  | mismatch | frequent => exact .inl (hmoves (.refl _) hhandle trivial nofun)
  | @check rq h changed ipChanged hcheck =>
    have hempty := (hf.heap ⟨k, _, ht, hid, rfl⟩).1
    rw [check_of_empty hempty] at hcheck
    cases hcheck
    refine .inl (hmoves (.refl _) hhandle rfl fun _ => .inr ?_)
    intro k₁ t₁ ht₁ hid₁ harmed
    simp only [orderly, ht, hempty, List.isEmpty_nil, Bool.not_true, Bool.false_or,
      List.all_eq_true] at hok
    have hother := hok t₁ (List.mem_of_getElem? ht₁)
    have heq : t₁.id = rq.rk.id := hid₁.trans hid.symm
    simp [harmed, heq] at hother
  | count => exact .inl (hmoves (.refl _) hhandle hat fun _ => .inl rfl)
  | @counted rq h changed ipChanged reqPk =>
    obtain rfl : changed = true := hat
    refine .inl (hmoves (quiet_counted _ _ _) ?_ ?_ fun _ => .inl rfl)
    · cases ipChanged <;> exact hhandle
    · cases ipChanged <;> trivial
  | @noted rq h changed =>
    obtain rfl : changed = true := hat
    exact .inl (hmoves (quiet_noteIpChange _ _ _) hhandle trivial fun _ => .inl rfl)
  | @writePeer rq h => exact .inr ⟨rq.rk.uuid, hw.admitted ht, hf.writePeer ht hid hw'⟩
  | fail | insertDb | updateDb | writeGuid => exact hat.elim

/-- A `get_or` that finds neither an entry nor a row, under a claimed id: the entry has come
since. -/
lemma Bound.entry_of_missed (hb : Bound db₀ w id uuid) (hrow : w.server.readDb id env = none)
    (hok : !env.readFails || (w.server.db.getPeer id).isNone) : w.server.pm.map id ≠ none := by
  refine hb.known.resolve_left ?_
  rintro ⟨row, hmem, hid⟩
  have hget := w.server.db.getPeer_eq_some.mpr ⟨hmem, hid⟩
  simp only [Server.readDb, hget] at hrow
  simp only [hget, Option.isNone_some, Bool.or_false, Bool.not_eq_true'] at hok
  simp [hok] at hrow

variable (hb : Bound db₀ w id uuid) (hw' : w' = { w with server := s' }.setTask k t')
  (hgenuine : ∀ {pk}, Genuine db₀ w id uuid pk → Genuine db₀ w' id uuid pk)

include hb hw' hgenuine

/-- A task of a claimed id moves: what is left to show is what it changes. -/
lemma Bound.setTask
    (hrow : ∀ row ∈ s'.db.rows, row.id = id → row.uuid = uuid ∧ Genuine db₀ w' id uuid row.pk)
    (hheap : ∀ h, w.Owned id h ∨ t'.handle = some h → (s'.pm.heap h).uuid = uuid ∧
      Genuine db₀ w' id uuid (s'.pm.heap h).pk)
    (htask : t'.BoundAt (Genuine db₀ w' id uuid) (s'.pm.map id ≠ none) uuid)
    (hmap : w.server.pm.map id ≠ none → s'.pm.map id ≠ none)
    (hknown : (∃ row ∈ w.server.db.rows, row.id = id) → ∃ row ∈ s'.db.rows, row.id = id) :
    Bound db₀ w' id uuid := by
  subst hw'
  refine ⟨hrow, fun howned => hheap _ ((owned_setTask howned).imp_right And.right),
    fun ht₁ hid₁ => ?_, hb.known.imp hknown hmap⟩
  rcases Slots.set_cases ht₁ with ⟨-, rfl⟩ | ⟨-, ht₁⟩
  · exact htask
  · exact (hb.task ht₁ hid₁).mono hgenuine hmap

/-- No peer in memory gets another uuid or key. -/
lemma Bound.keep (hmap : s'.pm.map = w.server.pm.map)
    (hheap : ∀ h, (s'.pm.heap h).uuid = (w.server.pm.heap h).uuid ∧
      (s'.pm.heap h).pk = (w.server.pm.heap h).pk)
    (hrow : ∀ row ∈ s'.db.rows, row.id = id → row.uuid = uuid ∧ Genuine db₀ w' id uuid row.pk)
    (hhandle : ∀ h, t'.handle = some h → w.Owned id h)
    (htask : t'.BoundAt (Genuine db₀ w id uuid) (w.server.pm.map id ≠ none) uuid)
    (hknown : (∃ row ∈ w.server.db.rows, row.id = id) → ∃ row ∈ s'.db.rows, row.id = id) :
    Bound db₀ w' id uuid := by
  apply hb.setTask hw' hgenuine hrow
  · intro h howned
    rw [(hheap h).1, (hheap h).2]
    exact (hb.heap (howned.elim (fun h => h) (hhandle h))).imp_right hgenuine
  · rw [hmap]
    exact htask.mono hgenuine fun hentry => hentry
  · rw [hmap]
    exact fun hentry => hentry
  · exact hknown

lemma Bound.quiet (hw : w.Sound) (ht : w.tasks[k]? = some t) (hid : t.id = id)
    (hquiet : Quiet w.server s')
    (hhandle : ∀ h, t'.handle = some h → t.handle = some h ∨ w.server.pm.map id = some h)
    (htask : t'.BoundAt (Genuine db₀ w id uuid) (w.server.pm.map id ≠ none) uuid) :
    Bound db₀ w' id uuid := by
  apply hb.keep hw' hgenuine hquiet.map (fun h => ⟨hquiet.uuid h, hquiet.pk h⟩) ?_ ?_ htask
  · rw [hquiet.db]
    exact fun hrow => hrow
  · intro row hrow hid
    rw [hquiet.db] at hrow
    exact (hb.row row hrow hid).imp_right hgenuine
  · intro h hnew
    rcases hhandle h hnew with hhandle | hmap
    · exact ⟨k, t, ht, hid, hhandle⟩
    · exact hw.owned hmap

lemma Bound.insertRow (hid : call.id = id)
    (hs' : s' = { w.server with pm := w.server.pm.insert call.id peer })
    (ht' : t' = call.found w.server.pm.next)
    (hpeer : peer.uuid = uuid ∧ Genuine db₀ w id uuid peer.pk) : Bound db₀ w' id uuid := by
  subst hid hs' ht'
  apply hb.setTask hw' hgenuine
  · exact fun row hrow hrowid => (hb.row row hrow hrowid).imp_right hgenuine
  · intro h howned
    by_cases hnext : h = w.server.pm.next
    · subst hnext
      rw [PeerMap.heap_insert_self]
      exact ⟨hpeer.1, hgenuine hpeer.2⟩
    · have hold : w.Owned call.id h := by
        refine howned.resolve_right fun hfound => hnext ?_
        exact (Option.some.inj ((call.handle_found _).symm.trans hfound)).symm
      rw [PeerMap.heap_insert_of_ne _ _ _ hnext]
      exact (hb.heap hold).imp_right hgenuine
  · cases call <;> trivial
  · exact fun _ => (PeerMap.map_insert_self ..).trans_ne (Option.some_ne_none _)
  · exact fun hrow => hrow

lemma Bound.writePeer (hs' : s' = w.server.writePeer h rq)
    (ht' : t' = .serving rq h (.writeDb (w.server.pm.heap h).guid)) (huuid : rq.rk.uuid = uuid)
    (hpk : Genuine db₀ w' id uuid rq.rk.pk) : Bound db₀ w' id uuid := by
  subst hs' ht'
  apply hb.setTask hw' hgenuine
  · exact fun row hrow hrowid => (hb.row row hrow hrowid).imp_right hgenuine
  · intro h' howned
    by_cases heq : h' = h
    · subst heq
      rw [Server.writePeer, Server.heap_modify_self]
      exact ⟨huuid, hpk⟩
    · have hold : w.Owned id h' :=
        howned.resolve_right fun hhandle => heq (Option.some.inj hhandle).symm
      rw [Server.writePeer, Server.heap_modify_of_ne _ _ heq]
      exact (hb.heap hold).imp_right hgenuine
  · exact huuid
  · exact fun hentry => hentry
  · exact fun hrow => hrow

/-- A step under a claimed id keeps to its owner. -/
lemma Bound.advance (hne : uuid ≠ []) (hw : w.Sound) (ht : w.tasks[k]? = some t) (hid : t.id = id)
    (hadvances : Advances w.server env t s' t') (hok : w.orderly (.step k env)) :
    Bound db₀ w' id uuid := by
  have hat := hb.task ht hid
  have hmoves := hb.quiet hw' hgenuine hw ht hid
  have hkeep := hb.keep hw' hgenuine
  -- a request of the owner brings a genuine key
  have hsent : ∀ rq, t'.request? = some rq → rq.rk.id = id → rq.rk.uuid = uuid →
      Genuine db₀ w' id uuid rq.rk.pk := by
    intro rq hrq hrqid huuid
    exact .inr ⟨k, t', rq, hw' ▸ Slots.get_set_self ht _, hrq, hrqid, huuid, rfl⟩
  have hown : ∀ h, t.handle = some h → w.Owned id h := fun h hhandle => ⟨k, t, ht, hid, hhandle⟩
  cases hadvances with
  | @refuse rq answer s' h =>
    have hanswer := Server.screen_ne_ok (congrArg Prod.fst h)
    exact hmoves (quiet_screen h) nofun (Task.boundAt_answered hanswer)
  | screen h => exact hmoves (quiet_screen h) nofun trivial
  | @hit call h hmap | @meet call h hmap =>
    refine hmoves (.refl _) (fun h' hfound => .inr ?_) ?_
    · rw [call.handle_found] at hfound
      exact hid ▸ hmap.trans hfound
    · cases call <;> trivial
  | miss => exact hmoves (.refl _) nofun trivial
  | @load call row hrow =>
    obtain ⟨hmem, hrowid⟩ := Server.readDb_eq_some hrow
    exact hmoves (.refl _) nofun (hb.row row hmem (hrowid.trans hid))
  | @missed call hrow =>
    refine hmoves (.refl _) (fun h hmiss => ?_) ?_
    · rw [call.handle_missed] at hmiss
      cases hmiss
    · subst hid
      cases call with
      | get id => trivial
      | getOr id | register rq =>
        simp only [orderly, ht] at hok
        exact hb.entry_of_missed hrow hok
  | insertRow => exact hb.insertRow hw' hgenuine hid rfl rfl hat
  | insertDefault hmap => exact absurd (hid ▸ hmap) hat
  | mismatch | frequent => exact hmoves (.refl _) (fun _ => .inl) trivial
  | @check rq h changed ipChanged hcheck =>
    have huuid := (hb.heap ⟨k, _, ht, hid, rfl⟩).1
    refine hmoves (.refl _) (fun _ => .inl) ?_
    exact (uuid_eq_of_check hcheck (huuid ▸ hne)).trans huuid
  | count => exact hmoves (.refl _) (fun _ => .inl) hat
  | @counted rq h changed ipChanged reqPk =>
    refine hmoves (quiet_counted _ _ _) ?_ ?_
    · cases ipChanged <;> cases changed <;> exact fun _ => .inl
    · cases ipChanged <;> cases changed <;> exact hat
  | @noted rq h changed =>
    refine hmoves (quiet_noteIpChange _ _ _) ?_ ?_
    · cases changed <;> exact fun _ => .inl
    · cases changed <;> exact hat
  | @writePeer rq h => exact hb.writePeer hw' hgenuine rfl rfl hat (hsent rq rfl hid hat)
  | @fail rq h guid =>
    refine hmoves (.refl _) (fun _ => .inl) ?_
    cases hpath : rq.path with
    | udp => exact hat
    | tcp => trivial
  | @insertDb rq h db hdb =>
    have hrows := (Table.insertPeer_eq_some hdb).2.2
    refine hkeep rfl (fun _ => ⟨rfl, rfl⟩) ?_ hown hat ?_
    · intro row hrow hrowid
      rw [hrows, List.mem_append, List.mem_singleton] at hrow
      rcases hrow with hold | rfl
      · exact (hb.row row hold hrowid).imp_right hgenuine
      · exact ⟨hat, hsent rq rfl hid hat⟩
    · rintro ⟨row, hrow, hrowid⟩
      exact ⟨row, by rw [hrows]; exact List.mem_append_left _ hrow, hrowid⟩
  | @updateDb rq h guid db hguid hdb =>
    have hrows := Table.rows_updatePk hdb
    have hlinked : w.server.db.Links rq.rk.id guid := hw.task ht
    refine hkeep rfl (fun _ => ⟨rfl, rfl⟩) ?_ hown ?_ ?_
    · intro row hrow hrowid
      rw [hrows] at hrow
      obtain ⟨row₀, hrow₀, rfl⟩ := List.mem_map.mp hrow
      rw [hlinked.id_updated hguid hrow₀] at hrowid
      obtain ⟨huuid, hpk⟩ := hb.row row₀ hrow₀ hrowid
      rw [Table.updated]
      split_ifs
      · exact ⟨huuid, hsent rq rfl hid hat⟩
      · exact ⟨huuid, hgenuine hpk⟩
    · cases hpath : rq.path <;> exact hat
    · rintro ⟨row, hrow, hrowid⟩
      exact ⟨_, by rw [hrows]; exact List.mem_map_of_mem hrow,
        (hlinked.id_updated hguid hrow _ _).trans hrowid⟩
  | @writeGuid rq h guid =>
    refine hkeep rfl (fun h' => ⟨uuid_writeGuid .., pk_writeGuid ..⟩) ?_ hown ?_
      fun hrow => hrow
    · exact fun row hrow hrowid => (hb.row row hrow hrowid).imp_right hgenuine
    · cases hpath : rq.path <;> exact hat

end Acting

/-- Every id is unclaimed or somebody's, unless the database came with a row of it that has no
uuid. -/
structure Owners (db₀ : Table) (w : World) : Prop where
  sound : w.Sound
  owner : ∀ id, (∀ row ∈ db₀.rows, row.id = id → row.uuid ≠ []) →
    w.Fresh id ∨ ∃ uuid ≠ [], Bound db₀ w id uuid

lemma Starts.owners (h : w.Starts) : Owners w.server.db w := by
  refine ⟨h.sound, fun id hrows => ?_⟩
  by_cases hrow : ∃ row ∈ w.server.db.rows, row.id = id
  · obtain ⟨row, hmem, hid⟩ := hrow
    refine .inr ⟨row.uuid, hrows row hmem hid, fun row' hmem' hid' => ?_, fun howned =>
      absurd howned h.not_owned, fun ht => absurd ht h.no_task, .inl ⟨row, hmem, hid⟩⟩
    obtain rfl := w.server.db.eq_of_id hmem' hmem (hid'.trans hid.symm)
    exact ⟨rfl, .inl ⟨row', hmem', hid', rfl, rfl⟩⟩
  · exact .inl ⟨fun row hmem hid => hrow ⟨row, hmem, hid⟩, fun howned => absurd howned h.not_owned,
      fun ht => absurd ht h.no_task, fun ht => absurd ht h.no_task⟩

lemma Owners.step (h : Owners db₀ w) (hok : w.orderly act) (hstep : w.step act = some w') :
    Owners db₀ w' := by
  refine ⟨h.sound.step hstep, fun id hrows => ?_⟩
  have howner := h.owner id hrows
  by_cases hself : ∃ k env t, act = .step k env ∧ w.tasks[k]? = some t ∧ t.id = id
  · obtain ⟨k, env, t, rfl, ht, hid⟩ := hself
    have hgenuine : ∀ {uuid pk}, Genuine db₀ w id uuid pk → Genuine db₀ w' id uuid pk :=
      fun h => h.step hstep
    cases steps_of_step hstep with
    | step ht₁ hadvances =>
      rw [ht] at ht₁
      cases ht₁
      rcases howner with hfresh | ⟨uuid, hne, hbound⟩
      · exact hfresh.advance rfl h.sound ht hid hadvances hok
      · exact .inr ⟨uuid, hne, hbound.advance rfl hgenuine hne h.sound ht hid hadvances hok⟩
  · have hidle : w.Idle w' id := h.sound.idle hstep fun k env t hact ht hid =>
      hself ⟨k, env, t, hact, ht, hid⟩
    rcases howner with hfresh | ⟨uuid, hne, hbound⟩
    · exact .inl (hfresh.idle hidle)
    · exact .inr ⟨uuid, hne, hbound.idle hidle fun h => h.step hstep⟩

/-- **An id stays with its owner.** In every run that is orderly, once a registration of the id has
been answered OK with a uuid, or the database has a row of the id with it, every peer that a look-up
has returned for the id holds that uuid, and a key that was sent with it. -/
theorem identity_bound {w₀ w : World} {acts : List Act} (hstart : w₀.Starts)
    (hrun : (lts.restrict orderly).run w₀ acts = some w) {id : String} {uuid : Bytes}
    (hrows : ∀ row ∈ w₀.server.db.rows, row.id = id → row.uuid ≠ [])
    (hclaimed : (∃ (k : ℕ) (rq : Request) (h : Option ℕ),
        w.tasks[k]? = some (.answered rq h (some .ok)) ∧ rq.rk.id = id ∧ rq.rk.uuid = uuid) ∨
      ∃ row ∈ w.server.db.rows, row.id = id ∧ row.uuid = uuid)
    {h : ℕ} (howned : w.Owned id h) :
    (w.server.pm.heap h).uuid = uuid ∧
      Genuine w₀.server.db w id uuid (w.server.pm.heap h).pk := by
  have howners : Owners w₀.server.db w := by
    apply LTS.run_invariant (M := lts.restrict orderly) _ hrun hstart.owners
    intro w act w' hw hstep
    obtain ⟨hok, hstep⟩ := LTS.restrict_step_some hstep
    exact hw.step hok hstep
  rcases howners.owner id hrows with hfresh | ⟨owner, -, hbound⟩
  · rcases hclaimed with ⟨k, rq, handle, ht, hid, -⟩ | ⟨row, hrow, hid, -⟩
    · exact (hfresh.task ht hid).elim
    · exact absurd hid (hfresh.row row hrow)
  · obtain rfl : owner = uuid := by
      rcases hclaimed with ⟨k, rq, handle, ht, hid, huuid⟩ | ⟨row, hrow, hid, huuid⟩
      · exact (hbound.task ht hid).symm.trans huuid
      · exact (hbound.row row hrow hid).1.symm.trans huuid
    exact hbound.heap howned

/-- A server that has just started, over an empty table. -/
def first : World := ⟨.fresh, []⟩

def someone : Request := ⟨.udp, .v4 (.new 10 0 0 1) 5000, ⟨"123456789", [1], [2]⟩⟩

/-- The registration, and a lookup after it. -/
def registration : List Act :=
  .call (.register someone) :: (List.replicate 10 (.step 0 calm)).append
    [.call (.get "123456789"), .step 1 calm]

theorem identity_bound_someone : ∃ acts w h, (lts.restrict orderly).run first acts = some w ∧
    w.Owned "123456789" h ∧ (w.server.pm.heap h).uuid = [1] := by
  have hrun : ∃ w ∈ (lts.restrict orderly).run first registration,
      w.tasks[0]? = some (.answered someone (some 0) (some .ok)) ∧
        w.tasks[1]? = some (.returned (.get "123456789") (some 0)) := by decide
  obtain ⟨w, hw, hanswered, hreturned⟩ := hrun
  have hstart : first.Starts := ⟨rfl, rfl⟩
  have howned : w.Owned "123456789" 0 := ⟨1, _, hreturned, rfl, rfl⟩
  rw [Option.mem_def] at hw
  exact ⟨_, w, 0, hw, howned, (identity_bound hstart hw nofun
    (.inl ⟨0, someone, some 0, hanswered, rfl, rfl⟩) howned).1⟩

def someoneElse : Request := ⟨.tcp true, .v4 (.new 127 0 0 1) 6000, ⟨"123456789", [3], [4]⟩⟩

/-- Both register; the first goes as far as its check, then the second, and so on in turn. -/
def takeover : List Act :=
  let turns : List (List Act) := [List.replicate 5 (.step 0 calm), List.replicate 3 (.step 1 calm)]
  .call (.register someone) :: .call (.register someoneElse) ::
    (turns ++ turns).flatten.append [.call (.get "123456789"), .step 2 calm]

/-- Two registrations of a new id, over UDP and over TCP: both find the peer unclaimed, the first
is answered OK, and the second takes the id over. -/
theorem identity_taken_over : first.Starts ∧ ∃ acts w, lts.run first acts = some w ∧
    w.tasks[0]? = some (.answered someone (some 0) (some .ok)) ∧
    w.tasks[2]? = some (.returned (.get "123456789") (some 0)) ∧
    (w.server.pm.heap 0).uuid = [3] ∧ (w.server.pm.heap 0).pk = [4] := by
  refine ⟨⟨rfl, rfl⟩, takeover, ?_⟩
  change ∃ w ∈ LTS.run _ _ _, _
  decide

end World

end RustDesk.Rendezvous
