import RustDesk.Lib.Slots
import RustDesk.Lib.Transition
import RustDesk.Rendezvous.RegisterPk

/-!
# Handlers side by side

Registrations and look-ups run as tasks that share the map, the peers and the database. A task
gives way wherever its code waits for a lock or for the database, so a step of it is what it does
between two such points, and a run is any interleaving of the steps.
-/

namespace RustDesk.Rendezvous

variable {env : Env}

/-- `get` and `get_or`, by themselves or at the beginning of a registration. -/
inductive Call where
  | get (id : String)
  | getOr (id : String)
  | register (rq : Request)
  deriving DecidableEq

def Call.id : Call → String
  | get id => id
  | getOr id => id
  | register rq => rq.rk.id

/-- Where a look-up is. -/
inductive Look where
  | readMap
  | readDb
  | insertRow (peer : Peer)
  | insertDefault
  deriving DecidableEq

/-- Where a registration with its peer is. -/
inductive Serve where
  | check
  | readRegPk (changed ipChanged : Bool)
  | writeRegPk (changed ipChanged : Bool) (reqPk : UInt32 × Instant)
  | noteIp (changed : Bool)
  | writePeer
  | writeDb (guid : Bytes)
  | writeGuid (guid : Bytes)
  deriving DecidableEq

inductive Task where
  | admitting (rq : Request)
  | looking (call : Call) (at_ : Look)
  | returned (call : Call) (handle : Option ℕ)
  | serving (rq : Request) (handle : ℕ) (at_ : Serve)
  | answered (rq : Request) (handle : Option ℕ) (answer : Option Response)
  deriving DecidableEq

namespace Task

def start : Call → Task
  | .register rq => admitting rq
  | call => looking call .readMap

def id : Task → String
  | admitting rq => rq.rk.id
  | looking call _ => call.id
  | returned call _ => call.id
  | serving rq _ _ => rq.rk.id
  | answered rq _ _ => rq.rk.id

/-- The handle the look-up of a task has returned. -/
def handle : Task → Option ℕ
  | admitting _ => none
  | looking _ _ => none
  | returned _ handle => handle
  | serving _ handle _ => some handle
  | answered _ handle _ => handle

end Task

/-- A look-up has its peer. -/
def Call.found (call : Call) (h : ℕ) : Task :=
  match call with
  | .register rq => .serving rq h .check
  | call => .returned call (some h)

/-- Neither the map nor the database has the peer: `get_or` makes one. -/
def Call.missed (call : Call) : Task :=
  match call with
  | .get id => .returned (.get id) none
  | call => .looking call .insertDefault

/-- One step of a look-up. -/
def Look.advance (s : Server) (call : Call) (env : Env) : Look → Server × Task
  | .readMap =>
    match s.pm.map call.id with
    | some h => (s, call.found h)
    | none => (s, .looking call .readDb)
  | .readDb =>
    match s.readDb call.id env with
    | some row => (s, .looking call (.insertRow (s.loadPeer row)))
    | none => (s, call.missed)
  | .insertRow peer =>
    let (h, s) := s.insert call.id peer
    (s, call.found h)
  | .insertDefault =>
    let (h, s) := s.insertDefault call.id
    (s, call.found h)

/-- The request has been counted and noted: `update_pk`, or the answer. -/
def Request.noted (rq : Request) (h : ℕ) (changed : Bool) : Task :=
  if changed then .serving rq h .writePeer else .answered rq (some h) (some .ok)

/-- One step of a registration that has its peer. -/
def Serve.advance (s : Server) (rq : Request) (h : ℕ) (env : Env) : Serve → Server × Task
  | .check =>
    match Rendezvous.check rq (s.pm.heap h) with
    | none => (s, .answered rq (some h) (some .uuidMismatch))
    | some (changed, ipChanged) => (s, .serving rq h (.readRegPk changed ipChanged))
  | .readRegPk changed ipChanged =>
    match countRegPk s.now (s.pm.heap h).regPk with
    | none => (s, .answered rq (some h) (some .tooFrequent))
    | some reqPk => (s, .serving rq h (.writeRegPk changed ipChanged reqPk))
  | .writeRegPk changed ipChanged reqPk =>
    (s.modify h fun peer => { peer with regPk := reqPk },
      if ipChanged then .serving rq h (.noteIp changed) else rq.noted h changed)
  | .noteIp changed => (s.noteIpChange rq.rk.id rq.ip, rq.noted h changed)
  | .writePeer => (s.writePeer h rq, .serving rq h (.writeDb (s.pm.heap h).guid))
  | .writeDb guid =>
    match s.writeDb guid rq env with
    | none => (s, .answered rq (some h) (some (answerOf rq.path .serverError)))
    | some (none, s) => (s, .answered rq (some h) (some (answerOf rq.path .ok)))
    | some (some guid, s) => (s, .serving rq h (.writeGuid guid))
  | .writeGuid guid =>
    (s.writeGuid h guid, .answered rq (some h) (some (answerOf rq.path .ok)))

/-- One step of a task; `none` when it has ended. -/
def Task.advance (s : Server) (env : Env) : Task → Option (Server × Task)
  | .admitting rq =>
    match s.screen rq with
    | (.error answer, s) => some (s, .answered rq none answer)
    | (.ok (), s) => some (s, .looking (.register rq) .readMap)
  | .looking call at_ => some (at_.advance s call env)
  | .serving rq h at_ => some (at_.advance s rq h env)
  | .returned _ _ => none
  | .answered _ _ _ => none

/-- The server and everything that has been called on it so far. -/
structure World where
  server : Server
  tasks : List Task

inductive Act where
  | call (call : Call)
  | step (k : ℕ) (env : Env)
  | tick (d : ℕ)

namespace World

def setTask (w : World) (k : ℕ) (t : Task) : World :=
  { w with tasks := w.tasks.set k t }

def step (w : World) : Act → Option World
  | .call call => some { w with tasks := w.tasks ++ [.start call] }
  | .step k env => do
    let t ← w.tasks[k]?
    let (s, t) ← t.advance w.server env
    return { w with server := s }.setTask k t
  | .tick d => some { w with server := { w.server with now := w.server.now + d } }

/-- The server has just started: nothing in memory, anything in the database. -/
def Starts (w : World) : Prop :=
  w.server.pm = .new w.server.now ∧ w.tasks = []

def lts : LTS World Act where
  init := Starts
  step := step

end World

/-! ### What a step can do -/

/-- The steps of a task, one rule for each. -/
inductive Advances (s : Server) (env : Env) : Task → Server → Task → Prop where
  | refuse {rq : Request} {answer : Option Response} {s' : Server}
      (h : s.screen rq = (.error answer, s')) :
      Advances s env (.admitting rq) s' (.answered rq none answer)
  | screen {rq : Request} {s' : Server} (h : s.screen rq = (.ok (), s')) :
      Advances s env (.admitting rq) s' (.looking (.register rq) .readMap)
  | hit {call : Call} {h : ℕ} (hmap : s.pm.map call.id = some h) :
      Advances s env (.looking call .readMap) s (call.found h)
  | miss {call : Call} (hmap : s.pm.map call.id = none) :
      Advances s env (.looking call .readMap) s (.looking call .readDb)
  | load {call : Call} {row : Row} (hrow : s.readDb call.id env = some row) :
      Advances s env (.looking call .readDb) s (.looking call (.insertRow (s.loadPeer row)))
  | missed {call : Call} (hrow : s.readDb call.id env = none) :
      Advances s env (.looking call .readDb) s call.missed
  | insertRow {call : Call} {peer : Peer} :
      Advances s env (.looking call (.insertRow peer)) { s with pm := s.pm.insert call.id peer }
        (call.found s.pm.next)
  | meet {call : Call} {h : ℕ} (hmap : s.pm.map call.id = some h) :
      Advances s env (.looking call .insertDefault) s (call.found h)
  | insertDefault {call : Call} (hmap : s.pm.map call.id = none) :
      Advances s env (.looking call .insertDefault)
        { s with pm := s.pm.insert call.id (.default s.now) } (call.found s.pm.next)
  | mismatch {rq : Request} {h : ℕ} (hcheck : check rq (s.pm.heap h) = none) :
      Advances s env (.serving rq h .check) s (.answered rq (some h) (some .uuidMismatch))
  | check {rq : Request} {h : ℕ} {changed ipChanged : Bool}
      (hcheck : check rq (s.pm.heap h) = some (changed, ipChanged)) :
      Advances s env (.serving rq h .check) s (.serving rq h (.readRegPk changed ipChanged))
  | frequent {rq : Request} {h : ℕ} {changed ipChanged : Bool} :
      Advances s env (.serving rq h (.readRegPk changed ipChanged)) s
        (.answered rq (some h) (some .tooFrequent))
  | count {rq : Request} {h : ℕ} {changed ipChanged : Bool} {reqPk : UInt32 × Instant} :
      Advances s env (.serving rq h (.readRegPk changed ipChanged)) s
        (.serving rq h (.writeRegPk changed ipChanged reqPk))
  | counted {rq : Request} {h : ℕ} {changed ipChanged : Bool} {reqPk : UInt32 × Instant} :
      Advances s env (.serving rq h (.writeRegPk changed ipChanged reqPk))
        (s.modify h fun peer => { peer with regPk := reqPk })
        (if ipChanged then .serving rq h (.noteIp changed) else rq.noted h changed)
  | noted {rq : Request} {h : ℕ} {changed : Bool} :
      Advances s env (.serving rq h (.noteIp changed)) (s.noteIpChange rq.rk.id rq.ip)
        (rq.noted h changed)
  | writePeer {rq : Request} {h : ℕ} :
      Advances s env (.serving rq h .writePeer) (s.writePeer h rq)
        (.serving rq h (.writeDb (s.pm.heap h).guid))
  | fail {rq : Request} {h : ℕ} {guid : Bytes} :
      Advances s env (.serving rq h (.writeDb guid)) s
        (.answered rq (some h) (some (answerOf rq.path .serverError)))
  | insertDb {rq : Request} {h : ℕ} {db : Table}
      (hdb : s.db.insertPeer env.guid rq.rk.id rq.rk.uuid rq.rk.pk ⟨rq.ip⟩ = some db) :
      Advances s env (.serving rq h (.writeDb [])) { s with db := db }
        (.serving rq h (.writeGuid env.guid))
  | updateDb {rq : Request} {h : ℕ} {guid : Bytes} {db : Table} (hguid : guid ≠ [])
      (hdb : s.db.updatePk guid rq.rk.id rq.rk.pk ⟨rq.ip⟩ = some db) :
      Advances s env (.serving rq h (.writeDb guid)) { s with db := db }
        (.answered rq (some h) (some (answerOf rq.path .ok)))
  | writeGuid {rq : Request} {h : ℕ} {guid : Bytes} :
      Advances s env (.serving rq h (.writeGuid guid)) (s.writeGuid h guid)
        (.answered rq (some h) (some (answerOf rq.path .ok)))

lemma advances_look (s : Server) (call : Call) (env : Env) (at_ : Look) :
    Advances s env (.looking call at_) (at_.advance s call env).1 (at_.advance s call env).2 := by
  cases at_ with
  | readMap =>
    simp only [Look.advance]
    cases hmap : s.pm.map call.id with
    | some h => exact .hit hmap
    | none => exact .miss hmap
  | readDb =>
    simp only [Look.advance]
    cases hrow : s.readDb call.id env with
    | some row => exact .load hrow
    | none => exact .missed hrow
  | insertRow peer => exact .insertRow
  | insertDefault =>
    simp only [Look.advance, Server.insertDefault]
    cases hmap : s.pm.map call.id with
    | some h => exact .meet hmap
    | none => exact .insertDefault hmap

lemma advances_writeDb (s : Server) (rq : Request) (h : ℕ) (env : Env) (guid : Bytes) :
    Advances s env (.serving rq h (.writeDb guid)) (Serve.advance s rq h env (.writeDb guid)).1
      (Serve.advance s rq h env (.writeDb guid)).2 := by
  simp only [Serve.advance, Server.writeDb]
  by_cases hfails : env.writeFails
  · rw [if_pos hfails]
    exact .fail
  · rw [if_neg hfails]
    cases guid with
    | nil =>
      rw [if_pos List.isEmpty_nil]
      cases hdb : s.db.insertPeer env.guid rq.rk.id rq.rk.uuid rq.rk.pk ⟨rq.ip⟩ with
      | none => exact .fail
      | some db => exact .insertDb hdb
    | cons b guid =>
      rw [if_neg (by simp)]
      cases hdb : s.db.updatePk (b :: guid) rq.rk.id rq.rk.pk ⟨rq.ip⟩ with
      | none => exact .fail
      | some db => exact .updateDb (by simp) hdb

lemma advances_serve (s : Server) (rq : Request) (h : ℕ) (env : Env) (at_ : Serve) :
    Advances s env (.serving rq h at_) (at_.advance s rq h env).1 (at_.advance s rq h env).2 := by
  cases at_ with
  | check =>
    simp only [Serve.advance]
    match hcheck : check rq (s.pm.heap h) with
    | none => exact .mismatch hcheck
    | some (changed, ipChanged) => exact .check hcheck
  | readRegPk changed ipChanged =>
    simp only [Serve.advance]
    cases countRegPk s.now (s.pm.heap h).regPk with
    | none => exact .frequent
    | some reqPk => exact .count
  | writeRegPk changed ipChanged reqPk => exact .counted
  | noteIp changed => exact .noted
  | writePeer => exact .writePeer
  | writeDb guid => exact advances_writeDb s rq h env guid
  | writeGuid guid => exact .writeGuid

lemma advances_of_advance {s s' : Server} {t t' : Task} (h : t.advance s env = some (s', t')) :
    Advances s env t s' t' := by
  cases t with
  | admitting rq =>
    simp only [Task.advance] at h
    split at h
    all_goals
      next heq =>
        cases h
        first
          | exact .refuse heq
          | exact .screen heq
  | looking call at_ =>
    simp only [Task.advance, Option.some.injEq] at h
    have hadvances := advances_look s call env at_
    rwa [h] at hadvances
  | serving rq h' at_ =>
    simp only [Task.advance, Option.some.injEq] at h
    have hadvances := advances_serve s rq h' env at_
    rwa [h] at hadvances
  | returned call handle => cases h
  | answered rq handle answer => cases h

/-! ### What a step does to the map -/

lemma Call.id_found (call : Call) (h : ℕ) : (call.found h).id = call.id := by
  cases call <;> rfl

lemma Call.handle_found (call : Call) (h : ℕ) : (call.found h).handle = some h := by
  cases call <;> rfl

lemma Call.id_missed (call : Call) : call.missed.id = call.id := by
  cases call <;> rfl

lemma Call.handle_missed (call : Call) : call.missed.handle = none := by
  cases call <;> rfl

lemma Request.id_noted (rq : Request) (h : ℕ) (changed : Bool) :
    (rq.noted h changed).id = rq.rk.id := by
  cases changed <;> rfl

lemma Request.handle_noted (rq : Request) (h : ℕ) (changed : Bool) :
    (rq.noted h changed).handle = some h := by
  cases changed <;> rfl

lemma Task.handle_start (call : Call) : (Task.start call).handle = none := by
  cases call <;> rfl

/-- A step leaves the map, or finds the entry of its id, or makes one; a task keeps its handle. -/
inductive Moves (s : Server) (t : Task) (s' : Server) (t' : Task) : Prop where
  | keeps (hmap : s'.pm.map = s.pm.map) (hnext : s'.pm.next = s.pm.next)
      (hhandle : t'.handle = t.handle)
  | finds {h : ℕ} (hpm : s'.pm = s.pm) (hmap : s.pm.map t.id = some h)
      (hnone : t.handle = none) (hhandle : t'.handle = some h)
  | inserts {peer : Peer} (hpm : s'.pm = s.pm.insert t.id peer)
      (hnone : t.handle = none) (hhandle : t'.handle = some s.pm.next)
      (hfree : s.pm.map t.id = none ∨ ∃ call, t = .looking call (.insertRow peer))

lemma Advances.moves {s s' : Server} {t t' : Task} (h : Advances s env t s' t') :
    Moves s t s' t' := by
  cases h with
  | @refuse rq _ _ h | @screen rq _ h =>
    have hsame := s.same_screen rq
    rw [h] at hsame
    exact .keeps (congrArg PeerMap.map hsame.pm) (congrArg PeerMap.next hsame.pm) rfl
  | @hit call h hmap | @meet call h hmap => exact .finds rfl hmap rfl (call.handle_found h)
  | @missed call _ => exact .keeps rfl rfl call.handle_missed
  | @insertRow call _ => exact .inserts rfl rfl (call.handle_found _) (.inr ⟨call, rfl⟩)
  | @insertDefault call hmap => exact .inserts rfl rfl (call.handle_found _) (.inl hmap)
  | @counted rq h changed ipChanged _ =>
    cases ipChanged
    · exact .keeps rfl rfl (rq.handle_noted h changed)
    · exact .keeps rfl rfl rfl
  | @noted rq h changed => exact .keeps rfl rfl (rq.handle_noted h changed)
  | miss | load | mismatch | check | frequent | count | writePeer | fail | insertDb | updateDb
  | writeGuid => exact .keeps rfl rfl rfl

lemma Advances.id_eq {s s' : Server} {t t' : Task} (h : Advances s env t s' t') : t'.id = t.id := by
  cases h with
  | @hit call h | @meet call h => exact call.id_found h
  | @missed call => exact call.id_missed
  | @insertRow call | @insertDefault call => exact call.id_found _
  | @counted rq h changed ipChanged =>
    cases ipChanged
    · exact rq.id_noted h changed
    · rfl
  | @noted rq h changed => exact rq.id_noted h changed
  | refuse | screen | miss | load | mismatch | check | frequent | count | writePeer | fail
  | insertDb | updateDb | writeGuid => rfl

namespace World

/-- What an action does to a world. -/
inductive Steps (w : World) : Act → World → Prop where
  | call (call : Call) : Steps w (.call call) { w with tasks := w.tasks ++ [.start call] }
  | step {k : ℕ} {env : Env} {t t' : Task} {s' : Server} (ht : w.tasks[k]? = some t)
      (hadvances : Advances w.server env t s' t') :
      Steps w (.step k env) ({ w with server := s' }.setTask k t')
  | tick (d : ℕ) :
      Steps w (.tick d) { w with server := { w.server with now := w.server.now + d } }

lemma steps_of_step {w : World} (h : w.step act = some w') : w.Steps act w' := by
  cases act with
  | call call =>
    cases h
    exact .call call
  | step k env =>
    simp only [step, Option.bind_eq_bind, Option.bind_eq_some_iff, Option.pure_def] at h
    obtain ⟨t, ht, ⟨s', t'⟩, hadvance, heq⟩ := h
    cases heq
    exact .step ht (advances_of_advance hadvance)
  | tick d =>
    cases h
    exact .tick d

/-! ### One handle for each id -/

/-- Every handle that a look-up has returned is the one in the map. -/
def Shared (w : World) : Prop :=
  ∀ (k : ℕ) (t : Task) (h : ℕ), w.tasks[k]? = some t → t.handle = some h →
    w.server.pm.map t.id = some h

/-- A `get` that found a row puts its peer into the map only while the map has none. -/
def unraced (w : World) : Act → Bool
  | .step k _ =>
    match w.tasks[k]? with
    | some (.looking call (.insertRow _)) => (w.server.pm.map call.id).isNone
    | _ => true
  | _ => true

/-- The handles that are out, and those in the map, which some task returned. -/
structure Handles (w : World) : Prop where
  given : ∀ (k : ℕ) (t : Task) (h : ℕ), w.tasks[k]? = some t → t.handle = some h →
    h < w.server.pm.next
  held : ∀ id h, w.server.pm.map id = some h → ∃ (k : ℕ) (t : Task), w.tasks[k]? = some t ∧
    t.id = id ∧ t.handle = some h

lemma Starts.handles {w : World} (h : w.Starts) : w.Handles where
  given k t h' ht := by rw [h.2] at ht; cases ht
  held id h' hmap := by rw [h.1] at hmap; cases hmap

variable {w w' : World} {act : Act}

lemma handle_kept (hstep : w.step act = some w') {k : ℕ} {t : Task} {h : ℕ}
    (ht : w.tasks[k]? = some t) (hhandle : t.handle = some h) :
    ∃ t', w'.tasks[k]? = some t' ∧ t'.id = t.id ∧ t'.handle = some h := by
  cases steps_of_step hstep with
  | tick d => exact ⟨t, ht, rfl, hhandle⟩
  | call call => exact ⟨t, Slots.get_concat ht _, rfl, hhandle⟩
  | @step k' env t₁ t₂ s' ht₁ hadvances =>
    by_cases hk : k = k'
    · subst hk
      obtain rfl := Option.some.inj (ht.symm.trans ht₁)
      refine ⟨t₂, Slots.get_set_self ht₁ _, ?_⟩
      cases hadvances.moves with
      | keeps _ _ hkeep => exact ⟨hadvances.id_eq, hkeep.trans hhandle⟩
      | finds _ _ hnone | inserts _ hnone =>
        rw [hnone] at hhandle
        cases hhandle
    · exact ⟨t, (Slots.get_set_of_ne hk _).trans ht, rfl, hhandle⟩

/-- A handle a task has was there before, or is the one in the map now. -/
lemma handle_cases (hstep : w.step act = some w') {k : ℕ} {t' : Task} {h : ℕ}
    (ht' : w'.tasks[k]? = some t') (hhandle : t'.handle = some h) :
    (∃ t, w.tasks[k]? = some t ∧ t.id = t'.id ∧ t.handle = some h) ∨
      w'.server.pm.map t'.id = some h := by
  cases steps_of_step hstep with
  | tick d => exact .inl ⟨t', ht', rfl, hhandle⟩
  | call call =>
    rcases Slots.concat_cases ht' with rfl | ht
    · rw [Task.handle_start] at hhandle
      cases hhandle
    · exact .inl ⟨t', ht, rfl, hhandle⟩
  | @step k' env t₁ t₂ s' ht₁ hadvances =>
    rcases Slots.set_cases ht' with ⟨rfl, rfl⟩ | ⟨-, ht⟩
    · cases hadvances.moves with
      | keeps _ _ hkeep =>
        exact .inl ⟨t₁, ht₁, hadvances.id_eq.symm, hkeep.symm.trans hhandle⟩
      | finds hpm hmap _ hfound =>
        obtain rfl := Option.some.inj (hfound.symm.trans hhandle)
        right
        rw [hadvances.id_eq]
        exact hpm ▸ hmap
      | inserts hpm _ hfound =>
        obtain rfl := Option.some.inj (hfound.symm.trans hhandle)
        right
        rw [hadvances.id_eq]
        exact hpm ▸ PeerMap.map_insert_self ..
    · exact .inl ⟨t', ht, rfl, hhandle⟩

/-- What a step does to the map. -/
inductive Maps (w : World) (act : Act) (w' : World) : Prop where
  | keeps (hmap : w'.server.pm.map = w.server.pm.map) (hnext : w'.server.pm.next = w.server.pm.next)
  | inserts {k : ℕ} {env : Env} {t t' : Task} {peer : Peer} (hact : act = .step k env)
      (ht : w.tasks[k]? = some t) (hpm : w'.server.pm = w.server.pm.insert t.id peer)
      (ht' : w'.tasks[k]? = some t') (hid : t'.id = t.id)
      (hhandle : t'.handle = some w.server.pm.next)
      (hfree : w.server.pm.map t.id = none ∨ ∃ call, t = .looking call (.insertRow peer))

section

variable (hstep : w.step act = some w')

include hstep

lemma maps_of_step : w.Maps act w' := by
  cases steps_of_step hstep with
  | tick d => exact .keeps rfl rfl
  | call call => exact .keeps rfl rfl
  | step ht hadvances =>
    cases hadvances.moves with
    | keeps hmap hnext => exact .keeps hmap hnext
    | finds hpm => exact .keeps (congrArg PeerMap.map hpm) (congrArg PeerMap.next hpm)
    | inserts hpm hnone hhandle hfree =>
      exact .inserts rfl ht hpm (Slots.get_set_self ht _)
        hadvances.id_eq hhandle hfree

lemma Handles.step (h : w.Handles) : w'.Handles := by
  constructor
  · intro k t' h' ht' hhandle
    rcases handle_cases hstep ht' hhandle with ⟨t, ht, hid, hold⟩ | hmap
    · have hlt := h.given k t h' ht hold
      cases maps_of_step hstep with
      | keeps _ hnext => rwa [hnext]
      | inserts _ _ hpm =>
        rw [hpm]
        exact Nat.lt_succ_of_lt hlt
    · exact w'.server.pm.allocated hmap
  · intro id h' hmap
    have hold : w.server.pm.map id = some h' → ∃ (k : ℕ) (t : Task), w'.tasks[k]? = some t ∧
        t.id = id ∧ t.handle = some h' := by
      intro hmap
      obtain ⟨k, t, ht, hid, hhandle⟩ := h.held id h' hmap
      obtain ⟨t', ht', hid', hhandle'⟩ := handle_kept hstep ht hhandle
      exact ⟨k, t', ht', hid'.trans hid, hhandle'⟩
    cases maps_of_step hstep with
    | keeps hkeep => exact hold (hkeep ▸ hmap)
    | @inserts k env t t' peer hact ht hpm ht' hid hhandle =>
      rw [hpm] at hmap
      by_cases hsame : id = t.id
      · subst hsame
        rw [PeerMap.map_insert_self] at hmap
        exact ⟨k, t', ht', hid, hhandle.trans hmap⟩
      · rw [PeerMap.map_insert_of_ne _ hsame] at hmap
        exact hold hmap

/-- A step that finds the map free, or leaves it, keeps every handle good. -/
lemma Shared.step (h : w.Shared) (hok : w.unraced act) : w'.Shared := by
  intro k t' h' ht' hhandle
  rcases handle_cases hstep ht' hhandle with ⟨t, ht, hid, hold⟩ | hmap
  · have hmap := h k t h' ht hold
    rw [hid] at hmap
    cases maps_of_step hstep with
    | keeps hkeep => rwa [hkeep]
    | @inserts k₁ env t₁ t₂ peer hact ht₁ hpm _ _ _ hfree =>
      have hnone : w.server.pm.map t₁.id = none := by
        rcases hfree with hfree | ⟨call, rfl⟩
        · exact hfree
        · subst hact
          simpa [unraced, ht₁, Task.id] using hok
      have hne : t'.id ≠ t₁.id := by
        intro heq
        rw [heq, hnone] at hmap
        cases hmap
      rw [hpm, PeerMap.map_insert_of_ne _ hne]
      exact hmap
  · exact hmap

/-- A handle that is not the one in the map will not be it again. -/
lemma not_shared_step (hw : w.Handles) (h : ¬w.Shared) : ¬w'.Shared := by
  intro hshared
  apply h
  intro k t h' ht hhandle
  obtain ⟨t', ht', hid, hhandle'⟩ := handle_kept hstep ht hhandle
  have hmap := hshared k t' h' ht' hhandle'
  rw [hid] at hmap
  cases maps_of_step hstep with
  | keeps hkeep => rwa [hkeep] at hmap
  | @inserts _ _ t₁ _ _ _ _ hpm =>
    rw [hpm] at hmap
    by_cases hsame : t.id = t₁.id
    · rw [hsame, PeerMap.map_insert_self] at hmap
      exact absurd (Option.some.inj hmap) (hw.given k t h' ht hhandle).ne'
    · rwa [PeerMap.map_insert_of_ne _ hsame] at hmap

/-- A second entry for an id leaves the holder of the first behind. -/
lemma not_shared_of_raced (hw : w.Handles) (hok : ¬w.unraced act) : ¬w'.Shared := by
  intro hshared
  cases steps_of_step hstep with
  | tick d => exact hok rfl
  | call call => exact hok rfl
  | @step k env t t' s' ht hadvances =>
    simp only [unraced, ht] at hok
    split at hok
    · next call peer heq =>
      cases heq
      obtain ⟨h', hmap⟩ : ∃ h', w.server.pm.map call.id = some h' :=
        Option.ne_none_iff_exists'.mp (by simpa using hok)
      obtain ⟨k₁, t₁, ht₁, hid, hhandle⟩ := hw.held _ _ hmap
      obtain ⟨t₂, ht₂, hid', hhandle'⟩ := handle_kept hstep ht₁ hhandle
      have hnew := hshared k₁ t₂ h' ht₂ hhandle'
      cases hadvances
      rw [hid', hid] at hnew
      have heq := (PeerMap.map_insert_self w.server.pm call.id peer).symm.trans hnew
      exact absurd (Option.some.inj heq).symm (w.server.pm.allocated hmap).ne
    · exact hok rfl

end

/-- **One peer for each id.** After any interleaving of look-ups and registrations from a fresh
start, every handle returned is the one in the map exactly if no `get` that found a row in the
database came to put its peer into the map after another entry for the id. -/
theorem shared_iff {w w' : World} {acts : List Act} (hw : w.Starts)
    (h : lts.run w acts = some w') :
    w'.Shared ↔ (lts.restrict unraced).run w acts = some w' := by
  apply LTS.run_restrict_iff (I := Handles) _ _ _ _ h hw.handles
  · intro k t h' ht
    rw [hw.2] at ht
    cases ht
  · exact fun _ _ _ hw hstep => hw.step hstep
  · exact fun _ _ _ _ hshared hok hstep => hshared.step hstep hok
  · exact fun _ _ _ hw hok hstep => not_shared_of_raced hstep hw hok
  · exact fun _ _ _ hw hshared hstep => not_shared_step hstep hw hshared

/-- A server that has just started, over a table with one peer. -/
def restarted : World where
  server := { Server.fresh with db := ⟨[⟨[9], "123456789", [1], [2], none⟩], by simp, by simp⟩ }
  tasks := []

def calm : Env := ⟨false, false, List.replicate 16 0, rfl⟩

theorem shared_iff_one_after_the_other : ∃ w acts w', Starts w ∧ lts.run w acts = some w' ∧
    w'.server.pm.map "123456789" = some 0 ∧ w'.Shared := by
  refine ⟨restarted, [.call (.get "123456789"), .step 0 calm, .step 0 calm, .step 0 calm,
    .call (.getOr "123456789"), .step 1 calm], ?_⟩
  have hstart : restarted.Starts := ⟨rfl, rfl⟩
  simp only [exists_and_left]
  exact ⟨hstart, LTS.exists_run_iff unraced (by decide) fun _ => shared_iff hstart⟩

/-- Two look-ups of a peer that is in the database but not in memory: each makes a peer of its own,
and the first is left with one that nobody else finds. -/
theorem get_twice_unshared : ∃ w acts w', Starts w ∧ lts.run w acts = some w' ∧ ¬w'.Shared := by
  have hrun : ∃ w' ∈ lts.run restarted
      [.call (.get "123456789"), .call (.get "123456789"), .step 0 calm, .step 1 calm,
        .step 0 calm, .step 1 calm, .step 0 calm, .step 1 calm],
      w'.tasks[0]? = some (.returned (.get "123456789") (some 0)) ∧
        w'.server.pm.map "123456789" = some 1 := by decide
  obtain ⟨w', hw', htask, hmap⟩ := hrun
  refine ⟨restarted, _, w', ⟨rfl, rfl⟩, hw', fun hshared => ?_⟩
  have heq := hmap.symm.trans (hshared 0 _ 0 htask rfl)
  cases heq

end World

end RustDesk.Rendezvous
