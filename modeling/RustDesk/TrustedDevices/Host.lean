import RustDesk.Lib.Program
import RustDesk.Lib.Transition
import RustDesk.TrustedDevices.Snapshot

/-!
# The host of trusted devices

The grants are kept in the file of `Config2`, beside the devices that an earlier version trusted
until they are imported. An operation reads the grants, and writes them back after each change;
it holds a lock, so that operations come one after the other. The settings are in memory and in two
files. Any write may fail, which is reported for the grants and only logged for the settings, and
the host may crash at any write.

What an operation takes from outside is handed to it: what becomes of its writes, the random values
and the times it reads. What has happened is kept aside: how often the trust was revoked, by `clear`
or by a change of the settings in force (the epoch), the tokens that were made, the random values,
the ids that were listed and the credentials and attempts that were accepted.
-/

namespace RustDesk.TrustedDevices

open Settings

variable {D R α : Type}

/-! ### State -/

/-- What becomes of a write. -/
inductive Fate where
  | done
  | fails
  | crash
  deriving DecidableEq

/-- What an operation takes from outside. -/
structure Env (D : Type) where
  fates : List Fate := []
  /-- The random values, while there are any. -/
  coins : List D := []
  /-- What the clock shows the next times it is read. -/
  clock : ℕ → ℤ := fun _ => 0
  nonce : Nonce
  draws : ℕ → ℕ := fun i => i

structure Disk (D R : Type) where
  config : Config R
  options : AuthOptions R
  /-- `trusted_devices_v2` -/
  grants : Option (Grants D) := none
  /-- `trusted_devices`, if it is not empty: the devices, or why they cannot be read. -/
  legacy : Option (ResultType (List LegacyDevice)) := none

inductive Credential (D : Type) where
  | token (verifier : D)
  | legacy (verifier : D)
  deriving DecidableEq

structure Attempt (D : Type) where
  ticket : Ticket D
  credential : Option (Credential D)
  enroll : Bool
  /-- The epoch it was begun in. -/
  begun : ℕ
  deriving DecidableEq

/-- A token that was made: the group of its record, and the epoch. -/
structure Issued (D : Type) where
  verifier : D
  group : D
  epoch : ℕ
  deriving DecidableEq

/-- A login was begun with a credential, an attempt passed its check or was given a token. -/
structure Acceptance (D : Type) where
  credential : Option (Credential D)
  begun : ℕ
  epoch : ℕ
  deriving DecidableEq

structure Host (D R : Type) where
  config : Config R
  options : AuthOptions R
  disk : Disk D R
  attempts : List (Attempt D) := []
  /-- The host has crashed. -/
  down : Bool := false
  env : Env D
  epoch : ℕ := 0
  /-- The password was stored as another one while devices of the earlier version were waiting. -/
  drifted : Bool := false
  /-- The password was stored as the one that the grants are under while that was not in force. -/
  returned : Bool := false
  enrolled : List (Issued D) := []
  used : List D := []
  listed : List D := []
  accepted : List (Acceptance D) := []

namespace Host

variable (setup : Setup D) (s : Host D R)

def inMemory : Snapshot :=
  build setup.libs setup.preset s.config (s.options.effective setup.layers) false

def onDisk : Snapshot :=
  build setup.libs setup.preset s.disk.config (s.disk.options.effective setup.layers) true

def machine : Machine R := ⟨s.config, s.disk.config⟩

/-- Settings in memory are changed; if others are in force then, that is a new epoch. -/
def setMemory (config : Config R) (options : AuthOptions R) : Host D R :=
  let s' := { s with config := config, options := options }
  { s' with
    epoch := if (s'.inMemory setup).effective = (s.inMemory setup).effective then s.epoch
      else s.epoch + 1 }

def setDiskConfig [DecidableEq D] (file : Config R) : Host D R :=
  let s' := { s with disk := { s.disk with config := file } }
  { s' with
    drifted := s.drifted || (s.disk.legacy.isSome &&
      normalize setup.libs setup.preset file true ≠
        normalize setup.libs setup.preset s.config false)
    returned := s.returned || s.disk.grants.any fun g =>
      g.scope = some (setup.scope (s'.onDisk setup).effective) &&
        g.scope ≠ some (setup.scope (s.inMemory setup).effective) }

def setGrants (g : Grants D) : Host D R :=
  { s with disk := { s.disk with grants := some g, legacy := none } }

/-- After a write. -/
def nextFate : Host D R := { s with env := { s.env with fates := s.env.fates.tail } }

/-- After the clock was read so many times. -/
def tick (n : ℕ) : Host D R :=
  { s with env := { s.env with clock := fun i => s.env.clock (n + i) } }

/-- After a random value was drawn. -/
def draw (coin : D) (coins : List D) : Host D R :=
  { s with env := { s.env with coins := coins }, used := coin :: s.used }

end Host

/-! ### What operations are made of -/

inductive Failure where
  | crash
  | unavailable (error : String)
  | error (error : String)
  deriving DecidableEq

/-- `map_err(authority::Unavailable)` -/
def Failure.toUnavailable : Failure → Failure
  | .error e => .unavailable e
  | failure => failure

abbrev Op (D R α : Type) := Prog Failure (Host D R) α

def takeFate : Op D R Fate := fun s => .ok (s.env.fates.headD .done) s.nextFate

/-- `get_time` -/
def getTime : Op D R ℤ := fun s => .ok (s.env.clock 0) (s.tick 1)

/-- The clock is read for each of so many records. -/
def getTimes (n : ℕ) : Op D R (List ℤ) := fun s => .ok ((List.range n).map s.env.clock) (s.tick n)

def randomToken : Op D R D := fun s =>
  match s.env.coins with
  | [] => .error (.error "Could not initialize secure random generation") s
  | coin :: coins => .ok coin (s.draw coin coins)

def ofResult (r : ResultType α) : Op D R α := Prog.ofExcept .error r

/-- A write, and what is done if it fails. -/
def write (f : Host D R → Host D R) (fails : Op D R Unit) : Op D R Unit := do
  match ← takeFate with
  | .done => modify f
  | .fails => fails
  | .crash => throw .crash

/-- `GrantsStorage::write`; the devices of the earlier version go with it. -/
def writeGrants (g : Grants D) : Op D R Unit :=
  write (·.setGrants g) (throw (.error "Failed to store config2"))

/-- `GrantsStorage::exists` -/
def grantsExist : Op D R Bool := do
  let s ← get
  return s.disk.grants.isSome || s.disk.legacy.isSome

section

variable [DecidableEq D] (setup : Setup D)

/-- `Config::store`; a failure is logged. -/
def storeConfig (file : Config R) : Op D R Unit := write (·.setDiskConfig setup file) (pure ())

/-- `Config2::store`; the grants in the file stay. -/
def storeOptions : Op D R Unit :=
  write (fun s => { s with disk := { s.disk with options := s.options } }) (pure ())

/-- `config::snapshot` -/
def snapshot : Op D R Snapshot := do
  let s ← get
  let current := s.inMemory setup
  let stored := s.onDisk setup
  Prog.check
    (setup.scope current.effective = setup.scope stored.effective &&
      current.validityDays = stored.validityDays)
    (.error ("Trusted-device authentication settings are out of sync; " ++
      "reconnect after configuration sync"))
  return current

/-! ### Grants -/

/-- `Grants::default()` -/
def noGrants : Grants D := { generation := setup.zero }

/-- `Grants::revoke` -/
def revoke (g : Grants D) (scope : Option D) : Op D R (Grants D) := do
  return g.revoke (← randomToken) scope

/-- The devices are imported into grants under the settings in force. -/
def importInto (g : Grants D) (legacy : ResultType (List LegacyDevice)) (settings : Snapshot) :
    Op D R (Grants D) := do
  let scope := setup.scope settings.effective
  -- a previous revocation takes precedence over a remaining copy
  if !g.matchesScope scope then return g
  let devices ← ofResult legacy
  let now ← getTime
  return g.importDevices setup.sha devices none scope settings.validityDays now

/-- `legacy::import` -/
def importLegacy (g : Grants D) (legacy : ResultType (List LegacyDevice)) (firstStore : Bool) :
    Op D R (Grants D) := do
  let settings ← snapshot setup
  if firstStore then
    importInto setup (← revoke g (some (setup.scope settings.effective))) legacy settings
  else
    importInto setup g legacy settings

/-- `GrantsStorage::read` -/
def readGrants : Op D R (Grants D) := do
  let s ← get
  let g := s.disk.grants.getD (noGrants setup)
  match s.disk.legacy with
  | none => return g
  | some legacy =>
    let g ← importLegacy setup g legacy s.disk.grants.isNone
    writeGrants g
    return g

/-- The records are cleaned, and written if that has changed them. -/
def cleanGrants (g : Grants D) : Op D R (Grants D) := do
  let now ← getTime
  Prog.whenever (g.cleanup now).2 (writeGrants (g.cleanup now).1)
  return (g.cleanup now).1

/-- `load_grants` -/
def loadGrants (scope : D) : Op D R (Grants D) := do
  let g ← Prog.mapFailure .toUnavailable (readGrants setup)
  if !(← grantsExist) then
    let g ← revoke g (some scope)
    Prog.mapFailure .toUnavailable (writeGrants g)
    Prog.mapFailure .toUnavailable (cleanGrants g)
  else
    Prog.check (g.matchesScope scope)
      (.unavailable "Trusted-device grants are out of sync; restart the host to synchronize")
    Prog.mapFailure .toUnavailable (cleanGrants g)

/-! ### Logins -/

/-- `authority::authorize` -/
def authorize (scope : D) (apply : Grants D → ℕ → Op D R (α × Grants D × Bool)) : Op D R α := do
  let settings ← snapshot setup
  Prog.check (settings.effective.enabled && settings.effective.totp ≠ "")
    (.error "Trusted devices require two-factor authentication to be enabled")
  Prog.check (scope = setup.scope settings.effective)
    (.error "Trusted-device authentication settings changed; reconnect and authenticate again")
  let g ← loadGrants setup scope
  let r ← apply g settings.validityDays
  Prog.whenever r.2.2 (Prog.mapFailure .toUnavailable (writeGrants r.2.1))
  return r.1

/-- The credential a login is begun with, and the grants after it. -/
def findCredential (g : Grants D) (ticket : Ticket D) (verifier legacy : Option D) :
    Op D R (Option (Credential D) × Grants D × Bool) := do
  let now ← getTime
  if ← ofResult (g.verifyDigest ticket verifier now) then
    let confirmed := verifier.elim (g, false) g.confirmMigration
    return (verifier.map .token, confirmed)
  else
    let times ← getTimes g.records.length
    if ← ofResult (g.verifyLegacy ticket legacy times) then
      return (legacy.map .legacy, g, false)
    else
      return (none, g, false)

/-- `authority::begin` -/
def authorityBegin (scope : D) (verifier legacy : Option D) :
    Op D R (Ticket D × Option (Credential D)) :=
  authorize setup scope fun g _ => do
    let ticket ← ofResult (g.begin scope)
    let found ← findCredential g ticket verifier legacy
    return ((ticket, found.1), found.2)

structure LoginProof (D : Type) where
  password : Bytes
  challenge : Bytes
  salt : Bytes
  /-- The token, if it is as long as one. -/
  token : Option D := none
  legacy : Option D := none
  supportsV2 : Bool := false

/-- `Snapshot::verify_password` -/
def verifyPassword (settings : Snapshot) (proof : LoginProof D) : ResultType Unit :=
  match settings.effective.h1 with
  | none => .error "Permanent password is unavailable for trusted devices"
  | some h1 =>
    if settings.effective.salt = proof.salt &&
        setup.libs.sha256 (h1 ++ proof.challenge) = proof.password then .ok ()
    else .error "Trusted-device password configuration changed; reconnect and authenticate again"

def accept (credential : Option (Credential D)) (begun : ℕ) : Op D R Unit :=
  modify fun s => { s with accepted := s.accepted ++ [⟨credential, begun, s.epoch⟩] }

/-- A login has got its ticket: with a credential it is accepted, and the attempt is kept for that
or if a token can be given later. -/
def startAttempt (supportsV2 : Bool) (ticket : Ticket D) (credential : Option (Credential D)) :
    Op D R Unit := do
  let s ← get
  Prog.whenever credential.isSome (accept credential s.epoch)
  let enroll := supportsV2 && credential.any fun c => c matches .legacy _
  Prog.whenever (credential.isSome || supportsV2)
    (modify fun s => { s with attempts := s.attempts ++ [⟨ticket, credential, enroll, s.epoch⟩] })

/-- `host::begin` -/
def hostBegin (proof : LoginProof D) : Op D R Unit := do
  let settings ← snapshot setup
  if !settings.effective.enabled || settings.effective.totp = "" then return
  ofResult (verifyPassword setup settings proof)
  Prog.check (setup.totpInfo settings.effective.totp)
    (.error "decrypt_vec_or_original 2fa secret failed")
  -- without the grants a login goes on with the password and the second factor
  let begun ← Prog.recover
    (do return some (← authorityBegin setup (setup.scope settings.effective)
      (proof.token.map setup.sha.hash) proof.legacy))
    fun failure => if failure matches .unavailable _ then some none else none
  match begun with
  | none => return
  | some (ticket, credential) => startAttempt proof.supportsV2 ticket credential

/-- The credential of an attempt is still good. -/
def checkCredential (g : Grants D) (a : Attempt D) : Op D R Bool := do
  match a.credential with
  | some (.legacy verifier) =>
    let times ← getTimes g.records.length
    return (← ofResult (g.migrationSource a.ticket verifier times)).isSome
  | some (.token verifier) =>
    ofResult (g.verifyDigest a.ticket (some verifier) (← getTime))
  | none => ofResult (g.verifyDigest a.ticket none (← getTime))

/-- `Attempt::check` -/
def attemptCheck (a : Attempt D) : Op D R Unit := do
  authorize setup a.ticket.scope fun g _ => do
    let valid ← checkCredential g a
    Prog.check (!a.credential.isSome || valid)
      (.error "Trusted-device credential expired or was revoked; reconnect and authenticate again")
    return ((), g, false)
  accept a.credential a.begun

/-- The grants with a record for a token that was made. -/
def issue (g : Grants D) (a : Attempt D) (verifier : D) (info : DeviceInfo) (days : ℕ) :
    Op D R (Grants D) := do
  match a.credential with
  | some (.legacy legacy) =>
    let times ← getTimes g.records.length
    let now ← getTime
    ofResult (g.migrate a.ticket legacy verifier times now)
  | _ =>
    let time ← getTime
    ofResult (g.enrollDigest a.ticket verifier
      { info with time := time, expiresAt := some (expiresAt time days) })

/-- The group that a token of an attempt belongs to. -/
def Attempt.group (a : Attempt D) (verifier : D) : D :=
  match a.credential with
  | some (.legacy legacy) => legacy
  | _ => verifier

/-- `Attempt::finish` -/
def attemptFinish (a : Attempt D) (info : DeviceInfo) : Op D R (Option D) := do
  if !a.enroll then return none
  let token ← authorize setup a.ticket.scope fun g days => do
    let token ← randomToken
    let verifier := setup.sha.hash token
    let g ← issue g a verifier info days
    modify fun s => { s with enrolled := s.enrolled ++ [⟨verifier, a.group verifier, s.epoch⟩] }
    return (token, g, true)
  accept a.credential a.begun
  return some token

/-! ### Settings -/

/-- `config::change`: the trust is revoked before the settings change, and belongs to the new ones
once they are in force and in the files. -/
def change (affected : Bool) (apply : Op D R α) : Op D R α := do
  if !affected then apply
  else if !(← grantsExist) then apply
  else
    let g ← revoke (noGrants setup) none
    writeGrants g
    let result ← apply
    let settings ← snapshot setup
    let g ← revoke g (some (setup.scope settings.effective))
    writeGrants g
    return result

/-- `policy::change_options`, with the options that are to be in force -/
def changeOptions (options : Options) (apply : Op D R α) : Op D R α := do
  let s ← get
  let old := s.options.effective setup.layers
  if authenticationChanged old options then change setup true apply
  else if days old = days options then apply
  else if !(← grantsExist) then apply
  else
    let now ← getTime
    let settings ← snapshot setup
    let g ← readGrants setup
    if !g.matchesScope (setup.scope settings.effective) then apply
    else
      writeGrants (g.updateExpiration (days options) now).1
      apply

/-- Settings in memory are changed, and the file is stored if the setter does that. -/
def applyConfig (m : Machine R) (stored : Bool) : Op D R Unit := do
  modify fun s => s.setMemory setup m.mem s.options
  Prog.whenever stored (storeConfig setup m.file)

def applyOptions (options : AuthOptions R) : Op D R Unit := do
  modify fun s => s.setMemory setup s.config options
  storeOptions

/-- `Config::set_permanent_password` -/
def configSetPermanentPassword (value : Bytes) : Op D R Bool := do
  let s ← get
  let r := s.machine.setPermanentPassword setup.libs setup.preset s.env.draws s.env.nonce value
  applyConfig setup r.1 (r.2 = .stored)
  return r.2 ≠ .disabled && r.2 ≠ .failed

variable [DecidableEq R]

/-- `Config::set_salt` -/
def configSetSalt (salt : Bytes) : Op D R Unit := do
  let s ← get
  let m := s.machine.setSalt setup.libs salt s.env.nonce true
  applyConfig setup m (m.mem ≠ s.config)

/-- `Config::set` -/
def configSet (value : Config R) : Op D R Bool := do
  let s ← get
  if s.config = value then return false
  applyConfig setup ({ s.machine with mem := value }.store setup.libs s.env.nonce true) true
  return true

/-- `Config::set_options` -/
def configSetOptions (options : AuthOptions R) : Op D R Unit := do
  let s ← get
  if s.options = options.purify setup.layers then return
  applyOptions setup (options.purify setup.layers)

/-- `Config2::set` -/
def config2Set (value : AuthOptions R) : Op D R Bool := do
  let s ← get
  if s.options = value then return false
  applyOptions setup value
  return true

/-- `config::changes_password` -/
def changesPassword (c : Config R) (value : Bytes) : Bool :=
  if setup.preset.disableChange then false
  else if c.password ≠ [] then true
  else if value = [] then false
  else
    let p := normalizeInMemory setup.libs setup.preset c.password c.salt
    p.1.all fun h1 => h1 ≠ computeH1 setup.libs value p.2

/-- `config::set_password` -/
def setPassword (value : Bytes) : Op D R Bool := do
  let s ← get
  change setup (changesPassword setup s.config value) (configSetPermanentPassword setup value)

/-- `config::set_salt` -/
def setSalt (salt : Bytes) : Op D R Unit := do
  let s ← get
  change setup (s.config.salt ≠ salt) (configSetSalt setup salt)

/-- `config::set_options` -/
def setOptions (options : AuthOptions R) : Op D R Unit :=
  changeOptions setup (options.effective setup.layers) (configSetOptions setup options)

/-- `config::set_config` -/
def setConfig (value : Config R) : Op D R Bool := do
  let s ← get
  change setup
    (normalize setup.libs setup.preset s.config false ≠
      normalize setup.libs setup.preset value false)
    (configSet setup value)

/-- `config::set_config2` -/
def setConfig2 (value : AuthOptions R) : Op D R Bool :=
  changeOptions setup (value.effective setup.layers) (config2Set setup value)

/-! ### Management -/

/-- `clear`; it begins a new epoch. -/
def clear : Op D R Unit := do
  if ← grantsExist then
    -- grants are revoked without a scope if the settings cannot be read
    let scope ← Prog.recover (do return some (setup.scope (← snapshot setup).effective))
      fun _ => some none
    let g ← revoke (noGrants setup) scope
    writeGrants g
  modify fun s => { s with epoch := s.epoch + 1 }

/-- Expiries follow the validity period; the grants are written if that or something else has
changed them. -/
def updateGrants (g : Grants D) (days : ℕ) (changed : Bool) : Op D R Unit := do
  let now ← getTime
  Prog.whenever ((g.updateExpiration days now).2 || changed)
    (writeGrants (g.updateExpiration days now).1)

/-- `initialize` -/
def initializeGrants : Op D R Unit := do
  if ← grantsExist then
    let g ← readGrants setup
    let current ← snapshot setup
    let scope := setup.scope current.effective
    if g.matchesScope scope then updateGrants g current.validityDays false
    else updateGrants (← revoke g (some scope)) current.validityDays true

/-- The host starts: what is in the files is in force, attempts are gone. The file of the password
is stored again with a new id. -/
def restart (rest : R) (newId : Bool) : Op D R Unit := do
  modify fun s =>
    { s with down := false, attempts := [] }.setMemory setup
      { Config.load setup.libs s.disk.config with rest := rest } s.disk.options
  let s ← get
  Prog.whenever newId (storeConfig setup (s.config.stored setup.libs s.env.nonce s.disk.config))
  Prog.recover (initializeGrants setup) fun failure => if failure = .crash then none else some ()

/-- `management::devices`: the ids of the records that are current. -/
def devices : Op D R (List D) := do
  if !(← grantsExist) then return []
  let current ← snapshot setup
  let g ← loadGrants setup (setup.scope current.effective)
  let now ← getTime
  let ids := ((g.records.filter (·.current now)).map (·.id setup.sha)).eraseDups
  modify fun s => { s with listed := s.listed ++ ids }
  return ids

/-- `management::remove` -/
def remove (recordIds : List D) : Op D R Unit := do
  let g ← readGrants setup
  let g' := g.remove setup.sha recordIds
  Prog.whenever (g'.records.length ≠ g.records.length) (writeGrants g')

/-- `management::renew` -/
def renew (recordIds : List D) : Op D R Unit := do
  Prog.check (!recordIds.isEmpty) (.error "Select at least one trusted device")
  let settings ← snapshot setup
  Prog.check (settings.effective.enabled && settings.effective.totp ≠ "")
    (.error "Trusted devices require two-factor authentication to be enabled")
  Prog.check (settings.validityDays ≠ neverExpire)
    (.error "Trusted devices are configured to never expire")
  let g ← loadGrants setup (setup.scope settings.effective)
  let now ← getTime
  let g ← ofResult (g.renew setup.sha recordIds settings.validityDays now)
  writeGrants g

end

/-! ### Runs -/

inductive Act (D R : Type) where
  | login (proof : LoginProof D)
  | trust (i : ℕ) (enroll : Bool)
  | check (i : ℕ)
  | finish (i : ℕ) (info : DeviceInfo)
  | setPassword (value : Bytes)
  | setSalt (salt : Bytes)
  | setOptions (options : AuthOptions R)
  | setConfig (value : Config R)
  | setConfig2 (value : AuthOptions R)
  | clear
  | restart (rest : R) (newId : Bool)
  | devices
  | remove (recordIds : List D)
  | renew (recordIds : List D)

namespace Host

/-- Whether a token is to be given is said with the second factor, which only a login without a
credential is asked for; it is not given if the grants were unavailable then. -/
def trust (s : Host D R) (i : ℕ) (enroll : Bool) : Host D R :=
  { s with attempts := s.attempts.modify i fun a =>
    if a.credential.isNone then { a with enroll := enroll } else a }

/-- An attempt is used up when it is finished. -/
def takeAttempt (i : ℕ) (f : Attempt D → Op D R Unit) : Op D R Unit := do
  let s ← get
  Prog.finally_ (Prog.onSome s.attempts[i]? f) fun s =>
    { s with attempts := s.attempts.eraseIdx i }

variable [DecidableEq D] [DecidableEq R] (setup : Setup D)

def act : Act D R → Op D R Unit
  | .login proof => hostBegin setup proof
  | .trust i enroll => modify (·.trust i enroll)
  | .check i => do Prog.onSome (← get).attempts[i]? (attemptCheck setup)
  | .finish i info => takeAttempt i fun a => do let _ ← attemptFinish setup a info
  | .setPassword value => do let _ ← TrustedDevices.setPassword setup value
  | .setSalt salt => TrustedDevices.setSalt setup salt
  | .setOptions options => TrustedDevices.setOptions setup options
  | .setConfig value => do let _ ← TrustedDevices.setConfig setup value
  | .setConfig2 value => do let _ ← TrustedDevices.setConfig2 setup value
  | .clear => TrustedDevices.clear setup
  | .restart rest newId => TrustedDevices.restart setup rest newId
  | .devices => do let _ ← TrustedDevices.devices setup
  | .remove recordIds => TrustedDevices.remove setup recordIds
  | .renew recordIds => TrustedDevices.renew setup recordIds

/-- The state after an operation, whatever its outcome. -/
def outcome (m : Op D R α) (s : Host D R) : Host D R :=
  match m s with
  | .ok _ s' => s'
  | .error .crash s' => { s' with down := true }
  | .error _ s' => s'

/-- The random values of an operation are new. -/
def freshCoins (s : Host D R) (env : Env D) : Bool :=
  env.coins.Nodup && env.coins.all fun c => !s.used.contains c

/-- After a crash the host has to be started. -/
def enabled (s : Host D R) (a : Act D R) : Bool := !s.down || a matches .restart _ _

/-- A password that is set is told by its hash from the one that was preset. -/
def noCollision (config : Config R) : Act D R → Bool
  | .setPassword value =>
    computeH1 setup.libs value config.salt ≠
      computeH1 setup.libs setup.preset.storage config.salt || value = setup.preset.storage
  | _ => true

def step (s : Host D R) (a : Act D R × Env D) : Option (Host D R) :=
  if s.enabled a.1 && s.freshCoins a.2 && noCollision setup s.config a.1 then
    some (outcome (act setup a.1) { s with env := a.2 })
  else none

end Host

/-- At first there are no grants of this version; the host has just been started. -/
def host [DecidableEq D] [DecidableEq R] (setup : Setup D) :
    LTS (Host D R) (Act D R × Env D) where
  init s := ∃ file options legacy env rest, s =
    { config := { Config.load setup.libs file with rest := rest }, options := options,
      disk := { config := file, options := options, legacy := legacy }, env := env }
  step := Host.step setup

end RustDesk.TrustedDevices
