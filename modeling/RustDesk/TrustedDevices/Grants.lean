import Mathlib.Data.List.Sort
import Mathlib.Tactic

/-!
# The grants of trusted devices

A device that has passed the second factor may be trusted: the host keeps a record with the hash of
the token it gave out (the verifier) and a time until which it is valid. Devices that were trusted
by an earlier version are imported as legacy records, and a token that a legacy device gets in
exchange (`migrate`) names the legacy verifier as its origin: the two are one group, with one id.

Verifiers, ids, scopes and generations are 32 bytes; here they are of any type `D`. The clock is in
milliseconds, as an `i64`.
-/

namespace RustDesk.TrustedDevices

/-- `ResultType`, with the text of the error. -/
abbrev ResultType := Except String

/-- `MAX_RECORDS` -/
@[irreducible] def maxRecords : ℕ := 128

/-- `i64::MAX` -/
def i64Max : ℤ := 2 ^ 63 - 1

/-- `i64::saturating_add` -/
def saturatingAdd (a b : ℤ) : ℤ := max (-2 ^ 63) (min (a + b) i64Max)

/-! ### Records -/

structure DeviceInfo where
  time : ℤ := 0
  /-- Missing on V1 records until import; zero means no expiration. -/
  expiresAt : Option ℤ := none
  id : String := ""
  name : String := ""
  platform : String := ""
  deriving DecidableEq

structure Record (D : Type) where
  verifier : D
  info : DeviceInfo
  legacy : Bool := false
  /-- The legacy verifier a migrated credential came from. -/
  origin : Option D := none
  deriving DecidableEq

/-- The hashes that are taken: of a verifier, and of what identifies a legacy device. -/
structure Sha256 (D : Type) where
  hash : D → D
  legacy : List UInt8 → String → String → String → D

variable {D : Type}

namespace Record

/-- What the id is the hash of: the same for a legacy record and what is migrated from it. -/
def group (r : Record D) : D := r.origin.getD r.verifier

def id (sha : Sha256 D) (r : Record D) : D := sha.hash r.group

/-- `expiry == 0 || now < expiry` -/
def unexpired (now expiry : ℤ) : Bool := expiry = 0 || now < expiry

def current (now : ℤ) (r : Record D) : Bool :=
  r.info.time ≤ now && r.info.expiresAt.any (unexpired now)

end Record

/-! ### Expiry -/

/-- `DAY_MILLIS` -/
def dayMillis : ℤ := 24 * 60 * 60 * 1000

/-- `LEGACY_DAYS` -/
def legacyDays : ℕ := 90

/-- `NEVER_EXPIRE` -/
def neverExpire : ℕ := 0

def expiresAt (time : ℤ) (days : ℕ) : ℤ :=
  if days = neverExpire then 0 else saturatingAdd time (days * dayMillis)

lemma mul_dayMillis_pos {days : ℕ} (h : days ≠ neverExpire) : 0 < (days : ℤ) * dayMillis := by
  have : 0 < (days : ℤ) := by
    exact_mod_cast Nat.pos_of_ne_zero h
  exact mul_pos this (by decide)

/-! ### Grants -/

structure Grants (D : Type) where
  scope : Option D := none
  generation : D
  records : List (Record D) := []
  deriving DecidableEq

structure Ticket (D : Type) where
  scope : D
  generation : D
  deriving DecidableEq

namespace Grants

/-- The oldest records that are not legacy are removed, as many as there are too many. -/
def dropOldest : ℕ → List (Record D) → List (Record D)
  | 0, records => records
  | _, [] => []
  | excess + 1, r :: records =>
    if r.legacy then r :: dropOldest (excess + 1) records else dropOldest excess records

def cleanupRecords (now : ℤ) (records : List (Record D)) : List (Record D) :=
  let records := (records.filter (·.current now)).insertionSort fun a b => a.info.time ≤ b.info.time
  dropOldest (records.countP (!·.legacy) - maxRecords) records

/-- The cleaned grants, and whether a record is gone. -/
def cleanup (g : Grants D) (now : ℤ) : Grants D × Bool :=
  ({ g with records := cleanupRecords now g.records },
    g.records.length ≠ (cleanupRecords now g.records).length)

/-- `revoke`, with the random generation it takes. -/
def revoke (g : Grants D) (generation : D) (scope : Option D) : Grants D :=
  { g with records := [], generation := generation, scope := scope }

/-- What becomes of an expiry when the validity period is now `expiry`. -/
def nextExpiry (expiry previous : ℤ) : ℤ :=
  if expiry = 0 || previous = 0 then expiry else min previous expiry

def limitExpiry (expiry : ℤ) (r : Record D) : Record D :=
  { r with info := { r.info with expiresAt := r.info.expiresAt.map (nextExpiry expiry) } }

def updateExpiration (g : Grants D) (days : ℕ) (now : ℤ) : Grants D × Bool :=
  ({ g with
      records := (g.cleanup now).1.records.map (limitExpiry (expiresAt now days)) },
    (g.cleanup now).2 || (g.cleanup now).1.records.any fun r =>
      (limitExpiry (expiresAt now days) r).info.expiresAt ≠ r.info.expiresAt)

variable [DecidableEq D]

def matchesScope (g : Grants D) (scope : D) : Bool := g.scope = some scope

def begin (g : Grants D) (scope : D) : ResultType (Ticket D) :=
  if g.matchesScope scope then .ok ⟨scope, g.generation⟩
  else .error
    "Trusted-device authentication settings changed; reconnect and authenticate again"

def checkTicket (g : Grants D) (ticket : Ticket D) : ResultType Unit :=
  if !g.matchesScope ticket.scope || g.generation ≠ ticket.generation then
    .error "Trusted-device authorization was revoked; reconnect and authenticate again"
  else .ok ()

def verifyDigest (g : Grants D) (ticket : Ticket D) (verifier : Option D) (now : ℤ) :
    ResultType Bool := do
  g.checkTicket ticket
  match verifier with
  | none => return false
  | some verifier =>
    return g.records.any fun r => !r.legacy && r.current now && r.verifier = verifier

/-- The records an enrolment leaves before the cleanup. -/
def enrolled (records : List (Record D)) (verifier : D) (info : DeviceInfo) : List (Record D) :=
  (if info.id ≠ "" then records.filter (·.info.id ≠ info.id) else records) ++
    [{ verifier := verifier, info := info }]

def enrollDigest (g : Grants D) (ticket : Ticket D) (verifier : D) (info : DeviceInfo) :
    ResultType (Grants D) := do
  g.checkTicket ticket
  return ({ g with records := enrolled g.records verifier info }.cleanup info.time).1

/-! ### Legacy devices -/

/-- `verify_legacy`; the clock is read for each record it comes to. -/
def verifyLegacy (g : Grants D) (ticket : Ticket D) (verifier : Option D) (readings : List ℤ) :
    ResultType Bool := do
  g.checkTicket ticket
  match verifier with
  | none => return false
  | some verifier =>
    return (g.records.zip readings).any fun p =>
      p.1.legacy && p.1.current p.2 && p.1.verifier = verifier

/-- The record is the legacy one, or was migrated from it. -/
def isSource (legacy : D) (r : Record D) : Bool :=
  (r.legacy && r.verifier = legacy) || r.origin = some legacy

/-- `migration_source`; the clock is read for each record it comes to. -/
def migrationSource (g : Grants D) (ticket : Ticket D) (legacy : D) (readings : List ℤ) :
    ResultType (Option (Record D)) := do
  g.checkTicket ticket
  return ((g.records.zip readings).find? fun p => p.1.current p.2 && isSource legacy p.1).map
    Prod.fst

/-- `migrate`; after the readings for the source, the clock is read again. -/
def migrate (g : Grants D) (ticket : Ticket D) (legacy verifier : D) (readings : List ℤ)
    (now : ℤ) : ResultType (Grants D) := do
  match ← g.migrationSource ticket legacy readings with
  | none => .error "Legacy trusted device expired or was revoked"
  | some source =>
    -- eviction follows the time of issue, without extending the legacy expiry
    let record := { verifier := verifier, info := { source.info with time := now },
                    origin := some legacy }
    return ({ g with records := g.records ++ [record] }.cleanup now).1

/-- `confirm_migration`: the legacy record is no longer needed. -/
def confirmMigration (g : Grants D) (verifier : D) : Grants D × Bool :=
  match (g.records.find? fun r => !r.legacy && r.verifier = verifier).bind (·.origin) with
  | none => (g, false)
  | some origin =>
    let records := g.records.filter fun r => !r.legacy || r.verifier ≠ origin
    ({ g with records := records }, g.records.length ≠ records.length)

end Grants

/-- A device an earlier version trusted. -/
structure LegacyDevice where
  hwid : List UInt8
  info : DeviceInfo
  deriving DecidableEq

namespace LegacyDevice

/-- `legacy::verifier` -/
def verifier (sha : Sha256 D) (hwid : List UInt8) (info : DeviceInfo) : Option D :=
  if hwid.isEmpty then none else some (sha.legacy hwid info.id info.name info.platform)

/-- The record a legacy device becomes, if it has a hardware id. -/
def record (sha : Sha256 D) (device : LegacyDevice) : Option (Record D) :=
  (verifier sha device.hwid device.info).map fun verifier =>
    { verifier := verifier
      info := { device.info with
        expiresAt := some (device.info.expiresAt.getD (expiresAt device.info.time legacyDays)) }
      legacy := true }

end LegacyDevice

namespace Grants

variable [DecidableEq D]

/-- One turn of the loop of `import`. -/
def importRecord (sha : Sha256 D) (now : ℤ) (records : List (Record D)) (record : Record D) :
    List (Record D) :=
  if record.current now && !records.any (·.id sha = record.id sha) then records ++ [record]
  else records

/-- On the first store the grants begin with a new generation. -/
def importStart (g : Grants D) (firstStore : Option D) (scope : D) : Grants D :=
  match firstStore with
  | some generation => g.revoke generation (some scope)
  | none => g

/-- `import`, with the scope and the validity period of the settings. -/
def importDevices (sha : Sha256 D) (g : Grants D) (devices : List LegacyDevice)
    (firstStore : Option D) (scope : D) (days : ℕ) (now : ℤ) : Grants D :=
  -- a previous revocation takes precedence over a remaining legacy copy
  if !(g.importStart firstStore scope).matchesScope scope then g.importStart firstStore scope
  else
    ({ g.importStart firstStore scope with
      records := (devices.filterMap (LegacyDevice.record sha)).foldl (importRecord sha now)
        (g.importStart firstStore scope).records }.updateExpiration days now).1

/-! ### Management -/

def remove (sha : Sha256 D) (g : Grants D) (recordIds : List D) : Grants D :=
  { g with records := g.records.filter fun r => !recordIds.contains (r.id sha) }

/-- `renew`, after the grants were loaded. -/
def renew (sha : Sha256 D) (g : Grants D) (recordIds : List D) (days : ℕ) (now : ℤ) :
    ResultType (Grants D) :=
  if recordIds.isEmpty then .error "Select at least one trusted device"
  else if days = neverExpire then .error "Trusted devices are configured to never expire"
  else if recordIds.any fun id => !g.records.any fun r => r.id sha = id && r.current now then
    .error "Trusted device expired or was revoked; refresh the list"
  else
    .ok { g with records := g.records.map fun r =>
      if recordIds.contains (r.id sha) then
        { r with info := { r.info with expiresAt := some (expiresAt now days) } }
      else r }

/-! ### What is left -/

variable {now : ℤ} {r : Record D} {l : List (Record D)} {g g' : Grants D} {ticket : Ticket D}
  {days : ℕ} {sha : Sha256 D} {verifier legacy : D} {readings : List ℤ}

omit [DecidableEq D] in
lemma dropOldest_sublist (n : ℕ) (l : List (Record D)) : List.Sublist (dropOldest n l) l := by
  induction l generalizing n with
  | nil => cases n <;> exact .slnil
  | cons a l ih =>
    cases n with
    | zero => exact .refl _
    | succ n =>
      rw [dropOldest]
      split_ifs
      · exact (ih _).cons_cons a
      · exact (ih _).cons a

omit [DecidableEq D] in
lemma mem_cleanupRecords (h : r ∈ cleanupRecords now l) : r ∈ l ∧ r.current now := by
  have hmem := (dropOldest_sublist _ _).subset h
  rw [List.mem_insertionSort, List.mem_filter] at hmem
  exact hmem

omit [DecidableEq D] in
lemma mem_updateExpiration (h : r ∈ (g.updateExpiration days now).1.records) :
    ∃ q ∈ g.records, q.current now ∧ r = limitExpiry (expiresAt now days) q := by
  simp only [updateExpiration, cleanup, List.mem_map] at h
  obtain ⟨q, hq, rfl⟩ := h
  obtain ⟨hmem, hcurrent⟩ := mem_cleanupRecords hq
  exact ⟨q, hmem, hcurrent, rfl⟩

lemma subset_importRecord (sha : Sha256 D) (now : ℤ) (l : List (Record D)) (q : Record D) :
    l ⊆ importRecord sha now l q := by
  rw [importRecord]
  split_ifs
  · exact List.subset_append_left _ _
  · exact List.Subset.refl _

lemma mem_foldl_importRecord {imported : List (Record D)}
    (h : r ∈ imported.foldl (importRecord sha now) l) :
    r ∈ l ∨ (r ∈ imported ∧ ∀ q ∈ l, q.id sha ≠ r.id sha) := by
  induction imported generalizing l with
  | nil => exact .inl h
  | cons x imported ih =>
    rcases ih h with hr | ⟨hr, hnew⟩
    · rw [importRecord] at hr
      split_ifs at hr with hadd
      · rcases List.mem_append.mp hr with hr | hr
        · exact .inl hr
        · rw [List.mem_singleton.mp hr]
          simp only [Bool.and_eq_true, Bool.not_eq_true', List.any_eq_false, decide_eq_true_eq]
            at hadd
          exact .inr ⟨List.mem_cons_self, hadd.2⟩
      · exact .inl hr
    · refine .inr ⟨List.mem_cons_of_mem x hr, fun q hq => ?_⟩
      exact hnew q (subset_importRecord sha now l x hq)

omit [DecidableEq D] in
/-- Legacy records have an expiry, and no origin. -/
lemma record_some {device : LegacyDevice} (h : device.record sha = some r) :
    r.info.expiresAt.isSome ∧ r.legacy ∧ r.origin = none := by
  obtain ⟨v, -, rfl⟩ := Option.map_eq_some_iff.mp h
  exact ⟨rfl, rfl, rfl⟩

omit [DecidableEq D] in
lemma importStart_records (g : Grants D) (firstStore : Option D) (scope : D) :
    (g.importStart firstStore scope).records = if firstStore.isSome then [] else g.records := by
  cases firstStore <;> rfl

/-- An import that does not match the scope adds nothing. -/
lemma importDevices_cases (sha : Sha256 D) (g : Grants D) (devices : List LegacyDevice)
    (firstStore : Option D) (scope : D) (days : ℕ) (now : ℤ) :
    g.importDevices sha devices firstStore scope days now = g.importStart firstStore scope ∨
      g.importDevices sha devices firstStore scope days now =
        ({ g.importStart firstStore scope with
          records := (devices.filterMap (LegacyDevice.record sha)).foldl (importRecord sha now)
            (g.importStart firstStore scope).records }.updateExpiration days now).1 := by
  rw [importDevices]
  split_ifs
  · exact .inl rfl
  · exact .inr rfl

lemma checkTicket_ok (h : g.checkTicket ticket = .ok ()) :
    g.scope = some ticket.scope ∧ g.generation = ticket.generation := by
  rw [checkTicket] at h
  split_ifs at h with hticket
  rw [Bool.or_eq_true, not_or, Bool.not_eq_true', Bool.not_eq_false, decide_eq_true_eq,
    not_not] at hticket
  exact ⟨of_decide_eq_true hticket.1, hticket.2⟩

/-- A value was returned after the ticket was found right. -/
lemma of_checkTicket_bind {α : Type} {f : Unit → ResultType α} {a : α}
    (h : (g.checkTicket ticket >>= f) = .ok a) :
    g.checkTicket ticket = .ok () ∧ f () = .ok a := by
  cases hticket : g.checkTicket ticket with
  | ok u => exact ⟨rfl, by rwa [hticket] at h⟩
  | error e =>
    rw [hticket] at h
    cases h

lemma enrollDigest_ok {info : DeviceInfo} (h : g.enrollDigest ticket verifier info = .ok g') :
    g.checkTicket ticket = .ok () ∧
      g' = { g with records := cleanupRecords info.time (enrolled g.records verifier info) } := by
  obtain ⟨hticket, h⟩ := of_checkTicket_bind h
  cases h
  exact ⟨hticket, rfl⟩

/-- The record that a source is migrated to. -/
def migrated (source : Record D) (legacy verifier : D) (now : ℤ) : Record D :=
  { verifier := verifier, info := { source.info with time := now }, origin := some legacy }

lemma migrationSource_ok {source : Record D}
    (h : g.migrationSource ticket legacy readings = .ok (some source)) :
    g.checkTicket ticket = .ok () ∧
      ∃ t, (source, t) ∈ g.records.zip readings ∧ source.current t ∧ isSource legacy source := by
  obtain ⟨hticket, h⟩ := of_checkTicket_bind h
  obtain ⟨⟨_, t⟩, hfind, rfl⟩ := Option.map_eq_some_iff.mp (Except.ok.inj h)
  have htest := List.find?_some hfind
  rw [Bool.and_eq_true] at htest
  exact ⟨hticket, t, List.mem_of_find?_eq_some hfind, htest⟩

lemma migrate_ok (h : g.migrate ticket legacy verifier readings now = .ok g') :
    ∃ source, g.migrationSource ticket legacy readings = .ok (some source) ∧
      g' = { g with records :=
        cleanupRecords now (g.records ++ [migrated source legacy verifier now]) } := by
  rw [migrate] at h
  cases hsource : g.migrationSource ticket legacy readings with
  | error e =>
    rw [hsource] at h
    cases h
  | ok o =>
    rw [hsource] at h
    cases o with
    | none => cases h
    | some source =>
      cases h
      exact ⟨source, rfl, rfl⟩

lemma confirmMigration_subset (g : Grants D) (verifier : D) :
    (g.confirmMigration verifier).1.records ⊆ g.records := by
  rw [confirmMigration]
  split
  · exact List.Subset.refl _
  · exact fun r hr => List.mem_of_mem_filter hr

lemma renew_ok {recordIds : List D} (h : g.renew sha recordIds days now = .ok g') :
    (∀ id ∈ recordIds, ∃ r ∈ g.records, r.id sha = id ∧ r.current now) ∧
      g' = { g with records := g.records.map fun r =>
        if recordIds.contains (r.id sha) then
          { r with info := { r.info with expiresAt := some (expiresAt now days) } }
        else r } := by
  rw [renew] at h
  split_ifs at h with hempty hnever hany
  cases h
  refine ⟨fun id hid => ?_, rfl⟩
  simp only [List.any_eq_true, not_exists, not_and, Bool.not_eq_true', Bool.not_eq_false,
    Bool.and_eq_true, decide_eq_true_eq] at hany
  exact hany id hid

end Grants

end RustDesk.TrustedDevices
