import RustDesk.Lib.Transition
import RustDesk.TrustedDevices.Grants

/-!
# Runs of the operations on the grants

The operations one after the other, each at the time the clock showed, with the validity period that
is in force. What happened is kept aside: the token the last operation gave out, the groups and the
tokens there have been, and the credentials that were found expired.
-/

namespace RustDesk.TrustedDevices

open Grants

variable {D : Type}

/-- What a login presents: a legacy credential or a token, by its verifier. -/
def Record.key (r : Record D) : Bool × D := (r.legacy, r.verifier)

/-- The time of the record has passed. -/
def Record.lapsed (now : ℤ) (r : Record D) : Bool :=
  r.info.expiresAt.any fun expiry => !Record.unexpired now expiry

/-- A token that was given out: for which device id if it was enrolled, and the records before. -/
structure Issue (D : Type) where
  ticket : Ticket D
  verifier : D
  deviceId : String
  now : ℤ
  before : List (Record D)
  deriving DecidableEq

structure Registry (D : Type) where
  grants : Grants D
  days : ℕ
  clock : ℤ := 0
  issue : Option (Issue D) := none
  groups : List D := []
  tokens : List D := []
  lapsed : List (Bool × D) := []

namespace Registry

inductive Act (D : Type) where
  | enroll (ticket : Ticket D) (verifier : D) (id name platform : String) (now : ℤ)
  | migrate (ticket : Ticket D) (legacy verifier : D) (readings : List ℤ) (now : ℤ)
  | importDevices (devices : List LegacyDevice) (firstStore : Option D) (scope : D) (now : ℤ)
  | updateExpiration (now : ℤ)
  | changeDays (days : ℕ) (now : ℤ)
  | renew (recordIds : List D) (now : ℤ)
  | cleanup (now : ℤ)
  | confirmMigration (verifier : D) (now : ℤ)
  | verify (now : ℤ)
  deriving DecidableEq

def Act.now : Act D → ℤ
  | .enroll _ _ _ _ _ now | .migrate _ _ _ _ now | .importDevices _ _ _ now
  | .updateExpiration now | .changeDays _ now | .renew _ now | .cleanup now
  | .confirmMigration _ now | .verify now => now

/-- The info `finish` enrolls a device with. -/
def enrollInfo (days : ℕ) (id name platform : String) (now : ℤ) : DeviceInfo :=
  { time := now, expiresAt := some (expiresAt now days), id := id, name := name,
    platform := platform }

/-- What the clock showed before the time of the operation. -/
def Act.readings : Act D → List ℤ
  | .migrate _ _ _ readings _ => readings
  | _ => []

/-- The clock is read for each of the records that `migrate` comes to. -/
def Act.readsFor (records : List (Record D)) : Act D → Bool
  | .migrate _ _ _ readings _ => readings.length = records.length
  | _ => true

/-- The clock does not go back. -/
def timely (s : Registry D) (a : Act D) : Bool :=
  (s.clock :: a.readings ++ [a.now]).Pairwise (· ≤ ·) && a.now ≤ i64Max &&
    a.readsFor s.grants.records

variable [DecidableEq D] (sha : Sha256 D) (s : Registry D)

def act : Act D → ResultType (Grants D)
  | .enroll ticket verifier id name platform now =>
    s.grants.enrollDigest ticket verifier (enrollInfo s.days id name platform now)
  | .migrate ticket legacy verifier readings now =>
    s.grants.migrate ticket legacy verifier readings now
  | .importDevices devices firstStore scope now =>
    .ok (s.grants.importDevices sha devices firstStore scope s.days now)
  | .updateExpiration now => .ok (s.grants.updateExpiration s.days now).1
  | .changeDays days now => .ok (s.grants.updateExpiration days now).1
  | .renew recordIds now => s.grants.renew sha recordIds s.days now
  | .cleanup now => .ok (s.grants.cleanup now).1
  | .confirmMigration verifier _ => .ok (s.grants.confirmMigration verifier).1
  | .verify _ => .ok s.grants

/-- The validity period after an operation. -/
def nextDays : Act D → ℕ
  | .changeDays days _ => days
  | _ => s.days

/-- The token an operation gives out if it succeeds. -/
def issued : Act D → Option (Issue D)
  | .enroll ticket verifier id _ _ now => some ⟨ticket, verifier, id, now, s.grants.records⟩
  | .migrate ticket _ verifier _ now => some ⟨ticket, verifier, "", now, s.grants.records⟩
  | _ => none

/-- The time passes to that of an operation: what has expired by then is noted. -/
def tick (now : ℤ) : Registry D :=
  { s with
    clock := now, issue := none,
    lapsed := s.lapsed ++ (s.grants.records.filter (·.lapsed now)).map Record.key }

/-- The registry after an operation that has led to these grants. -/
def done (a : Act D) (g : Grants D) : Registry D :=
  { s.tick a.now with
    grants := g, days := s.nextDays a, issue := s.issued a,
    groups := s.groups ++ g.records.map (·.id sha),
    tokens := s.tokens ++ (s.issued a).toList.map Issue.verifier }

/-- An operation that fails changes nothing. -/
def step (a : Act D) : Option (Registry D) :=
  if s.timely a then
    match s.act sha a with
    | .ok g => some (s.done sha a g)
    | .error _ => some (s.tick a.now)
  else none

end Registry

/-- At first there are no records. -/
def registry [DecidableEq D] (sha : Sha256 D) : LTS (Registry D) (Registry.Act D) where
  init s := ∃ scope generation days, s = { grants := ⟨scope, generation, []⟩, days := days }
  step := Registry.step sha

namespace Registry

variable [DecidableEq D] {sha : Sha256 D} {s s' : Registry D} {a : Act D} {g : Grants D}

lemma step_cases (h : s.step sha a = some s') :
    s.timely a ∧ ((∃ g, s.act sha a = .ok g ∧ s' = s.done sha a g) ∨ s' = s.tick a.now) := by
  rw [Registry.step] at h
  split_ifs at h with htimely
  refine ⟨htimely, ?_⟩
  cases hact : s.act sha a with
  | ok g =>
    rw [hact] at h
    exact .inl ⟨g, rfl, (Option.some_inj.mp h).symm⟩
  | error e =>
    rw [hact] at h
    exact .inr (Option.some_inj.mp h).symm

omit [DecidableEq D] in
lemma clock_le_now (h : s.timely a) : s.clock ≤ a.now := by
  rw [timely, Bool.and_eq_true, Bool.and_eq_true, decide_eq_true_eq, List.cons_append] at h
  exact (List.pairwise_cons.mp h.1.1).1 _ (List.mem_append_right _ (List.mem_singleton.mpr rfl))

/-! ### Every record has an expiry -/

omit [DecidableEq D] in
lemma isSome_limitExpiry {expiry : ℤ} {r : Record D} :
    (Grants.limitExpiry expiry r).info.expiresAt.isSome = r.info.expiresAt.isSome :=
  Option.isSome_map

omit [DecidableEq D] in
lemma dated_updateExpiration {days : ℕ} {now : ℤ} (h : ∀ r ∈ g.records, r.info.expiresAt.isSome) :
    ∀ r ∈ (g.updateExpiration days now).1.records, r.info.expiresAt.isSome := by
  intro r hr
  obtain ⟨q, hq, -, rfl⟩ := mem_updateExpiration hr
  rw [isSome_limitExpiry]
  exact h q hq

lemma dated_act (hact : s.act sha a = .ok g) (h : ∀ r ∈ s.grants.records, r.info.expiresAt.isSome) :
    ∀ r ∈ g.records, r.info.expiresAt.isSome := by
  cases a with
  | enroll ticket verifier id name platform now =>
    obtain ⟨-, rfl⟩ := enrollDigest_ok hact
    intro r hr
    rcases List.mem_append.mp (mem_cleanupRecords hr).1 with hr | hr
    · split_ifs at hr
      · exact h r (List.mem_of_mem_filter hr)
      · exact h r hr
    · rw [List.mem_singleton.mp hr]
      rfl
  | migrate ticket legacy verifier readings now =>
    obtain ⟨source, hsource, rfl⟩ := migrate_ok hact
    obtain ⟨-, t, hzip, -⟩ := migrationSource_ok hsource
    intro r hr
    rcases List.mem_append.mp (mem_cleanupRecords hr).1 with hr | hr
    · exact h r hr
    · rw [List.mem_singleton.mp hr]
      exact h source (List.of_mem_zip hzip).1
  | importDevices devices firstStore scope now =>
    cases hact
    have hstart : ∀ r ∈ (s.grants.importStart firstStore scope).records,
        r.info.expiresAt.isSome := by
      rw [importStart_records]
      intro r hr
      split_ifs at hr
      · cases hr
      · exact h r hr
    rcases importDevices_cases sha s.grants devices firstStore scope s.days now with
      heq | heq
    · rw [heq]
      exact hstart
    · rw [heq]
      apply dated_updateExpiration
      intro r hr
      rcases mem_foldl_importRecord hr with hr | ⟨hr, -⟩
      · exact hstart r hr
      · obtain ⟨device, -, hdevice⟩ := List.mem_filterMap.mp hr
        exact (record_some hdevice).1
  | updateExpiration now | changeDays days now =>
    cases hact
    exact dated_updateExpiration h
  | renew recordIds now =>
    obtain ⟨-, rfl⟩ := renew_ok hact
    intro r hr
    obtain ⟨q, hq, rfl⟩ := List.mem_map.mp hr
    split_ifs
    · rfl
    · exact h q hq
  | cleanup now =>
    cases hact
    exact fun r hr => h r (mem_cleanupRecords hr).1
  | confirmMigration verifier now =>
    cases hact
    exact fun r hr => h r (confirmMigration_subset _ _ hr)
  | verify now =>
    cases hact
    exact h

lemma dated (h : (registry sha).Reachable s) : ∀ r ∈ s.grants.records, r.info.expiresAt.isSome := by
  refine h.invariant (P := fun s => ∀ r ∈ s.grants.records, r.info.expiresAt.isSome) ?_ ?_
  · rintro _ ⟨scope, generation, days, rfl⟩ r hr
    cases hr
  · intro s a s' _ hs hstep
    obtain ⟨-, ⟨g, hact, rfl⟩ | rfl⟩ := step_cases hstep
    · exact dated_act hact hs
    · exact hs

end Registry

end RustDesk.TrustedDevices
