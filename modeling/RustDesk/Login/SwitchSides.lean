import RustDesk.Lib.Transition
import RustDesk.Login.Whitelist

/-!
# Requests to switch sides

A peer that asks to switch sides sends a uuid, which is kept for its id. Whoever claims the uuid may
connect back, and a claimed entry is kept so that the request cannot be replayed. There is one entry
for each id.
-/

namespace RustDesk.Login

abbrev Uuid := BitVec 128

/-- `SWITCH_SIDES_UUID_TTL`, in nanoseconds. -/
def switchSidesUuidTtl : ℕ := 10 * 10 ^ 9

structure PendingUuid where
  instant : ℕ
  uuid : Uuid
  claimed : Bool
  deriving DecidableEq

/-- A claim that was granted. -/
structure Claim where
  time : ℕ
  id : Text
  uuid : Uuid
  deriving DecidableEq

/-- `PENDING_SWITCH_SIDES_UUID`, with the time of the last call and the claims that were granted. -/
structure SwitchSides where
  uuids : Text → Option PendingUuid := fun _ => none
  clock : ℕ := 0
  claims : List Claim := []

/-- `retain` of the entries that have not expired. -/
def retainPending (now : ℕ) (uuids : Text → Option PendingUuid) : Text → Option PendingUuid :=
  fun id => (uuids id).filter fun entry => now - entry.instant < switchSidesUuidTtl

def insertPendingSwitchSidesUuid (now : ℕ) (id : Text) (uuid : Uuid)
    (uuids : Text → Option PendingUuid) : (Text → Option PendingUuid) × Bool :=
  let uuids := retainPending now uuids
  if (uuids id).map (·.uuid) = some uuid then (uuids, false)
  else (Function.update uuids id (some ⟨now, uuid, false⟩), true)

def hasPendingSwitchSidesUuid (now : ℕ) (id : Text) (uuid : Uuid)
    (uuids : Text → Option PendingUuid) : (Text → Option PendingUuid) × Bool :=
  let uuids := retainPending now uuids
  (uuids, (uuids id).map (fun entry => entry.uuid = uuid && !entry.claimed) = some true)

def claimPendingSwitchSidesUuid (now : ℕ) (id : Text) (uuid : Uuid)
    (uuids : Text → Option PendingUuid) : (Text → Option PendingUuid) × Bool :=
  let uuids := retainPending now uuids
  match uuids id with
  | some entry =>
    if entry.uuid = uuid && !entry.claimed then
      (Function.update uuids id (some { entry with claimed := true }), true)
    else (uuids, false)
  | none => (uuids, false)

namespace SwitchSides

inductive Act where
  | insert (now : ℕ) (id : Text) (uuid : Uuid)
  | has (now : ℕ) (id : Text) (uuid : Uuid)
  | claim (now : ℕ) (id : Text) (uuid : Uuid)
  deriving DecidableEq

def Act.now : Act → ℕ
  | .insert now _ _ | .has now _ _ | .claim now _ _ => now

def act (w : SwitchSides) : Act → SwitchSides
  | .insert now id uuid =>
    { w with uuids := (insertPendingSwitchSidesUuid now id uuid w.uuids).1, clock := now }
  | .has now id uuid =>
    { w with uuids := (hasPendingSwitchSidesUuid now id uuid w.uuids).1, clock := now }
  | .claim now id uuid =>
    let result := claimPendingSwitchSidesUuid now id uuid w.uuids
    { uuids := result.1, clock := now,
      claims := w.claims ++ if result.2 then [⟨now, id, uuid⟩] else [] }

/-- Time does not go back from one call to the next. -/
def step (w : SwitchSides) (a : Act) : Option SwitchSides :=
  if w.clock ≤ a.now then some (w.act a) else none

end SwitchSides

def switching : LTS SwitchSides SwitchSides.Act where
  init w := w = {}
  step := SwitchSides.step

namespace SwitchSides

/-- Claims of one uuid for one id are granted at least the time to live apart. -/
def ClaimedOnce (w : SwitchSides) : Prop :=
  w.claims.Pairwise fun c c' => c.id = c'.id → c.uuid = c'.uuid →
    c.time + switchSidesUuidTtl ≤ c'.time

/-- A uuid that was claimed for an id within the time to live comes in again only while its entry
is there. -/
def notReplayed (w : SwitchSides) : Act → Bool
  | .insert now id uuid =>
    ((w.uuids id).any fun entry =>
        entry.uuid = uuid && now - entry.instant < switchSidesUuidTtl) ||
      w.claims.all fun c => !(c.id = id && c.uuid = uuid) || c.time + switchSidesUuidTtl ≤ now
  | _ => true

/-! ### Entries and claims -/

/-- An entry that can be claimed came in after every claim of the same uuid had run out. -/
structure Fresh (w : SwitchSides) : Prop where
  clock : ∀ id entry, w.uuids id = some entry → entry.instant ≤ w.clock
  unclaimed : ∀ c ∈ w.claims, ∀ entry, w.uuids c.id = some entry → entry.uuid = c.uuid →
    entry.claimed = false → c.time + switchSidesUuidTtl ≤ entry.instant
  once : w.ClaimedOnce

variable {w w' : SwitchSides} {now : ℕ} {id : Text} {uuid : Uuid} {entry : PendingUuid}

lemma of_retainPending {uuids : Text → Option PendingUuid}
    (h : retainPending now uuids id = some entry) : uuids id = some entry :=
  (Option.filter_eq_some_iff.mp h).1

/-- What comes in again while its entry is there is not put in. -/
lemma notReplayed_new (h : w.notReplayed (.insert now id uuid))
    (hnew : ¬(retainPending now w.uuids id).map (·.uuid) = some uuid) :
    ∀ c ∈ w.claims, c.id = id → c.uuid = uuid → c.time + switchSidesUuidTtl ≤ now := by
  intro c hc hid huuid
  rw [notReplayed, Bool.or_eq_true] at h
  rcases h with hthere | hclaims
  · obtain ⟨entry, hentry, hfits⟩ := (Option.any_eq_true _ _).mp hthere
    rw [Bool.and_eq_true, decide_eq_true_eq] at hfits
    rw [retainPending, hentry, Option.filter_some, if_pos hfits.2, Option.map_some, hfits.1] at hnew
    exact absurd rfl hnew
  · simpa [hid, huuid] using List.all_eq_true.mp hclaims c hc

lemma Fresh.retain (h : Fresh w) (hnow : w.clock ≤ now) :
    Fresh { w with uuids := retainPending now w.uuids, clock := now } where
  clock id entry hentry := (h.clock id entry (of_retainPending hentry)).trans hnow
  unclaimed c hc entry hentry := h.unclaimed c hc entry (of_retainPending hentry)
  once := h.once

lemma Fresh.insert (h : Fresh w) (hnow : w.clock ≤ now)
    (hok : w.notReplayed (.insert now id uuid)) :
    Fresh { w with uuids := (insertPendingSwitchSidesUuid now id uuid w.uuids).1,
                   clock := now } := by
  have hretain := h.retain hnow
  rw [insertPendingSwitchSidesUuid]
  split_ifs with hthere
  · exact hretain
  · refine ⟨fun id' entry hentry => ?_, fun c hc entry hentry huuid hclaimed => ?_, h.once⟩
    · by_cases hid : id' = id
      · subst hid
        cases (Function.update_self id' _ _).symm.trans hentry
        exact le_rfl
      · exact hretain.clock id' entry ((Function.update_of_ne hid _ _).symm.trans hentry)
    · by_cases hid : c.id = id
      · subst hid
        cases (Function.update_self c.id _ _).symm.trans hentry
        exact notReplayed_new hok hthere c hc rfl huuid.symm
      · exact hretain.unclaimed c hc entry ((Function.update_of_ne hid _ _).symm.trans hentry)
          huuid hclaimed

lemma claim_granted (h : (claimPendingSwitchSidesUuid now id uuid w.uuids).2) :
    ∃ entry, retainPending now w.uuids id = some entry ∧ entry.uuid = uuid ∧
      entry.claimed = false ∧ (claimPendingSwitchSidesUuid now id uuid w.uuids).1 =
        Function.update (retainPending now w.uuids) id (some { entry with claimed := true }) := by
  rw [claimPendingSwitchSidesUuid] at h ⊢
  cases hentry : retainPending now w.uuids id with
  | none =>
    rw [hentry] at h
    cases h
  | some entry =>
    simp only [hentry] at h ⊢
    by_cases hfits : entry.uuid = uuid && !entry.claimed
    · rw [if_pos hfits]
      rw [Bool.and_eq_true, decide_eq_true_eq, Bool.not_eq_true'] at hfits
      exact ⟨entry, rfl, hfits.1, hfits.2, rfl⟩
    · rw [if_neg hfits] at h
      cases h

lemma claim_refused (h : ¬(claimPendingSwitchSidesUuid now id uuid w.uuids).2) :
    (claimPendingSwitchSidesUuid now id uuid w.uuids).1 = retainPending now w.uuids := by
  rw [claimPendingSwitchSidesUuid] at h ⊢
  cases hentry : retainPending now w.uuids id with
  | none => rfl
  | some entry =>
    simp only [hentry] at h ⊢
    by_cases hfits : entry.uuid = uuid && !entry.claimed
    · rw [if_pos hfits] at h
      exact absurd rfl h
    · rw [if_neg hfits]

/-- The entry is claimed from now on, and earlier claims of it have run out. -/
lemma Fresh.claim (h : Fresh w) (hnow : w.clock ≤ now)
    (hentry : retainPending now w.uuids id = some entry) (huuid : entry.uuid = uuid)
    (hclaimed : entry.claimed = false) :
    Fresh { uuids := Function.update (retainPending now w.uuids) id
              (some { entry with claimed := true }),
            clock := now, claims := w.claims ++ [⟨now, id, uuid⟩] } := by
  have hretain := h.retain hnow
  refine ⟨fun id' entry' hentry' => ?_, fun c hc entry' hentry' huuid' hclaimed' => ?_, ?_⟩
  · by_cases hid : id' = id
    · subst hid
      cases (Function.update_self id' _ _).symm.trans hentry'
      exact hretain.clock id' entry hentry
    · exact hretain.clock id' entry' ((Function.update_of_ne hid _ _).symm.trans hentry')
  · have hid : c.id ≠ id := by
      intro hid
      rw [hid] at hentry'
      cases (Function.update_self id _ _).symm.trans hentry'
      cases hclaimed'
    rcases List.mem_append.mp hc with hc | hc
    · exact hretain.unclaimed c hc entry' ((Function.update_of_ne hid _ _).symm.trans hentry')
        huuid' hclaimed'
    · rw [List.mem_singleton.mp hc] at hid
      exact absurd rfl hid
  · refine List.pairwise_append.mpr ⟨h.once, List.pairwise_singleton _ _, ?_⟩
    intro c hc c' hc' hid huuid'
    rw [List.mem_singleton.mp hc'] at hid huuid' ⊢
    calc c.time + switchSidesUuidTtl ≤ entry.instant :=
          hretain.unclaimed c hc entry (hid ▸ hentry) (huuid.trans huuid'.symm) hclaimed
      _ ≤ now := hretain.clock id entry hentry

lemma Fresh.step (h : Fresh w) {a : Act} (hok : w.notReplayed a) (hstep : w.step a = some w') :
    Fresh w' := by
  rw [SwitchSides.step] at hstep
  split_ifs at hstep with hnow
  cases hstep
  cases a with
  | insert now id uuid => exact h.insert hnow hok
  | has now id uuid => exact h.retain hnow
  | claim now id uuid =>
    rw [act]
    by_cases hgranted : (claimPendingSwitchSidesUuid now id uuid w.uuids).2
    · obtain ⟨entry, hentry, huuid, hclaimed, huuids⟩ := claim_granted hgranted
      rw [huuids, if_pos hgranted]
      exact h.claim hnow hentry huuid hclaimed
    · rw [claim_refused hgranted, if_neg hgranted, List.append_nil]
      exact h.retain hnow

end SwitchSides

/-- While a uuid that was claimed comes in again, within the time to live, only if its entry is
still there, it is claimed at most once in that time. -/
theorem uuid_claimed_once {w : SwitchSides}
    (h : (switching.restrict SwitchSides.notReplayed).Reachable w) : w.ClaimedOnce := by
  have hfresh : SwitchSides.Fresh w := by
    refine h.restrict_invariant ?_ fun _ _ _ hw => hw.step
    rintro _ rfl
    refine ⟨fun id entry hentry => ?_, fun c hc => ?_, List.Pairwise.nil⟩
    · cases hentry
    · cases hc
  exact hfresh.once

/-- The request is replayed, and another uuid comes in: later claims of the first are refused. -/
theorem uuid_claimed_once_of_two : ∃ w ∈ switching.run {}
      [.insert 0 ['a'] 1, .claim 1 ['a'] 1, .insert 2 ['a'] 1, .claim 3 ['a'] 1, .insert 4 ['a'] 2,
        .claim 5 ['a'] 1],
    w.claims = [⟨1, ['a'], 1⟩] ∧ w.ClaimedOnce :=
  LTS.exists_run_restrict SwitchSides.notReplayed rfl ⟨_, rfl, by decide⟩ fun _ =>
    uuid_claimed_once

/-- Another uuid takes the place of the claimed one, and the first can be put in and claimed
again. -/
theorem uuid_claimed_twice : ∃ w ∈ switching.run {}
      [.insert 0 ['a'] 1, .claim 1 ['a'] 1, .insert 2 ['a'] 2, .insert 3 ['a'] 1, .claim 4 ['a'] 1],
    w.claims = [⟨1, ['a'], 1⟩, ⟨4, ['a'], 1⟩] ∧ ¬w.ClaimedOnce := by
  refine LTS.exists_run ⟨_, rfl, by decide⟩ fun w _ hclaims honce => ?_
  rw [SwitchSides.ClaimedOnce, hclaims, List.pairwise_pair] at honce
  exact absurd (honce rfl rfl) (by decide)

end RustDesk.Login
