import RustDesk.TrustedDevices.Capacity

/-!
# How long a record is valid

The records of one group, a legacy record and the tokens migrated from it, expire together. An
expiry of zero is never, so the smallest number is the longest time. Only a renewal or a change of
the validity period to never makes an expiry later, and a credential that has expired is not
accepted again: what has expired is removed before the expiries are set, and what is migrated comes
from a record that is valid. An import alone could bring an expired device back.
-/

namespace RustDesk.TrustedDevices

open Grants

variable {D : Type}

/-- The second expiry is no later than the first, where zero is never. -/
def NoLater (before after : Option ℤ) : Prop :=
  ∃ e e', before = some e ∧ after = some e' ∧ (e = 0 ∨ (e' ≠ 0 ∧ e' ≤ e))

namespace Registry

/-- The operation may make the expiry of a record later. -/
def mayExtend [DecidableEq D] (sha : Sha256 D) (r : Record D) : Act D → Bool
  | .renew recordIds _ => recordIds.contains (r.id sha)
  | .changeDays days _ => days = neverExpire
  | _ => false

/-- A token is new, and an import brings no device of a group that was there and is gone. -/
def brandNew [DecidableEq D] (sha : Sha256 D) (s : Registry D) : Act D → Bool
  | .enroll _ verifier _ _ _ _ =>
    !s.groups.contains (sha.hash verifier) && !s.tokens.contains verifier
  | .migrate _ _ verifier _ _ => !s.tokens.contains verifier
  | .importDevices devices firstStore _ _ =>
    (devices.filterMap (LegacyDevice.record sha)).all fun r =>
      ((if firstStore.isSome then [] else s.grants.records).any fun q => q.id sha = r.id sha) ||
        !s.groups.contains (r.id sha)
  | _ => true

/-! ### The invariant -/

section

variable {clock : ℤ} {lapsed : List (Bool × D)} {l l' : List (Record D)} {r x : Record D}

/-- Records of one group expire together, a credential is of one group, and one that was found
expired still is. -/
structure Lasting (sha : Sha256 D) (clock : ℤ) (lapsed : List (Bool × D)) (l : List (Record D)) :
    Prop where
  same : ∀ r ∈ l, ∀ r' ∈ l, r.id sha = r'.id sha → r.info.expiresAt = r'.info.expiresAt
  origin : ∀ r ∈ l, r.legacy → r.origin = none
  key : ∀ r ∈ l, ∀ r' ∈ l, r.key = r'.key → r.id sha = r'.id sha
  lapsed : ∀ r ∈ l, r.key ∈ lapsed → r.lapsed clock

lemma Lasting.subset (h : Lasting sha clock lapsed l) (hsub : l' ⊆ l) :
    Lasting sha clock lapsed l' where
  same r hr r' hr' := h.same r (hsub hr) r' (hsub hr')
  origin r hr := h.origin r (hsub hr)
  key r hr r' hr' := h.key r (hsub hr) r' (hsub hr')
  lapsed r hr := h.lapsed r (hsub hr)

lemma forall₂_mem_concat {α : Type} {p : α → α → Prop} {l : List α} {x : α}
    (hsymm : ∀ a b, p a b → p b a) (hl : ∀ a ∈ l, ∀ b ∈ l, p a b) (hx : ∀ a ∈ l, p a x)
    (hself : p x x) : ∀ a ∈ l ++ [x], ∀ b ∈ l ++ [x], p a b := by
  intro a ha b hb
  rw [List.mem_append, List.mem_singleton] at ha hb
  rcases ha with ha | rfl
  · rcases hb with hb | rfl
    · exact hl a ha b hb
    · exact hx a ha
  · rcases hb with hb | rfl
    · exact hsymm b a (hx b hb)
    · exact hself

lemma Lasting.concat (h : Lasting sha clock lapsed l)
    (hsame : ∀ r ∈ l, r.id sha = x.id sha → r.info.expiresAt = x.info.expiresAt)
    (horigin : x.legacy → x.origin = none) (hkey : ∀ r ∈ l, r.key ≠ x.key)
    (hlapsed : x.key ∉ lapsed) : Lasting sha clock lapsed (l ++ [x]) where
  same := forall₂_mem_concat (fun _ _ hp hid => (hp hid.symm).symm) h.same hsame fun _ => rfl
  origin := List.forall_mem_append.mpr ⟨h.origin, List.forall_mem_singleton.mpr horigin⟩
  key := forall₂_mem_concat (fun _ _ hp hid => (hp hid.symm).symm) h.key
    (fun r hr heq => absurd heq (hkey r hr)) fun _ => rfl
  lapsed := List.forall_mem_append.mpr
    ⟨h.lapsed, List.forall_mem_singleton.mpr fun hmem => absurd hmem hlapsed⟩

lemma not_lapsed_of_current (h : r.current clock) : ¬r.lapsed clock := by
  rw [Record.current, Bool.and_eq_true] at h
  intro hlapsed
  rw [Record.lapsed] at hlapsed
  cases hexpiry : r.info.expiresAt with
  | none =>
    rw [hexpiry] at hlapsed
    cases hlapsed
  | some e =>
    rw [hexpiry, Option.any_some] at h hlapsed
    rw [h.2] at hlapsed
    cases hlapsed

lemma lapsed_mono {now' : ℤ} (hle : now ≤ now') (h : r.lapsed now) : r.lapsed now' := by
  rw [Record.lapsed] at h ⊢
  cases hexpiry : r.info.expiresAt with
  | none =>
    rw [hexpiry] at h
    cases h
  | some e =>
    rw [hexpiry, Option.any_some] at h
    rw [Option.any_some]
    simp only [Record.unexpired, Bool.not_eq_true', Bool.or_eq_false_iff, decide_eq_false_iff_not,
      not_lt] at h ⊢
    exact ⟨h.1, h.2.trans hle⟩

/-- The expiries are changed for whole groups, of records that have not expired. -/
lemma Lasting.map {f : Record D → Record D} (h : Lasting sha clock lapsed l)
    (hkey : ∀ r ∈ l, (f r).key = r.key ∧ (f r).origin = r.origin)
    (hsame : ∀ r ∈ l, ∀ r' ∈ l, r.id sha = r'.id sha → r.info.expiresAt = r'.info.expiresAt →
      (f r).info.expiresAt = (f r').info.expiresAt)
    (hlapsed : ∀ r ∈ l, r.lapsed clock → (f r).lapsed clock) :
    Lasting sha clock lapsed (l.map f) := by
  have hlegacy : ∀ r ∈ l, (f r).legacy = r.legacy := fun r hr => congrArg Prod.fst (hkey r hr).1
  have hid : ∀ r ∈ l, (f r).id sha = r.id sha := by
    intro r hr
    have hverifier : (f r).verifier = r.verifier := congrArg Prod.snd (hkey r hr).1
    rw [Record.id, Record.group, (hkey r hr).2, hverifier]
    rfl
  constructor
  · rw [List.forall_mem_map]
    intro r hr
    rw [List.forall_mem_map]
    intro r' hr' heq
    rw [hid r hr, hid r' hr'] at heq
    exact hsame r hr r' hr' heq (h.same r hr r' hr' heq)
  · rw [List.forall_mem_map]
    intro r hr
    rw [hlegacy r hr, (hkey r hr).2]
    exact h.origin r hr
  · rw [List.forall_mem_map]
    intro r hr
    rw [List.forall_mem_map]
    intro r' hr' heq
    rw [(hkey r hr).1, (hkey r' hr').1] at heq
    rw [hid r hr, hid r' hr']
    exact h.key r hr r' hr' heq
  · rw [List.forall_mem_map]
    intro r hr hmem
    rw [(hkey r hr).1] at hmem
    exact hlapsed r hr (h.lapsed r hr hmem)

lemma Lasting.limit (h : Lasting sha clock lapsed l) (expiry : ℤ) :
    Lasting sha clock lapsed ((Grants.cleanupRecords clock l).map (Grants.limitExpiry expiry)) := by
  have hsub : Grants.cleanupRecords clock l ⊆ l := fun r hr => (mem_cleanupRecords hr).1
  refine (h.subset hsub).map (fun r _ => ⟨rfl, rfl⟩) ?_ ?_
  · intro r _ r' _ _ heq
    rw [Grants.limitExpiry, Grants.limitExpiry, heq]
  · intro r hr hlapsed
    exact absurd hlapsed (not_lapsed_of_current (mem_cleanupRecords hr).2)

end

/-- What holds of every state while tokens are new and imports bring nothing back. -/
structure Inv (sha : Sha256 D) (s : Registry D) : Prop where
  clock : 0 ≤ s.clock
  dated : ∀ r ∈ s.grants.records, r.info.expiresAt.isSome
  lasting : Lasting sha s.clock s.lapsed s.grants.records
  never : s.days = neverExpire → ∀ r ∈ s.grants.records, r.info.expiresAt = some 0
  groups : ∀ r ∈ s.grants.records, r.id sha ∈ s.groups
  tokens : ∀ r ∈ s.grants.records, ¬r.legacy → r.verifier ∈ s.tokens
  known : ∀ k ∈ s.lapsed, (k.1 → sha.hash k.2 ∈ s.groups) ∧ (¬k.1 → k.2 ∈ s.tokens)

/-- What an operation makes of the records of a state. -/
structure Outcome [DecidableEq D] (sha : Sha256 D) (s : Registry D) (a : Act D)
    (l : List (Record D)) : Prop where
  lasting : Lasting sha s.clock s.lapsed l
  never : s.nextDays a = neverExpire → ∀ r ∈ l, r.info.expiresAt = some 0
  tokens : ∀ r ∈ l, ¬r.legacy → r.verifier ∈ s.tokens ++ (s.issued a).toList.map Issue.verifier
  traced : ∀ r' ∈ l,
    (∃ q ∈ s.grants.records, q.key = r'.key ∧
      (mayExtend sha q a ∨ NoLater q.info.expiresAt r'.info.expiresAt)) ∨
    ∀ q ∈ s.grants.records, q.key ≠ r'.key

variable {sha : Sha256 D} {s s' : Registry D} {a : Act D} {now : ℤ} {l : List (Record D)}

/-! ### Time passes -/

lemma id_of_origin {r : Record D} (h : r.origin = none) : r.id sha = sha.hash r.verifier := by
  rw [Record.id, Record.group, h]
  rfl

lemma Inv.tick (h : Inv sha s) (hnow : s.clock ≤ now) : Inv sha (s.tick now) where
  clock := h.clock.trans hnow
  dated := h.dated
  lasting := {
    same := h.lasting.same
    origin := h.lasting.origin
    key := h.lasting.key
    lapsed := by
      intro r hr hmem
      rcases List.mem_append.mp hmem with hmem | hmem
      · exact lapsed_mono hnow (h.lasting.lapsed r hr hmem)
      -- another record of the credential has expired, and they expire together
      · obtain ⟨q, hq, hkey⟩ := List.mem_map.mp hmem
        obtain ⟨hq, hlapsed⟩ := List.mem_filter.mp hq
        have hexpiry := h.lasting.same q hq r hr (h.lasting.key q hq r hr hkey)
        rw [Record.lapsed, ← hexpiry]
        exact hlapsed }
  never := h.never
  groups := h.groups
  tokens := h.tokens
  known := by
    intro k hk
    rcases List.mem_append.mp hk with hk | hk
    · exact h.known k hk
    · obtain ⟨q, hq, rfl⟩ := List.mem_map.mp hk
      have hq := List.mem_of_mem_filter hq
      refine ⟨fun hlegacy => ?_, fun hlegacy => h.tokens q hq hlegacy⟩
      have hid := h.groups q hq
      rw [id_of_origin (h.lasting.origin q hq hlegacy)] at hid
      exact hid

/-! ### What each operation does -/

lemma noLater_refl {e : Option ℤ} (h : e.isSome) : NoLater e e := by
  obtain ⟨e, rfl⟩ := Option.isSome_iff_exists.mp h
  by_cases he : e = 0
  · exact ⟨e, e, rfl, rfl, .inl he⟩
  · exact ⟨e, e, rfl, rfl, .inr ⟨he, le_rfl⟩⟩

lemma noLater_next {e expiry : ℤ} (h : expiry ≠ 0 ∨ e = 0) :
    NoLater (some e) (some (Grants.nextExpiry expiry e)) := by
  refine ⟨e, _, rfl, rfl, ?_⟩
  by_cases he : e = 0
  · exact .inl he
  · have hexpiry := h.resolve_right he
    right
    rw [Grants.nextExpiry, if_neg]
    · refine ⟨?_, min_le_left _ _⟩
      rcases min_choice e expiry with hmin | hmin
      · rw [hmin]
        exact he
      · rw [hmin]
        exact hexpiry
    · rw [Bool.or_eq_true, decide_eq_true_eq, decide_eq_true_eq, not_or]
      exact ⟨hexpiry, he⟩

lemma expiresAt_ne_zero {days : ℕ} (hnow : 0 ≤ now) (hdays : days ≠ neverExpire) :
    expiresAt now days ≠ 0 := by
  rw [expiresAt, if_neg hdays, saturatingAdd]
  have hmin : 0 < min (now + days * dayMillis) i64Max :=
    lt_min (add_pos_of_nonneg_of_pos hnow (mul_dayMillis_pos hdays)) (by decide)
  exact (lt_max_of_lt_right hmin).ne'

section

variable [DecidableEq D] {legacy verifier : D} {ticket : Ticket D} {g : Grants D}

lemma isSource_id {r : Record D} (horigin : r.legacy → r.origin = none)
    (h : Grants.isSource legacy r) : r.id sha = sha.hash legacy := by
  rw [Grants.isSource, Bool.or_eq_true, Bool.and_eq_true, decide_eq_true_eq,
    decide_eq_true_eq] at h
  rcases h with ⟨hlegacy, rfl⟩ | hfrom
  · exact id_of_origin (horigin hlegacy)
  · rw [Record.id, Record.group, hfrom]
    rfl

lemma act_tick : (s.tick now).act sha a = s.act sha a := by
  cases a <;> rfl

lemma brandNew_tick : (s.tick now).brandNew sha a = s.brandNew sha a := by
  cases a <;> rfl

omit [DecidableEq D] in
lemma issued_verifier_tick :
    ((s.tick now).issued a).toList.map Issue.verifier = (s.issued a).toList.map Issue.verifier := by
  cases a <;> rfl

omit [DecidableEq D] in
lemma nextDays_tick : (s.tick now).nextDays a = s.nextDays a := by
  cases a <;> rfl

section

variable (h : Inv sha s)

include h

lemma Inv.outcome_of_subset (hsub : l ⊆ s.grants.records)
    (hdays : s.nextDays a = s.days) : Outcome sha s a l where
  lasting := h.lasting.subset hsub
  never hnever r hr := h.never (hdays ▸ hnever) r (hsub hr)
  tokens r hr hlegacy := List.mem_append_left _ (h.tokens r (hsub hr) hlegacy)
  traced r hr := .inl ⟨r, hsub hr, rfl, .inr (noLater_refl (h.dated r (hsub hr)))⟩

/-- A token is added whose verifier is new, with the expiry of its group. -/
lemma Inv.outcome_issue {x : Record D} (hsub : l ⊆ s.grants.records ++ [x])
    (hdays : s.nextDays a = s.days) (hlegacy : x.legacy = false) (hnew : x.verifier ∉ s.tokens)
    (hissue : x.verifier ∈ (s.issued a).toList.map Issue.verifier)
    (hsame : ∀ r ∈ s.grants.records, r.id sha = x.id sha →
      r.info.expiresAt = x.info.expiresAt)
    (hnever : s.days = neverExpire → x.info.expiresAt = some 0) : Outcome sha s a l := by
  have hkey : ∀ r ∈ s.grants.records, r.key ≠ x.key := by
    intro r hr heq
    obtain ⟨hl, hv⟩ := Prod.mk.inj heq
    refine hnew ?_
    rw [← hv]
    exact h.tokens r hr (by rw [hl, hlegacy]; exact Bool.false_ne_true)
  have hlapsed : x.key ∉ s.lapsed := by
    intro hmem
    refine hnew ((h.known _ hmem).2 ?_)
    show ¬x.legacy = true
    rw [hlegacy]
    exact Bool.false_ne_true
  have hcases : ∀ r ∈ l, r ∈ s.grants.records ∨ r = x :=
    fun r hr => (List.mem_append.mp (hsub hr)).imp_right List.mem_singleton.mp
  constructor
  · refine Lasting.subset (h.lasting.concat hsame ?_ hkey hlapsed) hsub
    intro htrue
    rw [hlegacy] at htrue
    cases htrue
  · intro hdays' r hr
    rw [hdays] at hdays'
    rcases hcases r hr with hr | rfl
    · exact h.never hdays' r hr
    · exact hnever hdays'
  · intro r hr hnot
    rcases hcases r hr with hr | rfl
    · exact List.mem_append_left _ (h.tokens r hr hnot)
    · exact List.mem_append_right _ hissue
  · intro r hr
    rcases hcases r hr with hr | rfl
    · exact .inl ⟨r, hr, rfl, .inr (noLater_refl (h.dated r hr))⟩
    · exact .inr hkey

/-- The expiries are limited to a validity period; of the records under it some were there, and
the others are of legacy credentials that are new. -/
lemma Inv.outcome_limit {days : ℕ} (hlasting : Lasting sha s.clock s.lapsed l)
    (hdated : ∀ r ∈ l, r.info.expiresAt.isSome)
    (hold : ∀ r ∈ l, r ∈ s.grants.records ∨
      (r.legacy ∧ ∀ q ∈ s.grants.records, q.key ≠ r.key))
    (hdays : s.nextDays a = days) (hissued : s.issued a = none)
    (hextend : days = s.days ∨ ∀ r, days = neverExpire → mayExtend sha r a) :
    Outcome sha s a
      ((Grants.cleanupRecords s.clock l).map (Grants.limitExpiry (expiresAt s.clock days))) := by
  have hmem : ∀ r ∈ Grants.cleanupRecords s.clock l, r ∈ l :=
    fun r hr => (mem_cleanupRecords hr).1
  constructor
  · exact hlasting.limit _
  · rw [hdays, List.forall_mem_map]
    rintro rfl r hr
    obtain ⟨e, he⟩ := Option.isSome_iff_exists.mp (hdated r (hmem r hr))
    show r.info.expiresAt.map _ = some 0
    rw [he, expiresAt, if_pos rfl]
    rfl
  · rw [List.forall_mem_map, hissued]
    intro r hr hlegacy
    rcases hold r (hmem r hr) with hr | ⟨htrue, -⟩
    · exact List.mem_append_left _ (h.tokens r hr hlegacy)
    · exact absurd htrue hlegacy
  · rw [List.forall_mem_map]
    intro r hr
    rcases hold r (hmem r hr) with hr | ⟨-, hnew⟩
    · left
      refine ⟨r, hr, rfl, ?_⟩
      obtain ⟨e, he⟩ := Option.isSome_iff_exists.mp (h.dated r hr)
      have hlimit : (Grants.limitExpiry (expiresAt s.clock days) r).info.expiresAt =
          some (Grants.nextExpiry (expiresAt s.clock days) e) := by
        show r.info.expiresAt.map _ = _
        rw [he]
        rfl
      rw [hlimit, he]
      by_cases hnever : days = neverExpire
      · rcases hextend with heq | hmay
        · have hzero := h.never (heq ▸ hnever) r hr
          rw [he] at hzero
          exact .inr (noLater_next (.inr (Option.some_inj.mp hzero)))
        · exact .inl (hmay r hnever)
      · exact .inr (noLater_next (.inl (expiresAt_ne_zero h.clock hnever)))
    · exact .inr hnew

lemma Inv.lasting_import {start imported : List (Record D)}
    (hnew : ∀ r ∈ imported, (∃ q ∈ start, q.id sha = r.id sha) ∨ r.id sha ∉ s.groups)
    (hlegacy : ∀ r ∈ imported, r.legacy ∧ r.origin = none) (hsub : start ⊆ l)
    (hlasting : Lasting sha s.clock s.lapsed l) :
    Lasting sha s.clock s.lapsed (imported.foldl (Grants.importRecord sha s.clock) l) := by
  -- over the records that are imported; those at the start stay
  induction imported generalizing l with
  | nil => exact hlasting
  | cons x imported ih =>
    rw [List.forall_mem_cons] at hnew hlegacy
    refine ih hnew.2 hlegacy.2
      (List.Subset.trans hsub (subset_importRecord sha s.clock l x)) ?_
    rw [Grants.importRecord]
    split_ifs with hadd
    · simp only [Bool.and_eq_true, Bool.not_eq_true', List.any_eq_false, decide_eq_true_eq] at hadd
      have hid : x.id sha = sha.hash x.verifier := id_of_origin hlegacy.1.2
      refine hlasting.concat (fun r hr heq => absurd heq (hadd.2 r hr)) (fun _ => hlegacy.1.2) ?_ ?_
      · intro r hr heq
        obtain ⟨hl, hv⟩ := Prod.mk.inj heq
        refine hadd.2 r hr ?_
        rw [hid, ← hv]
        exact id_of_origin (hlasting.origin r hr (by rw [hl]; exact hlegacy.1.1))
      · intro hmem
        rcases hnew.1 with ⟨q, hq, heq⟩ | hgroup
        · exact hadd.2 q (hsub hq) heq
        · rw [hid] at hgroup
          exact hgroup ((h.known _ hmem).1 hlegacy.1.1)
    · exact hlasting

lemma Inv.outcome_import {devices : List LegacyDevice} {firstStore : Option D}
    {scope : D} (hok : s.brandNew sha (.importDevices devices firstStore scope s.clock)) :
    Outcome sha s (.importDevices devices firstStore scope s.clock)
      (s.grants.importDevices sha devices firstStore scope s.days s.clock).records := by
  have hstart : (s.grants.importStart firstStore scope).records ⊆ s.grants.records := by
    rw [importStart_records]
    split_ifs
    · exact List.nil_subset _
    · exact List.Subset.refl _
  have hlegacy : ∀ r ∈ devices.filterMap (LegacyDevice.record sha),
      r.info.expiresAt.isSome ∧ r.legacy ∧ r.origin = none := by
    intro r hr
    obtain ⟨device, -, hdevice⟩ := List.mem_filterMap.mp hr
    exact record_some hdevice
  have hnew : ∀ r ∈ devices.filterMap (LegacyDevice.record sha),
      (∃ q ∈ (s.grants.importStart firstStore scope).records, q.id sha = r.id sha) ∨
        r.id sha ∉ s.groups := by
    intro r hr
    have hr := List.all_eq_true.mp hok r hr
    rw [← importStart_records s.grants firstStore scope, Bool.or_eq_true] at hr
    simpa only [List.any_eq_true, decide_eq_true_eq, Bool.not_eq_true', ← Bool.not_eq_true,
      List.contains_iff_mem] using hr
  rcases importDevices_cases sha s.grants devices firstStore scope s.days s.clock with
    heq | heq
  · rw [heq]
    exact h.outcome_of_subset hstart rfl
  · rw [heq]
    refine h.outcome_limit (h.lasting_import hnew (fun r hr => (hlegacy r hr).2)
      (List.Subset.refl _) (h.lasting.subset hstart)) ?_ ?_ rfl rfl (.inl rfl)
    · intro r hr
      rcases mem_foldl_importRecord hr with hr | ⟨hr, -⟩
      · exact h.dated r (hstart hr)
      · exact (hlegacy r hr).1
    · intro r hr
      rcases mem_foldl_importRecord hr with hr | ⟨hr, hgone⟩
      · exact .inl (hstart hr)
      · refine .inr ⟨(hlegacy r hr).2.1, fun q hq heq => ?_⟩
        -- a record of the credential would be of the same group, and that group is new
        obtain ⟨hl, hv⟩ := Prod.mk.inj heq
        have hid : q.id sha = r.id sha := by
          rw [id_of_origin (hlegacy r hr).2.2, ← hv]
          exact id_of_origin (h.lasting.origin q hq (by rw [hl]; exact (hlegacy r hr).2.1))
        rcases hnew r hr with ⟨p, hp, hpid⟩ | hgroup
        · exact hgone p hp hpid
        · exact hgroup (hid ▸ h.groups q hq)

lemma Inv.outcome_renew {recordIds : List D}
    (hcurrent : ∀ id ∈ recordIds, ∃ r ∈ s.grants.records, r.id sha = id ∧ r.current s.clock)
    (hdays : s.days ≠ neverExpire) :
    Outcome sha s (.renew recordIds s.clock) (s.grants.records.map fun r =>
      if recordIds.contains (r.id sha) then
        { r with info := { r.info with expiresAt := some (expiresAt s.clock s.days) } }
      else r) := by
  constructor
  · apply h.lasting.map
    · intro r _
      split_ifs <;> exact ⟨rfl, rfl⟩
    · intro r _ r' _ hid heq
      rw [hid]
      split_ifs
      · rfl
      · exact heq
    · intro r hr hlapsed
      split_ifs with hrenew
      · -- the group has a record that is valid, and expires together
        obtain ⟨q, hq, hid, hvalid⟩ := hcurrent _ (List.contains_iff_mem.mp hrenew)
        refine absurd ?_ (not_lapsed_of_current hvalid)
        rw [Record.lapsed, h.lasting.same q hq r hr hid]
        exact hlapsed
      · exact hlapsed
  · exact fun hnever => absurd hnever hdays
  · rw [List.forall_mem_map]
    intro r hr hlegacy
    refine List.mem_append_left _ ?_
    split_ifs at hlegacy ⊢
    · exact h.tokens r hr hlegacy
    · exact h.tokens r hr hlegacy
  · rw [List.forall_mem_map]
    intro r hr
    refine .inl ⟨r, hr, ?_, ?_⟩
    · split_ifs <;> rfl
    · split_ifs with hrenew
      · exact .inl hrenew
      · exact .inr (noLater_refl (h.dated r hr))

lemma Inv.outcome_migrate {readings : List ℤ}
    (hok : s.brandNew sha (.migrate ticket legacy verifier readings s.clock))
    (hact : s.grants.migrate ticket legacy verifier readings s.clock = .ok g) :
    Outcome sha s (.migrate ticket legacy verifier readings s.clock) g.records := by
  obtain ⟨source, hsource, rfl⟩ := migrate_ok hact
  obtain ⟨-, t, hzip, -, hfrom⟩ := migrationSource_ok hsource
  have hmem := (List.of_mem_zip hzip).1
  rw [brandNew, Bool.not_eq_true', ← Bool.not_eq_true, List.contains_iff_mem] at hok
  refine h.outcome_issue (fun r hr => (mem_cleanupRecords hr).1) rfl rfl hok
    (List.mem_singleton.mpr rfl) ?_ ?_
  · intro r hr hid
    refine h.lasting.same r hr source hmem (hid.trans ?_)
    rw [isSource_id (h.lasting.origin source hmem) hfrom]
    rfl
  · exact fun hnever => h.never hnever source hmem

lemma Inv.outcome_enroll {id name platform : String}
    (hok : s.brandNew sha (.enroll ticket verifier id name platform s.clock)) (hact :
      s.grants.enrollDigest ticket verifier (enrollInfo s.days id name platform s.clock) = .ok g) :
    Outcome sha s (.enroll ticket verifier id name platform s.clock) g.records := by
  obtain ⟨-, rfl⟩ := enrollDigest_ok hact
  simp only [brandNew, Bool.and_eq_true, Bool.not_eq_true', ← Bool.not_eq_true,
    List.contains_iff_mem] at hok
  refine h.outcome_issue (x := ⟨verifier, enrollInfo s.days id name platform s.clock, false, none⟩)
    ?_ rfl rfl hok.2 (List.mem_singleton.mpr rfl) ?_ ?_
  · intro r hr
    rcases List.mem_append.mp (mem_cleanupRecords hr).1 with hr | hr
    · refine List.mem_append_left _ ?_
      split_ifs at hr
      · exact List.mem_of_mem_filter hr
      · exact hr
    · exact List.mem_append_right _ hr
  · intro r hr hid
    refine absurd (h.groups r hr) ?_
    rw [hid]
    exact hok.1
  · intro hnever
    show some (expiresAt s.clock s.days) = some 0
    rw [expiresAt, if_pos hnever]

lemma Inv.outcome (hnow : a.now = s.clock) (hok : s.brandNew sha a)
    (hact : s.act sha a = .ok g) : Outcome sha s a g.records := by
  cases a <;> cases hnow
  case enroll => exact h.outcome_enroll hok hact
  case migrate => exact h.outcome_migrate hok hact
  case renew =>
    have hdays : s.days ≠ neverExpire := by
      intro hnever
      rw [Registry.act, Grants.renew] at hact
      split_ifs at hact
    obtain ⟨hcurrent, rfl⟩ := renew_ok hact
    exact h.outcome_renew hcurrent hdays
  all_goals cases hact
  case importDevices => exact h.outcome_import hok
  case updateExpiration =>
    exact h.outcome_limit h.lasting h.dated (fun r hr => .inl hr) rfl rfl (.inl rfl)
  case changeDays =>
    refine h.outcome_limit h.lasting h.dated (fun r hr => .inl hr) rfl rfl (.inr fun r hnever => ?_)
    exact decide_eq_true hnever
  case cleanup => exact h.outcome_of_subset (fun r hr => (mem_cleanupRecords hr).1) rfl
  case confirmMigration => exact h.outcome_of_subset (confirmMigration_subset _ _) rfl
  case verify => exact h.outcome_of_subset (List.Subset.refl _) rfl

/-- What an operation does, after the time has passed to it. -/
lemma Inv.outcome_of_act (htimely : s.timely a) (hok : s.brandNew sha a)
    (hact : s.act sha a = .ok g) : Outcome sha (s.tick a.now) a g.records := by
  refine (h.tick (clock_le_now htimely)).outcome rfl ?_ ?_
  · rw [brandNew_tick]
    exact hok
  · rw [act_tick]
    exact hact

lemma Inv.step (hok : s.brandNew sha a) (hstep : s.step sha a = some s') : Inv sha s' := by
  obtain ⟨htimely, ⟨g, hact, rfl⟩ | rfl⟩ := step_cases hstep
  · have htick := h.tick (clock_le_now htimely)
    have hout := h.outcome_of_act htimely hok hact
    refine ⟨htick.clock, dated_act hact h.dated, hout.lasting, ?_, ?_, ?_, ?_⟩
    · intro hnever
      exact hout.never (nextDays_tick.trans hnever)
    · exact fun r hr => List.mem_append_right _ (List.mem_map_of_mem hr)
    · intro r hr hlegacy
      have htoken := hout.tokens r hr hlegacy
      rw [issued_verifier_tick] at htoken
      exact htoken
    · intro k hk
      obtain ⟨hgroup, htoken⟩ := htick.known k hk
      exact ⟨fun hlegacy => List.mem_append_left _ (hgroup hlegacy),
        fun hlegacy => List.mem_append_left _ (htoken hlegacy)⟩
  · exact h.tick (clock_le_now htimely)

end

lemma Inv.of_reachable (h : ((registry sha).restrict (brandNew sha)).Reachable s) : Inv sha s := by
  refine h.restrict_invariant ?_ fun _ _ _ hs => hs.step
  rintro _ ⟨scope, generation, days, rfl⟩
  have hnil : ∀ {p : Record D → Prop}, ∀ r ∈ ([] : List (Record D)), p r :=
    fun r hr => absurd hr List.not_mem_nil
  exact ⟨le_rfl, hnil, ⟨hnil, hnil, hnil, hnil⟩, fun _ => hnil, hnil, hnil,
    fun k hk => absurd hk List.not_mem_nil⟩

end

end Registry

end RustDesk.TrustedDevices
