import RustDesk.TrustedDevices.Registry

/-!
# How many tokens there are

There are at most `MAX_RECORDS` tokens. The oldest are removed for a new one, in the order in which
they were issued, and legacy records are not counted. The new token is the last of that order: it
stays, unless it has expired by the time the records are cleaned. A token that is migrated has the
expiry of its source, and the clock is read once for the source and once more for the cleanup.
-/

namespace RustDesk.TrustedDevices

variable {D : Type}

namespace Grants

variable {n : ℕ} {now : ℤ} {r r' x : Record D} {l : List (Record D)}

/-! ### The oldest are removed -/

lemma dropOldest_cons_legacy (h : r.legacy) : dropOldest n (r :: l) = r :: dropOldest n l := by
  cases n with
  | zero => rw [dropOldest, dropOldest]
  | succ n => rw [dropOldest, if_pos h]

lemma countP_dropOldest (n : ℕ) (l : List (Record D)) :
    (dropOldest n l).countP (!·.legacy) = l.countP (!·.legacy) - n := by
  induction l generalizing n with
  | nil => cases n <;> simp [dropOldest]
  | cons a l ih =>
    by_cases ha : a.legacy
    · rw [dropOldest_cons_legacy ha, List.countP_cons_of_neg (by simpa using ha),
        List.countP_cons_of_neg (by simpa using ha), ih]
    · rw [List.countP_cons_of_pos (by simpa using ha)]
      cases n with
      | zero => rw [dropOldest, List.countP_cons_of_pos (by simpa using ha), Nat.sub_zero]
      | succ n => rw [dropOldest, if_neg ha, ih, Nat.add_sub_add_right]

lemma mem_dropOldest_of_legacy (n : ℕ) (hr : r ∈ l) (hlegacy : r.legacy) : r ∈ dropOldest n l := by
  induction l generalizing n with
  | nil => cases hr
  | cons a l ih =>
    by_cases ha : a.legacy
    · rw [dropOldest_cons_legacy ha]
      rcases List.mem_cons.mp hr with rfl | hr
      · exact List.mem_cons_self
      · exact List.mem_cons_of_mem _ (ih n hr)
    · cases n with
      | zero => exact hr
      | succ n =>
        rw [dropOldest, if_neg ha]
        rcases List.mem_cons.mp hr with rfl | hr
        · exact absurd hlegacy ha
        · exact ih n hr

/-- In the order of time, whatever is removed is no younger than what stays. -/
lemma time_le_of_dropped (n : ℕ) (hsorted : l.Pairwise fun a b => a.info.time ≤ b.info.time)
    (hr : r ∈ l) (hgone : r ∉ dropOldest n l) (hr' : r' ∈ dropOldest n l) (hlegacy : ¬r'.legacy) :
    r.info.time ≤ r'.info.time := by
  induction l generalizing n with
  | nil => cases hr
  | cons a l ih =>
    obtain ⟨hfirst, hsorted⟩ := List.pairwise_cons.mp hsorted
    by_cases ha : a.legacy
    · rw [dropOldest_cons_legacy ha] at hgone hr'
      rw [List.mem_cons, not_or] at hgone
      refine ih n hsorted ((List.mem_cons.mp hr).resolve_left hgone.1) hgone.2 ?_
      refine (List.mem_cons.mp hr').resolve_left ?_
      rintro rfl
      exact hlegacy ha
    · cases n with
      | zero => exact absurd hr hgone
      | succ n =>
        rw [dropOldest, if_neg ha] at hgone hr'
        rcases List.mem_cons.mp hr with rfl | hr
        · exact hfirst r' ((dropOldest_sublist n l).subset hr')
        · exact ih n hsorted hr hgone hr'

/-- The youngest stays if another can be removed for it. -/
lemma mem_dropOldest_concat (hn : n ≤ l.countP (!·.legacy)) : x ∈ dropOldest n (l ++ [x]) := by
  induction l generalizing n with
  | nil =>
    obtain rfl : n = 0 := Nat.le_zero.mp hn
    exact List.mem_singleton.mpr rfl
  | cons a l ih =>
    rw [List.cons_append]
    by_cases ha : a.legacy
    · rw [dropOldest_cons_legacy ha]
      rw [List.countP_cons_of_neg (by simpa using ha)] at hn
      exact List.mem_cons_of_mem _ (ih hn)
    · cases n with
      | zero => exact List.mem_cons_of_mem _ (List.mem_append_right _ (List.mem_singleton.mpr rfl))
      | succ n =>
        rw [dropOldest, if_neg ha]
        rw [List.countP_cons_of_pos (by simpa using ha)] at hn
        exact ih (Nat.le_of_succ_le_succ hn)

/-! ### The cleanup -/

lemma orderedInsert_concat (h : r.info.time ≤ x.info.time) (l : List (Record D)) :
    (l ++ [x]).orderedInsert (fun a b => a.info.time ≤ b.info.time) r =
      l.orderedInsert (fun a b => a.info.time ≤ b.info.time) r ++ [x] := by
  induction l with
  | nil =>
    rw [List.nil_append, List.orderedInsert_cons, if_pos h]
    rfl
  | cons b l ih =>
    rw [List.cons_append, List.orderedInsert_cons, List.orderedInsert_cons]
    split_ifs
    · rfl
    · rw [ih, List.cons_append]

/-- The sort is stable: a record that is no older than the others stays last. -/
lemma insertionSort_concat (h : ∀ y ∈ l, y.info.time ≤ x.info.time) :
    (l ++ [x]).insertionSort (fun a b => a.info.time ≤ b.info.time) =
      l.insertionSort (fun a b => a.info.time ≤ b.info.time) ++ [x] := by
  induction l with
  | nil => rfl
  | cons a l ih =>
    rw [List.forall_mem_cons] at h
    rw [List.cons_append, List.insertionSort_cons, List.insertionSort_cons, ih h.2,
      orderedInsert_concat h.1]

lemma countP_cleanupRecords (now : ℤ) (l : List (Record D)) :
    (cleanupRecords now l).countP (!·.legacy) ≤ maxRecords := by
  rw [cleanupRecords, countP_dropOldest]
  omega

/-- A record that is gone has expired or is not yet valid, or is a token that made room. -/
lemma gone_of_cleanup (hr : r ∈ l) (hgone : r ∉ cleanupRecords now l) :
    ¬r.current now ∨ (¬r.legacy ∧
      ∀ r' ∈ cleanupRecords now l, ¬r'.legacy → r.info.time ≤ r'.info.time) := by
  by_cases hcurrent : r.current now
  · right
    rw [cleanupRecords] at hgone
    have hmem : r ∈ (l.filter (·.current now)).insertionSort
        fun a b => a.info.time ≤ b.info.time :=
      (List.mem_insertionSort _).mpr (List.mem_filter.mpr ⟨hr, hcurrent⟩)
    refine ⟨fun hlegacy => hgone (mem_dropOldest_of_legacy _ hmem hlegacy), ?_⟩
    intro r' hr' hlegacy
    have : Std.Total fun a b : Record D => a.info.time ≤ b.info.time := ⟨fun _ _ => le_total _ _⟩
    have : IsTrans (Record D) fun a b => a.info.time ≤ b.info.time := ⟨fun _ _ _ => le_trans⟩
    exact time_le_of_dropped _ (List.pairwise_insertionSort _ _) hmem hgone hr' hlegacy
  · exact .inl hcurrent

lemma mem_cleanup_concat (htime : x.info.time = now) (hcurrent : x.current now)
    (hlegacy : ¬x.legacy) : x ∈ cleanupRecords now (l ++ [x]) := by
  rw [cleanupRecords, List.filter_append, List.filter_singleton, hcurrent, cond_true,
    insertionSort_concat]
  · refine mem_dropOldest_concat ?_
    rw [List.countP_append, List.countP_singleton, if_pos (by simpa using hlegacy)]
    have : 0 < maxRecords := by
      rw [maxRecords]
      decide
    omega
  · intro y hy
    have hy := (List.mem_filter.mp hy).2
    rw [Record.current, Bool.and_eq_true, decide_eq_true_eq] at hy
    rw [htime]
    exact hy.1

end Grants

/-! ### What issuing a token leaves -/

/-- The records after a token was issued: there are not too many, the token is good, and a record
that is gone has expired, is not yet valid, is of the same device, or is a token that was issued no
later than those that stayed. -/
structure Issue.Kept [DecidableEq D] (issue : Issue D) (g : Grants D) : Prop where
  capped : g.records.countP (!·.legacy) ≤ maxRecords
  verifies : g.verifyDigest issue.ticket (some issue.verifier) issue.now = .ok true
  gone : ∀ r ∈ issue.before, r ∉ g.records →
    (issue.now < r.info.time ∨ r.lapsed issue.now) ∨
    (issue.deviceId ≠ "" ∧ r.info.id = issue.deviceId) ∨
    (¬r.legacy ∧ ∀ r' ∈ g.records, ¬r'.legacy → r.info.time ≤ r'.info.time)

namespace Registry

variable {verifier : D}

/-- A token is issued before the end of time, and what it is migrated from does not expire between
the reading of the clock that finds it and the one that dates the token. -/
def inTime [DecidableEq D] (s : Registry D) : Act D → Bool
  | .enroll _ _ _ _ _ now => s.days = neverExpire || now < i64Max
  | .migrate _ legacy _ readings now =>
    (s.grants.records.zip readings).all fun p =>
      !(p.1.current p.2 && Grants.isSource legacy p.1) ||
        p.1.info.expiresAt.any (Record.unexpired now)
  | _ => true

/-- The token the last operation gave out is kept, and only what has to go is gone. -/
def IssueKept [DecidableEq D] (s : Registry D) : Prop := ∀ issue ∈ s.issue, issue.Kept s.grants

variable {g : Grants D} {s s' : Registry D} {now : ℤ} {x : Record D} {l : List (Record D)}
  {ticket : Ticket D}

/-- A dated record that is not current has expired or is not yet valid. -/
lemma lapsed_of_not_current {r : Record D} (hdated : r.info.expiresAt.isSome)
    (h : ¬r.current now) : now < r.info.time ∨ r.lapsed now := by
  obtain ⟨expiry, hexpiry⟩ := Option.isSome_iff_exists.mp hdated
  rw [Record.current, hexpiry, Option.any_some, Bool.and_eq_true, not_and_or, decide_eq_true_eq,
    not_le] at h
  rw [Record.lapsed, hexpiry, Option.any_some, Bool.not_eq_true', ← Bool.not_eq_true]
  exact h

variable [DecidableEq D]

lemma verifies_of_mem (hticket : g.checkTicket ticket = .ok ()) (hmem : x ∈ g.records)
    (hlegacy : ¬x.legacy) (hcurrent : x.current now) :
    g.verifyDigest ticket (some x.verifier) now = .ok true := by
  rw [Grants.verifyDigest, hticket]
  refine congrArg Except.ok (List.any_eq_true.mpr ⟨x, hmem, ?_⟩)
  rw [Bool.and_eq_true, Bool.and_eq_true, Bool.not_eq_true', decide_eq_true_eq]
  exact ⟨⟨Bool.not_eq_true _ ▸ hlegacy, hcurrent⟩, rfl⟩

/-- A token at the end of the records that is current now is kept by the cleanup. -/
lemma kept_of_concat {issue : Issue D} {scope : Option D} {generation : D}
    (hticket : (⟨scope, generation, issue.before⟩ : Grants D).checkTicket issue.ticket = .ok ())
    (hdated : ∀ r ∈ issue.before, r.info.expiresAt.isSome)
    (hleft : ∀ r ∈ issue.before, r ∉ l → issue.deviceId ≠ "" ∧ r.info.id = issue.deviceId)
    (hlegacy : ¬x.legacy) (hverifier : x.verifier = issue.verifier)
    (htime : x.info.time = issue.now) (hcurrent : x.current issue.now) :
    issue.Kept ⟨scope, generation, Grants.cleanupRecords issue.now (l ++ [x])⟩ where
  capped := Grants.countP_cleanupRecords _ _
  verifies := by
    rw [← hverifier]
    exact verifies_of_mem hticket (Grants.mem_cleanup_concat htime hcurrent hlegacy) hlegacy
      hcurrent
  gone := by
    intro r hr hgone
    by_cases hl : r ∈ l
    · rcases Grants.gone_of_cleanup (List.mem_append_left _ hl) hgone with hold | hroom
      · exact .inl (lapsed_of_not_current (hdated r hr) hold)
      · exact .inr (.inr hroom)
    · exact .inr (.inl (hleft r hr hl))

lemma expiresAt_unexpired {days : ℕ} (h : days = neverExpire ∨ now < i64Max) :
    Record.unexpired now (expiresAt now days) := by
  rw [Record.unexpired, expiresAt]
  split_ifs with hdays
  · rfl
  · have hmax := h.resolve_left hdays
    rw [Bool.or_eq_true, decide_eq_true_eq, decide_eq_true_eq, saturatingAdd]
    right
    exact lt_max_of_lt_right (lt_min (lt_add_of_pos_right now (mul_dayMillis_pos hdays)) hmax)

variable (hdated : ∀ r ∈ s.grants.records, r.info.expiresAt.isSome)

include hdated

lemma issueKept_enroll {id name platform : String}
    (hok : s.inTime (.enroll ticket verifier id name platform now))
    (h : s.grants.enrollDigest ticket verifier (enrollInfo s.days id name platform now) = .ok g) :
    Issue.Kept ⟨ticket, verifier, id, now, s.grants.records⟩ g := by
  obtain ⟨hticket, rfl⟩ := Grants.enrollDigest_ok h
  refine kept_of_concat hticket hdated ?_ Bool.false_ne_true rfl rfl ?_
  · intro r hr hleft
    rw [enrollInfo] at hleft
    split_ifs at hleft with hid
    · rw [List.mem_filter, not_and, decide_eq_true_eq, not_not] at hleft
      exact ⟨hid, hleft hr⟩
    · exact absurd hr hleft
  · rw [inTime, Bool.or_eq_true, decide_eq_true_eq, decide_eq_true_eq] at hok
    rw [Record.current, Bool.and_eq_true, decide_eq_true_eq]
    exact ⟨le_rfl, expiresAt_unexpired hok⟩

lemma issueKept_migrate {legacy : D} {readings : List ℤ}
    (hok : s.inTime (.migrate ticket legacy verifier readings now))
    (h : s.grants.migrate ticket legacy verifier readings now = .ok g) :
    Issue.Kept ⟨ticket, verifier, "", now, s.grants.records⟩ g := by
  obtain ⟨source, hsource, rfl⟩ := Grants.migrate_ok h
  obtain ⟨hticket, t, hzip, hcurrent, hfrom⟩ := Grants.migrationSource_ok hsource
  refine kept_of_concat hticket hdated ?_ Bool.false_ne_true rfl rfl ?_
  · exact fun r hr hleft => absurd hr hleft
  · have hsource := List.all_eq_true.mp hok _ hzip
    rw [hcurrent, hfrom, Bool.and_self, Bool.not_true, Bool.false_or] at hsource
    rw [Record.current, Bool.and_eq_true, decide_eq_true_eq]
    exact ⟨le_rfl, hsource⟩

lemma issueKept_step {sha : Sha256 D} {a : Act D} (hok : s.inTime a)
    (h : s.step sha a = some s') : s'.IssueKept := by
  obtain ⟨-, ⟨g, hact, rfl⟩ | rfl⟩ := step_cases h
  · intro issue hissue
    cases a with
    | enroll ticket verifier id name platform now =>
      cases hissue
      exact issueKept_enroll hdated hok hact
    | migrate ticket legacy verifier readings now =>
      cases hissue
      exact issueKept_migrate hdated hok hact
    | _ => cases hissue
  · intro issue hissue
    cases hissue

end Registry

/-- While tokens are issued in time, whatever is issued is kept, and nothing is removed for it but
what has expired or is not yet valid, the records of the same device, and the oldest tokens. -/
theorem issue_kept [DecidableEq D] {sha : Sha256 D} {s : Registry D}
    (h : ((registry sha).restrict Registry.inTime).Reachable s) : s.IssueKept := by
  cases h with
  | init hinit =>
    obtain ⟨scope, generation, days, rfl⟩ := hinit
    intro issue hissue
    cases hissue
  | step hs hstep =>
    obtain ⟨hok, hstep⟩ := LTS.restrict_step_some hstep
    exact Registry.issueKept_step (Registry.dated hs.of_restrict) hok hstep

/-- Numbers for digests, and a legacy device told by the length of its hardware id. -/
def numbered : Sha256 ℕ := ⟨id, fun hwid _ _ _ => hwid.length⟩

/-- No records yet; they are valid for a day. -/
def oneDay : Registry ℕ := { grants := ⟨none, 0, []⟩, days := 1 }

/-- A legacy device that is trusted for a second. -/
def forASecond : LegacyDevice := ⟨[0], { expiresAt := some 1000, id := "a" }⟩

/-- The device is imported and gets a token in time; then it is enrolled anew, which replaces both
its records. -/
theorem issue_kept_replaced : ∃ s ∈ (registry numbered).run oneDay
      [.importDevices [forASecond] (some 5) 7 10, .migrate ⟨7, 5⟩ 1 42 [998] 999,
        .enroll ⟨7, 5⟩ 43 "a" "" "" 999],
    s.grants.records.map Record.verifier = [43] ∧ s.IssueKept :=
  LTS.exists_run_restrict Registry.inTime ⟨none, 0, 1, rfl⟩ (by decide +kernel) fun _ => issue_kept

/-- The device expires after it was found and before its token is dated: the token is removed at
once. -/
theorem issue_lost : ∃ s ∈ (registry numbered).run oneDay
      [.importDevices [forASecond] (some 5) 7 10, .migrate ⟨7, 5⟩ 1 42 [999] 1000],
    s.issue.map Issue.verifier = some 42 ∧ s.grants.records = [] ∧ ¬s.IssueKept := by
  refine LTS.exists_run_of (P := fun s => s.issue.map Issue.verifier = some 42 ∧
    s.grants = ⟨some 7, 5, []⟩ ∧ s.issue.map Issue.ticket = some ⟨7, 5⟩) (by decide +kernel) ?_
  rintro s - ⟨hissue, hgrants, hticket⟩
  refine ⟨hissue, by rw [hgrants], fun hkept => ?_⟩
  obtain ⟨issue, hmem, -⟩ := Option.map_eq_some_iff.mp hissue
  rw [hmem] at hticket
  have hverifies := (hkept issue hmem).verifies
  rw [hgrants, Option.some_inj.mp hticket] at hverifies
  exact absurd (Except.ok.inj hverifies) Bool.false_ne_true

end RustDesk.TrustedDevices
