import RustDesk.Lib.Transition

/-!
# Backing off after failed logins with credentials of the operating system

Failed logins of this kind are counted for the whole host. From the third on each starts a backoff,
twice as long as the one before up to half an hour, in which every attempt is refused; two hours
without a failure start the count over.
-/

namespace RustDesk.Login

inductive FailureScope where
  | default
  | terminalOsLogin
  deriving DecidableEq

/-- `AlarmAuditType`, as far as failed logins raise it. -/
inductive AlarmAuditType where
  | exceedThirtyAttempts
  | sixAttemptsWithinOneMinute
  | exceedIPv6PrefixAttempts
  | terminalOsLoginBackoff
  deriving DecidableEq

structure OsCredentialPolicyDecision where
  allowed : Bool
  loginError : Option String
  audit : Option AlarmAuditType
  deriving DecidableEq

structure OsCredentialFailureState where
  totalFailures : ℕ := 0
  backoffUntilMs : Option ℤ := none
  lastFailureMs : Option ℤ := none
  deriving DecidableEq

namespace OsCredential

def totalIdleResetMs : ℤ := 120 * 60 * 1000

def backoffBaseSeconds : ℤ := 15

def backoffMaxSeconds : ℤ := 30 * 60

def i32Max : ℕ := 2 ^ 31 - 1

/-- `i64::saturating_sub` -/
def saturatingSub (a b : ℤ) : ℤ := max (-2 ^ 63) (min (a - b) (2 ^ 63 - 1))

/-- What a sum or a difference is as an `i64`. -/
def asI64 (n : ℤ) : ℤ := n.bmod (2 ^ 64)

def isOsCredentialScope (scope : FailureScope) : Bool := scope = .terminalOsLogin

def backoffAuditTypeForScope : FailureScope → Option AlarmAuditType
  | .terminalOsLogin => some .terminalOsLoginBackoff
  | .default => none

def osCredentialLoginBackoffSeconds (totalFailures : ℕ) : ℤ :=
  if totalFailures ≤ 2 then 0
  else min (backoffBaseSeconds * 2 ^ min (totalFailures - 3) 7) backoffMaxSeconds

def normalizeBackoff (s : OsCredentialFailureState) (nowMs : ℤ) : OsCredentialFailureState :=
  match s.backoffUntilMs with
  | some untilMs => if untilMs ≤ nowMs then { s with backoffUntilMs := none } else s
  | none => s

def resetTotalsOnIdle (s : OsCredentialFailureState) (nowMs : ℤ) : OsCredentialFailureState :=
  match s.lastFailureMs with
  | some lastMs => if totalIdleResetMs ≤ saturatingSub nowMs lastMs then {} else s
  | none => s

def allowDecision : OsCredentialPolicyDecision := ⟨true, none, none⟩

def blockDecision (loginError : String) (alarmType : Option AlarmAuditType) :
    OsCredentialPolicyDecision :=
  ⟨false, some loginError, alarmType⟩

def evaluateOsCredentialPolicy (scope : FailureScope) (nowMs : ℤ) (s : OsCredentialFailureState) :
    OsCredentialPolicyDecision × OsCredentialFailureState :=
  if !isOsCredentialScope scope then (allowDecision, s)
  else
    let s := normalizeBackoff (resetTotalsOnIdle s nowMs) nowMs
    match s.backoffUntilMs with
    | some untilMs =>
      let remainingMs := max (asI64 (untilMs - nowMs)) 0
      let remainingSeconds := max (asI64 (remainingMs + 999) / 1000) 1
      let secondsLabel := if remainingSeconds = 1 then "second" else "seconds"
      (blockDecision
        ("Please try again in " ++ toString remainingSeconds ++ " " ++ secondsLabel ++ ".")
        (backoffAuditTypeForScope scope), s)
    | none => (allowDecision, s)

def recordOsCredentialFailure (scope : FailureScope) (nowMs : ℤ) (s : OsCredentialFailureState) :
    OsCredentialFailureState :=
  if !isOsCredentialScope scope then s
  else
    let s := normalizeBackoff (resetTotalsOnIdle s nowMs) nowMs
    let totalFailures := min (s.totalFailures + 1) i32Max
    let backoffSeconds := osCredentialLoginBackoffSeconds totalFailures
    { totalFailures
      lastFailureMs := some nowMs
      backoffUntilMs :=
        if 0 < backoffSeconds then some (asI64 (nowMs + backoffSeconds * 1000))
        else s.backoffUntilMs }

/-! ### Runs of failures -/

/-- How long the `k`-th failure of a run keeps everyone out, in milliseconds. -/
def backoff (k : ℕ) : ℤ := if k ≤ 2 then 0 else 1000 * min (15 * 2 ^ (k - 3)) 1800

/-- The place of the latest failure in its run; no two in a row are two hours or more apart. The
latest comes first. -/
def runLength : List ℤ → ℕ
  | [] => 0
  | [_] => 1
  | t :: u :: rest => if totalIdleResetMs ≤ t - u then 1 else runLength (u :: rest) + 1

/-- The counter of the host, with the time of the last call and the failures so far, the latest
first. -/
structure Host where
  state : OsCredentialFailureState := {}
  clock : ℤ
  failures : List ℤ := []

inductive Act where
  | evaluate (scope : FailureScope) (nowMs : ℤ)
  | record (scope : FailureScope) (nowMs : ℤ)
  deriving DecidableEq

def Act.nowMs : Act → ℤ
  | .evaluate _ nowMs | .record _ nowMs => nowMs

/-- The clock is an `i64`, and so is the end of the longest backoff from it on. -/
def Act.inRange (a : Act) : Bool :=
  -2 ^ 63 ≤ a.nowMs ∧ a.nowMs + backoffMaxSeconds * 1000 < 2 ^ 63

def Host.act (h : Host) : Act → Host
  | .evaluate scope nowMs =>
    { h with state := (evaluateOsCredentialPolicy scope nowMs h.state).2, clock := nowMs }
  | .record scope nowMs =>
    { state := recordOsCredentialFailure scope nowMs h.state
      clock := nowMs
      failures := if isOsCredentialScope scope then nowMs :: h.failures else h.failures }

/-- Time does not go back from one call to the next. -/
def hosts : LTS Host Act where
  init h := h.state = {} ∧ h.failures = []
  step h a := if h.clock ≤ a.nowMs then some (h.act a) else none

/-! ### The length of a backoff -/

lemma backoff_nonneg (k : ℕ) : 0 ≤ backoff k := by
  unfold backoff
  split_ifs
  · exact le_rfl
  · positivity

lemma backoff_mono {j k : ℕ} (h : j ≤ k) : backoff j ≤ backoff k := by
  by_cases hj : j ≤ 2
  · rw [backoff, if_pos hj]
    exact backoff_nonneg k
  · have hk : ¬k ≤ 2 := fun hk => hj (h.trans hk)
    have hpow : (2 : ℤ) ^ (j - 3) ≤ 2 ^ (k - 3) :=
      pow_le_pow_right₀ (by norm_num) (Nat.sub_le_sub_right h 3)
    rw [backoff, backoff, if_neg hj, if_neg hk]
    omega

/-- A backoff is over long before the count starts over. -/
lemma backoff_lt_idle (k : ℕ) : backoff k < totalIdleResetMs := by
  unfold backoff totalIdleResetMs
  split_ifs <;> omega

lemma backoff_le_max (k : ℕ) : backoff k ≤ backoffMaxSeconds * 1000 := by
  unfold backoff backoffMaxSeconds
  split_ifs <;> omega

/-- The exponent is capped, and so is the count, only where the backoff is longest anyway. -/
lemma seconds_eq_backoff (k : ℕ) :
    osCredentialLoginBackoffSeconds (min k i32Max) * 1000 = backoff k := by
  rcases Nat.lt_or_ge k 10 with hk | hk
  · interval_cases k <;> decide
  · have hpow : (2 : ℤ) ^ 7 ≤ 2 ^ (k - 3) := pow_le_pow_right₀ (by norm_num) (by omega)
    have hlen : 10 ≤ min k i32Max := le_min hk (by decide)
    have hexp : min (min k i32Max - 3) 7 = 7 := by omega
    unfold osCredentialLoginBackoffSeconds backoff backoffBaseSeconds backoffMaxSeconds
    rw [if_neg (by omega), if_neg (by omega), hexp]
    omega

/-! ### What the counter says about the failures -/

/-- The counter between calls: empty, or with the latest failure and its place in its run. The end
of its backoff stays until a call comes after it. -/
inductive Tracks (clock : ℤ) : List ℤ → OsCredentialFailureState → Prop where
  | clean : Tracks clock [] {}
  | idle {t : ℤ} {rest : List ℤ} (hidle : totalIdleResetMs ≤ clock - t) :
    Tracks clock (t :: rest) {}
  | live {t : ℤ} {rest : List ℤ} {untilMs : Option ℤ} (ht : t ≤ clock)
    (huntil : untilMs = some (t + backoff (runLength (t :: rest))) ∨
      untilMs = none ∧ t + backoff (runLength (t :: rest)) ≤ clock) :
    Tracks clock (t :: rest) ⟨min (runLength (t :: rest)) i32Max, untilMs, some t⟩

/-- The counter a call works with: it is not live any more after two hours, and the end of a
backoff lies ahead. -/
inductive Settled (now : ℤ) : List ℤ → OsCredentialFailureState → Prop where
  | clean : Settled now [] {}
  | idle {t : ℤ} {rest : List ℤ} (hidle : totalIdleResetMs ≤ now - t) : Settled now (t :: rest) {}
  | live {t : ℤ} {rest : List ℤ} (ht : t ≤ now) (hrun : now - t < totalIdleResetMs) :
    Settled now (t :: rest) ⟨min (runLength (t :: rest)) i32Max,
      if now < t + backoff (runLength (t :: rest)) then
        some (t + backoff (runLength (t :: rest))) else none, some t⟩

variable {clock now : ℤ} {failures : List ℤ} {s : OsCredentialFailureState} {h : Host}

lemma idle_saturatingSub (a b : ℤ) :
    totalIdleResetMs ≤ saturatingSub a b ↔ totalIdleResetMs ≤ a - b := by
  unfold totalIdleResetMs saturatingSub
  omega

lemma Tracks.settle (hs : Tracks clock failures s) (hnow : clock ≤ now) :
    Settled now failures (normalizeBackoff (resetTotalsOnIdle s now) now) := by
  cases hs with
  | clean => exact .clean
  | idle hidle => exact .idle (hidle.trans (Int.sub_le_sub_right hnow _))
  | @live t rest untilMs ht huntil =>
    unfold resetTotalsOnIdle
    simp only [idle_saturatingSub]
    by_cases hidle : totalIdleResetMs ≤ now - t
    · rw [if_pos hidle]
      exact .idle hidle
    · rw [if_neg hidle]
      have hlive : Settled now (t :: rest) _ := .live (ht.trans hnow) (not_le.mp hidle)
      rcases huntil with rfl | ⟨rfl, hover⟩
      · by_cases hahead : now < t + backoff (runLength (t :: rest))
        · rw [if_pos hahead] at hlive
          simpa [normalizeBackoff, not_le.mpr hahead] using hlive
        · rw [if_neg hahead] at hlive
          simpa [normalizeBackoff, not_lt.mp hahead] using hlive
      · rw [if_neg (not_lt.mpr (hover.trans hnow))] at hlive
        exact hlive

section

variable (hs : Settled now failures s)

include hs

lemma Settled.tracks : Tracks now failures s := by
  cases hs with
  | clean => exact .clean
  | idle hidle => exact .idle hidle
  | live ht hrun =>
    apply Tracks.live ht
    split_ifs with hahead
    · exact .inl rfl
    · exact .inr ⟨rfl, not_lt.mp hahead⟩

/-- There is a backoff exactly until the end of the one the latest failure started. -/
lemma Settled.backoff_none_iff : s.backoffUntilMs = none ↔
    ∀ t rest, failures = t :: rest → t + backoff (runLength failures) ≤ now := by
  cases hs with
  | clean => simp
  | @idle t rest hidle =>
    have := backoff_lt_idle (runLength (t :: rest))
    refine iff_of_true rfl ?_
    rintro _ _ ⟨⟩
    omega
  | @live t rest ht hrun =>
    constructor
    · rintro hnone _ _ ⟨⟩
      by_contra hahead
      simp [not_le.mp hahead] at hnone
    · intro hover
      exact if_neg (not_lt.mpr (hover t rest rfl))

lemma Settled.runLength_cons :
    min (s.totalFailures + 1) i32Max = min (runLength (now :: failures)) i32Max := by
  cases hs with
  | clean => rfl
  | idle hidle => rw [runLength, if_pos hidle]
  | live ht hrun =>
    rw [runLength, if_neg (not_le.mpr hrun)]
    dsimp only
    omega

/-- A failure that starts no backoff of its own comes when there is none. -/
lemma Settled.backoff_none (hshort : runLength (now :: failures) ≤ 2) :
    s.backoffUntilMs = none := by
  rw [hs.backoff_none_iff]
  rintro t rest rfl
  cases hs with
  | idle hidle =>
    have := backoff_lt_idle (runLength (t :: rest))
    omega
  | live ht hrun =>
    rw [runLength, if_neg (not_le.mpr hrun)] at hshort
    rw [backoff, if_pos (by omega)]
    omega

lemma Settled.record (hrange : (Act.record .terminalOsLogin now).inRange) :
    let total := min (s.totalFailures + 1) i32Max
    let seconds := osCredentialLoginBackoffSeconds total
    Tracks now (now :: failures)
      ⟨total, if 0 < seconds then some (asI64 (now + seconds * 1000)) else s.backoffUntilMs,
        some now⟩ := by
  intro total seconds
  have hnonneg := backoff_nonneg (runLength (now :: failures))
  have hmax := backoff_le_max (runLength (now :: failures))
  have hrange := of_decide_eq_true hrange
  simp only [Act.nowMs] at hrange
  have hseconds : seconds * 1000 = backoff (runLength (now :: failures)) := by
    rw [← seconds_eq_backoff, ← hs.runLength_cons]
  have htotal : total = min (runLength (now :: failures)) i32Max := hs.runLength_cons
  have hend : asI64 (now + backoff (runLength (now :: failures))) =
      now + backoff (runLength (now :: failures)) :=
    Int.bmod_eq_of_le (by norm_num; omega) (by norm_num; omega)
  rw [hseconds, htotal, hend]
  apply Tracks.live le_rfl
  split_ifs with hpos
  · exact .inl rfl
  · have hzero : backoff (runLength (now :: failures)) ≤ 0 := by omega
    have hshort : runLength (now :: failures) ≤ 2 := by
      by_contra hlong
      have := backoff_mono (Nat.lt_of_not_le hlong)
      exact absurd (this.trans hzero) (by decide)
    exact .inr ⟨hs.backoff_none hshort, by omega⟩

end

lemma Tracks.mono (hs : Tracks clock failures s) (hnow : clock ≤ now) : Tracks now failures s := by
  cases hs with
  | clean => exact .clean
  | idle hidle => exact .idle (hidle.trans (Int.sub_le_sub_right hnow _))
  | live ht huntil =>
    exact .live (ht.trans hnow) (huntil.imp_right fun hover => ⟨hover.1, hover.2.trans hnow⟩)

lemma evaluate_settled (now : ℤ) (s : OsCredentialFailureState) :
    (evaluateOsCredentialPolicy .terminalOsLogin now s).2
        = normalizeBackoff (resetTotalsOnIdle s now) now ∧
      ((evaluateOsCredentialPolicy .terminalOsLogin now s).1.allowed = true ↔
        (normalizeBackoff (resetTotalsOnIdle s now) now).backoffUntilMs = none) := by
  unfold evaluateOsCredentialPolicy
  rw [if_neg (by decide)]
  dsimp only
  generalize normalizeBackoff (resetTotalsOnIdle s now) now = settled
  cases huntil : settled.backoffUntilMs with
  | none => exact ⟨rfl, by simp [allowDecision]⟩
  | some untilMs => exact ⟨rfl, by simp [blockDecision]⟩

/-! ### Every sequence of calls -/

lemma Host.act_tracks (hs : Tracks h.clock h.failures h.state) {a : Act}
    (hnow : h.clock ≤ a.nowMs) (hrange : a.inRange) :
    Tracks (h.act a).clock (h.act a).failures (h.act a).state := by
  cases a with
  | evaluate scope now =>
    cases scope with
    | default => exact hs.mono hnow
    | terminalOsLogin =>
      show Tracks now h.failures (evaluateOsCredentialPolicy .terminalOsLogin now h.state).2
      rw [(evaluate_settled now h.state).1]
      exact (hs.settle hnow).tracks
  | record scope now =>
    cases scope with
    | default => exact hs.mono hnow
    | terminalOsLogin => exact (hs.settle hnow).record hrange

lemma reachable_tracks (hs : (hosts.restrict fun _ => Act.inRange).Reachable h) :
    Tracks h.clock h.failures h.state := by
  induction hs with
  | init hinit =>
    rw [hinit.1, hinit.2]
    exact .clean
  | step _ hstep ih =>
    obtain ⟨hrange, hstep⟩ := LTS.restrict_step_some hstep
    obtain ⟨hnow, hact⟩ := Option.ite_none_right_eq_some.mp hstep
    cases hact
    exact Host.act_tracks ih hnow hrange

/-- Whatever was evaluated and recorded before in range, an evaluation is allowed from the end of
the backoff of the latest failure on, and not before. A count that starts over does not end a
backoff, and backoffs do not get shorter within a run. -/
theorem os_backoff_exact (hs : (hosts.restrict fun _ => Act.inRange).Reachable h) {now : ℤ}
    (hnow : h.clock ≤ now) :
    ((evaluateOsCredentialPolicy .terminalOsLogin now h.state).1.allowed = true ↔
      ∀ t rest, h.failures = t :: rest → t + backoff (runLength h.failures) ≤ now) ∧
    (∀ t rest, h.failures = t :: rest → totalIdleResetMs ≤ now - t →
      t + backoff (runLength h.failures) ≤ now) ∧
    ∀ j k, j ≤ k → backoff j ≤ backoff k := by
  refine ⟨?_, ?_, fun j k => backoff_mono⟩
  · rw [(evaluate_settled now h.state).2]
    exact ((reachable_tracks hs).settle hnow).backoff_none_iff
  · intro t rest _ hidle
    have := backoff_lt_idle (runLength h.failures)
    omega

/-- Four failures in a row: half a minute from the last. -/
theorem os_backoff_exact_four : ∃ h, (hosts.restrict fun _ => Act.inRange).run { clock := 0 }
      (List.replicate 4 (.record .terminalOsLogin 1000)) = some h ∧
    (evaluateOsCredentialPolicy .terminalOsLogin 30999 h.state).1.allowed = false ∧
    (evaluateOsCredentialPolicy .terminalOsLogin 31000 h.state).1.allowed = true := by
  have hrun : ∃ h ∈ (hosts.restrict fun _ => Act.inRange).run { clock := 0 }
      (List.replicate 4 (.record .terminalOsLogin 1000)),
      h.clock = 1000 ∧ h.failures = [1000, 1000, 1000, 1000] := by decide
  obtain ⟨h, hrun, hclock, hfailures⟩ := hrun
  rw [Option.mem_def] at hrun
  have hstart : hosts.init { clock := 0 } := ⟨rfl, rfl⟩
  have hs := (LTS.Reachable.init (M := hosts.restrict fun _ => Act.inRange) hstart).run hrun
  have hend : (1000 : ℤ) + backoff (runLength h.failures) = 31000 := by
    rw [hfailures]
    decide
  refine ⟨h, hrun, ?_, ?_⟩
  · rw [← Bool.not_eq_true, (os_backoff_exact hs (by rw [hclock]; decide)).1]
    intro hall
    have := hall _ _ hfailures
    omega
  · rw [(os_backoff_exact hs (by rw [hclock]; decide)).1]
    intro t rest hcons
    rw [hfailures] at hcons
    cases hcons
    omega

end OsCredential

end RustDesk.Login
