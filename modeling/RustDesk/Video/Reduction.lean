import RustDesk.Video.Viewer

/-!
# When a viewer's frame rate is reduced

A reply over the threshold does not lower the target of its viewer by itself: it takes three of them
in a row, or one that is late by a second, or by less when the target has just been restored. The
replies and the ticks of each viewer are kept beside the controller, so that this can be said of
what has arrived and not of the counters.

What the average delay asks for goes through floating point; nothing is said about it here, only
about how far it is followed.
-/

namespace RustDesk.Video

/-- A reply or a tick of a viewer as seen from outside, with its target before and after. -/
inductive Seen where
  | reply (excess current cap next : ℕ) (restored : Bool)
  | tick (current next : ℕ)
  deriving DecidableEq

/-- The bad replies since the last good one and the last reduction, the latest entry first. A target
that comes down to a lower cap is not reduced. -/
def badSince : List Seen → ℕ
  | [] => 0
  | .reply excess current cap next _ :: seen =>
    if excess < delayThreshold150ms ∨ next < min current cap then 0 else badSince seen + 1
  | .tick current next :: seen => if next < current then 0 else badSince seen

/-- The replies since the target was last restored, if it was. -/
def repliesSinceRestore : List Seen → Option ℕ
  | [] => none
  | .reply _ _ _ _ restored :: seen =>
    if restored then some 0 else (repliesSinceRestore seen).map (· + 1)
  | .tick _ _ :: seen => repliesSinceRestore seen

/-- A good reply restores the level held before congestion: there is one above the target, and a
good reply has come already since the last reduction. -/
def UserDelay.fastRestores (u : UserDelay) (currentFps : ℕ) : Bool :=
  1 ≤ u.goodSamples && u.fpsBeforeCongestion.any (currentFps < ·)

/-! ### How a reply moves the target -/

namespace UserDelay

variable {u : UserDelay} {currentFps fps delay cap : ℕ} {bitrateFirst braked : Bool}

lemma recover_fps (u : UserDelay) (currentFps fps : ℕ) :
    currentFps < (u.recover currentFps fps).1 := by
  unfold recover
  dsimp only
  split
  case h_1 level _ hlevel | h_2 level _ hlevel =>
    have := (Option.filter_eq_some_iff.mp hlevel).2
    simp only [decide_eq_true_eq] at this
    exact this.trans_le (le_max_right _ _)
  · refine lt_of_lt_of_le ?_ (le_max_right _ _)
    omega
  · show currentFps < currentFps + max (currentFps / 10) 1
    omega

lemma recover_delay (u : UserDelay) (currentFps fps : ℕ) :
    (u.recover currentFps fps).2.rttCalculator = u.rttCalculator ∧
      (u.recover currentFps fps).2.fpsBadSamples = u.fpsBadSamples ∧
      (u.recover currentFps fps).2.stallReferenceFps = u.stallReferenceFps := by
  unfold recover
  dsimp only
  split <;> exact ⟨rfl, rfl, rfl⟩

/-- A restore is what starts the count of replies after it. -/
lemma recover_samples (u : UserDelay) (currentFps fps : ℕ) :
    (u.countGood.recover currentFps fps).2.samplesSinceRestore =
      if u.fastRestores currentFps then some 0 else u.samplesSinceRestore := by
  have hlevel : u.countGood.fpsBeforeCongestion = u.fpsBeforeCongestion := rfl
  have hsamples : u.countGood.samplesSinceRestore = u.samplesSinceRestore := rfl
  have hgood : u.countGood.goodSamples = min (u.goodSamples + 1) 3 := rfl
  unfold recover fastRestores
  rw [hlevel, hgood]
  rcases hg : u.goodSamples with _ | _ | n
  · simp [hsamples]
  on_goal 2 => rw [show min (n + 1 + 1 + 1) 3 = 3 by omega]
  all_goals
    cases u.fpsBeforeCongestion with
    | none => simp [hsamples]
    | some level => by_cases hlt : currentFps < level <;> simp [Option.filter, hlt, hsamples]

/-- What a limited change of the frame rate comes to, from the bad replies that count, the replies
since a restore and whether this one restores: the next frame rate and the two counts after it. -/
inductive Change (bad : ℕ) (samples : Option ℕ) (restores : Bool) (currentFps excess : ℕ)
    (braked : Bool) : ℕ → ℕ → Option ℕ → Prop where
  | grown {next : ℕ} (hgood : excess < delayThreshold150ms) (hnext : currentFps < next) :
    Change bad samples restores currentFps excess braked next 0
      (if restores then some 0 else samples)
  | held {samples' : Option ℕ} (hbad : delayThreshold150ms ≤ excess)
    (hsamples : samples' = none ∨ samples' = samples) :
    Change bad samples restores currentFps excess braked currentFps (min (bad + 1) 3) samples'
  | reduced {next divisor : ℕ} {samples' : Option ℕ} (hbad : delayThreshold150ms ≤ excess)
    (hbraked : braked = false) (hnext : next < currentFps)
    (hbound : currentFps - max (currentFps / divisor) 1 ≤ next)
    (hdivisor : divisor = 2 ∧
        (1000 ≤ excess ∨ 600 ≤ excess ∧ ∃ n ≤ restoreGuardSamples, samples = some n) ∨
      divisor = 5 ∧ 3 ≤ bad + 1)
    (hsamples : samples' = none ∨ samples' = samples) :
    Change bad samples restores currentFps excess braked next 0 samples'

@[simp] lemma samplesSinceRestore_countBad :
    u.countBad.samplesSinceRestore = u.samplesSinceRestore := rfl

lemma judgeRestore_delay (u : UserDelay) (currentFps excess : ℕ) :
    (u.judgeRestore currentFps excess).rttCalculator = u.rttCalculator ∧
      (u.judgeRestore currentFps excess).fpsBadSamples = u.fpsBadSamples ∧
      (u.judgeRestore currentFps excess).stallReferenceFps = u.stallReferenceFps ∧
      ((u.judgeRestore currentFps excess).samplesSinceRestore = none ∨
        (u.judgeRestore currentFps excess).samplesSinceRestore = u.samplesSinceRestore) := by
  unfold judgeRestore
  split_ifs
  · exact ⟨rfl, rfl, rfl, .inl rfl⟩
  · exact ⟨rfl, rfl, rfl, .inr rfl⟩

lemma limitFpsChange_change (u : UserDelay) (currentFps fps delay : ℕ)
    (bitrateFirst braked : Bool) :
    Change u.fpsBadSamples u.countReply.samplesSinceRestore (u.fastRestores currentFps) currentFps
      (u.excess delay) braked (u.limitFpsChange currentFps fps delay bitrateFirst braked).1
      (u.limitFpsChange currentFps fps delay bitrateFirst braked).2.fpsBadSamples
      (u.limitFpsChange currentFps fps delay bitrateFirst braked).2.samplesSinceRestore := by
  unfold limitFpsChange
  dsimp only
  by_cases hgood : u.excess delay < delayThreshold150ms
  · rw [if_pos hgood, (recover_delay _ _ _).2.1, recover_samples]
    exact .grown hgood (recover_fps _ _ _)
  rw [if_neg hgood]
  obtain ⟨-, hcount, -, hsamples⟩ :=
    judgeRestore_delay u.countReply.countBad currentFps (u.excess delay)
  have hbad : delayThreshold150ms ≤ u.excess delay := not_lt.mp hgood
  have hheld : Change u.fpsBadSamples u.countReply.samplesSinceRestore (u.fastRestores currentFps)
      currentFps (u.excess delay) braked currentFps
      (u.countReply.countBad.judgeRestore currentFps (u.excess delay)).fpsBadSamples
      (u.countReply.countBad.judgeRestore currentFps (u.excess delay)).samplesSinceRestore := by
    rw [hcount]
    exact .held hbad hsamples
  by_cases hcannot : fps ≥ currentFps || braked
  · rw [if_pos hcannot]
    exact hheld
  rw [if_neg hcannot]
  obtain ⟨hlt, hbraked⟩ : fps < currentFps ∧ braked = false := by simpa using hcannot
  have hnext : ∀ d, max fps (currentFps - max (currentFps / d) 1) < currentFps := by
    intro d
    omega
  split_ifs with hunconfirmed hdivisor
  · exact hheld
  · refine .reduced hbad hbraked (hnext 2) (le_max_right _ _) (.inl ⟨rfl, ?_⟩) hsamples
    simpa [failedRestore, restoreGuarded, Option.any_eq_true, and_comm] using hdivisor
  · refine .reduced hbad hbraked (hnext 5) (le_max_right _ _) (.inr ⟨rfl, ?_⟩) hsamples
    simp only [Bool.or_eq_true, decide_eq_true_eq, not_or, not_le, Bool.not_eq_true] at hdivisor
    simp only [hdivisor.1, hdivisor.2, hcount] at hunconfirmed
    have hconfirmed : ¬u.countReply.countBad.fpsBadSamples < 3 := by
      intro hfew
      simp [hfew] at hunconfirmed
    change ¬min (u.fpsBadSamples + 1) 3 < 3 at hconfirmed
    omega

lemma limitFpsChange_delay (u : UserDelay) (currentFps fps delay : ℕ)
    (bitrateFirst braked : Bool) :
    (u.limitFpsChange currentFps fps delay bitrateFirst braked).2.rttCalculator = u.rttCalculator ∧
      (u.limitFpsChange currentFps fps delay bitrateFirst braked).2.stallReferenceFps
        = u.stallReferenceFps := by
  unfold limitFpsChange
  dsimp only
  obtain ⟨hrtt, -, hstall, -⟩ :=
    judgeRestore_delay u.countReply.countBad currentFps (u.excess delay)
  by_cases hgood : u.excess delay < delayThreshold150ms
  · rw [if_pos hgood, (recover_delay _ _ _).1, (recover_delay _ _ _).2.2]
    exact ⟨rfl, rfl⟩
  · rw [if_neg hgood]
    split_ifs <;> exact ⟨hrtt, hstall⟩

/-- The baseline and the counts of bad replies and of replies since a restore are the same. -/
structure Same (u u' : UserDelay) : Prop where
  rtt : u'.rttCalculator = u.rttCalculator
  bad : u'.fpsBadSamples = u.fpsBadSamples
  samples : u'.samplesSinceRestore = u.samplesSinceRestore
  stalled : u'.stallReferenceFps = u.stallReferenceFps

lemma Same.excess {u' : UserDelay} (h : u.Same u') (delay : ℕ) :
    u'.excess delay = u.excess delay := by
  rw [UserDelay.excess, h.rtt, UserDelay.excess]

/-- Starting up leaves these alone, and changes the frame rate only upwards and only for a reply
that is hardly late. -/
lemma accelerateStartup_spec (u : UserDelay) (currentFps fps cap delay : ℕ) (braked : Bool) :
    u.Same (u.accelerateStartup currentFps fps cap delay braked).2 ∧
      ((u.accelerateStartup currentFps fps cap delay braked).1 = fps ∨
        u.excess delay < 50 ∧ currentFps < cap ∧
          min fps cap ≤ (u.accelerateStartup currentFps fps cap delay braked).1) := by
  unfold accelerateStartup
  split_ifs with hended hends hfirst
  iterate 3 exact ⟨⟨rfl, rfl, rfl, rfl⟩, .inl rfl⟩
  · simp only [ge_iff_le, Bool.or_eq_true, decide_eq_true_eq, not_or, not_le] at hends
    refine ⟨⟨rfl, rfl, rfl, rfl⟩, .inr ⟨hends.1.2, hends.2, ?_⟩⟩
    exact min_le_min_right _ (le_max_left _ _)

end UserDelay

namespace UserData

variable {F : Type} (R : F32 F)

lemma adaptFps_delay (d : UserDelay) (minFps normalFps avgDelay oldAvgDelay fps : ℕ) :
    ∃ quick increase, (d.adaptFps R minFps normalFps avgDelay oldAvgDelay fps).2 =
      { d with quickIncreaseFpsCount := quick, increaseFpsCount := increase } :=
  ⟨_, _, rfl⟩

/-- A reply lets some candidate through the limits; the counters are those from before it. -/
lemma reply_delay (minFps normalFps : ℕ) (bitrateFirst : Bool) (delay : ℕ) (u : UserData F) :
    ∃ (d : UserDelay) (fps : ℕ),
      d.fpsBadSamples = u.delay.fpsBadSamples ∧
      d.samplesSinceRestore = u.delay.samplesSinceRestore ∧
      d.fastRestores u.currentFps = u.delay.fastRestores u.currentFps ∧
      d.stallReferenceFps = none ∧
      let limited := d.limitFpsChange u.currentFps fps (max delay 10) bitrateFirst
        u.delay.stallReferenceFps.isSome
      let accelerated := limited.2.accelerateStartup u.currentFps limited.1 u.fpsCap (max delay 10)
        u.delay.stallReferenceFps.isSome
      (u.reply R minFps normalFps bitrateFirst delay).1 =
        { u with delay := { accelerated.2 with
          fps := some (clamp accelerated.1 Video.minFps u.fpsCap) } } := by
  obtain ⟨quick, increase, hadapt⟩ :=
    adaptFps_delay R (u.delay.hear (max delay 10)) minFps normalFps
      (max (u.delay.hear (max delay 10)).avgDelay 10) u.delay.avgDelay u.currentFps
  unfold reply
  dsimp only
  rw [hadapt]
  refine ⟨_, _, ?_, ?_, ?_, ?_, rfl⟩ <;> rfl

/-- A viewer before and after a reply that is late by `excess`: the limited change comes to `next`,
and `r` is what starting up makes of it. -/
structure Replied (u u' : UserData F) (excess next r : ℕ) : Prop where
  unstalled : u'.delay.stallReferenceFps = none
  change : UserDelay.Change u.delay.fpsBadSamples u.delay.countReply.samplesSinceRestore
    (u.delay.fastRestores u.currentFps) u.currentFps excess u.delay.stallReferenceFps.isSome
    next u'.delay.fpsBadSamples u'.delay.samplesSinceRestore
  current : u'.currentFps = clamp r minFps u.fpsCap
  startup : r = next ∨ excess < 50 ∧ u.currentFps < u.fpsCap ∧ min next u.fpsCap ≤ r

/-- What a reply comes to, with the delay of the reply over the baseline it leaves. -/
lemma reply_replied (minFps normalFps : ℕ) (bitrateFirst : Bool) (delay : ℕ) (u : UserData F) :
    ∃ next r, Replied u (u.reply R minFps normalFps bitrateFirst delay).1
      ((u.reply R minFps normalFps bitrateFirst delay).1.delay.excess (max delay 10)) next r := by
  obtain ⟨d, fps, hbad, hsamples, hrestores, hstall, hreply⟩ :=
    reply_delay R minFps normalFps bitrateFirst delay u
  dsimp only at hreply
  obtain ⟨hrtt, hstall'⟩ := UserDelay.limitFpsChange_delay d u.currentFps fps (max delay 10)
    bitrateFirst u.delay.stallReferenceFps.isSome
  have hchange := UserDelay.limitFpsChange_change d u.currentFps fps (max delay 10) bitrateFirst
    u.delay.stallReferenceFps.isSome
  generalize d.limitFpsChange u.currentFps fps (max delay 10) bitrateFirst
    u.delay.stallReferenceFps.isSome = limited at hrtt hstall' hchange hreply
  obtain ⟨hsame, hfps⟩ := UserDelay.accelerateStartup_spec limited.2 u.currentFps limited.1
    u.fpsCap (max delay 10) u.delay.stallReferenceFps.isSome
  generalize limited.2.accelerateStartup u.currentFps limited.1 u.fpsCap (max delay 10)
    u.delay.stallReferenceFps.isSome = accelerated at hsame hfps hreply
  generalize (u.reply R minFps normalFps bitrateFirst delay).1 = u' at hreply ⊢
  have hdelay : u'.delay = { accelerated.2 with
      fps := some (clamp accelerated.1 Video.minFps u.fpsCap) } := congrArg UserData.delay hreply
  have hsame' : limited.2.Same u'.delay := by
    rw [hdelay]
    exact ⟨hsame.rtt, hsame.bad, hsame.samples, hsame.stalled⟩
  have hexcess : u'.delay.excess (max delay 10) = limited.2.excess (max delay 10) :=
    hsame'.excess _
  have hexcess' : limited.2.excess (max delay 10) = d.excess (max delay 10) := by
    rw [UserDelay.excess, hrtt, UserDelay.excess]
  have hcounted : u.delay.countReply.samplesSinceRestore = d.countReply.samplesSinceRestore :=
    congrArg (Option.map fun samples => min (samples + 1) u8Max) hsamples.symm
  refine ⟨limited.1, accelerated.1, ?_, ?_, ?_, ?_⟩
  · rw [hsame'.stalled, hstall', hstall]
  · rw [hsame'.bad, hsame'.samples, ← hbad, hcounted, ← hrestores, hexcess, hexcess']
    exact hchange
  · rw [currentFps, hdelay, Option.getD_some]
  · rw [hexcess]
    exact hfps

lemma stall_delay (elapsed : ℕ) (u : UserData F) :
    (u.stall elapsed).delay.samplesSinceRestore = u.delay.samplesSinceRestore ∧
      ((u.stall elapsed).delay.fpsBadSamples = 0 ∨
        u.delay.stallReferenceFps.isSome ∧
          (u.stall elapsed).delay.fpsBadSamples = u.delay.fpsBadSamples) := by
  unfold stall UserDelay.addDelay
  dsimp only
  cases u.delay.stallReferenceFps with
  | none => exact ⟨rfl, .inl rfl⟩
  | some reference => exact ⟨rfl, .inr ⟨rfl, rfl⟩⟩

end UserData

/-! ### Every run -/

/-- The controller, with what each viewer has seen since it connected, the latest first. -/
structure Watched (F : Type) where
  qos : VideoQoS F
  seen : ℤ → List Seen

namespace Watched

variable {F : Type} (R : F32 F)

/-- The entry that a reply of delay `delay` adds for its viewer. -/
def replied (delay : ℕ) (u u' : UserData F) : Seen :=
  .reply (u'.delay.excess (max delay 10)) u.currentFps u.fpsCap u'.currentFps
    (u'.delay.excess (max delay 10) < delayThreshold150ms && u.delay.fastRestores u.currentFps)

/-- What a call adds for viewer `id`, from the viewer before and after it. -/
def observe (id : ℤ) (before after : Option (UserData F)) (seen : List Seen) : QosAct → List Seen
  | .connectionOpen id' _ _ => if id' = id then [] else seen
  | .networkDelay id' delay _ =>
    match before, after with
    | some u, some u' => if id' = id then replied delay u u' :: seen else seen
    | _, _ => seen
  | .responseElapsed id' elapsed _ =>
    match before, after with
    | some u, some u' =>
      if id' = id ∧ 2000 < elapsed then .tick u.currentFps u'.currentFps :: seen else seen
    | _, _ => seen
  | _ => seen

def step (w : Watched F) (a : QosAct) : Watched F where
  qos := w.qos.act R a
  seen id := observe id (w.qos.users.get id) ((w.qos.act R a).users.get id) (w.seen id) a

end Watched

/-- A controller from the start of the program, on a platform of one kind or the other. -/
def watching {F : Type} (R : F32 F) : LTS (Watched F) QosAct where
  init w := (∃ first now, w.qos = .default R first now) ∧ w.seen = fun _ => []
  step w a := some (w.step R a)

/-- The counters of a viewer say no more than what it has seen. -/
structure Tracks (u : UserDelay) (seen : List Seen) : Prop where
  bad : u.fpsBadSamples ≤ badSince seen
  stalled : u.stallReferenceFps.isSome → u.fpsBadSamples = 0
  restored : ∀ n, u.samplesSinceRestore = some n →
    ∃ replies, repliesSinceRestore seen = some replies ∧ n = min replies u8Max

namespace Tracks

variable {F : Type} {R : F32 F} {u : UserData F} {d d' : UserDelay} {seen : List Seen} {n : ℕ}

lemma same (h : Tracks d seen) (hbad : d'.fpsBadSamples = d.fpsBadSamples)
    (hstalled : d'.stallReferenceFps = d.stallReferenceFps)
    (hsamples : d'.samplesSinceRestore = d.samplesSinceRestore) : Tracks d' seen where
  bad := hbad.trans_le h.bad
  stalled hs := hbad.trans (h.stalled (hstalled ▸ hs))
  restored n hn := h.restored n (hsamples ▸ hn)

lemma restored_countReply (h : Tracks d seen) (hn : d.countReply.samplesSinceRestore = some n) :
    ∃ replies, repliesSinceRestore seen = some replies ∧ n = min (replies + 1) u8Max := by
  obtain ⟨m, hm, hmn⟩ := Option.map_eq_some_iff.mp hn
  obtain ⟨replies, hreplies, hmin⟩ := h.restored m hm
  exact ⟨replies, hreplies, by omega⟩

lemma reply {u' : UserData F} {delay next r : ℕ} (h : Tracks u.delay seen)
    (hu' : UserData.Replied u u' (u'.delay.excess (max delay 10)) next r) :
    Tracks u'.delay (Watched.replied delay u u' :: seen) := by
  obtain ⟨hstall, hchange, hcurrent, hr⟩ := hu'
  have hstalled : u'.delay.stallReferenceFps.isSome → u'.delay.fpsBadSamples = 0 := by
    intro hs
    rw [hstall] at hs
    cases hs
  refine ⟨?_, hstalled, ?_⟩
  all_goals
    unfold Watched.replied
    generalize u'.delay.excess (max delay 10) = excess at *
    generalize u'.delay.samplesSinceRestore = samples' at *
    generalize u'.delay.fpsBadSamples = bad' at *
  · cases hchange with
    | grown => exact Nat.zero_le _
    | reduced => exact Nat.zero_le _
    | held hlate _ =>
      have hheld : ¬u'.currentFps < min u.currentFps u.fpsCap := by
        rw [hcurrent]
        rcases hr with rfl | ⟨hlow, -⟩
        · simp only [clamp]
          omega
        · unfold delayThreshold150ms at hlate
          omega
      have := h.bad
      rw [badSince, if_neg (not_or.mpr ⟨not_lt.mpr hlate, hheld⟩)]
      omega
  · -- a count that goes on, or is given up
    have hcounted : samples' = none ∨ samples' = u.delay.countReply.samplesSinceRestore →
        ∀ n, samples' = some n → ∃ replies, (repliesSinceRestore seen).map (· + 1) = some replies ∧
          n = min replies u8Max := by
      intro hsame n hn
      rcases hsame with hnone | hsame
      · rw [hnone] at hn
        cases hn
      · obtain ⟨replies, hreplies, hmin⟩ := h.restored_countReply (hsame ▸ hn)
        exact ⟨replies + 1, by simp [hreplies], hmin⟩
    intro n hn
    cases hchange with
    | grown hgood _ =>
      cases hrestores : u.delay.fastRestores u.currentFps with
      | true =>
        rw [hrestores] at hn
        cases hn
        exact ⟨0, by simp [repliesSinceRestore, hgood], rfl⟩
      | false =>
        simp only [hrestores, Bool.false_eq_true, if_false] at hn hcounted
        simpa [repliesSinceRestore] using hcounted (by simp) n hn
    | held hlate hsame | reduced hlate _ _ _ _ hsame =>
      simpa [repliesSinceRestore, not_lt.mpr hlate] using hcounted hsame n hn

lemma stall (h : Tracks u.delay seen) (elapsed current next : ℕ) :
    Tracks (u.stall elapsed).delay (.tick current next :: seen) := by
  obtain ⟨hsamples, hbad⟩ := UserData.stall_delay elapsed u
  have hzero : (u.stall elapsed).delay.fpsBadSamples = 0 := by
    rcases hbad with hbad | ⟨hs, hbad⟩
    · exact hbad
    · exact hbad.trans (h.stalled hs)
  refine ⟨by rw [hzero]; exact Nat.zero_le _, fun _ => hzero, fun n hn => ?_⟩
  exact h.restored n (hsamples ▸ hn)

end Tracks

section

variable {F : Type} {R : F32 F} {w w' : Watched F} {id : ℤ} {u u' : UserData F} {delay now : ℕ}

lemma tracks_step (h : ∀ id u, w.qos.users.get id = some u → Tracks u.delay (w.seen id))
    (a : QosAct) (hu' : (w.step R a).qos.users.get id = some u') :
    Tracks u'.delay ((w.step R a).seen id) := by
  obtain ⟨⟨f, hf⟩, -⟩ := VideoQoS.viewed_act (R := R) w.qos id a
  change (w.qos.act R a).users.get id = some u' at hu'
  show Tracks u'.delay (Watched.observe id (w.qos.users.get id) ((w.qos.act R a).users.get id)
    (w.seen id) a)
  rw [hu']
  rw [hu'] at hf
  obtain ⟨v, hv, rfl⟩ := Option.map_eq_some_iff.mp hf.symm
  -- the count of replies after a reduction is not looked at
  have hkept : ∀ seen, Tracks v.delay seen → Tracks (v.withReplies (f v)).delay seen :=
    fun seen h => h.same rfl rfl rfl
  have hsame : w.qos.users.get id = some v → Tracks (v.withReplies (f v)).delay (w.seen id) :=
    fun hu => hkept _ (h id v hu)
  have hset : ∀ {set : UserData F → UserData F}, (w.qos.users.get id).map set = some v →
      (∀ u, (set u).delay = u.delay) → Tracks (v.withReplies (f v)).delay (w.seen id) := by
    intro set hv hset
    obtain ⟨u, hu, rfl⟩ := Option.map_eq_some_iff.mp hv
    apply hkept
    rw [hset]
    exact h id u hu
  cases a <;> simp only [viewerStep] at hv
  case connectionOpen id' abr now =>
    show Tracks _ (if id' = id then [] else w.seen id)
    split_ifs at hv ⊢ with hid
    · cases hv
      exact ⟨Nat.zero_le _, nofun, nofun⟩
    · exact hsame hv
  case connectionClose =>
    split_ifs at hv
    exact hsame hv
  case customFps | autoAdjustFps | imageQuality =>
    split_ifs at hv
    · exact hset hv fun _ => rfl
    · exact hsame hv
  case networkDelay id' delay now =>
    split_ifs at hv with hid
    · obtain ⟨u, hu, hreply⟩ := Option.map_eq_some_iff.mp hv
      obtain ⟨next, r, hreplied⟩ := UserData.reply_replied R _ _ _ delay u
      rw [hreply] at hreplied
      simp only [Watched.observe, hu, if_pos hid]
      exact hkept _ ((h id u hu).reply hreplied)
    · simp only [Watched.observe, hv, if_neg hid]
      exact hsame hv
  case responseElapsed id' elapsed now =>
    split_ifs at hv with hid
    · obtain ⟨u, hu, rfl⟩ := Option.map_eq_some_iff.mp hv
      simp only [Watched.observe, hu, if_pos hid]
      exact hkept _ ((h id u hu).stall elapsed _ _)
    · simp only [Watched.observe, hv, if_neg hid]
      exact hsame hv
  all_goals exact hsame hv

lemma reachable_tracks (hw : (watching R).Reachable w) (hu : w.qos.users.get id = some u) :
    Tracks u.delay (w.seen id) := by
  refine hw.invariant (P := fun w => ∀ id u, w.qos.users.get id = some u →
    Tracks u.delay (w.seen id)) ?_ ?_ id u hu
  · rintro w ⟨⟨first, now, hqos⟩, -⟩ id u hu
    rw [hqos] at hu
    cases hu
  · intro w a w' _ h hstep id u' hu'
    cases hstep
    exact tracks_step h a hu'

/-- The target of a viewer whose cap has not come down under it is lowered by a reply only if the
reply is late and was not braked for: by half at most if it is very late, by a fifth at most if at
least three bad replies, this one included, have come since the last good one and the last
reduction. -/
theorem reductions_confirmed (hw : (watching R).Reachable w) (hu : w.qos.users.get id = some u)
    (hu' : (w.qos.userNetworkDelay R id delay now).users.get id = some u')
    (hcap : u.currentFps ≤ u.fpsCap) (hlower : u'.currentFps < u.currentFps) :
    let c := u.currentFps
    let excess := u'.delay.excess (max delay 10)
    u.delay.stallReferenceFps = none ∧ 150 ≤ excess ∧
      ((1000 ≤ excess ∨ 600 ≤ excess ∧ ∃ n < 5, repliesSinceRestore (w.seen id) = some n) ∧
          c - max 1 (c / 2) ≤ u'.currentFps ∨
        3 ≤ badSince (w.seen id) + 1 ∧ c - max 1 (c / 5) ≤ u'.currentFps) := by
  intro c excess
  have htracks := reachable_tracks hw hu
  obtain ⟨⟨f, hf⟩, -⟩ := VideoQoS.viewed_act (R := R) w.qos id (.networkDelay id delay now)
  change (w.qos.userNetworkDelay R id delay now).users.get id = _ at hf
  rw [hu', viewerStep, if_pos rfl, hu, Option.map_some, Option.map_some] at hf
  obtain ⟨next, r, -, hchange, hcurrent, hr⟩ := UserData.reply_replied R
    (VideoQoS.fpsRange R (w.qos.latestQuality.ratio R)).1
    (VideoQoS.fpsRange R (w.qos.latestQuality.ratio R)).2 (w.qos.canReduceBitrate R) delay u
  generalize (u.reply R (VideoQoS.fpsRange R (w.qos.latestQuality.ratio R)).1
    (VideoQoS.fpsRange R (w.qos.latestQuality.ratio R)).2 (w.qos.canReduceBitrate R) delay).1 = v
    at hf hchange hcurrent hr
  -- the target and the baseline are those of the reply itself
  have hexcess : v.delay.excess (max delay 10) = excess := by
    cases hf
    rfl
  have hf' : u'.currentFps = clamp r minFps u.fpsCap := by
    cases hf
    exact hcurrent
  rw [hexcess] at hchange hr
  generalize u'.currentFps = next' at hlower hf' ⊢
  generalize v.delay.samplesSinceRestore = samples' at hchange
  generalize v.delay.fpsBadSamples = bad' at hchange
  subst hf'
  cases hchange with
  | grown hgood hnext =>
    simp only [clamp] at hlower
    omega
  | held hlate hsame =>
    unfold delayThreshold150ms at hlate
    simp only [clamp] at hlower
    omega
  | @reduced _ divisor _ hlate hbraked hnext hbound hdivisor hsame =>
    unfold delayThreshold150ms at hlate
    obtain rfl : r = next := hr.resolve_right fun hstart => by omega
    have hclamp : r ≤ clamp r minFps u.fpsCap := by
      simp only [clamp]
      omega
    refine ⟨by simpa using hbraked, hlate, ?_⟩
    rcases hdivisor with ⟨rfl, hvery⟩ | ⟨rfl, hmany⟩
    · have hrestored : 1000 ≤ excess ∨
          600 ≤ excess ∧ ∃ n < 5, repliesSinceRestore (w.seen id) = some n := by
        rcases hvery with hvery | ⟨h600, n, hn, hsamples⟩
        · exact .inl hvery
        · obtain ⟨replies, hreplies, hmin⟩ := htracks.restored_countReply hsamples
          unfold restoreGuardSamples at hn
          unfold u8Max at hmin
          exact .inr ⟨h600, replies, by omega, hreplies⟩
      refine .inl ⟨hrestored, ?_⟩
      rw [max_comm]
      exact hbound.trans hclamp
    · refine .inr ⟨hmany.trans (Nat.succ_le_succ htracks.bad), ?_⟩
      rw [max_comm]
      exact hbound.trans hclamp

end

/-- A viewer whose replies come late by 390 milliseconds: the third of them lowers its target. -/
theorem reductions_confirmed_third :
    ∃ w u u', (watching .exact).run ⟨.default .exact true 0, fun _ => []⟩
        [.connectionOpen 1 true 0, .networkDelay 1 10 1000, .networkDelay 1 400 2000,
          .networkDelay 1 400 3000] = some w ∧
      w.qos.users.get 1 = some u ∧
      (w.qos.userNetworkDelay .exact 1 400 4000).users.get 1 = some u' ∧
      u'.currentFps < u.currentFps ∧ 150 ≤ u'.delay.excess (max 400 10) := by
  simp only [exists_and_left]
  refine LTS.exists_run_of (P := fun w => ∃ u ∈ w.qos.users.get 1,
    ∃ u' ∈ (w.qos.userNetworkDelay .exact 1 400 4000).users.get 1,
      u.currentFps ≤ u.fpsCap ∧ u'.currentFps < u.currentFps) (by decide +kernel) ?_
  rintro w hw ⟨u, hu, u', hu', hcap, hlower⟩
  have hstart : (watching .exact).init ⟨.default .exact true 0, fun _ => []⟩ :=
    ⟨⟨true, 0, rfl⟩, rfl⟩
  exact ⟨u, hu, u', hu', hlower,
    (reductions_confirmed ((LTS.Reachable.init hstart).run hw) hu hu' hcap hlower).2.1⟩

end RustDesk.Video
