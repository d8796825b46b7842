import RustDesk.Video.Viewer

/-!
# Viewers of one stream and each other's targets

With adaptive bitrate off and the image quality fixed, what a call does to a viewer depends on that
viewer alone. So the stream seen from one viewer is a stream with no other viewer, and the two runs
stay in step: a call that concerns the viewer is a step of both, any other call only of the first.
-/

namespace RustDesk.Video

variable {F : Type} (R : F32 F)

/-- The controller under any calls. -/
def controllers : LTS (VideoQoS F) QosAct where
  init s := ∃ adjusts now, s = .default R adjusts now
  step s a := some (s.act R a)

/-- The calls made for viewer `id`. -/
def concerns (id : ℤ) : QosAct → Bool
  | .connectionOpen id' _ _ | .connectionClose id' _ | .customFps id' _ | .autoAdjustFps id' _
  | .imageQuality id' _ _ | .networkDelay id' _ _ | .responseElapsed id' _ _ => id' = id
  | .newDisplay _ | .removeDisplay _ | .displayData _ _ _ | .supportChangingQuality _ _
  | .storeBitrate _ | .checkRatio | .reorder _ => false

/-- The quality a viewer sees without the others. -/
def UserData.ownQuality (u : UserData F) : Quality F := (u.quality.map (·.2)).getD .balanced

/-- A call under which adaptive bitrate stays off and the quality stays `Q`: no viewer turns the
one on or asks for another of the other, and a viewer whose replies count has that quality. -/
def keepsQuality [DecidableEq F] (Q : Quality F) (s : VideoQoS F) : QosAct → Bool
  | .connectionOpen _ abr _ => !abr
  | .imageQuality _ imageQuality _ => convertQuality R imageQuality = Q
  | .networkDelay id _ _ => (s.users.get id).all fun u => u.ownQuality = Q
  | _ => true

/-- The calls that recompute the rate of the stream. -/
def recomputes (s : VideoQoS F) : QosAct → Bool
  | .connectionClose id _ => !(s.users.erase id).isEmpty
  | .responseElapsed id elapsed _ => (s.users.get id).isSome && 2000 < elapsed
  | .networkDelay _ _ _ | .displayData _ _ _ => true
  | _ => false

variable {R} {s t : VideoQoS F} {id : ℤ} {a : QosAct} {Q : Quality F} {bitrateFirst : Bool}
  {u : UserData F}

/-! ### One viewer's own calls -/

lemma viewerStep_of_not_concerns (h : concerns id a = false) (range : ℕ × ℕ) (bitrateFirst : Bool)
    (viewer : Option (UserData F)) : viewerStep R range bitrateFirst id viewer a = viewer := by
  cases a <;> simp_all [concerns, viewerStep]

lemma viewerStep_none (h : ∀ abr now, a ≠ .connectionOpen id abr now) (range : ℕ × ℕ)
    (bitrateFirst : Bool) : viewerStep R range bitrateFirst id none a = none := by
  cases a <;> simp_all [viewerStep]

lemma reply_quality {least usual delay : ℕ} (u : UserData F) :
    (u.reply R least usual bitrateFirst delay).1.quality = u.quality := by
  unfold UserData.reply
  rfl

/-- A viewer has the quality it had, or none yet, or the one it asks for. -/
lemma viewerStep_quality {range : ℕ × ℕ} {viewer : Option (UserData F)}
    (h : viewerStep R range bitrateFirst id viewer a = some u) :
    u.quality = none ∨ (∃ v ∈ viewer, u.quality = v.quality) ∨
      ∃ imageQuality time, a = .imageQuality id imageQuality time ∧
        u.quality = some (time, convertQuality R imageQuality) := by
  have hsame : viewer = some u → ∃ v ∈ viewer, u.quality = v.quality := fun hv => ⟨u, hv, rfl⟩
  cases a <;> simp only [viewerStep] at h
  case connectionOpen =>
    split_ifs at h with hid
    · cases h
      exact .inl rfl
    · exact .inr (.inl (hsame h))
  case connectionClose =>
    split_ifs at h
    exact .inr (.inl (hsame h))
  case imageQuality id' imageQuality time =>
    split_ifs at h with hid
    · obtain ⟨v, -, rfl⟩ := Option.map_eq_some_iff.mp h
      subst hid
      exact .inr (.inr ⟨imageQuality, time, rfl, rfl⟩)
    · exact .inr (.inl (hsame h))
  case networkDelay =>
    split_ifs at h
    · obtain ⟨v, hv, rfl⟩ := Option.map_eq_some_iff.mp h
      exact .inr (.inl ⟨v, hv, reply_quality v⟩)
    · exact .inr (.inl (hsame h))
  case customFps | autoAdjustFps | responseElapsed =>
    split_ifs at h
    · obtain ⟨v, hv, rfl⟩ := Option.map_eq_some_iff.mp h
      exact .inr (.inl ⟨v, hv, rfl⟩)
    · exact .inr (.inl (hsame h))
  all_goals exact .inr (.inl (hsame h))

/-! ### Streams of a fixed quality -/

/-- Adaptive bitrate is off, or will be with the first viewer; no viewer has asked for another
quality than `Q`. -/
structure FixedQuality (Q : Quality F) (s : VideoQoS F) : Prop where
  abr : s.abrConfig = false ∨ ∀ id, s.users.get id = none
  quality : ∀ id u, s.users.get id = some u → ∀ q ∈ u.quality, q.2 = Q

namespace VideoQoS

variable {qs : List (ℤ × Quality F)} {q : ℤ × Quality F}

lemma mem_of_latest (h : latest qs = some q) : q ∈ qs := by
  cases qs with
  | nil => cases h
  | cons first qs =>
    obtain rfl := Option.some.inj h
    clear h
    induction qs generalizing first with
    | nil => exact List.mem_singleton_self first
    | cons next qs ih =>
      simp only [List.foldl_cons]
      split_ifs with hlt
      · rcases List.mem_cons.mp (ih first) with heq | hmem
        · rw [heq]
          exact List.mem_cons_self
        · exact List.mem_cons_of_mem _ (List.mem_cons_of_mem _ hmem)
      · exact List.mem_cons_of_mem _ (ih next)

lemma latest_ne_none (h : q ∈ qs) : latest qs ≠ none := by
  cases qs with
  | nil => cases h
  | cons => exact Option.some_ne_none _

/-- The latest quality is the fixed one as soon as a viewer has that quality. -/
lemma latestQuality_eq (hs : FixedQuality Q s) (hu : s.users.get id = some u)
    (hown : u.ownQuality = Q) : s.latestQuality = Q := by
  have hall : ∀ q ∈ s.users.values.filterMap UserData.quality, q.2 = Q := by
    intro q hq
    obtain ⟨v, hv, hvq⟩ := List.mem_filterMap.mp hq
    obtain ⟨id', hid'⟩ := HMap.mem_values.mp hv
    exact hs.quality id' v hid' q hvq
  unfold latestQuality
  cases hlatest : latest (s.users.values.filterMap UserData.quality) with
  | some q => exact hall q (mem_of_latest hlatest)
  | none =>
    cases huq : u.quality with
    | none =>
      rw [UserData.ownQuality, huq] at hown
      exact hown
    | some q =>
      have hq : q ∈ s.users.values.filterMap UserData.quality :=
        List.mem_filterMap.mpr ⟨u, HMap.mem_values.mpr ⟨id, hu⟩, huq⟩
      exact absurd hlatest (latest_ne_none hq)

/-- Where there is no bitrate to adapt, a call changes a viewer in one way only. -/
lemma get_act (hs : s.abrConfig = false ∨ ∀ id, s.users.get id = none) (id : ℤ) (a : QosAct) :
    (s.act R a).users.get id = viewerStep R (fpsRange R (s.latestQuality.ratio R))
      (s.canReduceBitrate R) id (s.users.get id) a := by
  obtain ⟨⟨f, hf⟩, hoff⟩ := viewed_act (R := R) s id a
  rcases hs with habr | hempty
  · exact hoff habr
  · by_cases hopen : ∃ abr now, a = .connectionOpen id abr now
    · obtain ⟨abr, now, rfl⟩ := hopen
      rw [viewerStep, if_pos rfl]
      exact HMap.get_insert_self
    · have hnone := viewerStep_none (R := R) (fun abr now h => hopen ⟨abr, now, h⟩)
        (fpsRange R (s.latestQuality.ratio R)) (s.canReduceBitrate R)
      rw [hf, hempty, hnone, Option.map_none]

end VideoQoS

section

variable [DecidableEq F]

/-- With the quality fixed, a call changes a viewer in a way that depends on that viewer alone. -/
lemma FixedQuality.get_act (hs : FixedQuality Q s) (ha : keepsQuality R Q s a) (id : ℤ) :
    (s.act R a).users.get id =
      viewerStep R (VideoQoS.fpsRange R (Q.ratio R)) false id (s.users.get id) a := by
  rw [VideoQoS.get_act hs.abr]
  -- only a reply of a viewer that is there reads the quality and the order of reductions
  cases a with
  | networkDelay id' delay now =>
    by_cases hid : id' = id
    · subst hid
      cases hu : s.users.get id' with
      | none =>
        have hreply :
            ∀ abr now', QosAct.networkDelay id' delay now ≠ .connectionOpen id' abr now' :=
          fun _ _ => by simp
        rw [viewerStep_none hreply, viewerStep_none hreply]
      | some u =>
        have hown : u.ownQuality = Q := by simpa [keepsQuality, hu] using ha
        have habr : s.abrConfig = false := hs.abr.resolve_right fun h => by simp [h] at hu
        rw [VideoQoS.latestQuality_eq hs hu hown, VideoQoS.canReduceBitrate_of_abr habr]
    · have hother : concerns id (.networkDelay id' delay now) = false := decide_eq_false hid
      rw [viewerStep_of_not_concerns hother, viewerStep_of_not_concerns hother]
  | _ => rfl

lemma abrConfig_act_open {abr : Bool} {now : ℕ}
    (ha : keepsQuality R Q s (.connectionOpen id abr now)) :
    (s.act R (.connectionOpen id abr now)).abrConfig = false := by
  simp only [keepsQuality, Bool.not_eq_true'] at ha
  exact ha

lemma abrConfig_act (ha : keepsQuality R Q s a) (hs : s.abrConfig = false) :
    (s.act R a).abrConfig = false ∨ ∀ id, (s.act R a).users.get id = none := by
  cases a with
  | connectionOpen id abr now => exact .inl (abrConfig_act_open ha)
  | connectionClose id now =>
    show (s.onConnectionClose R id now).abrConfig = false ∨
      ∀ id', (s.onConnectionClose R id now).users.get id' = none
    unfold VideoQoS.onConnectionClose
    dsimp only
    split_ifs
    · exact .inr fun _ => rfl
    · exact .inl hs
  | customFps id fps | autoAdjustFps id fps =>
    left
    show (VideoQoS.userFps s id fps _).abrConfig = false
    unfold VideoQoS.userFps
    split_ifs <;> exact hs
  | imageQuality id imageQuality time =>
    left
    show (s.userImageQuality R id imageQuality time).abrConfig = false
    unfold VideoQoS.userImageQuality
    cases s.users.get id <;> exact hs
  | networkDelay id delay now =>
    left
    cases hid : s.users.get id with
    | none =>
      show (s.userNetworkDelay R id delay now).abrConfig = false
      unfold VideoQoS.userNetworkDelay
      rw [hid]
      exact hs
    | some user => exact (VideoQoS.userNetworkDelay_recounted delay now hid).2.2.trans hs
  | responseElapsed id elapsed now =>
    left
    show (s.userDelayResponseElapsed id elapsed now).abrConfig = false
    unfold VideoQoS.userDelayResponseElapsed
    cases s.users.get id with
    | none => exact hs
    | some user =>
      dsimp only
      split_ifs <;> exact hs
  | displayData name sendCounter now =>
    exact .inl ((VideoQoS.updateDisplayData_recounted s name sendCounter now).2.2.trans hs)
  | checkRatio =>
    left
    show (s.checkRatio R).abrConfig = false
    unfold VideoQoS.checkRatio
    split_ifs <;> exact hs
  | reorder ids =>
    left
    show (dite _ _ _ : VideoQoS F).abrConfig = false
    split_ifs <;> exact hs
  | newDisplay | removeDisplay | supportChangingQuality | storeBitrate => exact .inl hs

lemma FixedQuality.act (hs : FixedQuality Q s) (ha : keepsQuality R Q s a) :
    FixedQuality Q (s.act R a) := by
  constructor
  · rcases hs.abr with habr | hempty
    · exact abrConfig_act ha habr
    · by_cases hopen : ∃ id abr now, a = .connectionOpen id abr now
      · obtain ⟨id, abr, now, rfl⟩ := hopen
        exact .inl (abrConfig_act_open ha)
      · refine .inr fun id => ?_
        rw [hs.get_act ha, hempty]
        exact viewerStep_none (fun abr now h => hopen ⟨id, abr, now, h⟩) _ _
  · intro id u hu q hq
    rw [hs.get_act ha] at hu
    rcases viewerStep_quality hu with hnone | ⟨v, hv, hsame⟩ | ⟨imageQuality, time, rfl, hasked⟩
    · rw [hnone] at hq
      cases hq
    · rw [hsame] at hq
      exact hs.quality id v hv q hq
    · rw [hasked] at hq
      cases hq
      simpa [keepsQuality] using ha

/-! ### The stream and the stream with one viewer -/

/-- Viewer `id` is the same in two streams of the same quality. -/
structure Isolated (Q : Quality F) (id : ℤ) (s t : VideoQoS F) : Prop where
  fixed : FixedQuality Q s
  fixedAlone : FixedQuality Q t
  same : t.users.get id = s.users.get id

variable (h : Isolated Q id s t)

include h

/-- A call for the viewer is allowed in both streams, since it reads no other viewer. -/
lemma Isolated.keepsQuality (hid : concerns id a)
    (ha : keepsQuality R Q s a) : Video.keepsQuality R Q t a := by
  cases a with
  | networkDelay id' delay now =>
    obtain rfl : id' = id := by simpa [concerns] using hid
    simp only [Video.keepsQuality] at ha ⊢
    rw [h.same]
    exact ha
  | _ => exact ha

lemma Isolated.act (hid : concerns id a) (ha : Video.keepsQuality R Q s a) :
    Isolated Q id (s.act R a) (t.act R a) := by
  have hat := h.keepsQuality hid ha
  refine ⟨h.fixed.act ha, h.fixedAlone.act hat, ?_⟩
  rw [h.fixed.get_act ha, h.fixedAlone.get_act hat, h.same]

lemma Isolated.act_of_not_concerns (hid : concerns id a = false)
    (ha : Video.keepsQuality R Q s a) : Isolated Q id (s.act R a) t := by
  refine ⟨h.fixed.act ha, h.fixedAlone, ?_⟩
  rw [h.fixed.get_act ha, viewerStep_of_not_concerns hid, h.same]

/-- What the two streams do in step they do along a whole run. -/
lemma Isolated.run {as : List QosAct} {s' : VideoQoS F}
    (hrun : ((controllers R).restrict (Video.keepsQuality R Q)).run s as = some s') :
    ∃ t', (controllers R).run t (as.filter (concerns id)) = some t' ∧ Isolated Q id s' t' := by
  induction as generalizing s t with
  | nil =>
    cases hrun
    exact ⟨t, rfl, h⟩
  | cons a as ih =>
    rw [LTS.run_cons] at hrun
    obtain ⟨s₁, hstep, hrun⟩ := Option.bind_eq_some_iff.mp hrun
    obtain ⟨ha, hact⟩ := LTS.restrict_step_some hstep
    obtain rfl : s.act R a = s₁ := Option.some.inj hact
    cases hid : concerns id a with
    | true =>
      have hown : (controllers R).step t a = some (t.act R a) := rfl
      rw [List.filter_cons_of_pos hid, LTS.run_cons_of_step hown]
      exact ih (h.act hid ha) hrun
    | false =>
      rw [List.filter_cons_of_neg (by simp [hid])]
      exact ih (h.act_of_not_concerns hid ha) hrun

end

lemma fixedQuality_default (adjusts : Bool) (now : ℕ) :
    FixedQuality Q (VideoQoS.default R adjusts now) :=
  ⟨.inr fun _ => rfl, fun _ _ h => by cases h⟩

/-! ### The rate of the stream -/

/-- The rate of the stream is one every viewer can take. -/
def Rated (s : VideoQoS F) : Prop :=
  1 ≤ s.publishedFps ∧ ∀ id u, s.users.get id = some u →
    s.publishedFps ≤ u.fpsCap ∧ s.publishedFps ≤ max 1 (u.delay.fps.getD initFps)

lemma min?_getD_le {xs : List ℕ} {x : ℕ} (d : ℕ) (h : x ∈ xs) : xs.min?.getD d ≤ x := by
  cases hmin : xs.min? with
  | none => simp_all
  | some m => exact (List.min?_eq_some_iff.mp hmin).2 x h

lemma highestFps_range (s : VideoQoS F) : 1 ≤ s.highestFps ∧ s.highestFps ≤ 120 := by
  simp only [VideoQoS.highestFps, clamp, minFps, maxFps]
  omega

lemma highestFps_le (hu : s.users.get id = some u) : s.highestFps ≤ u.fpsCap := by
  have hmem : u.fpsCap ∈ s.users.values.map UserData.fpsCap :=
    List.mem_map_of_mem (HMap.mem_values.mpr ⟨id, hu⟩)
  have hle := min?_getD_le defaultFps hmem
  have hcap : 1 ≤ u.fpsCap := by
    simp only [UserData.fpsCap, clamp, minFps, maxFps]
    omega
  simp only [VideoQoS.highestFps, clamp, minFps]
  omega

lemma rated_adjustFps (s : VideoQoS F) (now : ℕ) : Rated (s.adjustFps now) := by
  obtain ⟨hlow, hhigh⟩ := highestFps_range s
  have hle : (s.adjustFps now).fps ≤
      max 1 ((s.users.values.map fun u => u.delay.fps.getD initFps).min?.getD initFps) := by
    simp only [VideoQoS.adjustFps, clamp, minFps]
    split_ifs <;> omega
  have hcap : (s.adjustFps now).fps ≤ s.highestFps := by
    simp only [VideoQoS.adjustFps, clamp, minFps]
    omega
  have hone : 1 ≤ (s.adjustFps now).fps := by
    simp only [VideoQoS.adjustFps, clamp, minFps]
    omega
  have hpublished : (s.adjustFps now).publishedFps = (s.adjustFps now).fps :=
    if_pos ⟨hone, hcap.trans hhigh⟩
  unfold Rated
  rw [hpublished]
  refine ⟨hone, fun id u hu => ⟨hcap.trans (highestFps_le hu), hle.trans (max_le_max_left 1 ?_)⟩⟩
  exact min?_getD_le initFps (List.mem_map_of_mem (HMap.mem_values.mpr ⟨id, hu⟩))

/-- Counting replies changes neither a target nor a cap. -/
lemma Rated.recounted (h : Rated s) (hr : VideoQoS.Recounted s t) (hfps : t.fps = s.fps) :
    Rated t := by
  have hpublished : t.publishedFps = s.publishedFps := by
    unfold VideoQoS.publishedFps
    rw [hfps]
  unfold Rated
  rw [hpublished]
  refine ⟨h.1, fun id u hu => ?_⟩
  obtain ⟨f, hf⟩ := hr.1
  rw [hf] at hu
  obtain ⟨v, hv, rfl⟩ := Option.map_eq_some_iff.mp hu
  exact h.2 id v hv

lemma adjustRatio_fps (s : VideoQoS F) (dynamicScreen : Bool) (now : ℕ) :
    (s.adjustRatio R dynamicScreen now).fps = s.fps := by
  unfold VideoQoS.adjustRatio
  split_ifs
  · rfl
  · cases (s.users.values.map fun u => u.delay.avgDelay).max? with
    | none => rfl
    | some maxDelay =>
      dsimp only
      split_ifs <;> rfl

lemma Rated.adjustRatio (h : Rated s) (dynamicScreen : Bool) (now : ℕ) :
    Rated (s.adjustRatio R dynamicScreen now) :=
  h.recounted (VideoQoS.adjustRatio_recounted s dynamicScreen now)
    (adjustRatio_fps s dynamicScreen now)

lemma rated_userNetworkDelay (s : VideoQoS F) (id : ℤ) (delay now : ℕ) :
    Rated (s.userNetworkDelay R id delay now) := by
  have hadjust : ∀ (s : VideoQoS F) (c : Bool), Rated s →
      Rated (if c then s.adjustRatio R false now else s) := by
    intro s c h
    cases c with
    | false => exact h
    | true => exact h.adjustRatio false now
  unfold VideoQoS.userNetworkDelay
  cases s.users.get id with
  | none => exact rated_adjustFps s now
  | some user => exact hadjust _ _ (hadjust _ _ (rated_adjustFps _ now))

lemma rated_updateDisplayData (s : VideoQoS F) (name : String) (sendCounter now : ℕ) :
    Rated (s.updateDisplayData R name sendCounter now) := by
  unfold VideoQoS.updateDisplayData
  dsimp only
  have hrated := rated_adjustFps { s with displays := s.displays.modify name fun d =>
    { d with sendCounter := d.sendCounter + sendCounter } } now
  split_ifs
  · exact hrated.adjustRatio _ now
  · exact hrated
  · exact hrated

/-- After a call that recomputes the rate of the stream, every viewer can take it. -/
lemma rated_act (h : recomputes s a) : Rated (s.act R a) := by
  cases a with
  | connectionClose id now =>
    show Rated (s.onConnectionClose R id now)
    unfold VideoQoS.onConnectionClose
    dsimp only
    rw [if_neg (by simpa [recomputes] using h)]
    exact rated_adjustFps _ now
  | responseElapsed id elapsed now =>
    obtain ⟨⟨user, hid⟩, hlate⟩ : (∃ user, s.users.get id = some user) ∧ 2000 < elapsed := by
      simpa [recomputes, Option.isSome_iff_exists] using h
    show Rated (s.userDelayResponseElapsed id elapsed now)
    unfold VideoQoS.userDelayResponseElapsed
    rw [hid]
    dsimp only
    rw [if_neg (Nat.not_le.mpr hlate)]
    exact rated_adjustFps _ now
  | networkDelay id delay now => exact rated_userNetworkDelay s id delay now
  | displayData name sendCounter now => exact rated_updateDisplayData s name sendCounter now
  | _ => simp [recomputes] at h

/-- With adaptive bitrate off and the quality fixed, every viewer is as it would be without the
others, and a recomputed rate of the stream is one that every viewer can take. -/
theorem viewers_isolated [DecidableEq F] {adjusts : Bool} {now : ℕ} {as : List QosAct}
    (hrun : ((controllers R).restrict (keepsQuality R Q)).run (.default R adjusts now) as =
      some s) :
    (∀ id, ∃ t, (controllers R).run (.default R adjusts now) (as.filter (concerns id)) = some t ∧
      t.users.get id = s.users.get id) ∧
    ∀ a, recomputes s a → 1 ≤ (s.act R a).publishedFps ∧
      ∀ id u, (s.act R a).users.get id = some u → (s.act R a).publishedFps ≤ u.fpsCap ∧
        (s.act R a).publishedFps ≤ max 1 (u.delay.fps.getD 15) := by
  refine ⟨fun id => ?_, fun a ha => rated_act ha⟩
  have hstart : Isolated Q id (VideoQoS.default R adjusts now) (.default R adjusts now) :=
    ⟨fixedQuality_default adjusts now, fixedQuality_default adjusts now, rfl⟩
  obtain ⟨t, ht, hsame⟩ := hstart.run hrun
  exact ⟨t, ht, hsame.same⟩

/-- The second viewer's late replies and its stall leave the first one's target alone. -/
theorem viewers_isolated_two :
    ∃ s t : VideoQoS ℚ, (controllers .exact).run (.default .exact true 0)
        [.connectionOpen 1 false 0, .connectionOpen 2 false 0, .networkDelay 2 1500 1000,
          .networkDelay 1 20 1000, .responseElapsed 2 5000 6000, .networkDelay 1 20 6000,
          .connectionClose 2 7000] = some s ∧
      (controllers .exact).run (.default .exact true 0)
        [.connectionOpen 1 false 0, .networkDelay 1 20 1000, .networkDelay 1 20 6000] = some t ∧
      t.users.get 1 = s.users.get 1 := by
  have hrun : ∃ s ∈ ((controllers .exact).restrict (keepsQuality .exact .balanced)).run
      (.default .exact true 0)
        [.connectionOpen 1 false 0, .connectionOpen 2 false 0, .networkDelay 2 1500 1000,
          .networkDelay 1 20 1000, .responseElapsed 2 5000 6000, .networkDelay 1 20 6000,
          .connectionClose 2 7000], (s.users.get 1).isSome := by decide
  obtain ⟨s, hs, -⟩ := hrun
  obtain ⟨t, ht, hsame⟩ := (viewers_isolated hs).1 1
  exact ⟨s, t, LTS.run_of_restrict hs, ht, hsame⟩

end RustDesk.Video
