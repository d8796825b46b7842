import RustDesk.Video.Qos

/-!
# What a call does to one viewer

A viewer is changed by the calls that name it. Besides, an adjustment of the ratio starts to count
the replies of every viewer that has asked for it; with adaptive bitrate off there is no such
adjustment.
-/

namespace RustDesk.Video

variable {F : Type} (R : F32 F)

/-- A viewer whose replies after a reduction of the bitrate are set. -/
def UserData.withReplies (u : UserData F) (replies : Option ℕ) : UserData F :=
  { u with delay := { u.delay with repliesAfterBitrateReduction := replies } }

/-- What a call does to viewer `id`, if there is one, for the range of frame rates and the order of
reductions of the moment. -/
def viewerStep (range : ℕ × ℕ) (bitrateFirst : Bool) (id : ℤ) (viewer : Option (UserData F)) :
    QosAct → Option (UserData F)
  | .connectionOpen id' _ now => if id' = id then some { joinedAt := some now } else viewer
  | .connectionClose id' _ => if id' = id then none else viewer
  | .customFps id' fps =>
    if id' = id ∧ minFps ≤ fps ∧ fps ≤ maxFps then
      viewer.map fun u => { u with customFps := some fps }
    else viewer
  | .autoAdjustFps id' fps =>
    if id' = id ∧ minFps ≤ fps ∧ fps ≤ maxFps then
      viewer.map fun u => { u with autoAdjustFps := some fps }
    else viewer
  | .imageQuality id' imageQuality time =>
    if id' = id then
      viewer.map fun u => { u with quality := some (time, convertQuality R imageQuality) }
    else viewer
  | .networkDelay id' delay _ =>
    if id' = id then
      viewer.map fun u => (u.reply R range.1 range.2 bitrateFirst delay).1
    else viewer
  | .responseElapsed id' elapsed _ =>
    if id' = id ∧ 2000 < elapsed then viewer.map (UserData.stall elapsed) else viewer
  | .newDisplay _ | .removeDisplay _ | .displayData _ _ _ | .supportChangingQuality _ _
  | .storeBitrate _ | .checkRatio | .reorder _ => viewer

namespace VideoQoS

variable {R} {s s' : VideoQoS F} {id : ℤ} {after : Option (UserData F)}

/-- The viewers of `s'` are those of `s` up to their replies, and exactly those where adaptive
bitrate is off. -/
def Recounted (s s' : VideoQoS F) : Prop :=
  (∃ f : UserData F → Option ℕ, ∀ id,
      s'.users.get id = (s.users.get id).map fun u => u.withReplies (f u)) ∧
    (s.abrConfig = false → s'.users.get = s.users.get) ∧ s'.abrConfig = s.abrConfig

lemma Recounted.of_users (h : s'.users = s.users) (habr : s'.abrConfig = s.abrConfig) :
    Recounted s s' := by
  refine ⟨⟨fun u => u.delay.repliesAfterBitrateReduction, fun id => ?_⟩, fun _ => ?_, habr⟩
  · rw [h]
    exact Option.map_id'.symm
  · rw [h]

lemma Recounted.trans {s'' : VideoQoS F} (h : Recounted s s') (h' : Recounted s' s'') :
    Recounted s s'' := by
  obtain ⟨⟨f, hf⟩, hoff, habr⟩ := h
  obtain ⟨⟨f', hf'⟩, hoff', habr'⟩ := h'
  refine ⟨⟨fun u => f' (u.withReplies (f u)), fun id => ?_⟩, fun hs => ?_, habr'.trans habr⟩
  · rw [hf', hf, Option.map_map]
    rfl
  · rw [hoff' (habr.trans hs), hoff hs]

lemma inVbrState_of_abr (h : s.abrConfig = false) : s.inVbrState = false := by
  simp [inVbrState, h]

lemma canReduceBitrate_of_abr (h : s.abrConfig = false) : s.canReduceBitrate R = false := by
  simp [canReduceBitrate, inVbrState_of_abr h]

/-- Waiting for replies is setting their count. -/
lemma awaitReplies_eq (replies : ℕ) : ∃ f : UserData F → Option ℕ,
    ∀ u : UserData F, u.awaitReplies replies = u.withReplies (f u) := by
  refine ⟨fun u =>
    if u.delay.needsBitrateReduction && u.delay.repliesAfterBitrateReduction.isNone then
      some replies else u.delay.repliesAfterBitrateReduction, fun u => ?_⟩
  unfold UserData.awaitReplies
  dsimp only
  split_ifs <;> rfl

lemma adjustRatio_recounted (s : VideoQoS F) (dynamicScreen : Bool) (now : ℕ) :
    Recounted s (s.adjustRatio R dynamicScreen now) := by
  unfold adjustRatio
  by_cases hvbr : s.inVbrState
  · rw [if_neg (by simp [hvbr])]
    cases (s.users.values.map fun u => u.delay.avgDelay).max? with
    | none => exact .of_users rfl rfl
    | some maxDelay =>
      dsimp only
      generalize (if R.lt (s.nextRatio R (s.reduction R) maxDelay dynamicScreen) s.ratio then 0
        else 2) = replies
      split_ifs with hunconfirmed hreduction
      · exact .of_users rfl rfl
      · obtain ⟨f, hf⟩ := awaitReplies_eq (F := F) replies
        refine ⟨⟨f, fun id => ?_⟩, fun hoff => ?_, rfl⟩
        · exact congrArg (fun g => (s.users.get id).map g) (funext hf)
        · rw [inVbrState_of_abr hoff] at hvbr
          cases hvbr
      · exact .of_users rfl rfl
  · rw [if_pos (by simp [hvbr])]
    exact .of_users rfl rfl

lemma adjustFps_recounted (s : VideoQoS F) (now : ℕ) : Recounted s (s.adjustFps now) :=
  .of_users rfl rfl

lemma get_modify (s : VideoQoS F) (id id' : ℤ) (f : UserData F → UserData F) :
    (s.users.modify id' f).get id =
      if id' = id then (s.users.get id).map f else s.users.get id := by
  split_ifs with h
  · subst h
    exact HMap.get_modify_self
  · exact HMap.get_modify_of_ne (Ne.symm h)

lemma get_userFps (s : VideoQoS F) (id id' : ℤ) (fps : ℕ) (set : UserData F → UserData F) :
    (s.userFps id' fps set).users.get id =
      if id' = id ∧ minFps ≤ fps ∧ fps ≤ maxFps then (s.users.get id).map set
      else s.users.get id := by
  unfold userFps
  by_cases hrange : fps < minFps ∨ maxFps < fps
  · rw [if_pos hrange, if_neg (by omega)]
  · rw [if_neg hrange]
    show (s.users.modify id' set).get id = _
    rw [get_modify]
    congr 1
    simp only [eq_iff_iff]
    omega

/-- A viewer after a call, up to what an adjustment of the ratio counts; with adaptive bitrate off
it counts nothing. -/
def Viewed (s s' : VideoQoS F) (id : ℤ) (after : Option (UserData F)) : Prop :=
  (∃ f : UserData F → Option ℕ, s'.users.get id = after.map fun u => u.withReplies (f u)) ∧
    (s.abrConfig = false → s'.users.get id = after)

lemma Viewed.of_eq (h : s'.users.get id = after) : Viewed s s' id after :=
  ⟨⟨fun u => u.delay.repliesAfterBitrateReduction, h.trans Option.map_id'.symm⟩, fun _ => h⟩

lemma Recounted.viewed {mid : VideoQoS F} (h : Recounted mid s')
    (habr : mid.abrConfig = s.abrConfig) (hmid : mid.users.get id = after) :
    Viewed s s' id after := by
  obtain ⟨⟨f, hf⟩, hoff, -⟩ := h
  refine ⟨⟨f, (hf id).trans (by rw [hmid])⟩, fun hs => ?_⟩
  rw [hoff (habr.trans hs), hmid]

lemma userNetworkDelay_recounted {user : UserData F} (delay now : ℕ)
    (hid : s.users.get id = some user) :
    Recounted { s with users := s.users.modify id fun _ => (user.reply R
        (fpsRange R (s.latestQuality.ratio R)).1 (fpsRange R (s.latestQuality.ratio R)).2
        (s.canReduceBitrate R) delay).1 }
      (s.userNetworkDelay R id delay now) := by
  unfold userNetworkDelay
  rw [hid]
  dsimp only
  generalize user.reply R (fpsRange R (s.latestQuality.ratio R)).1
    (fpsRange R (s.latestQuality.ratio R)).2 (s.canReduceBitrate R) delay = result
  have hadjust : ∀ (s : VideoQoS F) (c : Bool),
      Recounted s (if c then s.adjustRatio R false now else s) := by
    intro s c
    cases c with
    | false => exact .of_users rfl rfl
    | true => exact adjustRatio_recounted s false now
  exact (adjustFps_recounted _ now).trans ((hadjust _ _).trans (hadjust _ _))

lemma updateDisplayData_recounted (s : VideoQoS F) (name : String) (sendCounter now : ℕ) :
    Recounted s (s.updateDisplayData R name sendCounter now) := by
  unfold updateDisplayData
  dsimp only
  have hcounted : Recounted s ({ s with displays := s.displays.modify name fun d =>
      { d with sendCounter := d.sendCounter + sendCounter } }.adjustFps now) := .of_users rfl rfl
  split_ifs
  · exact hcounted.trans (adjustRatio_recounted _ _ _)
  · exact hcounted
  · exact hcounted.trans (.of_users rfl rfl)

lemma viewed_act (s : VideoQoS F) (id : ℤ) (a : QosAct) :
    Viewed s (s.act R a) id (viewerStep R (fpsRange R (s.latestQuality.ratio R))
      (s.canReduceBitrate R) id (s.users.get id) a) := by
  cases a with
  | connectionOpen id' abr now =>
    apply Viewed.of_eq
    show (s.users.insert id' _).get id = if id' = id then _ else s.users.get id
    split_ifs with h
    · subst h
      exact HMap.get_insert_self
    · exact HMap.get_insert_of_ne (Ne.symm h)
  | connectionClose id' now =>
    apply Viewed.of_eq
    have herase : (s.users.erase id').get id = if id' = id then none else s.users.get id := by
      split_ifs with h
      · subst h
        exact HMap.get_erase_self
      · exact HMap.get_erase_of_ne (Ne.symm h)
    show (s.onConnectionClose R id' now).users.get id = if id' = id then none else s.users.get id
    rw [← herase]
    unfold onConnectionClose
    dsimp only
    split_ifs with hempty
    · exact (HMap.get_eq_none_of_isEmpty hempty id).symm
    · rfl
  | customFps id' fps | autoAdjustFps id' fps => exact Viewed.of_eq (get_userFps s id id' fps _)
  | imageQuality id' imageQuality time =>
    apply Viewed.of_eq
    show (s.userImageQuality R id' imageQuality time).users.get id = ite _ _ _
    unfold userImageQuality
    cases hid : s.users.get id' with
    | none =>
      dsimp only
      split_ifs with h
      · rw [← h, hid, Option.map_none]
      · rfl
    | some user => exact get_modify s id id' _
  | networkDelay id' delay now =>
    show Viewed s (s.userNetworkDelay R id' delay now) id (ite _ _ _)
    cases hid : s.users.get id' with
    | none =>
      apply Viewed.of_eq
      have hsame : (s.userNetworkDelay R id' delay now).users = s.users := by
        unfold userNetworkDelay
        rw [hid]
        rfl
      rw [hsame]
      split_ifs with h
      · rw [← h, hid, Option.map_none]
      · rfl
    | some user =>
      refine (userNetworkDelay_recounted delay now hid).viewed rfl ?_
      show (s.users.modify id' _).get id = _
      rw [get_modify]
      split_ifs with h
      · rw [← h, hid, Option.map_some, Option.map_some]
      · rfl
  | responseElapsed id' elapsed now =>
    apply Viewed.of_eq
    show (s.userDelayResponseElapsed id' elapsed now).users.get id = ite _ _ _
    unfold userDelayResponseElapsed
    cases hid : s.users.get id' with
    | none =>
      dsimp only
      split_ifs with h
      · rw [← h.1, hid, Option.map_none]
      · rfl
    | some user =>
      dsimp only
      by_cases hlate : elapsed ≤ 2000
      · rw [if_pos hlate, if_neg (by omega)]
      · rw [if_neg hlate]
        show (s.users.modify id' _).get id = _
        rw [get_modify]
        congr 1
        simp only [eq_iff_iff]
        omega
  | displayData name sendCounter now =>
    exact (updateDisplayData_recounted s name sendCounter now).viewed rfl rfl
  | checkRatio =>
    apply Viewed.of_eq
    show (s.checkRatio R).users.get id = s.users.get id
    unfold checkRatio
    split_ifs <;> rfl
  | reorder ids =>
    apply Viewed.of_eq
    show (dite _ _ _ : VideoQoS F).users.get id = s.users.get id
    split_ifs <;> rfl
  | newDisplay | removeDisplay | supportChangingQuality | storeBitrate => exact Viewed.of_eq rfl

end VideoQoS

end RustDesk.Video
