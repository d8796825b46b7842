import RustDesk.TrustedDevices.Operations

/-!
# Changes of the settings keep the invariant, and so do runs

A change either leaves the settings in force as they are or is made while nothing is trusted. With
the restart and the management of devices that is every operation, and the invariant holds in every
state of a run.
-/

namespace RustDesk.TrustedDevices

open Settings Prog

variable {D R α : Type} {setup : Setup D} {ban : D → Prop} {n : ℕ} {s s' : Host D R} {g : Grants D}

/-! ### Settings that come to the same -/

lemma decryptStrOrOriginal_fst {libs : Libs} {text : Bytes}
    (h : (decryptStrOrOriginal libs text).2.1 = false) :
    (decryptStrOrOriginal libs text).1 = text := by
  rw [decryptStrOrOriginal] at h ⊢
  cases hdecrypted : (if versionLen < text.length && startsWith text passwordEncVersion then
      (libs.decode (text.drop versionLen)).bind (decrypt libs) else none) with
  | none => rfl
  | some v =>
    rw [hdecrypted] at h
    cases h

lemma load_eq (libs : Libs) (c : Config R) :
    Config.load libs c = { c with password := passwordOnDisk libs c.password } := by
  rw [Config.load, Config.validateOrDecryptPermanentPasswordStorage, passwordOnDisk]
  by_cases hempty : c.password = []
  · rw [if_pos hempty, hempty]
    show c = { c with password := [] }
    rw [← hempty]
  rw [if_neg hempty]
  by_cases hversion : startsWith c.password passwordEncVersion
  · rw [if_pos hversion, if_pos hversion]
    have hfst : (decryptStrOrOriginal libs c.password).2.1 = false →
        (decryptStrOrOriginal libs c.password).1 = c.password := decryptStrOrOriginal_fst
    generalize decryptStrOrOriginal libs c.password = result at hfst ⊢
    obtain ⟨plain, decrypted, shouldStore⟩ := result
    cases decrypted with
    | true => rfl
    | false =>
      obtain rfl : plain = c.password := hfst rfl
      cases shouldStore <;> rfl
  · rw [if_neg hversion, if_neg hversion]
    dsimp only
    split_ifs <;> rfl

lemma normalize_load (libs : Libs) (preset : Preset) (c : Config R) (rest : R) :
    normalize libs preset { Config.load libs c with rest := rest } false =
      normalize libs preset c true := by
  rw [load_eq]
  rfl

/-- An option that is not stored has its value all the same. -/
lemma getOr_filter (env : Layers) (k : String) (o : Option String) :
    (env.overwrite k).or ((o.filter (isOptionCanSave env k)).or (env.defaults k)) =
      (env.overwrite k).or (o.or (env.defaults k)) := by
  cases o with
  | none => rfl
  | some v =>
    cases hoverwrite : env.overwrite k with
    | some w => rfl
    | none =>
      by_cases hdefault : env.defaults k = some v
      · have hsave : isOptionCanSave env k v = false := by simp [isOptionCanSave, hdefault]
        rw [Option.filter_some, hsave, hdefault]
        rfl
      · have hsave : isOptionCanSave env k v := by simp [isOptionCanSave, hoverwrite, hdefault]
        rw [Option.filter_some, if_pos hsave]

lemma effective_purify (env : Layers) (o : AuthOptions R) :
    (o.purify env).effective env = o.effective env := by
  funext k
  simp only [AuthOptions.effective, effectiveOptions, getOr, AuthOptions.get, AuthOptions.purify]
  split_ifs with h2fa henable hexpiration
  · rw [h2fa, getOr_filter]
  · rw [henable, getOr_filter]
  · rw [hexpiration, getOr_filter]
  · rfl

lemma effective_of_normalize {config : Config R}
    (h : normalize setup.libs setup.preset s.config false =
      normalize setup.libs setup.preset config false) :
    (Host.inMemory setup { s with config := config }).effective = (s.inMemory setup).effective := by
  simp only [Host.inMemory, build, h]

lemma effective_of_options {options : AuthOptions R}
    (h : authenticationChanged (s.options.effective setup.layers)
      (options.effective setup.layers) = false) :
    (Host.inMemory setup { s with options := options }).effective =
      (s.inMemory setup).effective := by
  simp only [authenticationChanged, List.any_cons, List.any_nil, Bool.or_false,
    Bool.or_eq_false_iff, decide_eq_false_iff_not, not_not] at h
  simp only [Host.inMemory, build, h.1, h.2]

/-! ### Setters -/

/-- Nothing is trusted, under no settings. -/
structure Host.Quiet (s : Host D R) : Prop extends s.Emptied where
  unscoped : ∀ g ∈ s.disk.grants, g.scope = none

variable (h : s.Inv setup ban n)

include h

lemma wp_storeConfig [DecidableEq D] {file : Config R} :
    Op.Kept setup ban n (storeConfig setup file) s :=
  wp_write (h.nextFate.setDiskConfig file) h.nextFate h.nextFate

lemma wp_storeOptions : Op.Kept setup ban n storeOptions s :=
  wp_write h.nextFate.setDiskOptions h.nextFate h.nextFate

lemma wp_applyConfig [DecidableEq D] {m : Machine R} {stored : Bool}
    (hok : s.Quiet ∨ normalize setup.libs setup.preset s.config false =
      normalize setup.libs setup.preset m.mem false) :
    Op.Kept setup ban n (applyConfig setup m stored) s := by
  have hmemory : (s.setMemory setup m.mem s.options).Inv setup ban n := by
    rcases hok with hquiet | hsame
    · exact h.setMemory_of_emptied hquiet.toEmptied hquiet.unscoped
    · exact h.setMemory_of_eq (effective_of_normalize hsame)
  simp only [applyConfig, wp_bind, wp_modify, wp_whenever]
  exact ⟨fun _ => wp_storeConfig hmemory, fun _ => hmemory⟩

lemma wp_applyOptions {options : AuthOptions R}
    (hok : s.Quiet ∨ authenticationChanged (s.options.effective setup.layers)
      (options.effective setup.layers) = false) :
    Op.Kept setup ban n (applyOptions setup options) s := by
  have hmemory : (s.setMemory setup s.config options).Inv setup ban n := by
    rcases hok with hquiet | hsame
    · exact h.setMemory_of_emptied hquiet.toEmptied hquiet.unscoped
    · exact h.setMemory_of_eq (effective_of_options hsame)
  rw [Op.Kept, applyOptions, wp_bind, wp_modify]
  exact wp_storeOptions hmemory

lemma wp_configSetPermanentPassword [DecidableEq D] {value : Bytes}
    (hok : s.Quiet ∨ (s.machine.setPermanentPassword setup.libs setup.preset s.env.draws
      s.env.nonce value).1 = s.machine) :
    Op.Kept setup ban n (configSetPermanentPassword setup value) s := by
  simp only [configSetPermanentPassword, wp_bind, wp_get, wp_pure]
  refine wp_applyConfig h (hok.imp_right fun hsame => ?_)
  rw [hsame]
  rfl

section

variable [DecidableEq R]

lemma wp_configSetSalt [DecidableEq D] {salt : Bytes} (hok : s.Quiet ∨ s.config.salt = salt) :
    Op.Kept setup ban n (configSetSalt setup salt) s := by
  simp only [configSetSalt, wp_bind, wp_get]
  refine wp_applyConfig h (hok.imp_right fun hsame => ?_)
  have hunset : s.machine.setSalt setup.libs salt s.env.nonce true = s.machine :=
    if_pos hsame.symm
  rw [hunset]
  rfl

lemma wp_configSet [DecidableEq D] {value : Config R}
    (hok : s.Quiet ∨ normalize setup.libs setup.preset s.config false =
      normalize setup.libs setup.preset value false) :
    Op.Kept setup ban n (configSet setup value) s := by
  simp only [configSet, wp_bind, wp_get]
  split_ifs
  · exact h
  · rw [wp_bind]
    exact wp_applyConfig h hok

lemma wp_configSetOptions {options : AuthOptions R}
    (hok : s.Quiet ∨ authenticationChanged (s.options.effective setup.layers)
      (options.effective setup.layers) = false) :
    Op.Kept setup ban n (configSetOptions setup options) s := by
  simp only [configSetOptions, wp_bind, wp_get]
  split_ifs
  · exact h
  · exact wp_applyOptions h (by rwa [effective_purify])

lemma wp_config2Set {value : AuthOptions R}
    (hok : s.Quiet ∨ authenticationChanged (s.options.effective setup.layers)
      (value.effective setup.layers) = false) : Op.Kept setup ban n (config2Set setup value) s := by
  simp only [config2Set, wp_bind, wp_get]
  split_ifs
  · exact h
  · rw [wp_bind]
    exact wp_applyOptions h hok

end

/-! ### Changes of the settings -/

variable [DecidableEq D]

/-- The trust is revoked before a change, unless nothing changes. -/
lemma wp_change {affected : Bool} {apply : Op D R α}
    (hsame : affected = false → Op.Kept setup ban n apply s)
    (hquiet : ∀ s', s'.Inv setup ban n → s.Agrees s' → s'.Quiet →
      Op.Kept setup ban n apply s') : Op.Kept setup ban n (change setup affected apply) s := by
  rw [change]
  split_ifs with haffected
  · exact hsame (by simpa using haffected)
  rw [Op.Kept, wp_bind]
  refine wp_grantsExist (fun _ => ?_) fun hgrants hlegacy => ?_
  · simp only [Bool.not_true, Bool.false_eq_true, if_false, wp_bind]
    refine wp_revoke h (fun d hd => by cases hd) fun c cs hc hfits htickets => ?_
    refine wp_writeGrants hc hfits fun hw => ?_
    have hagrees : s.Agrees ((s.draw c cs).nextFate.setGrants ⟨none, c, []⟩) :=
      .trans (.draw s c cs) (.trans (.nextFate _) (.setGrants _ _))
    refine wp_mono (hquiet _ hw hagrees ⟨⟨rfl, ?_, ?_⟩, ?_⟩) (fun a s' h' => ?_)
      fun _ _ => id
    · rintro g ⟨⟩
      rfl
    · rintro g ⟨⟩ a ha
      exact htickets a ha
    · rintro g ⟨⟩
      rfl
    refine wp_snapshot (fun _ => ?_) fun _ => h'
    refine wp_revoke h' ?_ fun c' cs' hc' hfits' _ => ?_
    · rintro d ⟨⟩
      rfl
    exact wp_writeGrants hc' hfits' fun hw' => hw'
  · simp only [Bool.not_false, if_true]
    refine hquiet s h (.refl s) ⟨⟨hlegacy, fun g hg => ?_, fun g hg => ?_⟩, fun g hg => ?_⟩
    all_goals
      rw [hgrants] at hg
      cases hg

lemma wp_changeOptions {options : Options} {apply : Op D R α}
    (hsame : ∀ s', s'.Inv setup ban n → s.Agrees s' →
      authenticationChanged (s.options.effective setup.layers) options = false →
      Op.Kept setup ban n apply s')
    (hquiet : ∀ s', s'.Inv setup ban n → s.Agrees s' → s'.Quiet → Op.Kept setup ban n apply s') :
    Op.Kept setup ban n (changeOptions setup options apply) s := by
  simp only [changeOptions, wp_bind, wp_get]
  split_ifs with hchanged hdays
  · exact wp_change h (fun hfalse => by cases hfalse) hquiet
  · exact hsame s h (.refl s) (by simpa using hchanged)
  have hunchanged : authenticationChanged (s.options.effective setup.layers) options = false := by
    simpa using hchanged
  rw [wp_bind]
  refine wp_grantsExist (fun _ => ?_) fun _ _ => hsame s h (.refl s) hunchanged
  simp only [Bool.not_true, Bool.false_eq_true, if_false, wp_bind]
  refine wp_getTime (wp_snapshot (fun _ => ?_) fun _ => h.tick 1)
  refine wp_readGrants (h.tick 1) fun g s' h' hs hg _ _ => ?_
  have hagrees : s.Agrees s' := .trans (.tick s 1) hs
  split_ifs
  · exact hsame s' h' hagrees hunchanged
  · rw [wp_bind]
    refine wp_writeGrants h' (hg.within (Grants.within_updateExpiration _ _ _)) fun hw => ?_
    exact hsame _ hw (hagrees.trans (.trans (.nextFate _) (.setGrants _ _))) hunchanged

omit h [DecidableEq D] in
lemma presetStorageMatchesPlain_of_normalize {value salt h1 : Bytes} (hvalue : value ≠ [])
    (hcollision : computeH1 setup.libs value salt =
      computeH1 setup.libs setup.preset.storage salt → value = setup.preset.storage)
    (hh1 : (normalizeInMemory setup.libs setup.preset [] salt).1 = some h1)
    (hsame : h1 = computeH1 setup.libs value
      (normalizeInMemory setup.libs setup.preset [] salt).2) :
    presetStorageMatchesPlain setup.libs setup.preset.storage setup.preset.salt value := by
  rw [normalizeInMemory, if_neg (not_not.mpr rfl)] at hh1 hsame
  by_cases husable : presetStorageIsUsableForAuth setup.libs setup.preset
  · have hstorage : setup.preset.storage ≠ [] := by
      intro hempty
      rw [presetStorageIsUsableForAuth, if_pos hempty] at husable
      cases husable
    rw [husable] at hh1 hsame
    rw [presetStorageMatchesPlain]
    by_cases hsalt : setup.preset.salt = []
    · simp only [Bool.not_true, Bool.false_eq_true, if_false, hsalt, if_true,
        Option.some.injEq] at hh1 hsame
      obtain rfl := hcollision (hsame.symm.trans hh1.symm)
      simp [hstorage, hsalt]
    · simp only [Bool.not_true, Bool.false_eq_true, if_false, hsalt] at hh1 hsame
      simp [hstorage, hvalue, hsalt, hh1, hsame]
  · rw [Bool.not_eq_true] at husable
    rw [husable] at hh1
    cases hh1

omit h [DecidableEq D] in
lemma setPermanentPassword_of_not_changes {value : Bytes} {m : Machine R} {draws : ℕ → ℕ}
    {nonce : Nonce} (hchanges : changesPassword setup m.mem value = false)
    (hcollision : computeH1 setup.libs value m.mem.salt =
      computeH1 setup.libs setup.preset.storage m.mem.salt → value = setup.preset.storage) :
    (m.setPermanentPassword setup.libs setup.preset draws nonce value).1 = m := by
  rw [changesPassword] at hchanges
  rw [Machine.setPermanentPassword]
  by_cases hdisable : setup.preset.disableChange
  · rw [if_pos hdisable]
  rw [if_neg hdisable] at hchanges ⊢
  split_ifs at hchanges with hpassword hvalue
  · rw [not_not] at hpassword
    rw [if_pos hvalue, Machine.updatePassword, if_pos hpassword.symm]
    split_ifs <;> rfl
  · rw [not_not] at hpassword
    rw [hpassword] at hchanges
    dsimp only at hchanges
    cases hh1 : (normalizeInMemory setup.libs setup.preset [] m.mem.salt).1 with
    | none =>
      rw [hh1] at hchanges
      cases hchanges
    | some h1 =>
      rw [hh1, Option.all_some, decide_eq_false_iff_not, not_not] at hchanges
      have hmatches := presetStorageMatchesPlain_of_normalize hvalue hcollision hh1 hchanges
      rw [if_pos (by simp [hmatches, hpassword])]

/-! ### Every operation -/

lemma wp_setPassword {value : Bytes}
    (hcollision : Host.noCollision (D := D) setup s.config (.setPassword value)) :
    Op.Kept setup ban n (setPassword setup value) s := by
  rw [Op.Kept, setPassword, wp_bind, wp_get]
  refine wp_change h (fun hsame => ?_) fun s' h' _ hquiet =>
    wp_configSetPermanentPassword h' (.inl hquiet)
  refine wp_configSetPermanentPassword h (.inr ?_)
  refine setPermanentPassword_of_not_changes hsame fun heq => ?_
  simp only [Host.noCollision, Bool.or_eq_true, decide_eq_true_eq] at hcollision
  exact hcollision.resolve_left fun hne => hne heq

variable [DecidableEq R]

lemma wp_setSalt {salt : Bytes} : Op.Kept setup ban n (setSalt setup salt) s := by
  rw [Op.Kept, setSalt, wp_bind, wp_get]
  refine wp_change h (fun hsame => ?_) fun s' h' _ hquiet =>
    wp_configSetSalt h' (.inl hquiet)
  exact wp_configSetSalt h (.inr (by simpa using hsame))

lemma wp_setConfig {value : Config R} : Op.Kept setup ban n (setConfig setup value) s := by
  rw [Op.Kept, setConfig, wp_bind, wp_get]
  refine wp_change h (fun hsame => ?_) fun s' h' _ hquiet =>
    wp_configSet h' (.inl hquiet)
  exact wp_configSet h (.inr (by simpa using hsame))

lemma wp_setOptions {options : AuthOptions R} :
    Op.Kept setup ban n (setOptions setup options) s := by
  refine wp_changeOptions h (fun s' h' hs hsame => ?_) fun s' h' _ hquiet =>
    wp_configSetOptions h' (.inl hquiet)
  exact wp_configSetOptions h' (.inr (hs.options ▸ hsame))

lemma wp_setConfig2 {value : AuthOptions R} : Op.Kept setup ban n (setConfig2 setup value) s := by
  refine wp_changeOptions h (fun s' h' hs hsame => ?_) fun s' h' _ hquiet =>
    wp_config2Set h' (.inl hquiet)
  exact wp_config2Set h' (.inr (hs.options ▸ hsame))

omit [DecidableEq R] in
lemma wp_clear : Op.Kept setup ban n (clear setup) s := by
  simp only [clear, wp_bind]
  refine wp_grantsExist (fun _ => ?_) fun hgrants hlegacy => ?_
  · simp only [if_true, wp_bind, wp_modify]
    have hclear : ∀ scope, (∀ d, scope = some d →
        d = setup.scope (s.inMemory setup).effective) →
        wp (revoke (noGrants setup) scope) (fun g s' => wp (writeGrants g)
          (fun _ s'' => Host.Inv setup ban n { s'' with epoch := s''.epoch + 1 })
          (fun _ => Host.Inv setup ban n) s') (fun _ => Host.Inv setup ban n) s := by
      intro scope hd
      refine wp_revoke h hd fun c cs hc hfits htickets => wp_writeGrants hc hfits fun hw => ?_
      refine hw.newEpoch ⟨rfl, ?_, ?_⟩ _
      · rintro g ⟨⟩
        rfl
      · rintro g ⟨⟩ a ha
        exact htickets a ha
    refine wp_recover (E := fun _ s' => s' = s) ?_ ?_ ?_
    · rw [wp_bind]
      refine wp_snapshot (fun _ => hclear _ ?_) fun _ => rfl
      rintro d ⟨⟩
      rfl
    · rintro e s' a rfl ha
      obtain rfl := Option.some.inj ha
      exact hclear none fun d hd => by cases hd
    · intro e s' _ he
      cases he
  · refine h.newEpoch ⟨hlegacy, ?_, ?_⟩ _
    all_goals
      intro g hg
      rw [hgrants] at hg
      cases hg

omit [DecidableEq D] [DecidableEq R] in
lemma wp_updateGrants (hg : g.Fits setup ban s) {days : ℕ} {changed : Bool} :
    Op.Kept setup ban n (updateGrants g days changed) s := by
  rw [Op.Kept, updateGrants, wp_bind]
  refine wp_getTime (wp_whenever.mpr ⟨fun _ => ?_, fun _ => h.tick 1⟩)
  have hfits := hg.within (g.within_updateExpiration days (s.env.clock 0))
  exact wp_writeGrants (h.tick 1) (hfits.agrees (.tick s 1)) fun hw => hw

omit [DecidableEq R] in
lemma wp_initializeGrants : Op.Kept setup ban n (initializeGrants setup) s := by
  simp only [initializeGrants, wp_bind]
  refine wp_grantsExist (fun _ => ?_) fun _ _ => h
  simp only [if_true, wp_bind]
  refine wp_readGrants h fun g s' h' hs hg _ _ => wp_snapshot (fun _ => ?_) fun _ => h'
  split_ifs
  · exact wp_updateGrants h' hg
  · rw [wp_bind]
    refine wp_revoke h' ?_ fun c cs hc hfits _ => wp_updateGrants hc hfits
    rintro d ⟨⟩
    rfl

omit [DecidableEq R] in
lemma wp_restart (hscope : Function.Injective setup.scope) {rest : R} {newId : Bool} :
    Op.Kept setup ban n (restart setup rest newId) s := by
  have hstopped : Host.Inv setup ban n { s with down := false, attempts := [] } :=
    h.setAttempts fun a ha => by cases ha
  have hloaded : Host.Inv setup ban n (Host.setMemory setup { s with down := false, attempts := [] }
      { Config.load setup.libs s.disk.config with rest := rest } s.disk.options) :=
    hstopped.reload hscope rfl (by
      simp only [Host.inMemory, Host.onDisk, build, normalize_load])
  simp only [restart, wp_bind, wp_modify, wp_get, wp_whenever]
  have hstarted : ∀ s' : Host D R, s'.Inv setup ban n → wp
      (recover (initializeGrants setup) fun failure =>
        if failure = .crash then none else some ())
      (fun _ => Host.Inv setup ban n) (fun _ => Host.Inv setup ban n) s' := fun s' h' =>
    wp_recover (wp_initializeGrants h') (fun _ _ _ he _ => he) fun _ _ he _ => he
  refine ⟨fun _ => ?_, fun _ => hstarted _ hloaded⟩
  exact wp_mono (wp_storeConfig hloaded) (fun _ s' h' => hstarted s' h') fun _ _ => id

omit [DecidableEq R] in
lemma wp_devices : Op.Kept setup ban n (devices setup) s := by
  simp only [devices, wp_bind]
  refine wp_grantsExist (fun _ => ?_) fun _ _ => h
  simp only [Bool.not_true, Bool.false_eq_true, if_false, wp_bind]
  refine wp_snapshot (fun _ => ?_) fun _ => h
  refine wp_loadGrants h rfl fun g s' h' _ hg _ _ hlegacy => wp_getTime ?_
  refine (h'.tick 1).addListed hlegacy fun id hid => ?_
  obtain ⟨r, hr, rfl⟩ := List.mem_map.mp (List.mem_eraseDups.mp hid)
  exact hg.named r (List.mem_of_mem_filter hr)

omit [DecidableEq R] in
lemma wp_remove {recordIds : List D} : Op.Kept setup ban n (remove setup recordIds) s := by
  rw [Op.Kept, remove, wp_bind]
  refine wp_readGrants h fun g s' h' _ hg _ _ => wp_whenever.mpr ⟨fun _ => ?_, fun _ => h'⟩
  exact wp_writeGrants h' (hg.within (Grants.within_remove _ _ _)) fun hw => hw

omit [DecidableEq R] in
lemma wp_renew {recordIds : List D} : Op.Kept setup ban n (renew setup recordIds) s := by
  simp only [renew, wp_bind, wp_check]
  refine ⟨fun _ => wp_snapshot (fun _ => ?_) fun _ => h, fun _ => h⟩
  refine ⟨fun _ => ⟨fun _ => ?_, fun _ => h⟩, fun _ => h⟩
  refine wp_loadGrants h rfl fun g s' h' _ hg _ _ _ => wp_getTime ?_
  refine wp_ofResult (fun g' hg' => ?_) fun _ => h'.tick 1
  exact wp_writeGrants (h'.tick 1) ((hg.within (Grants.within_renew hg')).agrees (.tick s' 1))
    fun hw => hw

lemma wp_act (hscope : Function.Injective setup.scope)
    (hhash : Function.Injective setup.sha.hash) {a : Act D R}
    (hcollision : Host.noCollision setup s.config a) :
    Op.Kept setup ban n (Host.act setup a) s := by
  cases a with
  | login proof => exact wp_hostBegin h
  | trust i enroll =>
    refine h.setAttempts fun a ha => ?_
    obtain ⟨j, hj⟩ := List.mem_iff_getElem?.mp ha
    rw [List.getElem?_modify] at hj
    obtain ⟨b, hb, rfl⟩ := Option.map_eq_some_iff.mp hj
    refine ⟨b, List.mem_of_getElem? hb, ?_⟩
    split_ifs with _ hnone
    · exact ⟨rfl, rfl, rfl, fun _ => .inr (Option.isNone_iff_eq_none.mp hnone)⟩
    all_goals exact ⟨rfl, rfl, rfl, .inl⟩
  | check i =>
    simp only [Host.act, wp_bind, wp_get, wp_onSome]
    exact ⟨fun a ha => wp_attemptCheck h (List.mem_of_getElem? ha), fun _ => h⟩
  | finish i info =>
    simp only [Host.act, Host.takeAttempt, wp_bind, wp_get, wp_finally,
      wp_onSome, wp_pure]
    have herase : ∀ s' : Host D R, s'.Inv setup ban n →
        Host.Inv setup ban n { s' with attempts := s'.attempts.eraseIdx i } := fun s' h' =>
      h'.setAttempts fun a ha => ⟨a, List.mem_of_mem_eraseIdx ha, rfl, rfl, rfl, .inl⟩
    refine ⟨fun a ha => ?_, fun _ => herase s h⟩
    exact wp_mono (wp_attemptFinish hhash h (List.mem_of_getElem? ha))
      (fun _ s' h' => herase s' h') fun _ s' h' => herase s' h'
  | setPassword value =>
    rw [Op.Kept, Host.act, wp_bind]
    exact wp_setPassword h hcollision
  | setSalt salt => exact wp_setSalt h
  | setOptions options => exact wp_setOptions h
  | setConfig value =>
    rw [Op.Kept, Host.act, wp_bind]
    exact wp_setConfig h
  | setConfig2 value =>
    rw [Op.Kept, Host.act, wp_bind]
    exact wp_setConfig2 h
  | clear => exact wp_clear h
  | restart rest newId => exact wp_restart h hscope
  | devices =>
    rw [Op.Kept, Host.act, wp_bind]
    exact wp_devices h
  | remove recordIds => exact wp_remove h
  | renew recordIds => exact wp_renew h

/-! ### Runs -/

omit h

omit [DecidableEq D] [DecidableEq R] in
lemma Host.inv_outcome {m : Op D R α} (hm : Op.Kept setup ban n m s) :
    (Host.outcome m s).Inv setup ban n := by
  rw [Op.Kept, wp] at hm
  rw [Host.outcome]
  cases hs : m s with
  | ok a s' =>
    rw [hs] at hm
    exact hm
  | error failure s' =>
    rw [hs] at hm
    cases failure with
    | crash => exact Host.Inv.setDown hm
    | unavailable e => exact hm
    | error e => exact hm

/-- The invariant between operations, when there is nothing left of what one took from outside. -/
def Host.Settled (setup : Setup D) (ban : D → Prop) (n : ℕ) (s : Host D R) : Prop :=
  Host.Inv setup ban n { s with env := { s.env with coins := [] } }

omit [DecidableEq D] [DecidableEq R] in
lemma Host.Inv.settled (h : s.Inv setup ban n) : s.Settled setup ban n :=
  h.setEnv _ List.nodup_nil fun _ hc => by cases hc

omit [DecidableEq R] in
/-- An operation begins with values that were not drawn before. -/
lemma Host.Settled.inv (h : s.Settled setup ban n) {env : Env D} (henv : s.freshCoins env)
    (hban : ∀ c, c ∉ s.used → ¬ban (setup.sha.hash (setup.sha.hash c))) :
    Host.Inv setup ban n { s with env := env } := by
  simp only [Host.freshCoins, Bool.and_eq_true, decide_eq_true_eq, List.all_eq_true,
    Bool.not_eq_true', List.contains_eq_mem, decide_eq_false_iff_not] at henv
  obtain ⟨hnodup, hfresh⟩ := henv
  exact Host.Inv.setEnv h env hnodup fun c hc => ⟨hfresh c hc, hban c (hfresh c hc)⟩

/-- One step keeps it, if no token is drawn of a group that was removed. -/
lemma Host.Settled.step (h : s.Settled setup ban n) (hscope : Function.Injective setup.scope)
    (hhash : Function.Injective setup.sha.hash) {a : Act D R × Env D}
    (hban : ∀ c, c ∉ s.used → ¬ban (setup.sha.hash (setup.sha.hash c)))
    (hstep : s.step setup a = some s') : s'.Settled setup ban n := by
  obtain ⟨hok, hs'⟩ := Option.ite_none_right_eq_some.mp hstep
  rw [Bool.and_eq_true, Bool.and_eq_true] at hok
  obtain ⟨⟨-, henv⟩, hcollision⟩ := hok
  obtain rfl := Option.some.inj hs'
  exact (Host.inv_outcome (wp_act (h.inv henv hban) hscope hhash hcollision)).settled

/-- At first nothing was accepted, and what is in the files is in force. -/
lemma Host.settled_init (hinit : (host setup).init s) : s.Settled setup (fun _ => False) 0 := by
  obtain ⟨file, options, legacy, env, rest, rfl⟩ := hinit
  exact
    { fresh := List.nodup_nil
      unused := fun c hc => by cases hc
      made := fun i hi => by cases hi
      grants := fun g hg => by cases hg
      unbanned := fun _ _ => not_false
      legacy := fun _ _ =>
        ⟨rfl, by simp only [Host.inMemory, Host.onDisk, build, normalize_load]⟩
      listed := absurd rfl
      named := fun id hid => by cases hid
      banned := fun id hid => hid.elim
      tickets := fun a ha => by cases ha
      firsts := fun _ _ a ha => by cases ha
      enrolls := fun a ha => by cases ha
      begun := absurd rfl
      known := fun e he => by cases he
      timely := fun e he => by cases he
      clean := fun e he => by cases he }

/-- Every state of a run, before anything was removed. -/
lemma Host.settled (hscope : Function.Injective setup.scope)
    (hhash : Function.Injective setup.sha.hash) (h : (host setup).Reachable s) :
    s.Settled setup (fun _ => False) 0 :=
  h.invariant (fun _ => Host.settled_init) fun _ _ _ _ hs hstep =>
    hs.step hscope hhash (fun _ _ => not_false) hstep

end RustDesk.TrustedDevices
