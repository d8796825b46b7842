import RustDesk.TrustedDevices.Custody

/-!
# Logins keep the invariant

For every program, from the single write to `Attempt::finish`: the invariant holds where it ends and
where it fails, and what it accepts may be accepted.
-/

namespace RustDesk.TrustedDevices

open Settings Prog Grants

variable {D R α : Type} {setup : Setup D} {ban : D → Prop} {n : ℕ} {s : Host D R} {g : Grants D}

/-! ### Steps -/

section

variable {E : Failure → Host D R → Prop}

lemma wp_getTime {Q : ℤ → Host D R → Prop} (h : Q (s.env.clock 0) (s.tick 1)) :
    wp getTime Q E s := h

lemma wp_getTimes {Q : List ℤ → Host D R → Prop} {k : ℕ}
    (h : ∀ times, Q times (s.tick k)) : wp (getTimes k) Q E s := h _

lemma wp_ofResult {r : ResultType α} {Q : α → Host D R → Prop} (hok : ∀ a, r = .ok a → Q a s)
    (herror : ∀ e, E e s) : wp (ofResult r) Q E s :=
  wp_ofExcept.mpr ⟨hok, fun _ _ => herror _⟩

lemma wp_randomToken {Q : D → Host D R → Prop}
    (hok : ∀ c cs, s.env.coins = c :: cs → Q c (s.draw c cs)) (herror : ∀ e, E e s) :
    wp randomToken Q E s := by
  rw [wp, randomToken]
  cases hcoins : s.env.coins with
  | nil => exact herror _
  | cons c cs => exact hok c cs hcoins

lemma wp_write {f : Host D R → Host D R} {fails : Op D R Unit} {Q : Unit → Host D R → Prop}
    (hdone : Q () (f s.nextFate)) (hfails : wp fails Q E s.nextFate)
    (hcrash : E .crash s.nextFate) : wp (write f fails) Q E s := by
  rw [write, wp_bind, wp, takeFate]
  dsimp only
  cases s.env.fates.headD .done with
  | done => exact hdone
  | fails => exact hfails
  | crash => exact hcrash

lemma wp_grantsExist {Q : Bool → Host D R → Prop}
    (htrue : s.disk.grants ≠ none ∨ s.disk.legacy ≠ none → Q true s)
    (hfalse : s.disk.grants = none → s.disk.legacy = none → Q false s) :
    wp grantsExist Q E s := by
  show Q (s.disk.grants.isSome || s.disk.legacy.isSome) s
  cases hgrants : s.disk.grants with
  | some g => exact htrue (.inl (hgrants ▸ Option.some_ne_none g))
  | none =>
    cases hlegacy : s.disk.legacy with
    | some legacy => exact htrue (.inr (hlegacy ▸ Option.some_ne_none legacy))
    | none => exact hfalse hgrants hlegacy

lemma wp_snapshot [DecidableEq D] {Q : Snapshot → Host D R → Prop}
    (hok : setup.scope (s.inMemory setup).effective = setup.scope (s.onDisk setup).effective →
      Q (s.inMemory setup) s) (herror : ∀ e, E e s) : wp (snapshot setup) Q E s := by
  simp only [snapshot, wp_bind, wp_get, wp_check, Bool.and_eq_true,
    decide_eq_true_eq, wp_pure]
  exact ⟨fun h => hok h.1, fun _ => herror _⟩

end

/-- The invariant holds where the program ends, and where it fails. -/
abbrev Op.Kept (setup : Setup D) (ban : D → Prop) (n : ℕ) (m : Op D R α) (s : Host D R) : Prop :=
  Prog.wp m (fun _ => Host.Inv setup ban n) (fun _ => Host.Inv setup ban n) s

/-! ### Grants -/

section

variable [DecidableEq D] {scope verifier : D} {Q : Grants D → Host D R → Prop}
  {legacy : ResultType (List LegacyDevice)} {ticket : Ticket D} {begun : ℕ} {r : Record D}
  {credential : Option (Credential D)} {a : Attempt D} {info : DeviceInfo}

section

variable (h : g.Fits setup ban s)

include h

/-- Legacy devices are imported before the trust was ever revoked or a group was removed. -/
lemma Grants.Fits.importDevices (hmatch : g.matchesScope scope)
    (hban : ∀ id, ¬ban id) (hepoch : s.drifted = false → s.epoch = 0) (devices : List LegacyDevice)
    (days : ℕ) (now : ℤ) :
    (g.importDevices setup.sha devices none scope days now).Fits setup ban s := by
  have hscope : g.scope = some scope := of_decide_eq_true hmatch
  rw [Grants.importDevices, Grants.importStart, if_neg (by simpa using hmatch)]
  -- a record that was there, or one of a legacy device
  have hrecords : ∀ P : Record D → Prop, (∀ r ∈ g.records, P r) →
      (∀ r, r.legacy = true → r.origin = none → setup.sha.Names s.used (r.id setup.sha) → P r) →
      ∀ r ∈ (devices.filterMap (LegacyDevice.record setup.sha)).foldl
        (Grants.importRecord setup.sha now) g.records, P r := by
    intro P hold hnew r hr
    rcases mem_foldl_importRecord hr with hr | ⟨hr, -⟩
    · exact hold r hr
    · obtain ⟨device, -, hdevice⟩ := List.mem_filterMap.mp hr
      obtain ⟨-, hlegacy, horigin⟩ := record_some hdevice
      obtain ⟨v, hv, rfl⟩ := Option.map_eq_some_iff.mp hdevice
      rw [LegacyDevice.verifier, Option.ite_none_left_eq_some] at hv
      exact hnew _ hlegacy horigin (.inr ⟨_, _, _, _, congrArg _ (Option.some.inj hv.2).symm⟩)
  have hmarked : ∀ {p : Prop} (r : Record D), r.legacy = true → r.legacy = false → p :=
    fun r hl hl' => absurd (hl'.symm.trans hl) Bool.false_ne_true
  refine Grants.Fits.within (g := { g with records := _ }) ?_ (within_updateExpiration _ _ _)
  exact
    { h with
      known := hrecords _ h.known fun r hl _ _ => hmarked r hl
      group := hrecords _ h.group fun r hl _ _ => hmarked r hl
      epoch := fun hr hforce => hrecords _ (h.epoch hr hforce) fun r hl _ _ => hmarked r hl
      origin := hrecords _ h.origin fun _ _ horigin _ _ => horigin
      legacy := fun _ hd _ _ _ _ => hepoch hd
      allowed := fun r _ => hban _
      named := hrecords _ h.named fun _ _ _ hnamed => hnamed
      unscoped := fun hnone => absurd hnone (hscope ▸ Option.some_ne_none scope) }

lemma Grants.Fits.sound_token {now : ℤ} (hforce : s.InForce setup g) (hbegun : begun = s.epoch)
    (hok : g.verifyDigest ticket (some verifier) now = .ok true) :
    Acceptance.Sound setup ban s ⟨some (.token verifier), begun, s.epoch⟩ := by
  obtain ⟨-, hok⟩ := of_checkTicket_bind hok
  obtain ⟨r, hr, hvalid⟩ := List.any_eq_true.mp (Except.ok.inj hok)
  simp only [Bool.and_eq_true, Bool.not_eq_true', decide_eq_true_eq] at hvalid
  obtain ⟨⟨hl, -⟩, rfl⟩ := hvalid
  refine ⟨?_, ⟨hbegun, ?_, fun _ _ _ hv => by cases hv⟩, ?_⟩
  · rintro v ⟨⟩
    exact h.known r hr hl
  · rintro hret v ⟨⟩ i hi hv
    exact h.epoch hret hforce r hr hl i hi hv
  · rintro c ⟨⟩ id hid ⟨i, hi, hv, hgroup⟩
    refine h.allowed r hr ?_
    rw [Record.id, ← h.group r hr hl i hi hv, hgroup]
    exact hid

lemma Grants.Fits.group_of_isSource (hr : r ∈ g.records)
    (hsource : Grants.isSource verifier r) : r.group = verifier := by
  rw [Grants.isSource, Bool.or_eq_true, Bool.and_eq_true, decide_eq_true_eq,
    decide_eq_true_eq] at hsource
  rcases hsource with ⟨hl, hv⟩ | horigin
  · rw [Record.group, h.origin r hr hl, Option.getD_none, hv]
  · rw [Record.group, horigin, Option.getD_some]

lemma Grants.Fits.sound_legacy (hbegun : begun = s.epoch)
    (hepoch : s.returned = false → s.drifted = false → s.epoch = 0)
    (hr : r ∈ g.records) (hsource : Grants.isSource verifier r) :
    Acceptance.Sound setup ban s ⟨some (.legacy verifier), begun, s.epoch⟩ := by
  refine ⟨fun _ hv => (by cases hv), ⟨hbegun, fun _ _ hv => (by cases hv), ?_⟩, ?_⟩
  · intro hret hd _ _
    exact hepoch hret hd
  · rintro c ⟨⟩ id hid hid'
    refine h.allowed r hr ?_
    rw [Record.id, h.group_of_isSource hr hsource, show setup.sha.hash verifier = id from hid']
    exact hid

omit [DecidableEq D] in
lemma Grants.Fits.addRecord {c : D} (hc : c ∈ s.used)
    (hverifier : r.verifier = setup.sha.hash c) (hl : r.legacy = false) (hscope : g.scope ≠ none)
    (hallowed : ¬ban (r.id setup.sha)) (hnamed : setup.sha.Names s.used (r.id setup.sha))
    (hrecords : ∀ q ∈ g.records, q.legacy = false → q.verifier ≠ r.verifier)
    (henrolled : ∀ i ∈ s.enrolled, i.verifier ≠ r.verifier) :
    Grants.Fits setup ban { s with enrolled := s.enrolled ++ [⟨r.verifier, r.group, s.epoch⟩] }
      { g with records := g.records ++ [r] } := by
  have hold := h.addIssued (i := ⟨r.verifier, r.group, s.epoch⟩) hrecords
  have hnew : ∀ i ∈ s.enrolled ++ [⟨r.verifier, r.group, s.epoch⟩], i.verifier = r.verifier →
      i = ⟨r.verifier, r.group, s.epoch⟩ := by
    intro i hi hv
    rcases List.mem_append.mp hi with hi | hi
    · exact absurd hv (henrolled i hi)
    · exact List.mem_singleton.mp hi
  exact
    { hold with
      known := List.forall_mem_append.mpr ⟨hold.known,
        List.forall_mem_singleton.mpr fun _ => ⟨c, hc, hverifier⟩⟩
      group := List.forall_mem_append.mpr ⟨hold.group,
        List.forall_mem_singleton.mpr fun _ i hi hv => by rw [hnew i hi hv]⟩
      epoch := fun hret hforce => List.forall_mem_append.mpr ⟨hold.epoch hret hforce,
        List.forall_mem_singleton.mpr fun _ i hi hv => by rw [hnew i hi hv]⟩
      origin := List.forall_mem_append.mpr ⟨hold.origin,
        List.forall_mem_singleton.mpr fun hql => absurd (hl.symm.trans hql) Bool.false_ne_true⟩
      legacy := fun hret hd hforce => List.forall_mem_append.mpr ⟨hold.legacy hret hd hforce,
        List.forall_mem_singleton.mpr fun hql => absurd (hl.symm.trans hql) Bool.false_ne_true⟩
      allowed := List.forall_mem_append.mpr ⟨hold.allowed, List.forall_mem_singleton.mpr hallowed⟩
      named := List.forall_mem_append.mpr ⟨hold.named, List.forall_mem_singleton.mpr hnamed⟩
      unscoped := fun hnone => absurd hnone hscope }

end

section

variable (h : s.Inv setup ban n)

include h

omit [DecidableEq D] in
lemma wp_writeGrants {Q : Unit → Host D R → Prop} (hg : g.Fits setup ban s)
    (hQ : (s.nextFate.setGrants g).Inv setup ban n → Q () (s.nextFate.setGrants g)) :
    wp (writeGrants g) Q (fun _ => Host.Inv setup ban n) s :=
  wp_write (hQ (h.nextFate.setGrants (hg.agrees (.nextFate s)))) h.nextFate h.nextFate

omit [DecidableEq D] in
lemma wp_revoke {Q : Grants D → Host D R → Prop} {scope : Option D}
    (hscope : ∀ d, scope = some d → d = setup.scope (s.inMemory setup).effective)
    (hQ : ∀ c cs, (s.draw c cs).Inv setup ban n →
      Grants.Fits setup ban (s.draw c cs) ⟨scope, c, []⟩ →
      (∀ a ∈ s.attempts, a.ticket.generation ≠ c) → Q ⟨scope, c, []⟩ (s.draw c cs)) :
    wp (revoke g scope) Q (fun _ => Host.Inv setup ban n) s := by
  rw [revoke, wp_bind]
  refine wp_randomToken (fun c cs hc => ?_) fun _ => h
  have hfresh : ∀ a ∈ s.attempts, a.ticket.generation ≠ c := by
    rintro a ha rfl
    exact (h.unused _ (hc ▸ List.mem_cons_self)).1 (h.tickets a ha)
  exact hQ c cs (h.draw hc)
    (.empty scope c hscope (fun _ => List.mem_cons_self) hfresh) hfresh

omit [DecidableEq D] in
lemma Host.Inv.fits_getD : (s.disk.grants.getD (noGrants setup)).Fits setup ban s := by
  cases hgrants : s.disk.grants with
  | some g => exact h.grants g hgrants
  | none =>
    refine .empty none setup.zero (fun d hd => by cases hd) (absurd rfl) fun a ha => ?_
    exact absurd hgrants (h.begun (List.ne_nil_of_mem ha))

lemma wp_importInto {settings : Snapshot} (hg : g.Fits setup ban s) (hlegacy : s.disk.legacy ≠ none)
    (hQ : ∀ g' s', s'.Inv setup ban n → s.Agrees s' → g'.Fits setup ban s' → Q g' s') :
    wp (importInto setup g legacy settings) Q (fun _ => Host.Inv setup ban n) s := by
  rw [importInto]
  split_ifs with hmatch
  · exact hQ g s h (.refl s) hg
  · rw [wp_bind]
    refine wp_ofResult (fun devices _ => ?_) fun _ => h
    rw [wp_bind]
    refine wp_getTime (hQ _ _ (h.tick 1) (.tick s 1) ?_)
    exact (hg.importDevices (by simpa using hmatch) (h.unbanned hlegacy)
      (fun hd => (h.legacy hlegacy hd).1) devices _ _).agrees (.tick s 1)

lemma wp_importLegacy {firstStore : Bool} (hg : g.Fits setup ban s) (hlegacy : s.disk.legacy ≠ none)
    (hQ : ∀ g' s', s'.Inv setup ban n → s.Agrees s' → g'.Fits setup ban s' → Q g' s') :
    wp (importLegacy setup g legacy firstStore) Q (fun _ => Host.Inv setup ban n) s := by
  rw [importLegacy, wp_bind]
  refine wp_snapshot (fun _ => ?_) fun _ => h
  split_ifs
  · rw [wp_bind]
    refine wp_revoke h ?_ fun c cs h' hfits _ => ?_
    · rintro d ⟨⟩
      rfl
    · exact wp_importInto h' hfits hlegacy fun g' s' hs' hagrees =>
        hQ g' s' hs' (.trans (.draw s c cs) hagrees)
  · exact wp_importInto h hg hlegacy hQ

lemma wp_readGrants
    (hQ : ∀ g s', s'.Inv setup ban n → s.Agrees s' → g.Fits setup ban s' →
      s'.disk.legacy = none → s'.disk.grants.getD (noGrants setup) = g → Q g s') :
    wp (readGrants setup) Q (fun _ => Host.Inv setup ban n) s := by
  rw [readGrants, wp_bind, wp_get]
  cases hlegacy : s.disk.legacy with
  | none => exact hQ _ s h (.refl s) h.fits_getD hlegacy rfl
  | some legacy =>
    simp only [wp_bind]
    refine wp_importLegacy h h.fits_getD (hlegacy ▸ Option.some_ne_none legacy)
      fun g' s' h' hs hg => wp_writeGrants h' hg fun hw => ?_
    have hagrees : s'.Agrees (s'.nextFate.setGrants g') :=
      .trans (.nextFate s') (.setGrants _ g')
    exact hQ g' _ hw (hs.trans hagrees) (hg.agrees hagrees) rfl rfl

omit [DecidableEq D] in
lemma wp_cleanGrants (hg : g.Fits setup ban s) (hgrants : s.disk.grants ≠ none)
    (hlegacy : s.disk.legacy = none)
    (hQ : ∀ g' s', s'.Inv setup ban n → s.Agrees s' → g'.Fits setup ban s' → g'.scope = g.scope →
      s'.disk.grants ≠ none → s'.disk.legacy = none → Q g' s') :
    wp (cleanGrants g) Q (fun _ => Host.Inv setup ban n) s := by
  rw [cleanGrants, wp_bind]
  refine wp_getTime ?_
  have hfits := (hg.within (within_cleanup g (s.env.clock 0))).agrees (.tick s 1)
  rw [wp_bind, wp_whenever]
  constructor
  · intro _
    refine wp_writeGrants (h.tick 1) hfits fun hw => ?_
    have hagrees : s.Agrees ((s.tick 1).nextFate.setGrants (g.cleanup (s.env.clock 0)).1) :=
      .trans (.tick s 1) (.trans (.nextFate _) (.setGrants _ _))
    exact hQ _ _ hw hagrees (hfits.agrees (.trans (.nextFate _) (.setGrants _ _))) rfl
      (Option.some_ne_none _) rfl
  · intro _
    exact hQ _ _ (h.tick 1) (.tick s 1) hfits rfl hgrants hlegacy

/-- The grants that are loaded are under the settings in force. -/
lemma wp_loadGrants (hmemory : scope = setup.scope (s.inMemory setup).effective)
    (hQ : ∀ g s', s'.Inv setup ban n → s.Agrees s' → g.Fits setup ban s' → s'.InForce setup g →
      s'.disk.grants ≠ none → s'.disk.legacy = none → Q g s') :
    wp (loadGrants setup scope) Q (fun _ => Host.Inv setup ban n) s := by
  have hforce : ∀ g s', s.Agrees s' → g.scope = some scope → s'.InForce setup g := by
    intro g s' hs hscope
    rw [Host.InForce, hs.inMemory, hscope, hmemory]
  rw [loadGrants, wp_bind, wp_mapFailure]
  refine wp_readGrants h fun g s' h' hs hg hlegacy hget => ?_
  rw [wp_bind]
  refine wp_grantsExist (fun hexists => ?_) fun _ _ => ?_
  · have hgrants : s'.disk.grants ≠ none := hexists.resolve_right fun hne => hne hlegacy
    simp only [Bool.not_true, Bool.false_eq_true, if_false, wp_bind, wp_check,
      wp_mapFailure]
    refine ⟨fun hmatch => ?_, fun _ => h'⟩
    have hscope : g.scope = some scope := of_decide_eq_true hmatch
    exact wp_cleanGrants h' hg hgrants hlegacy fun g' t ht hst hg' hg'' =>
      hQ g' t ht (hs.trans hst) hg' (hforce g' t (hs.trans hst) (hg''.trans hscope))
  · simp only [Bool.not_false, if_true, wp_bind, wp_mapFailure]
    refine wp_revoke h' ?_ fun c cs hc hfits _ => ?_
    · rintro d ⟨⟩
      rw [hs.inMemory]
      exact hmemory
    refine wp_writeGrants hc hfits fun hw => ?_
    have hagrees : (s'.draw c cs).Agrees ((s'.draw c cs).nextFate.setGrants ⟨some scope, c, []⟩) :=
      .trans (.nextFate _) (.setGrants _ _)
    refine wp_cleanGrants hw (hfits.agrees hagrees) (Option.some_ne_none _) rfl
      fun g' t ht hst hg' hg'' => ?_
    have hst' := hs.trans (.trans (.draw s' c cs) (.trans hagrees hst))
    exact hQ g' t ht hst' hg' (hforce g' t hst' hg'')

/-! ### Logins -/

/-- What an authorized operation leads to, it leads to after the grants were written. -/
lemma wp_authorize {Q : α → Host D R → Prop} {apply : Grants D → ℕ → Op D R (α × Grants D × Bool)}
    (happly : ∀ g days s', s'.Inv setup ban n → s.Agrees s' → g.Fits setup ban s' →
      s'.InForce setup g → s'.disk.grants ≠ none →
      wp (apply g days)
        (fun r t => t.Inv setup ban n ∧ r.2.1.Fits setup ban t ∧ t.disk.grants ≠ none ∧
          ∀ t', t'.Inv setup ban n → t.Agrees t' → t'.disk.grants ≠ none → Q r.1 t')
        (fun _ => Host.Inv setup ban n) s') :
    wp (authorize setup scope apply) Q (fun _ => Host.Inv setup ban n) s := by
  rw [authorize, wp_bind]
  refine wp_snapshot (fun _ => ?_) fun _ => h
  simp only [wp_bind, wp_check, decide_eq_true_eq]
  refine ⟨fun _ => ⟨fun hscope => ?_, fun _ => h⟩, fun _ => h⟩
  refine wp_loadGrants h hscope fun g s' h' hs hg hforce hgrants _ => ?_
  refine wp_mono (happly g _ s' h' hs hg hforce hgrants) ?_ fun _ _ => id
  rintro r t ⟨ht, hfits, hne, hQ⟩
  rw [wp_whenever, wp_mapFailure]
  constructor
  · intro _
    exact wp_writeGrants ht hfits fun hw =>
      hQ _ hw (.trans (.nextFate t) (.setGrants _ _)) (Option.some_ne_none _)
  · intro _
    exact hQ t ht (.refl t) hne

lemma wp_findCredential {Q : Option (Credential D) × Grants D × Bool → Host D R → Prop}
    {verifier legacy : Option D} (hg : g.Fits setup ban s) (hforce : s.InForce setup g)
    (hQ : ∀ r s', s'.Inv setup ban n → s.Agrees s' → s'.disk = s.disk → r.2.1.Fits setup ban s' →
      Acceptance.Sound setup ban s' ⟨r.1, s.epoch, s.epoch⟩ → Q r s') :
    wp (findCredential g ticket verifier legacy) Q (fun _ => Host.Inv setup ban n) s := by
  rw [findCredential, wp_bind]
  refine wp_getTime ?_
  have hfits := hg.agrees (.tick s 1)
  rw [wp_bind]
  refine wp_ofResult (fun valid hvalid => ?_) fun _ => h.tick 1
  cases valid with
  | true =>
    cases verifier with
    | none =>
      obtain ⟨-, hok⟩ := of_checkTicket_bind hvalid
      cases hok
    | some v =>
      refine hQ _ _ (h.tick 1) (.tick s 1) rfl ?_ (hfits.sound_token hforce rfl hvalid)
      exact hfits.within (g.within_confirmMigration v)
  | false =>
    simp only [Bool.false_eq_true, if_false, wp_bind]
    refine wp_getTimes fun times => ?_
    have hagrees : s.Agrees ((s.tick 1).tick g.records.length) :=
      .trans (.tick s 1) (.tick _ _)
    have hinv := (h.tick 1).tick g.records.length
    refine wp_ofResult (fun valid hvalid => ?_) fun _ => hinv
    cases valid with
    | false =>
      exact hQ _ _ hinv hagrees rfl (hg.agrees hagrees) (Acceptance.sound_none rfl)
    | true =>
      cases legacy with
      | none =>
        obtain ⟨-, hok⟩ := of_checkTicket_bind hvalid
        cases hok
      | some v =>
        obtain ⟨-, hok⟩ := of_checkTicket_bind hvalid
        obtain ⟨⟨r, t⟩, hr, hvalid⟩ := List.any_eq_true.mp (Except.ok.inj hok)
        simp only [Bool.and_eq_true, decide_eq_true_eq] at hvalid
        obtain ⟨⟨hl, -⟩, rfl⟩ := hvalid
        have hmem := (List.of_mem_zip hr).1
        have hfits' := hg.agrees hagrees
        refine hQ _ _ hinv hagrees rfl hfits' ?_
        refine hfits'.sound_legacy rfl (fun hr hd => hfits'.legacy hr hd hforce r hmem hl) hmem ?_
        rw [Grants.isSource, hl]
        simp

lemma wp_authorityBegin {Q : Ticket D × Option (Credential D) → Host D R → Prop}
    {verifier legacy : Option D}
    (hQ : ∀ ticket credential t, t.Inv setup ban n → t.disk.grants ≠ none →
      ticket.generation ∈ t.used → Acceptance.Sound setup ban t ⟨credential, t.epoch, t.epoch⟩ →
      Q (ticket, credential) t) :
    wp (authorityBegin setup scope verifier legacy) Q (fun _ => Host.Inv setup ban n) s := by
  rw [authorityBegin]
  refine wp_authorize h fun g _ s' h' _ hg hforce hgrants => ?_
  rw [wp_bind]
  refine wp_ofResult (fun ticket hticket => ?_) fun _ => h'
  rw [wp_bind]
  refine wp_findCredential h' hg hforce fun r t ht hst hdisk hfits hsound => ?_
  rw [Grants.begin] at hticket
  split_ifs at hticket
  obtain rfl := Except.ok.inj hticket
  have hdrawn : g.generation ∈ s'.used := hg.drawn (Option.ne_none_iff_exists'.mpr ⟨_, hforce⟩)
  refine ⟨ht, hfits, hdisk ▸ hgrants, fun t' ht' htt' hne => hQ _ _ t' ht' hne ?_ ?_⟩
  · exact htt'.used (hst.used hdrawn)
  · rw [htt'.epoch, hst.epoch]
    exact hsound.agrees htt'

omit [DecidableEq D] in
lemma wp_accept {Q : Unit → Host D R → Prop}
    (hsound : Acceptance.Sound setup ban s ⟨credential, begun, s.epoch⟩)
    (hQ : ∀ s', s'.Inv setup ban n → s.Agrees s' → s'.disk = s.disk → Q () s') :
    wp (accept credential begun) Q (fun _ => Host.Inv setup ban n) s :=
  hQ _ (h.addAccepted hsound) ⟨rfl, rfl, rfl, rfl, rfl, rfl, rfl, rfl, rfl, List.Subset.refl _⟩ rfl

omit [DecidableEq D] in
lemma wp_startAttempt {supportsV2 : Bool} (hgrants : s.disk.grants ≠ none)
    (hticket : ticket.generation ∈ s.used)
    (hsound : Acceptance.Sound setup ban s ⟨credential, s.epoch, s.epoch⟩) :
    Op.Kept setup ban n (startAttempt supportsV2 ticket credential) s := by
  have hadd : ∀ s' enroll, s'.Inv setup ban n → s.Agrees s' → s'.disk = s.disk →
      (enroll = true → ∀ v, credential ≠ some (.token v)) →
      Host.Inv setup ban n
        { s' with attempts := s'.attempts ++ [⟨ticket, credential, enroll, s'.epoch⟩] } := by
    intro s' enroll h' hs hdisk henroll
    refine h'.addAttempt (hs.used hticket) rfl (fun hr hd v hv => ?_) henroll (hdisk ▸ hgrants)
    rw [hs.epoch]
    exact hsound.timely.legacy (hs.returned ▸ hr) (hs.drifted ▸ hd) v hv
  rw [startAttempt]
  simp only [wp_bind, wp_get, wp_whenever, wp_modify]
  constructor
  · intro _
    refine wp_accept h hsound fun s' h' hs hdisk => ⟨fun _ => ?_, fun _ => h'⟩
    refine hadd s' _ h' hs hdisk fun henroll v hv => ?_
    rw [hv] at henroll
    simp at henroll
  · intro hnone
    refine ⟨fun _ => hadd s _ h (.refl s) rfl fun _ v hv => ?_, fun _ => h⟩
    rw [hv] at hnone
    exact hnone rfl

lemma wp_hostBegin {proof : LoginProof D} : Op.Kept setup ban n (hostBegin setup proof) s := by
  rw [Op.Kept, hostBegin, wp_bind]
  refine wp_snapshot (fun hsync => ?_) fun _ => h
  split_ifs
  · exact h
  rw [wp_bind]
  refine wp_ofResult (fun _ _ => ?_) fun _ => h
  simp only [wp_bind, wp_check]
  refine ⟨fun _ => ?_, fun _ => h⟩
  refine wp_recover (E := fun _ => Host.Inv setup ban n) ?_ ?_ fun _ _ he _ => he
  · rw [wp_bind]
    exact wp_authorityBegin h fun ticket credential t ht hgrants hticket hsound =>
      wp_startAttempt ht hgrants hticket hsound
  · intro e s' a he ha
    split_ifs at ha
    cases ha
    exact he

lemma wp_checkCredential {Q : Bool → Host D R → Prop}
    (hg : g.Fits setup ban s) (hforce : s.InForce setup g) (ha : a ∈ s.attempts)
    (hQ : ∀ valid s', s'.Inv setup ban n → s.Agrees s' → s'.disk = s.disk →
      (a.credential.isSome = false ∨ valid = true →
        Acceptance.Sound setup ban s' ⟨a.credential, a.begun, s.epoch⟩) → Q valid s') :
    wp (checkCredential g a) Q (fun _ => Host.Inv setup ban n) s := by
  have hbegun : g.checkTicket a.ticket = .ok () → a.begun = s.epoch :=
    fun hticket => hg.tickets a ha (checkTicket_ok hticket).2.symm
  rw [checkCredential]
  cases hcredential : a.credential with
  | none =>
    rw [wp_bind]
    refine wp_getTime (wp_ofResult (fun valid hvalid => ?_) fun _ => h.tick 1)
    obtain ⟨hticket, -⟩ := of_checkTicket_bind hvalid
    exact hQ valid _ (h.tick 1) (.tick s 1) rfl fun _ =>
      hcredential ▸ Acceptance.sound_none (s := s.tick 1) (hbegun hticket)
  | some c =>
    cases c with
    | token verifier =>
      rw [wp_bind]
      refine wp_getTime (wp_ofResult (fun valid hvalid => ?_) fun _ => h.tick 1)
      obtain ⟨hticket, -⟩ := of_checkTicket_bind hvalid
      refine hQ valid _ (h.tick 1) (.tick s 1) rfl fun hor => ?_
      rw [hcredential] at hor ⊢
      obtain rfl : valid = true := hor.resolve_left Bool.true_eq_false.mp
      exact (hg.agrees (.tick s 1)).sound_token hforce (hbegun hticket) hvalid
    | legacy verifier =>
      rw [wp_bind]
      refine wp_getTimes fun times => ?_
      rw [wp_bind]
      refine wp_ofResult (fun source hsource => ?_) fun _ => h.tick _
      refine hQ _ _ (h.tick _) (.tick s _) rfl fun hor => ?_
      rw [hcredential] at hor ⊢
      obtain ⟨r, rfl⟩ := Option.isSome_iff_exists.mp (hor.resolve_left Bool.true_eq_false.mp)
      obtain ⟨hticket, t, hr, -, hr'⟩ := migrationSource_ok hsource
      refine (hg.agrees (.tick s _)).sound_legacy (hbegun hticket) (fun hret hd => ?_)
        (List.of_mem_zip hr).1 hr'
      have hfirst := h.firsts hret hd a ha verifier hcredential
      exact (hbegun hticket).symm.trans hfirst

lemma wp_attemptCheck (ha : a ∈ s.attempts) : Op.Kept setup ban n (attemptCheck setup a) s := by
  rw [Op.Kept, attemptCheck, wp_bind]
  refine wp_authorize h fun g _ s' h' hs hg hforce hgrants => ?_
  rw [wp_bind]
  refine wp_checkCredential h' hg hforce (hs.attempts ▸ ha) fun valid t ht hst hdisk hsound => ?_
  simp only [wp_bind, wp_check, wp_pure, Bool.or_eq_true, Bool.not_eq_true']
  refine ⟨fun hvalid => ⟨ht, hg.agrees hst, hdisk ▸ hgrants, fun t' ht' htt' _ => ?_⟩, fun _ => ht⟩
  refine wp_accept ht' ?_ fun _ h'' _ _ => h''
  rw [htt'.epoch, hst.epoch]
  exact (hsound hvalid).agrees htt'

/-- The token of an attempt gets a record in its group. -/
lemma wp_issue {days : ℕ}
    (hQ : ∀ g' r s', s'.Inv setup ban n → s.Agrees s' → s'.disk = s.disk →
      s'.accepted = s.accepted → g.checkTicket a.ticket = .ok () → r.verifier = verifier →
      r.legacy = false → r.group = a.group verifier →
      g'.Within { g with records := g.records ++ [r] } →
      (∀ legacy, a.credential = some (.legacy legacy) → ∃ q ∈ g.records,
        Grants.isSource legacy q) → Q g' s') :
    wp (issue g a verifier info days) Q (fun _ => Host.Inv setup ban n) s := by
  have henroll : (∀ legacy, a.credential ≠ some (.legacy legacy)) → wp (do
      let time ← getTime
      ofResult (g.enrollDigest a.ticket verifier
        { info with time := time, expiresAt := some (expiresAt time days) }))
      Q (fun _ => Host.Inv setup ban n) s := by
    intro hcredential
    rw [wp_bind]
    refine wp_getTime (wp_ofResult (fun g' hg' => ?_) fun _ => h.tick 1)
    refine hQ _ _ _ (h.tick 1) (.tick s 1) rfl rfl (enrollDigest_ok hg').1 rfl rfl ?_
      (within_enrollDigest hg') fun legacy hlegacy => absurd hlegacy (hcredential legacy)
    rw [Attempt.group]
    split
    · exact absurd ‹_› (hcredential _)
    · rfl
  rw [issue]
  cases hcredential : a.credential with
  | none => exact henroll fun _ => by simp [hcredential]
  | some c =>
    cases c with
    | token v => exact henroll fun _ => by simp [hcredential]
    | legacy legacy =>
      rw [wp_bind]
      refine wp_getTimes fun times => ?_
      rw [wp_bind]
      refine wp_getTime (wp_ofResult (fun g' hg' => ?_) fun _ => (h.tick _).tick 1)
      obtain ⟨source, hmem, hsource, hwithin⟩ := within_migrate hg'
      obtain ⟨source', hsource', -⟩ := migrate_ok hg'
      refine hQ _ _ _ ((h.tick _).tick 1) (.trans (.tick s _) (.tick _ 1)) rfl rfl
        (migrationSource_ok hsource').1 rfl rfl ?_ hwithin ?_
      · rw [Attempt.group, hcredential]
        rfl
      · intro legacy' hlegacy'
        obtain ⟨⟩ := hcredential.symm.trans hlegacy'
        exact ⟨source, hmem, hsource⟩

end

lemma wp_attemptFinish (hhash : Function.Injective setup.sha.hash) (h : s.Inv setup ban n)
    (ha : a ∈ s.attempts) : Op.Kept setup ban n (attemptFinish setup a info) s := by
  rw [attemptFinish]
  split_ifs with henroll
  · exact h
  rw [Op.Kept, wp_bind]
  refine wp_authorize h fun g days s' h' hs hg hforce hgrants => ?_
  have ha' : a ∈ s'.attempts := hs.attempts ▸ ha
  rw [wp_bind]
  refine wp_randomToken (fun c cs hc => ?_) fun _ => h'
  obtain ⟨hunused, hban⟩ := h'.unused c (hc ▸ List.mem_cons_self)
  -- the hash of what was drawn is no verifier yet
  have hnew : ∀ v, (∃ c' ∈ s'.used, v = setup.sha.hash c') → v ≠ setup.sha.hash c := by
    rintro _ ⟨c', hc', rfl⟩ heq
    exact hunused (hhash heq ▸ hc')
  rw [wp_bind]
  refine wp_issue (h'.draw hc) fun g' r t ht hst hdisk haccepted hticket hverifier hl hgroup hwithin
    hsource => ?_
  have hagrees : s'.Agrees t := .trans (.draw s' c cs) hst
  have hgt : g.Fits setup ban t := hg.agrees hagrees
  have hused : c ∈ t.used := hst.used List.mem_cons_self
  have hrecords : ∀ q ∈ g.records, q.legacy = false → q.verifier ≠ r.verifier := by
    intro q hq hql
    rw [hverifier]
    exact hnew _ (hg.known q hq hql)
  have hissued : Host.Inv setup ban n
      { t with enrolled := t.enrolled ++ [⟨setup.sha.hash c, a.group (setup.sha.hash c),
        t.epoch⟩] } := by
    refine ht.addIssued hused rfl (fun q hq r' hr' hl' => ?_) fun e he hcredential => ?_
    · rw [hdisk] at hq
      exact hnew _ ((h'.grants q hq).known r' hr' hl')
    · rw [haccepted] at he
      exact hnew _ (h'.known e he _ hcredential) rfl
  have hid : ¬ban (r.id setup.sha) ∧ setup.sha.Names t.used (r.id setup.sha) := by
    rw [Record.id, hgroup, Attempt.group]
    split
    · rename_i legacy hcredential
      obtain ⟨q, hq, hq'⟩ := hsource legacy hcredential
      rw [← hg.group_of_isSource hq hq']
      exact ⟨hg.allowed q hq, hgt.named q hq⟩
    · exact ⟨hban, .inl ⟨c, hused, rfl⟩⟩
  have hscope : g.scope ≠ none := Option.ne_none_iff_exists'.mpr ⟨_, hforce⟩
  have hfits := hgt.addRecord hused hverifier hl hscope hid.1 hid.2 hrecords fun i hi => by
      rw [hverifier]
      exact hnew _ (h'.made i (hagrees.enrolled ▸ hi))
  rw [hverifier, hgroup] at hfits
  refine ⟨hissued, hfits.within hwithin, hdisk ▸ hgrants, fun t' ht' htt' _ => ?_⟩
  rw [wp_bind]
  refine wp_accept ht' ?_ fun _ h'' _ _ => h''
  have hbegun : a.begun = t.epoch :=
    hgt.tickets a (hagrees.attempts ▸ ha') (checkTicket_ok hticket).2.symm
  have hold := hgt.addIssued (i := ⟨setup.sha.hash c, a.group (setup.sha.hash c), t.epoch⟩)
    (hverifier ▸ hrecords)
  rw [htt'.epoch]
  refine Acceptance.Sound.agrees ?_ htt'
  cases hcredential : a.credential with
  | none => exact Acceptance.sound_none hbegun
  | some credential =>
    cases credential with
    | token v => exact absurd hcredential (h.enrolls a ha (by simpa using henroll) v)
    | legacy v =>
      obtain ⟨q, hq, hq'⟩ := hsource v hcredential
      refine hold.sound_legacy hbegun (fun hr hd => ?_) hq hq'
      exact hbegun.symm.trans (ht.firsts hr hd a (hagrees.attempts ▸ ha') v hcredential)

end

end RustDesk.TrustedDevices
