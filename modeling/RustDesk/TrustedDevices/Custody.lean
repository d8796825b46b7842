import RustDesk.TrustedDevices.Host

/-!
# What every operation on the trusted devices keeps

The invariant ties the grants on the disk to the settings, the generation, the attempts that are
under way and the tokens that were ever made. It holds between any two writes, so that nothing has
to be said of where an operation may be cut off. Here are the changes that operations are made of,
and what each of them needs.
-/

namespace RustDesk.TrustedDevices

open Settings

variable {D R α : Type}

/-! ### Grants made from others -/

/-- No record is new, and its verifier, kind and origin are as they were. -/
structure Grants.Within (g' g : Grants D) : Prop where
  scope : g'.scope = g.scope
  generation : g'.generation = g.generation
  records : ∀ r ∈ g'.records, ∃ q ∈ g.records,
    r.verifier = q.verifier ∧ r.legacy = q.legacy ∧ r.origin = q.origin

namespace Grants

variable {g : Grants D}

lemma within_of_subset {scope : Option D} {generation : D} {l l' : List (Record D)} (h : l ⊆ l') :
    Within ⟨scope, generation, l⟩ ⟨scope, generation, l'⟩ :=
  ⟨rfl, rfl, fun r hr => ⟨r, h hr, rfl, rfl, rfl⟩⟩

lemma within_cleanup (g : Grants D) (now : ℤ) : Within (g.cleanup now).1 g :=
  within_of_subset fun _ hr => (mem_cleanupRecords hr).1

lemma within_updateExpiration (g : Grants D) (days : ℕ) (now : ℤ) :
    Within (g.updateExpiration days now).1 g := by
  refine ⟨rfl, rfl, fun r hr => ?_⟩
  obtain ⟨q, hq, -, rfl⟩ := mem_updateExpiration hr
  exact ⟨q, hq, rfl, rfl, rfl⟩

variable [DecidableEq D]

lemma within_confirmMigration (g : Grants D) (verifier : D) :
    Within (g.confirmMigration verifier).1 g := by
  rw [confirmMigration]
  split
  · exact within_of_subset (List.Subset.refl _)
  · exact within_of_subset fun _ hr => List.mem_of_mem_filter hr

lemma within_remove (sha : Sha256 D) (g : Grants D) (recordIds : List D) :
    Within (g.remove sha recordIds) g :=
  within_of_subset fun _ hr => List.mem_of_mem_filter hr

lemma within_renew {sha : Sha256 D} {recordIds : List D} {days : ℕ} {now : ℤ} {g' : Grants D}
    (h : g.renew sha recordIds days now = .ok g') : Within g' g := by
  obtain ⟨-, rfl⟩ := renew_ok h
  refine ⟨rfl, rfl, fun r hr => ?_⟩
  obtain ⟨q, hq, rfl⟩ := List.mem_map.mp hr
  refine ⟨q, hq, ?_⟩
  split_ifs <;> exact ⟨rfl, rfl, rfl⟩

lemma within_enrollDigest {ticket : Ticket D} {verifier : D} {info : DeviceInfo} {g' : Grants D}
    (h : g.enrollDigest ticket verifier info = .ok g') :
    Within g' { g with records := g.records ++ [{ verifier := verifier, info := info }] } := by
  obtain ⟨-, rfl⟩ := enrollDigest_ok h
  refine within_of_subset fun r hr => ?_
  rcases List.mem_append.mp (mem_cleanupRecords hr).1 with hr | hr
  · split_ifs at hr
    · exact List.mem_append_left _ (List.mem_of_mem_filter hr)
    · exact List.mem_append_left _ hr
  · exact List.mem_append_right _ hr

/-- A migration adds a record, in the group of the legacy record. -/
lemma within_migrate {ticket : Ticket D} {legacy verifier : D} {readings : List ℤ} {now : ℤ}
    {g' : Grants D} (h : g.migrate ticket legacy verifier readings now = .ok g') :
    ∃ source ∈ g.records, isSource legacy source ∧
      Within g' { g with records := g.records ++ [migrated source legacy verifier now] } := by
  obtain ⟨source, hsource, rfl⟩ := migrate_ok h
  obtain ⟨-, t, hmem, -, hsource⟩ := migrationSource_ok hsource
  exact ⟨source, (List.of_mem_zip hmem).1, hsource,
    within_of_subset fun r hr => (mem_cleanupRecords hr).1⟩

end Grants

/-! ### The invariant -/

/-- The credential is of the group with this id: the legacy credential, or a token of it. -/
def Credential.InGroup (sha : Sha256 D) (enrolled : List (Issued D)) (id : D) :
    Credential D → Prop
  | .token verifier => ∃ i ∈ enrolled, i.verifier = verifier ∧ sha.hash i.group = id
  | .legacy verifier => sha.hash verifier = id

/-- The id is that of a token that was made, or of a device of the earlier version. -/
def Sha256.Names (sha : Sha256 D) (used : List D) (id : D) : Prop :=
  (∃ c ∈ used, id = sha.hash (sha.hash c)) ∨
    ∃ hwid device name platform, id = sha.hash (sha.legacy hwid device name platform)

lemma Sha256.Names.mono {sha : Sha256 D} {used used' : List D} {id : D} (h : sha.Names used id)
    (hused : used ⊆ used') : sha.Names used' id :=
  h.imp_left fun ⟨c, hc, hid⟩ => ⟨c, hused hc, hid⟩

/-- What is accepted was begun since the trust was last revoked. So was its token made, unless a
password has returned, and a legacy credential is accepted only if the trust never was revoked,
unless one has returned or drifted. -/
structure Acceptance.Timely (returned drifted : Bool) (enrolled : List (Issued D))
    (e : Acceptance D) : Prop where
  begun : e.begun = e.epoch
  token : returned = false → ∀ verifier, e.credential = some (.token verifier) →
    ∀ i ∈ enrolled, i.verifier = verifier → i.epoch = e.epoch
  legacy : returned = false → drifted = false → ∀ verifier,
    e.credential = some (.legacy verifier) → e.epoch = 0

section

variable (setup : Setup D)

/-- The grants are under the settings in force. -/
def Host.InForce (s : Host D R) (g : Grants D) : Prop :=
  g.scope = some (setup.scope (s.inMemory setup).effective)

/-- A scope that is not in force is not that of the settings in the files either, which differ from
those in force in the password only. -/
structure Setup.Stale (memory disk : Effective) (scope : D) : Prop where
  file : scope ≠ setup.scope disk
  totp : memory.totp = disk.totp
  enabled : memory.enabled = disk.enabled

abbrev Host.Stale (s : Host D R) (scope : D) : Prop :=
  setup.Stale (s.inMemory setup).effective (s.onDisk setup).effective scope

/-- The grants and the state they may be written in. -/
structure Grants.Fits (ban : D → Prop) (s : Host D R) (g : Grants D) : Prop where
  known : ∀ r ∈ g.records, r.legacy = false → ∃ c ∈ s.used, r.verifier = setup.sha.hash c
  group : ∀ r ∈ g.records, r.legacy = false → ∀ i ∈ s.enrolled, i.verifier = r.verifier →
    i.group = r.group
  epoch : s.returned = false → s.InForce setup g → ∀ r ∈ g.records, r.legacy = false →
    ∀ i ∈ s.enrolled, i.verifier = r.verifier → i.epoch = s.epoch
  origin : ∀ r ∈ g.records, r.legacy = true → r.origin = none
  legacy : s.returned = false → s.drifted = false → s.InForce setup g →
    ∀ r ∈ g.records, r.legacy = true → s.epoch = 0
  allowed : ∀ r ∈ g.records, ¬ban (r.id setup.sha)
  named : ∀ r ∈ g.records, setup.sha.Names s.used (r.id setup.sha)
  stale : s.returned = false → ∀ scope, g.scope = some scope → ¬s.InForce setup g →
    s.Stale setup scope
  unscoped : g.scope = none → g.records = []
  drawn : g.scope ≠ none → g.generation ∈ s.used
  tickets : ∀ a ∈ s.attempts, a.ticket.generation = g.generation → a.begun = s.epoch

/-- What holds between the writes of an operation. The ids in `ban` have been removed, and nothing
of their groups was accepted since there were `n` acceptances. -/
structure Host.Inv (ban : D → Prop) (n : ℕ) (s : Host D R) : Prop where
  fresh : s.env.coins.Nodup
  unused : ∀ c ∈ s.env.coins, c ∉ s.used ∧ ¬ban (setup.sha.hash (setup.sha.hash c))
  made : ∀ i ∈ s.enrolled, ∃ c ∈ s.used, i.verifier = setup.sha.hash c
  grants : ∀ g ∈ s.disk.grants, g.Fits setup ban s
  unbanned : s.disk.legacy ≠ none → ∀ id, ¬ban id
  legacy : s.disk.legacy ≠ none → s.drifted = false →
    s.epoch = 0 ∧ (s.inMemory setup).effective = (s.onDisk setup).effective
  listed : s.listed ≠ [] → s.disk.legacy = none
  named : ∀ id ∈ s.listed, setup.sha.Names s.used id
  banned : ∀ id, ban id → setup.sha.Names s.used id
  tickets : ∀ a ∈ s.attempts, a.ticket.generation ∈ s.used
  firsts : s.returned = false → s.drifted = false → ∀ a ∈ s.attempts, ∀ verifier,
    a.credential = some (.legacy verifier) → a.begun = 0
  enrolls : ∀ a ∈ s.attempts, a.enroll = true → ∀ verifier, a.credential ≠ some (.token verifier)
  begun : s.attempts ≠ [] → s.disk.grants ≠ none
  known : ∀ e ∈ s.accepted, ∀ verifier, e.credential = some (.token verifier) →
    ∃ c ∈ s.used, verifier = setup.sha.hash c
  timely : ∀ e ∈ s.accepted, e.Timely s.returned s.drifted s.enrolled
  clean : ∀ e ∈ s.accepted.drop n, ∀ c, e.credential = some c → ∀ id, ban id →
    ¬c.InGroup setup.sha s.enrolled id

/-- What may be accepted. -/
structure Acceptance.Sound (ban : D → Prop) (s : Host D R) (e : Acceptance D) : Prop where
  known : ∀ verifier, e.credential = some (.token verifier) →
    ∃ c ∈ s.used, verifier = setup.sha.hash c
  timely : e.Timely s.returned s.drifted s.enrolled
  clean : ∀ c, e.credential = some c → ∀ id, ban id → ¬c.InGroup setup.sha s.enrolled id

end

/-- The same settings, attempts, tokens and epoch; random values may have been drawn. -/
structure Host.Agrees (s s' : Host D R) : Prop where
  config : s'.config = s.config
  options : s'.options = s.options
  diskConfig : s'.disk.config = s.disk.config
  diskOptions : s'.disk.options = s.disk.options
  enrolled : s'.enrolled = s.enrolled
  epoch : s'.epoch = s.epoch
  drifted : s'.drifted = s.drifted
  returned : s'.returned = s.returned
  attempts : s'.attempts = s.attempts
  used : s.used ⊆ s'.used

variable {setup : Setup D} {ban : D → Prop} {n : ℕ} {s s' s'' : Host D R} {g g' : Grants D}

namespace Host.Agrees

lemma refl (s : Host D R) : s.Agrees s :=
  ⟨rfl, rfl, rfl, rfl, rfl, rfl, rfl, rfl, rfl, List.Subset.refl _⟩

lemma trans (h : s.Agrees s') (h' : s'.Agrees s'') : s.Agrees s'' :=
  ⟨h'.config.trans h.config, h'.options.trans h.options, h'.diskConfig.trans h.diskConfig,
    h'.diskOptions.trans h.diskOptions, h'.enrolled.trans h.enrolled, h'.epoch.trans h.epoch,
    h'.drifted.trans h.drifted, h'.returned.trans h.returned, h'.attempts.trans h.attempts,
    List.Subset.trans h.used h'.used⟩

lemma setEnv (s : Host D R) (env : Env D) : s.Agrees { s with env := env } :=
  ⟨rfl, rfl, rfl, rfl, rfl, rfl, rfl, rfl, rfl, List.Subset.refl _⟩

lemma nextFate (s : Host D R) : s.Agrees s.nextFate := setEnv s _

lemma tick (s : Host D R) (k : ℕ) : s.Agrees (s.tick k) := setEnv s _

lemma setGrants (s : Host D R) (g : Grants D) : s.Agrees (s.setGrants g) :=
  ⟨rfl, rfl, rfl, rfl, rfl, rfl, rfl, rfl, rfl, List.Subset.refl _⟩

lemma draw (s : Host D R) (c : D) (cs : List D) : s.Agrees (s.draw c cs) :=
  ⟨rfl, rfl, rfl, rfl, rfl, rfl, rfl, rfl, rfl, List.subset_cons_self _ _⟩

lemma inMemory (h : s.Agrees s') : s'.inMemory setup = s.inMemory setup := by
  rw [Host.inMemory, Host.inMemory, h.config, h.options]

lemma onDisk (h : s.Agrees s') : s'.onDisk setup = s.onDisk setup := by
  rw [Host.onDisk, Host.onDisk, h.diskConfig, h.diskOptions]

lemma inForce (h : s.Agrees s') : s'.InForce setup g ↔ s.InForce setup g := by
  rw [Host.InForce, Host.InForce, h.inMemory]

end Host.Agrees

lemma Grants.Within.inForce (h : g'.Within g) : s.InForce setup g' ↔ s.InForce setup g := by
  rw [Host.InForce, Host.InForce, h.scope]

namespace Grants.Fits

lemma agrees (h : g.Fits setup ban s) (hs : s.Agrees s') : g.Fits setup ban s' where
  known r hr hl := by
    obtain ⟨c, hc, hv⟩ := h.known r hr hl
    exact ⟨c, hs.used hc, hv⟩
  group := by
    rw [hs.enrolled]
    exact h.group
  epoch := by
    rw [hs.returned, hs.inForce, hs.enrolled, hs.epoch]
    exact h.epoch
  origin := h.origin
  legacy := by
    rw [hs.returned, hs.drifted, hs.inForce, hs.epoch]
    exact h.legacy
  allowed := h.allowed
  named r hr := (h.named r hr).mono hs.used
  stale := by
    simp only [Host.Stale, hs.returned, hs.inForce, hs.inMemory, hs.onDisk]
    exact h.stale
  unscoped := h.unscoped
  drawn hg := hs.used (h.drawn hg)
  tickets := by
    rw [hs.attempts, hs.epoch]
    exact h.tickets

lemma within (h : g.Fits setup ban s) (hg : g'.Within g) : g'.Fits setup ban s where
  known r hr hl := by
    obtain ⟨q, hq, hv, hlegacy, -⟩ := hg.records r hr
    rw [hv]
    exact h.known q hq (hlegacy ▸ hl)
  group r hr hl i hi hv := by
    obtain ⟨q, hq, hverifier, hlegacy, horigin⟩ := hg.records r hr
    rw [Record.group, horigin, hverifier]
    exact h.group q hq (hlegacy ▸ hl) i hi (hv.trans hverifier)
  epoch hret hforce r hr hl i hi hv := by
    obtain ⟨q, hq, hverifier, hlegacy, -⟩ := hg.records r hr
    exact h.epoch hret (hg.inForce.mp hforce) q hq (hlegacy ▸ hl) i hi (hv.trans hverifier)
  origin r hr hl := by
    obtain ⟨q, hq, -, hlegacy, horigin⟩ := hg.records r hr
    rw [horigin]
    exact h.origin q hq (hlegacy ▸ hl)
  legacy hret hd hforce r hr hl := by
    obtain ⟨q, hq, -, hlegacy, -⟩ := hg.records r hr
    exact h.legacy hret hd (hg.inForce.mp hforce) q hq (hlegacy ▸ hl)
  allowed r hr := by
    obtain ⟨q, hq, hverifier, -, horigin⟩ := hg.records r hr
    rw [Record.id, Record.group, horigin, hverifier]
    exact h.allowed q hq
  named r hr := by
    obtain ⟨q, hq, hverifier, -, horigin⟩ := hg.records r hr
    rw [Record.id, Record.group, horigin, hverifier]
    exact h.named q hq
  stale := by
    rw [hg.scope, hg.inForce]
    exact h.stale
  unscoped hnone := by
    rw [hg.scope] at hnone
    rw [List.eq_nil_iff_forall_not_mem]
    intro r hr
    obtain ⟨q, hq, -⟩ := hg.records r hr
    rw [h.unscoped hnone] at hq
    cases hq
  drawn := by
    rw [hg.scope, hg.generation]
    exact h.drawn
  tickets := by
    rw [hg.generation]
    exact h.tickets

/-- Grants without records, under the settings in force or none. -/
lemma empty (scope : Option D) (generation : D)
    (hscope : ∀ d, scope = some d → d = setup.scope (s.inMemory setup).effective)
    (hdrawn : scope ≠ none → generation ∈ s.used)
    (htickets : ∀ a ∈ s.attempts, a.ticket.generation ≠ generation) :
    Grants.Fits setup ban s ⟨scope, generation, []⟩ where
  known r hr := by cases hr
  group r hr := by cases hr
  epoch _ _ r hr := by cases hr
  origin r hr := by cases hr
  legacy _ _ _ r hr := by cases hr
  allowed r hr := by cases hr
  named r hr := by cases hr
  stale _ d hd hnot := absurd (hd.trans (congrArg some (hscope d hd))) hnot
  unscoped _ := rfl
  drawn := hdrawn
  tickets a ha h := absurd h (htickets a ha)

/-- A token was made that is not of these grants. -/
lemma addIssued (h : g.Fits setup ban s) {i : Issued D}
    (hrecords : ∀ r ∈ g.records, r.legacy = false → r.verifier ≠ i.verifier) :
    g.Fits setup ban { s with enrolled := s.enrolled ++ [i] } where
  __ := h
  group r hr hl j hj hv := by
    rcases List.mem_append.mp hj with hj | hj
    · exact h.group r hr hl j hj hv
    · rw [List.mem_singleton.mp hj] at hv
      exact absurd hv.symm (hrecords r hr hl)
  epoch hret hforce r hr hl j hj hv := by
    rcases List.mem_append.mp hj with hj | hj
    · exact h.epoch hret hforce r hr hl j hj hv
    · rw [List.mem_singleton.mp hj] at hv
      exact absurd hv.symm (hrecords r hr hl)

end Grants.Fits

namespace Acceptance

lemma Sound.agrees {e : Acceptance D} (h : e.Sound setup ban s) (hs : s.Agrees s') :
    e.Sound setup ban s' where
  known v hv := by
    obtain ⟨c, hc, hverifier⟩ := h.known v hv
    exact ⟨c, hs.used hc, hverifier⟩
  timely := by
    rw [hs.returned, hs.drifted, hs.enrolled]
    exact h.timely
  clean := by
    rw [hs.enrolled]
    exact h.clean

/-- Nothing is said of a login without a credential but when it was begun. -/
lemma sound_none {begun : ℕ} (hbegun : begun = s.epoch) :
    Sound setup ban s ⟨none, begun, s.epoch⟩ where
  known v hv := by cases hv
  timely :=
    { begun := hbegun
      token := fun _ v hv => by cases hv
      legacy := fun _ _ v hv => by cases hv }
  clean c hc := by cases hc

end Acceptance

/-- Nothing is trusted: there are no records and no devices of the earlier version, and no attempt
can go on. -/
structure Host.Emptied (s : Host D R) : Prop where
  legacy : s.disk.legacy = none
  records : ∀ g ∈ s.disk.grants, g.records = []
  tickets : ∀ g ∈ s.disk.grants, ∀ a ∈ s.attempts, a.ticket.generation ≠ g.generation

namespace Host.Inv

variable (h : s.Inv setup ban n) {c : D}

include h

/-! ### What does not matter -/

lemma agrees (hs : s.Agrees s') (hgrants : s'.disk.grants = s.disk.grants)
    (hlegacy : s'.disk.legacy = s.disk.legacy) (hlisted : s'.listed = s.listed)
    (haccepted : s'.accepted = s.accepted) (hfresh : s'.env.coins.Nodup)
    (hunused : ∀ c ∈ s'.env.coins, c ∉ s'.used ∧ ¬ban (setup.sha.hash (setup.sha.hash c))) :
    s'.Inv setup ban n where
  fresh := hfresh
  unused := hunused
  made i hi := by
    rw [hs.enrolled] at hi
    obtain ⟨c, hc, hv⟩ := h.made i hi
    exact ⟨c, hs.used hc, hv⟩
  grants g hg := by
    rw [hgrants] at hg
    exact (h.grants g hg).agrees hs
  unbanned := by
    rw [hlegacy]
    exact h.unbanned
  legacy := by
    rw [hlegacy, hs.drifted, hs.epoch, hs.inMemory, hs.onDisk]
    exact h.legacy
  listed := by
    rw [hlisted, hlegacy]
    exact h.listed
  named id hid := by
    rw [hlisted] at hid
    exact (h.named id hid).mono hs.used
  banned id hid := (h.banned id hid).mono hs.used
  tickets a ha := by
    rw [hs.attempts] at ha
    exact hs.used (h.tickets a ha)
  firsts := by
    rw [hs.returned, hs.drifted, hs.attempts]
    exact h.firsts
  enrolls := by
    rw [hs.attempts]
    exact h.enrolls
  begun := by
    rw [hs.attempts, hgrants]
    exact h.begun
  known e he v hv := by
    rw [haccepted] at he
    obtain ⟨c, hc, hverifier⟩ := h.known e he v hv
    exact ⟨c, hs.used hc, hverifier⟩
  timely := by
    rw [hs.returned, hs.drifted, haccepted, hs.enrolled]
    exact h.timely
  clean := by
    rw [haccepted, hs.enrolled]
    exact h.clean

/-- What an operation takes from outside may be replaced. -/
lemma setEnv (env : Env D) (hfresh : env.coins.Nodup)
    (hunused : ∀ c ∈ env.coins, c ∉ s.used ∧ ¬ban (setup.sha.hash (setup.sha.hash c))) :
    Host.Inv setup ban n { s with env := env } :=
  h.agrees (.setEnv s env) rfl rfl rfl rfl hfresh hunused

lemma nextFate : s.nextFate.Inv setup ban n := h.setEnv _ h.fresh h.unused

lemma tick (k : ℕ) : (s.tick k).Inv setup ban n := h.setEnv _ h.fresh h.unused

lemma setDown : Host.Inv setup ban n { s with down := true } :=
  h.agrees ⟨rfl, rfl, rfl, rfl, rfl, rfl, rfl, rfl, rfl, List.Subset.refl _⟩ rfl rfl rfl rfl h.fresh
    h.unused

lemma draw {cs : List D} (hc : s.env.coins = c :: cs) : (s.draw c cs).Inv setup ban n := by
  have hfresh := h.fresh
  have hunused := h.unused
  rw [hc] at hfresh hunused
  obtain ⟨hnot, hnodup⟩ := List.nodup_cons.mp hfresh
  refine h.agrees (.draw s c cs) rfl rfl rfl rfl hnodup fun c' hc' => ?_
  obtain ⟨hused, hban⟩ := hunused c' (List.mem_cons_of_mem c hc')
  refine ⟨fun hmem => ?_, hban⟩
  rcases List.mem_cons.mp hmem with rfl | hmem
  · exact hnot hc'
  · exact hused hmem

/-! ### Grants and settings -/

lemma setGrants (hg : g.Fits setup ban s) : (s.setGrants g).Inv setup ban n where
  __ := h
  grants g' hg' := by
    obtain rfl : g = g' := Option.some.inj hg'
    exact hg.agrees (.setGrants s g)
  unbanned hlegacy := absurd rfl hlegacy
  legacy hlegacy := absurd rfl hlegacy
  listed _ := rfl
  begun _ := Option.some_ne_none g

/-- Other settings in the files; the flags may go up. -/
lemma setDisk {config : Config R} {options : AuthOptions R} {drifted returned : Bool}
    (hd : drifted = false → s.drifted = false) (hr : returned = false → s.returned = false)
    (hstale : returned = false → ∀ g ∈ s.disk.grants, ∀ scope, g.scope = some scope →
      ¬s.InForce setup g → s.Stale setup scope →
      Host.Stale setup { s with disk := { s.disk with config := config, options := options } }
        scope)
    (hsynced : s.disk.legacy ≠ none → drifted = false →
      (s.inMemory setup).effective = (s.onDisk setup).effective →
      (s.inMemory setup).effective = (build setup.libs setup.preset config
        (options.effective setup.layers) true).effective) :
    Host.Inv setup ban n
      { s with disk := { s.disk with config := config, options := options }, drifted := drifted,
               returned := returned } where
  __ := h
  grants g hg :=
    { h.grants g hg with
      epoch hret := (h.grants g hg).epoch (hr hret)
      legacy hret hdrift := (h.grants g hg).legacy (hr hret) (hd hdrift)
      stale hret scope hsome hnot :=
        hstale hret g hg scope hsome hnot ((h.grants g hg).stale (hr hret) scope hsome hnot) }
  legacy hlegacy hdrift :=
    ⟨(h.legacy hlegacy (hd hdrift)).1, hsynced hlegacy hdrift (h.legacy hlegacy (hd hdrift)).2⟩
  firsts hret hdrift := h.firsts (hr hret) (hd hdrift)
  timely e he :=
    { h.timely e he with
      token hret := (h.timely e he).token (hr hret)
      legacy hret hdrift := (h.timely e he).legacy (hr hret) (hd hdrift) }

lemma setDiskConfig [DecidableEq D] (file : Config R) :
    (s.setDiskConfig setup file).Inv setup ban n := by
  refine h.setDisk (fun hd => (Bool.or_eq_false_iff.mp hd).1)
    (fun hr => (Bool.or_eq_false_iff.mp hr).1) (fun hr g hg scope hsome hnot hstale => ?_)
    fun hlegacy hd hsync => ?_
  · refine ⟨fun hfile => ?_, hstale.totp, hstale.enabled⟩
    -- the flag says that the grants are not under what was stored
    have hnone := (Bool.or_eq_false_iff.mp hr).2
    rw [Option.mem_def.mp hg, Option.any_some, Bool.and_eq_false_iff] at hnone
    rcases hnone with hnone | hnone
    · exact of_decide_eq_false hnone (hsome.trans (congrArg some hfile))
    · exact of_decide_eq_false hnone hnot
  · -- and that the password is in force as it was
    have hnone := (Bool.or_eq_false_iff.mp hd).2
    rw [Option.isSome_iff_ne_none.mpr hlegacy, Bool.true_and] at hnone
    have hsame := of_not_not (of_decide_eq_false hnone)
    have htotp := congrArg Effective.totp hsync
    have henabled := congrArg Effective.enabled hsync
    rw [Effective.mk.injEq]
    exact ⟨(congrArg Prod.fst hsame).symm, (congrArg Prod.snd hsame).symm, htotp, henabled⟩

lemma setDiskOptions :
    Host.Inv setup ban n { s with disk := { s.disk with options := s.options } } := by
  refine h.setDisk (fun hd => hd) (fun hr => hr) (fun _ _ _ scope _ _ hstale => ?_)
    fun _ _ hsync => ?_
  · have hsame : (build setup.libs setup.preset s.disk.config
        (s.options.effective setup.layers) true).effective = (s.onDisk setup).effective := by
      rw [Effective.mk.injEq]
      exact ⟨rfl, rfl, hstale.totp, hstale.enabled⟩
    exact ⟨fun hfile => hstale.file (hfile.trans (congrArg setup.scope hsame)), rfl, rfl⟩
  · have hh1 := congrArg Effective.h1 hsync
    have hsalt := congrArg Effective.salt hsync
    rw [Effective.mk.injEq]
    exact ⟨hh1, hsalt, rfl, rfl⟩

lemma setMemory_of_eq {config : Config R} {options : AuthOptions R}
    (heq : (Host.inMemory setup { s with config := config, options := options }).effective =
      (s.inMemory setup).effective) :
    (s.setMemory setup config options).Inv setup ban n := by
  rw [Host.setMemory, if_pos heq]
  have hforce : ∀ g, Host.InForce setup { s with config := config, options := options } g ↔
      s.InForce setup g := by
    intro g
    rw [Host.InForce, Host.InForce, heq]
  exact
    { h with
      grants := fun g hg =>
        { h.grants g hg with
          epoch := fun hr hg' => (h.grants g hg).epoch hr ((hforce g).mp hg')
          legacy := fun hr hd hg' => (h.grants g hg).legacy hr hd ((hforce g).mp hg')
          stale := fun hr scope hsome hnot => by
            have hstale := (h.grants g hg).stale hr scope hsome ((hforce g).not.mp hnot)
            exact ⟨hstale.file, (congrArg Effective.totp heq).trans hstale.totp,
              (congrArg Effective.enabled heq).trans hstale.enabled⟩ }
      legacy := fun hlegacy hd =>
        ⟨(h.legacy hlegacy hd).1, heq.trans (h.legacy hlegacy hd).2⟩ }

/-- When nothing is trusted there may be a new epoch. -/
lemma newEpoch (hempty : s.Emptied) (epoch : ℕ) :
    Host.Inv setup ban n { s with epoch := epoch } where
  __ := h
  grants g hg :=
    { h.grants g hg with
      epoch _ _ r hr := by
        rw [hempty.records g hg] at hr
        cases hr
      legacy _ _ _ r hr := by
        rw [hempty.records g hg] at hr
        cases hr
      tickets a ha hticket := absurd hticket (hempty.tickets g hg a ha) }
  legacy hlegacy := absurd hempty.legacy hlegacy

/-- When nothing is trusted, under no settings, any may be set. -/
lemma setMemory_of_emptied {config : Config R} {options : AuthOptions R} (hempty : s.Emptied)
    (hscope : ∀ g ∈ s.disk.grants, g.scope = none) :
    (s.setMemory setup config options).Inv setup ban n :=
  { h.newEpoch hempty (s.setMemory setup config options).epoch with
    grants := fun g hg =>
      { (h.newEpoch hempty (s.setMemory setup config options).epoch).grants g hg with
        epoch := fun _ hforce => by
          rw [Host.InForce, hscope g hg] at hforce
          cases hforce
        legacy := fun _ _ hforce => by
          rw [Host.InForce, hscope g hg] at hforce
          cases hforce
        stale := fun _ scope hsome => by
          rw [hscope g hg] at hsome
          cases hsome }
    legacy := fun hlegacy => absurd hempty.legacy hlegacy }

/-! ### Attempts and tokens -/

/-- Attempts may be dropped, and told whether they are to be given a token. -/
lemma setAttempts {attempts : List (Attempt D)} {down : Bool}
    (hattempts : ∀ a ∈ attempts, ∃ b ∈ s.attempts, a.ticket = b.ticket ∧
      a.credential = b.credential ∧ a.begun = b.begun ∧
      (a.enroll = true → b.enroll = true ∨ b.credential = none)) :
    Host.Inv setup ban n { s with down := down, attempts := attempts } where
  __ := h
  grants g hg :=
    { h.grants g hg with
      tickets a ha hticket := by
        obtain ⟨b, hb, hab, -, hbegun, -⟩ := hattempts a ha
        rw [hbegun]
        exact (h.grants g hg).tickets b hb (hab ▸ hticket) }
  tickets a ha := by
    obtain ⟨b, hb, hab, -⟩ := hattempts a ha
    rw [hab]
    exact h.tickets b hb
  firsts hr hd a ha v hv := by
    obtain ⟨b, hb, -, hcredential, hbegun, -⟩ := hattempts a ha
    rw [hbegun]
    exact h.firsts hr hd b hb v (hcredential ▸ hv)
  enrolls a ha henroll v hv := by
    obtain ⟨b, hb, -, hcredential, -, hb'⟩ := hattempts a ha
    rw [hcredential] at hv
    rcases hb' henroll with hb' | hb'
    · exact h.enrolls b hb hb' v hv
    · rw [hb'] at hv
      cases hv
  begun hne := by
    obtain ⟨a, ha⟩ := List.exists_mem_of_ne_nil _ hne
    obtain ⟨b, hb, -⟩ := hattempts a ha
    exact h.begun (List.ne_nil_of_mem hb)

lemma addAttempt {a : Attempt D} (hticket : a.ticket.generation ∈ s.used)
    (hbegun : a.begun = s.epoch)
    (hlegacy : s.returned = false → s.drifted = false → ∀ v, a.credential = some (.legacy v) →
      s.epoch = 0)
    (henroll : a.enroll = true → ∀ v, a.credential ≠ some (.token v))
    (hgrants : s.disk.grants ≠ none) :
    Host.Inv setup ban n { s with attempts := s.attempts ++ [a] } where
  __ := h
  grants g hg :=
    { h.grants g hg with
      tickets b hb hgeneration := by
        rcases List.mem_append.mp hb with hb | hb
        · exact (h.grants g hg).tickets b hb hgeneration
        · rw [List.mem_singleton.mp hb, hbegun] }
  tickets := List.forall_mem_append.mpr ⟨h.tickets, List.forall_mem_singleton.mpr hticket⟩
  firsts hr hd b hb v hv := by
    rcases List.mem_append.mp hb with hb | hb
    · exact h.firsts hr hd b hb v hv
    · obtain rfl := List.mem_singleton.mp hb
      rw [hbegun]
      exact hlegacy hr hd v hv
  enrolls := List.forall_mem_append.mpr ⟨h.enrolls, List.forall_mem_singleton.mpr henroll⟩
  begun _ := hgrants

/-- A token was made that was not there before. -/
lemma addIssued {i : Issued D} (hc : c ∈ s.used) (hi : i.verifier = setup.sha.hash c)
    (hrecords : ∀ g ∈ s.disk.grants, ∀ r ∈ g.records, r.legacy = false → r.verifier ≠ i.verifier)
    (haccepted : ∀ e ∈ s.accepted, e.credential ≠ some (.token i.verifier)) :
    Host.Inv setup ban n { s with enrolled := s.enrolled ++ [i] } where
  __ := h
  made := List.forall_mem_append.mpr ⟨h.made, List.forall_mem_singleton.mpr ⟨c, hc, hi⟩⟩
  grants g hg := (h.grants g hg).addIssued (hrecords g hg)
  timely e he :=
    { h.timely e he with
      token := fun hr v hv j hj hverifier => by
        rcases List.mem_append.mp hj with hj | hj
        · exact (h.timely e he).token hr v hv j hj hverifier
        · rw [List.mem_singleton.mp hj] at hverifier
          exact absurd (hverifier ▸ hv) (haccepted e he) }
  clean e he c hc id hid hgroup := by
    refine h.clean e he c hc id hid ?_
    cases c with
    | legacy v => exact hgroup
    | token v =>
      obtain ⟨j, hj, hverifier, hid'⟩ := hgroup
      rcases List.mem_append.mp hj with hj | hj
      · exact ⟨j, hj, hverifier, hid'⟩
      · rw [List.mem_singleton.mp hj] at hverifier
        exact absurd (hverifier ▸ hc) (haccepted e (List.mem_of_mem_drop he))

lemma addListed (hlegacy : s.disk.legacy = none) {ids : List D}
    (hids : ∀ id ∈ ids, setup.sha.Names s.used id) :
    Host.Inv setup ban n { s with listed := s.listed ++ ids } where
  __ := h
  grants g hg := (h.grants g hg).agrees
    ⟨rfl, rfl, rfl, rfl, rfl, rfl, rfl, rfl, rfl, List.Subset.refl _⟩
  listed _ := hlegacy
  named id hid := by
    rcases List.mem_append.mp hid with hid | hid
    · exact h.named id hid
    · exact hids id hid

lemma addAccepted {e : Acceptance D} (he : e.Sound setup ban s) :
    Host.Inv setup ban n { s with accepted := s.accepted ++ [e] } where
  __ := h
  grants g hg := (h.grants g hg).agrees
    ⟨rfl, rfl, rfl, rfl, rfl, rfl, rfl, rfl, rfl, List.Subset.refl _⟩
  known := List.forall_mem_append.mpr ⟨h.known, List.forall_mem_singleton.mpr he.known⟩
  timely := List.forall_mem_append.mpr ⟨h.timely, List.forall_mem_singleton.mpr he.timely⟩
  clean e' he' := by
    rw [List.drop_append] at he'
    rcases List.mem_append.mp he' with he' | he'
    · exact h.clean e' he'
    · rw [List.mem_singleton.mp (List.mem_of_mem_drop he')]
      exact he.clean

/-! ### The host starts -/

/-- The settings in the files were in force, or the grants are not under them. -/
lemma reload (hscope : Function.Injective setup.scope) {config : Config R}
    {options : AuthOptions R} (hattempts : s.attempts = [])
    (hload : (Host.inMemory setup { s with config := config, options := options }).effective =
      (s.onDisk setup).effective) :
    (s.setMemory setup config options).Inv setup ban n := by
  by_cases hsame : (s.inMemory setup).effective = (s.onDisk setup).effective
  · exact h.setMemory_of_eq (hload.trans hsame.symm)
  have hnot : s.returned = false → ∀ g ∈ s.disk.grants,
      ¬Host.InForce setup { s with config := config, options := options } g := by
    intro hr g hg hforce
    rw [Host.InForce, hload] at hforce
    refine ((h.grants g hg).stale hr _ hforce fun hold => hsame ?_).file rfl
    exact hscope (Option.some.inj (hold.symm.trans hforce))
  exact
    { h with
      grants := fun g hg =>
        { h.grants g hg with
          epoch := fun hr hforce => absurd hforce (hnot hr g hg)
          legacy := fun hr _ hforce => absurd hforce (hnot hr g hg)
          stale := fun _ scope hsome hnot => by
            refine ⟨fun hfile => hnot ?_, congrArg Effective.totp hload,
              congrArg Effective.enabled hload⟩
            exact hsome.trans (congrArg some (hfile.trans (congrArg setup.scope hload.symm)))
          tickets := fun a ha => by
            have hmem : a ∈ s.attempts := ha
            rw [hattempts] at hmem
            cases hmem }
      legacy := fun hlegacy hd => absurd (h.legacy hlegacy hd).2 hsame }

end Host.Inv

end RustDesk.TrustedDevices
