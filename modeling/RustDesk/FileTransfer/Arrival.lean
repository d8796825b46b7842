import RustDesk.FileTransfer.Receive

/-!
# Receiving a job

The files of a job arrive one after the other. A file is put in its place when the next one is
announced or begun, or at the end; until then the ones before are complete and of the ones after
there is nothing. Each file only touches its own places, so the others stay as they are.
-/

namespace RustDesk.FileTransfer

open Prog

/-- Nothing is at the places of a file. -/
structure Blank (disk : Disk) (target : Path) : Prop where
  absent : disk.entry (place target) = none
  staging : disk.entry (place (staging target)) = none
  digest : disk.entry (place (digestFile target)) = none

/-- The file has the bytes of its source, and nothing is beside it. -/
structure Arrived (disk : Disk) (target : Path) (source : Bytes) : Prop where
  file : ∃ i, disk.entry (place target) = some (.file i) ∧ disk.data i = some source
  staging : disk.entry (place (staging target)) = none
  digest : disk.entry (place (digestFile target)) = none

/-- No file of a job is at a place of another one. -/
def Apart (job : TransferJob) : Prop :=
  ∀ (j k : ℕ) entry other, job.files[j]? = some entry → job.files[k]? = some other → j ≠ k →
    ¬Around (job.path other) (place (job.path entry))

section Places

variable {A : Bool × List Path → Prop} {disk disk' : Disk} {target : Path} {source : Bytes}
  {job : TransferJob}

lemma Blank.same (h : Blank disk target) (hsame : FileSystem.SameOutside A disk disk')
    (hA : ∀ p, Around target p → ¬A p) : Blank disk' target :=
  ⟨(hsame.entry _ (hA _ (.inl rfl))).trans h.absent,
    (hsame.entry _ (hA _ (.inr (.inl rfl)))).trans h.staging,
    (hsame.entry _ (hA _ (.inr (.inr rfl)))).trans h.digest⟩

lemma Arrived.same (h : Arrived disk target source) (hsame : FileSystem.SameOutside A disk disk')
    (hA : ∀ p, Around target p → ¬A p) : Arrived disk' target source := by
  obtain ⟨i, hentry, hdata⟩ := h.file
  have hplace : ¬A (place target) := hA _ (.inl rfl)
  exact ⟨⟨i, (hsame.entry _ hplace).trans hentry, (hsame.data hentry hplace).trans hdata⟩,
    (hsame.entry _ (hA _ (.inr (.inl rfl)))).trans h.staging,
    (hsame.entry _ (hA _ (.inr (.inr rfl)))).trans h.digest⟩

lemma Apart.around (h : Apart job) {j k : ℕ} {entry other : FileEntry}
    (hj : job.files[j]? = some entry) (hk : job.files[k]? = some other) (hne : j ≠ k) :
    ∀ p, Around (job.path entry) p → ¬Around (job.path other) p := by
  rintro p (rfl | rfl | rfl)
  · exact h j k entry other hj hk hne
  · rintro (htarget | hstaging | hdigest)
    · exact h k j other entry hk hj hne.symm (.inr (.inl htarget.symm))
    · exact h j k entry other hj hk hne (.inl (place_of_staging hstaging))
    · exact place_staging_ne_digestFile _ _ hdigest
  · rintro (htarget | hstaging | hdigest)
    · exact h k j other entry hk hj hne.symm (.inr (.inr htarget.symm))
    · exact place_staging_ne_digestFile _ _ hstaging.symm
    · exact h j k entry other hj hk hne (.inl (place_of_digestFile hdigest))

end Places

/-! ### A job in progress -/

/-- The files before `f` are complete, and there is nothing of those after it. -/
def Others (sources : ℕ → Bytes) (f : ℕ) (m : Machine) : Prop :=
  ∀ (j : ℕ) entry, m.job.files[j]? = some entry →
    (j < f → Arrived m.disk (m.job.path entry) (sources j)) ∧
      (f < j → Blank m.disk (m.job.path entry))

/-- A download that has been told nothing, of files that do not get in each other's way. -/
structure Plain (m : Machine) : Prop where
  download : m.job.download = some none
  apart : Apart m.job

/-- No file is open, and the file `f` is next. -/
structure Settled (sources : ℕ → Bytes) (f : ℕ) (m : Machine) : Prop where
  plain : Plain m
  closed : m.job.stream = none
  others : Others sources f m
  blank : ∀ entry, m.job.files[f]? = some entry → Blank m.disk (m.job.path entry)

/-- The file `f` is open, and has the bytes `written`. -/
structure Writing (sources : ℕ → Bytes) (f : ℕ) (written : Bytes) (m : Machine) : Prop where
  plain : Plain m
  others : Others sources f m
  filling : ∃ entry i, m.job.files[f]? = some entry ∧ Filling m f (m.job.path entry) i written

/-- The file `f` is next; the one before may still be open, but is complete. -/
def Ready (sources : ℕ → Bytes) (f : ℕ) (m : Machine) : Prop :=
  Settled sources f m ∨ ∃ g, f = g + 1 ∧ Writing sources g (sources g) m

/-- The names of the files are accepted. -/
def Accepts (env : Env) (job : TransferJob) : Prop :=
  ∀ entry ∈ job.files, validatedTarget env.links job.base entry.name = some (job.path entry)

section Progress

variable {sources : ℕ → Bytes} {f i : ℕ} {m m' : Machine} {env : Env} {libs : Libs}
  {written : Bytes} {entry : FileEntry} {A : Bool × List Path → Prop} {target : Path}
  {digest : Digest} {canResume : Bool}

lemma TransferJob.file_natCast (job : TransferJob) (k : ℕ) : job.file k = job.files[k]? := by
  rw [TransferJob.file, if_pos (Int.natCast_nonneg k), Int.toNat_natCast]

lemma Within.paths (h : Within A m m') :
    m'.job.base = m.job.base ∧ m'.job.files = m.job.files ∧ m'.job.path = m.job.path := by
  obtain ⟨-, hbase, hfiles, -, hpath⟩ := TransferJob.path_congr h.fixed
  exact ⟨hbase, hfiles, hpath⟩

lemma Plain.within (h : Plain m) (hwithin : Within A m m') : Plain m' := by
  obtain ⟨-, hfiles, hpath⟩ := hwithin.paths
  refine ⟨hwithin.download.trans h.download, ?_⟩
  rw [Apart, hfiles, hpath]
  exact h.apart

lemma Others.within (h : Others sources f m) (hapart : Apart m.job)
    (hentry : m.job.files[f]? = some entry) (hwithin : Within (Around (m.job.path entry)) m m') :
    Others sources f m' := by
  obtain ⟨-, hfiles, hpath⟩ := hwithin.paths
  intro j other hj
  rw [hfiles] at hj
  rw [hpath]
  obtain ⟨hbefore, hafter⟩ := h j other hj
  refine ⟨fun hlt => ?_, fun hlt => ?_⟩
  · exact (hbefore hlt).same hwithin.disk (hapart.around hj hentry hlt.ne)
  · exact (hafter hlt).same hwithin.disk (hapart.around hj hentry hlt.ne')

lemma Placed.within (h : Placed m m' target i written) :
    Within (Around target) m m' := ⟨h.disk, by rw [h.job], by rw [h.job]⟩

lemma Writing.finished (h : Writing sources f (sources f) m) (hentry : m.job.files[f]? = some entry)
    (hplaced : Placed m m' (m.job.path entry) i (sources f)) :
    Settled sources (f + 1) (m'.withStream none) := by
  have hothers : Others sources f m' := h.others.within h.plain.apart hentry hplaced.within
  have hplain : Plain m' := h.plain.within hplaced.within
  refine ⟨⟨hplain.download, hplain.apart⟩, rfl, fun j other hj => ?_, fun other hnext => ?_⟩
  · obtain ⟨hbefore, hafter⟩ := hothers j other hj
    refine ⟨fun hlt => ?_, fun hlt => hafter (Nat.lt_of_succ_lt hlt)⟩
    rcases Nat.lt_succ_iff_lt_or_eq.mp hlt with hlt | rfl
    · exact hbefore hlt
    · have hj : m.job.files[j]? = some other := hplaced.job ▸ hj
      cases hentry.symm.trans hj
      have harrived : Arrived m'.disk (m.job.path entry) (sources j) :=
        ⟨⟨i, hplaced.entry, hplaced.data⟩, hplaced.staging, hplaced.digest⟩
      rw [← hplaced.job] at harrived
      exact harrived
  · exact (hothers (f + 1) other hnext).2 (Nat.lt_succ_self f)

lemma Plain.isDownload (h : Plain m) : m.job.isDownload := by
  rw [TransferJob.isDownload, h.download]
  rfl

lemma Ready.not_open (h : Ready sources f m) : (f : ℤ) ≠ m.job.fileNum ∨ m.job.stream.isNone := by
  rcases h with hsettled | ⟨g, rfl, hwriting⟩
  · exact .inr (Option.isNone_iff_eq_none.mpr hsettled.closed)
  · obtain ⟨_, _, _, hfilling⟩ := hwriting.filling
    refine .inl ?_
    rw [hfilling.num, Nat.cast_succ]
    exact (lt_add_one (g : ℤ)).ne'

lemma Ready.setDigest (h : Ready sources f m) (digest : Digest) :
    Ready sources f (m.setDigest digest) := by
  rcases h with hsettled | ⟨g, rfl, hwriting⟩
  · exact .inl ⟨⟨hsettled.plain.download, hsettled.plain.apart⟩, hsettled.closed, hsettled.others,
      hsettled.blank⟩
  · obtain ⟨entry, i, hentry, hfilling⟩ := hwriting.filling
    refine .inr ⟨g, rfl, ⟨hwriting.plain.download, hwriting.plain.apart⟩, hwriting.others, entry, i,
      hentry, ?_⟩
    exact ⟨hfilling.num, hfilling.stream, hfilling.sole, hfilling.data, hfilling.absent,
      hfilling.digest⟩

/-- So far the bytes `written` of the file `f` have come. -/
def Before (sources : ℕ → Bytes) (f : ℕ) (written : Bytes) (m : Machine) : Prop :=
  written = [] ∧ Ready sources f m ∨ Writing sources f written m

lemma isWriteNeedConfirmation_blank {isResume : Bool} (h : Blank m.disk target) :
    wp (isWriteNeedConfirmation libs env isResume target digest)
      (fun result m' => result = .noSuchFile ∧ m' = m) (fun _ _ => False) m := by
  have hbefore : transferredBefore libs env m target digest = none := by
    simp [transferredBefore, Machine.exists_, FileSystem.contains, h.staging]
  have hthere : m.exists_ env target = false := by
    simp [Machine.exists_, FileSystem.contains, h.absent]
  rw [isWriteNeedConfirmation, wp_bind, wp_get, hbefore, ite_self, hthere]
  exact ⟨rfl, rfl⟩

section

variable (hquiet : ∀ c, c ∉ env.fails) (haccepts : Accepts env m.job)

include haccepts in
lemma Settled.next (h : Settled sources f m') (hfixed : m'.job.fixed = m.job.fixed)
    (hentry : m.job.files[f]? = some entry) :
    m'.job.files[f]? = some entry ∧ Blank m'.disk (m'.job.path entry) ∧
      validatedTarget env.links m'.job.base entry.name = some (m'.job.path entry) := by
  obtain ⟨-, hbase, hfiles, -, hpath⟩ := TransferJob.path_congr hfixed
  have hentry' : m'.job.files[f]? = some entry := hfiles ▸ hentry
  refine ⟨hentry', h.blank entry hentry', ?_⟩
  rw [hbase, hpath]
  exact haccepts entry (List.mem_of_getElem? hentry)

include hquiet

lemma canResumeAt_quiet :
    wp (canResumeAt env canResume target) (fun _ m' => m' = m) (fun _ _ => False) m := by
  rw [canResumeAt, wp_bind, wp_get]
  split_ifs
  · rw [wp_bind, wp_tryExists]
    exact ⟨fun _ => rfl, hquiet _⟩
  · exact rfl

include haccepts

lemma finishDownload_ready (h : Ready sources f m) :
    wp (finishDownload env)
      (fun _ m' => Settled sources f (m'.withStream none) ∧ m'.job.fixed = m.job.fixed)
      (fun _ _ => False) m := by
  rcases h with hsettled | ⟨g, rfl, hwriting⟩
  · refine wp_mono (finishDownload_closed hsettled.plain.isDownload hsettled.closed) ?_
      fun _ _ => id
    rintro _ _ rfl
    exact ⟨⟨⟨hsettled.plain.download, hsettled.plain.apart⟩, rfl, hsettled.others, hsettled.blank⟩,
      rfl⟩
  · obtain ⟨entry, i, hentry, hfilling⟩ := hwriting.filling
    refine wp_mono (finishDownload_filling hquiet hwriting.plain.isDownload hfilling
      ((m.job.file_natCast g).trans hentry) (haccepts entry (List.mem_of_getElem? hentry))) ?_
      fun _ _ => id
    intro _ m' hplaced
    exact ⟨hwriting.finished hentry hplaced, by rw [hplaced.job]⟩

lemma closeDownload_ready (h : Ready sources f m) :
    wp (closeDownload env) (fun _ m' => Settled sources f m' ∧ m'.job.fixed = m.job.fixed)
      (fun _ _ => False) m := by
  rw [closeDownload, wp_finally]
  exact finishDownload_ready hquiet haccepts h

variable (hentry : m.job.files[f]? = some entry)

include hentry

lemma startDownloadFile_ready (h : Ready sources f m) : wp (startDownloadFile libs env f)
      (fun _ m' => (Writing sources f [] m' ∧ m'.job.fixed = m.job.fixed) ∧
        ∃ i, Filling m' f (m.job.path entry) i []) (fun _ _ => False) m := by
  rw [startDownloadFile, wp_bind]
  refine wp_mono (closeDownload_ready hquiet haccepts h) ?_ fun _ _ => id
  rintro - m₁ ⟨hsettled, hfixed⟩
  obtain ⟨-, -, -, -, hpath⟩ := TransferJob.path_congr hfixed
  obtain ⟨hentry, hblank, haccepts⟩ := hsettled.next haccepts hfixed hentry
  have hconfirmed : m₁.job.confirmationOffset f = none := by
    rw [TransferJob.confirmationOffset, hsettled.plain.download]
  rw [wp_bind]
  refine wp_downloadTarget_some ((m₁.job.file_natCast f).trans hentry) haccepts ?_
  rw [wp_bind, wp_get, wp_bind]
  refine wp_anyExists (fun _ _ hfail => hquiet _ hfail) ?_
  rw [wp_bind, wp_check, hconfirmed]
  have hnone : ([m₁.job.path entry, staging (m₁.job.path entry),
      digestFile (m₁.job.path entry)].any fun path => m₁.disk.contains (place path)) = false := by
    simp [FileSystem.contains, hblank.absent, hblank.staging, hblank.digest]
  refine ⟨fun _ => ?_, fun hnot => hnot (by rw [hnone]; rfl)⟩
  refine wp_mono (createStaging_filling hquiet hblank.absent ?_ ?_) ?_ fun _ _ => id
  · rw [hblank.staging]
    exact Option.some_ne_none _ |>.symm
  · rw [hblank.digest]
    exact Option.some_ne_none _ |>.symm
  rintro _ m' ⟨i, hfilling, hwithin⟩
  obtain ⟨-, hfiles', hpath'⟩ := hwithin.paths
  refine ⟨⟨⟨hsettled.plain.within hwithin, ?_, entry, i, hfiles' ▸ hentry, ?_⟩,
    hwithin.fixed.trans hfixed⟩, i, hpath ▸ hfilling⟩
  · exact hsettled.others.within hsettled.plain.apart hentry hwithin
  · rw [hpath']
    exact hfilling

lemma writeDownload_before {block : Block} (h : Before sources f written m)
    (hid : block.id = m.job.id) (hnum : block.fileNum = f) : wp (writeDownload libs env block)
      (fun _ m' => Writing sources f (written ++ block.unpack libs) m' ∧
        m'.job.fixed = m.job.fixed) (fun _ _ => False) m := by
  have hfile : m.job.file block.fileNum = some entry := by
    rw [hnum, TransferJob.file_natCast]
    exact hentry
  have hopen : wp (writeDownload libs env block)
      (fun _ m' => ∃ m₁ i, (Writing sources f written m₁ ∧ m₁.job.fixed = m.job.fixed) ∧
        Within (Around (m.job.path entry)) m₁ m' ∧
        Filling m' block.fileNum (m.job.path entry) i (written ++ block.unpack libs))
      (fun _ _ => False) m := by
    apply writeDownload_filling hquiet hid hfile
    · intro hclosed
      rcases h with ⟨rfl, hready⟩ | hwriting
      · rw [hnum]
        exact startDownloadFile_ready hquiet haccepts hentry hready
      · obtain ⟨_, i, _, hfilling⟩ := hwriting.filling
        rw [hnum, hfilling.num, hfilling.stream] at hclosed
        simp at hclosed
    · intro hgoing
      rcases h with ⟨rfl, hready⟩ | hwriting
      · exact absurd (hnum ▸ hready.not_open) hgoing
      · obtain ⟨entry', i, hentry', hfilling⟩ := hwriting.filling
        cases hentry.symm.trans hentry'
        rw [hnum]
        exact ⟨⟨hwriting, rfl⟩, i, hfilling⟩
  refine wp_mono hopen ?_ fun _ _ => id
  rintro - m' ⟨m₁, i, ⟨hwriting, hfixed⟩, hwithin, hfilling⟩
  obtain ⟨-, -, hfiles, -, hpath⟩ := TransferJob.path_congr hfixed
  obtain ⟨-, hfiles', hpath'⟩ := hwithin.paths
  rw [← hfiles] at hentry
  rw [← hpath] at hwithin hfilling
  refine ⟨⟨hwriting.plain.within hwithin, ?_, entry, i, hfiles' ▸ hentry, ?_⟩,
    hwithin.fixed.trans hfixed⟩
  · exact hwriting.others.within hwriting.plain.apart hentry hwithin
  · rw [hpath', ← hnum]
    exact hfilling

/-- The digest of the next file finishes the one before, and finds that there is no such file. -/
lemma downloadDigest_ready (h : Ready sources f m) (hnum : digest.fileNum = f) :
    wp (downloadDigest libs env canResume digest)
      (fun result m' => result = .noSuchFile ∧ Settled sources f m' ∧ m'.job.fixed = m.job.fixed)
      (fun _ _ => False) m := by
  rw [downloadDigest, wp_bind, wp_get, wp_bind]
  have hclose : wp (whenever (m.job.fileNum ≠ digest.fileNum && m.job.stream.isSome)
      (closeDownload env)) (fun _ m' => Settled sources f m' ∧ m'.job.fixed = m.job.fixed)
      (fun _ _ => False) m := by
    rw [wp_whenever]
    refine ⟨fun _ => closeDownload_ready hquiet haccepts h, fun hnot => ?_⟩
    rcases h with hsettled | ⟨g, rfl, hwriting⟩
    · exact ⟨hsettled, rfl⟩
    · -- the file before has another number
      obtain ⟨_, _, _, hfilling⟩ := hwriting.filling
      refine absurd ?_ hnot
      rw [hnum, hfilling.num, hfilling.stream]
      simp
  refine wp_mono hclose ?_ fun _ _ => id
  rintro - m' ⟨hsettled, hfixed⟩
  obtain ⟨hentry, hblank, haccepts⟩ := hsettled.next haccepts hfixed hentry
  have hnone : ([staging (m'.job.path entry), digestFile (m'.job.path entry)].any fun path =>
      m'.disk.contains (place path)) = false := by
    simp [FileSystem.contains, hblank.staging, hblank.digest]
  rw [wp_bind, hnum]
  refine wp_downloadTarget_some ((m'.job.file_natCast f).trans hentry) haccepts ?_
  rw [wp_bind]
  refine wp_mono (canResumeAt_quiet hquiet) ?_ fun _ _ => id
  rintro resume _ rfl
  rw [wp_bind]
  refine wp_mono (isWriteNeedConfirmation_blank hblank) ?_ fun _ _ => id
  rintro _ _ ⟨rfl, rfl⟩
  rw [if_pos rfl, wp_bind]
  refine wp_anyExists (fun _ _ hfail => hquiet _ hfail) ?_
  rw [hnone]
  exact ⟨rfl, hsettled, hfixed⟩

end

end Progress

end RustDesk.FileTransfer
