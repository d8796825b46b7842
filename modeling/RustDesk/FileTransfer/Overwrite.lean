import RustDesk.FileTransfer.Download
import RustDesk.Lib.Transition

/-!
# What a download may overwrite

The host that is downloaded from chooses the files, the blocks and the digests, and their order. The
file that is in the place of an entry is replaced only while the entry is current and the last
confirmation is for it, from its start. Everything else a message can touch are the staging files
and digests of the current entry and of the one it names: the stream writes to a file that has the
name of a staging file, and no other.
-/

namespace RustDesk.FileTransfer

open Prog

variable {m : Machine}

/-! ### The stream -/

/-- An open stream is the staging file of the current entry, and that is the only name of the
file. -/
structure Staged (m : Machine) : Prop where
  download : m.job.isDownload
  sole : ∀ stream, m.job.stream = some stream → ∃ entry, m.job.file m.job.fileNum = some entry ∧
    m.disk.Sole (place (staging (m.job.path entry))) stream.ino

/-- The staging file and the digest of an entry are in `A`. -/
def Covers (A : Bool × List Path → Prop) (job : TransferJob) (k : ℤ) : Prop :=
  ∀ entry, job.file k = some entry →
    A (place (staging (job.path entry))) ∧ A (place (digestFile (job.path entry)))

/-- So is the entry itself, once it has been confirmed from its start. -/
def MayReplace (A : Bool × List Path → Prop) (job : TransferJob) (k : ℤ) : Prop :=
  ∀ entry, job.file k = some entry → job.confirmationOffset k = some 0 → A (place (job.path entry))

/-- What a program leaves: the files that are not in `A`, what the job was made with, and the last
confirmation. The entry that is current then is one whose files are in `A`. -/
structure Kept (A : Bool × List Path → Prop) (m m' : Machine) : Prop where
  untouched : FileSystem.Untouched A m.disk m'.disk
  fixed : m'.job.fixed = m.job.fixed
  download : m'.job.download = m.job.download
  staged : Staged m'
  covers : Covers A m'.job m'.job.fileNum

/-- The files of the current entry are in `A`, and the entry too once that is confirmed. -/
structure Ranges (A : Bool × List Path → Prop) (m : Machine) : Prop where
  staged : Staged m
  covers : Covers A m.job m.job.fileNum
  replace : MayReplace A m.job m.job.fileNum

/-- What finishing a file leaves: the job, and the files that are not in `A`. -/
structure FinishKept (A : Bool × List Path → Prop) (m m' : Machine) : Prop where
  untouched : FileSystem.Untouched A m.disk m'.disk
  job : m'.job = m.job

section Programs

variable {A : Bool × List Path → Prop} {env : Env} {libs : Libs} {k : ℤ} {m' m'' : Machine}
  {target path : Path} {entry : FileEntry} {digest : Digest} {canResume : Bool}

lemma wp_downloadTarget {Q : Path → Machine → Prop} {R : Error → Machine → Prop}
    (hnum : m.job.file k = none → R .wrongFileNumber m)
    (hname : R .invalidName m)
    (hdone : ∀ entry, m.job.file k = some entry → Q (m.job.path entry) m) :
    wp (downloadTarget env k) Q R m := by
  simp only [downloadTarget, wp_bind, wp_get, wp_require]
  refine ⟨fun entry hfile => ⟨fun path hpath => ?_, fun _ => hname⟩, hnum⟩
  rw [path_of_validatedTarget hpath]
  exact hdone entry hfile

/-- Only the files of the current entry are touched when it is put in its place, and what is there
only if that was confirmed. -/
lemma putInPlace_kept (h : Ranges A m) (hstream : m.job.stream.isSome) :
    wp (putInPlace env) (fun _ => FinishKept A m) (fun _ => FinishKept A m) m := by
  obtain ⟨stream, hstream⟩ := Option.isSome_iff_exists.mp hstream
  obtain ⟨entry, hfile, hsole⟩ := h.staged.sole stream hstream
  obtain ⟨hstaging, hdigest⟩ := h.covers entry hfile
  have hnone : FinishKept A m m := ⟨.refl _, rfl⟩
  simp only [putInPlace, wp_bind, wp_get]
  refine wp_downloadTarget (fun _ => hnone) hnone fun entry' hfile' => ?_
  cases hfile.symm.trans hfile'
  simp only [wp_tryExists, wp_check]
  refine ⟨fun _ => ⟨fun hcheck => ?_, fun _ => hnone⟩, fun _ => hnone⟩
  have htarget : ∀ i, m.disk.entry (place (m.job.path entry)) = some (.file i) →
      A (place (m.job.path entry)) := by
    intro i hi
    apply h.replace entry hfile
    have hthere : m.disk.contains (place (m.job.path entry)) := by
      rw [FileSystem.contains, hi]
      rfl
    simpa [hthere] using hcheck
  refine wp_renameStaging (fun _ => hnone) fun i disk _ hi hrename => ?_
  have hrenamed : FileSystem.Untouched A m.disk disk := .rename hrename hstaging htarget
  refine wp_removeIfExists (fun _ => ⟨hrenamed, rfl⟩) fun disk' hlost => ?_
  have hremoved : FileSystem.Untouched A m.disk disk' := hrenamed.trans (.lost hlost hdigest)
  simp only [wp_require]
  refine ⟨fun entry' _ => ?_, fun _ => ⟨hremoved, rfl⟩⟩
  refine wp_setFileMtime (fun _ => ⟨hremoved, rfl⟩) fun disk'' hset => ⟨?_, rfl⟩
  -- the file whose time is set is the one the stream has written
  obtain ⟨j, hj, rfl⟩ := FileSystem.setMtime_eq_some hset
  obtain ⟨i', hi', -, -, hnew, -, -⟩ := FileSystem.rename_eq_some hrename
  have hij : j = stream.ino := by
    cases hi'.symm.trans hsole.1
    rw [Machine.withDisk_disk, hlost.other _ (place_digestFile_ne _).symm] at hj
    cases hnew.symm.trans hj
    rfl
  refine hremoved.modify fun p hp => ?_
  rw [hsole.2 p (hij ▸ hp)]
  exact hstaging

lemma finishDownload_kept (h : Ranges A m) :
    wp (finishDownload env) (fun _ => FinishKept A m) (fun _ => FinishKept A m) m := by
  simp only [finishDownload, wp_bind, wp_get, if_pos h.staged.download, wp_whenever]
  exact ⟨putInPlace_kept h, fun _ => ⟨.refl _, rfl⟩⟩

lemma Staged.closed (h : Staged m) (hjob : m'.job.download = m.job.download)
    (hstream : m'.job.stream = none) : Staged m' := by
  refine ⟨?_, fun stream hsome => ?_⟩
  · rw [TransferJob.isDownload, hjob]
    exact h.download
  · rw [hstream] at hsome
    cases hsome

lemma closeDownload_kept (h : Ranges A m) :
    wp (closeDownload env) (fun _ m' => Kept A m m' ∧ m'.job = { m.job with stream := none })
      (fun _ m' => Kept A m m' ∧ m'.job = { m.job with stream := none }) m := by
  rw [closeDownload, wp_finally]
  have hclosed : ∀ m', FinishKept A m m' → Kept A m (m'.withStream none) ∧
      (m'.withStream none).job = { m.job with stream := none } := by
    intro m' hm
    have hjob : (m'.withStream none).job = { m.job with stream := none } := by
      rw [← hm.job]
      rfl
    refine ⟨⟨hm.untouched, ?_, ?_, h.staged.closed ?_ rfl, ?_⟩, hjob⟩
    · rw [hjob]
      rfl
    · rw [hjob]
    · rw [hjob]
    · rw [hjob]
      exact h.covers
  exact wp_mono (finishDownload_kept h) (fun _ => hclosed) (fun _ => hclosed)

lemma Kept.trans (h : Kept A m m') (h' : Kept A m' m'') : Kept A m m'' :=
  ⟨h.untouched.trans h'.untouched, h'.fixed.trans h.fixed, h'.download.trans h.download, h'.staged,
    h'.covers⟩

lemma Ranges.kept (h : Ranges A m) : Kept A m m := ⟨.refl _, rfl, rfl, h.staged, h.covers⟩

lemma Kept.withDisk {disk : Disk} (h : Kept A m m') (hdisk : FileSystem.Untouched A m'.disk disk)
    (hsole : ∀ path i, m'.disk.Sole (place (staging path)) i → disk.Sole (place (staging path)) i) :
    Kept A m (m'.withDisk disk) := by
  refine ⟨h.untouched.trans hdisk, h.fixed, h.download, ⟨h.staged.download, ?_⟩, h.covers⟩
  intro stream hstream
  obtain ⟨entry, hfile, hstaged⟩ := h.staged.sole stream hstream
  exact ⟨entry, hfile, hsole _ _ hstaged⟩

lemma recordDigest_kept (h : Kept A m m') (hA : A (place (digestFile target))) :
    wp (recordDigest libs env target) (fun _ => Kept A m) (fun _ => Kept A m) m' := by
  have hne : ∀ path, place (staging path) ≠ place (digestFile target) :=
    fun path => place_staging_ne_digestFile path target
  simp only [recordDigest, wp_bind, wp_call, wp_modify]
  refine wp_removeIfExists (fun _ => h) fun disk hlost => ?_
  have hremoved := h.withDisk (.lost hlost hA) fun path _ hsole => hsole.lost hlost (hne path)
  refine wp_createNewFile (fun _ => hremoved) fun hnone => ?_
  have hsole : ∀ path i, disk.Sole (place (staging path)) i →
      (disk.addFile (place (digestFile target))).Sole (place (staging path)) i :=
    fun path _ hsole => hsole.addFile (hne path)
  have hadded := hremoved.withDisk (.addFile hnone) hsole
  -- the new file had no name before
  have hwritten : Kept A m ((m'.withDisk disk).withDisk ((disk.addFile
      (place (digestFile target))).writeAt disk.nodes.length 0 (libs.toJson m'.job.digest))) := by
    refine hremoved.withDisk ?_ hsole
    exact (FileSystem.Untouched.addFile hnone).modify fun p hp =>
      absurd (FileSystem.lt_of_entry hp) (lt_irrefl _)
  exact ⟨fun _ => ⟨fun _ => hwritten, fun _ => hwritten⟩, fun _ => hadded⟩

lemma Covers.congr {job job' : TransferJob} (h : Covers A job k) (hfixed : job'.fixed = job.fixed) :
    Covers A job' k := by
  obtain ⟨-, -, -, hfiles, hpath⟩ := TransferJob.path_congr hfixed
  rw [Covers, hfiles, hpath]
  exact h

section

variable (hcovers : Covers A m.job k)

include hcovers

lemma Kept.opened {i pos : ℕ} (h : Kept A m m) (hdisk : FileSystem.Untouched A m.disk m'.disk)
    (hfile : m.job.file k = some entry)
    (hsole : m'.disk.Sole (place (staging (m.job.path entry))) i)
    (hfixed : m'.job.fixed = m.job.fixed) (hdownload : m'.job.download = m.job.download)
    (hnum : m'.job.fileNum = k) (hopen : m'.job.stream = some ⟨i, pos, .write, false⟩) :
    Kept A m m' := by
  obtain ⟨-, -, -, hfiles, hpath⟩ := TransferJob.path_congr hfixed
  refine ⟨hdisk, hfixed, hdownload, ⟨?_, fun stream hstream => ?_⟩, hnum ▸ hcovers.congr hfixed⟩
  · rw [TransferJob.isDownload, hdownload]
    exact h.staged.download
  · cases hopen.symm.trans hstream
    rw [hnum, hfiles, hpath]
    exact ⟨entry, hfile, hsole⟩

lemma createStaging_kept (h : Kept A m m) (hstream : m.job.stream = none)
    (hfile : m.job.file k = some entry) :
    wp (createStaging libs env k (m.job.path entry)) (fun _ => Kept A m) (fun _ => Kept A m)
      m := by
  obtain ⟨hstaging, hdigest⟩ := hcovers entry hfile
  simp only [createStaging, wp_bind, wp_call, wp_modify]
  refine ⟨fun _ => ?_, fun _ => h⟩
  refine wp_removeIfExists (fun _ => h) fun disk hlost => ?_
  have hremoved : FileSystem.Untouched A m.disk disk := .lost hlost hstaging
  refine wp_createNewFile (fun _ => ⟨hremoved, rfl, rfl, h.staged.closed rfl hstream, h.covers⟩)
    fun hnone => ?_
  apply recordDigest_kept _ hdigest
  exact .opened hcovers h (hremoved.trans (.addFile hnone)) hfile (FileSystem.sole_addFile _)
    rfl rfl rfl rfl

/-- A staging file that is gone on with has no other name. -/
lemma resumeDownload_kept (hrefl : Kept A m m) {offset : UInt32} :
    wp (resumeDownload env k offset) (fun _ => Kept A m) (fun _ => Kept A m) m := by
  simp only [resumeDownload, wp_bind]
  refine wp_downloadTarget (fun _ => hrefl) hrefl fun entry hfile => ?_
  simp only [wp_tryExists, wp_check, wp_call, wp_get, wp_require, wp_modify,
    decide_eq_true_eq]
  refine ⟨fun _ => ⟨fun _ => ?_, fun _ => hrefl⟩, fun _ => hrefl⟩
  refine ⟨fun _ => ⟨fun _ _ => ⟨fun _ => ?_, fun _ => hrefl⟩, fun _ => hrefl⟩, fun _ => hrefl⟩
  refine ⟨fun _ => ⟨fun i hino => ⟨fun _ => ?_, fun _ => hrefl⟩, fun _ => hrefl⟩, fun _ => hrefl⟩
  refine ⟨fun hlinks => ⟨fun _ => ⟨fun _ => ?_, fun _ => hrefl⟩, fun _ => hrefl⟩, fun _ => hrefl⟩
  have hsole := FileSystem.sole_of_links hlinks (FileSystem.entry_of_ino hino)
  exact .opened hcovers hrefl (.refl _) hfile hsole rfl rfl rfl rfl

lemma startDownloadFile_kept (h : Ranges A m) :
    wp (startDownloadFile libs env k) (fun _ => Kept A m) (fun _ => Kept A m) m := by
  rw [startDownloadFile, wp_bind]
  refine wp_mono (closeDownload_kept h) ?_ fun _ _ hclosed => hclosed.1
  rintro - m' ⟨hkept, hjob⟩
  rw [wp_bind]
  refine wp_downloadTarget (fun _ => hkept) hkept fun entry hfile => ?_
  rw [wp_bind, wp_get, wp_bind]
  refine wp_anyExists (fun _ _ _ => hkept) ?_
  rw [wp_bind, wp_check]
  refine ⟨fun _ => ?_, fun _ => hkept⟩
  have htrans : ∀ m'', Kept A m' m'' → Kept A m m'' := fun _ => hkept.trans
  have hcovers' := hcovers.congr hkept.fixed
  have hrefl : Kept A m' m' := ⟨.refl _, rfl, rfl, hkept.staged, hkept.covers⟩
  split
  · exact wp_mono (resumeDownload_kept hcovers' hrefl) (fun _ => htrans) (fun _ => htrans)
  · have hstream : m'.job.stream = none := by rw [hjob]
    exact wp_mono (createStaging_kept hcovers' hrefl hstream hfile) (fun _ => htrans)
      (fun _ => htrans)

end

/-- Counters and the trace do not matter. -/
lemma Kept.of_eq (h : Kept A m m') (hdisk : m''.disk = m'.disk)
    (hjob : (m''.job.fixed, m''.job.download, m''.job.fileNum, m''.job.stream) =
      (m'.job.fixed, m'.job.download, m'.job.fileNum, m'.job.stream)) :
    Kept A m m'' := by
  simp only [Prod.mk.injEq] at hjob
  obtain ⟨hfixed, hdownload, hnum, hstream⟩ := hjob
  obtain ⟨-, -, -, hfiles, hpath⟩ := TransferJob.path_congr hfixed
  refine ⟨hdisk ▸ h.untouched, hfixed.trans h.fixed, hdownload.trans h.download, ⟨?_, ?_⟩,
    hnum ▸ h.covers.congr hfixed⟩
  · rw [TransferJob.isDownload, hdownload]
    exact h.staged.download
  · rw [hstream, hnum, hfiles, hpath, hdisk]
    exact h.staged.sole

/-- What is written goes to the staging file of the current entry. -/
lemma Kept.wrote (h : Kept A m m') {stream : Stream} (hstream : m'.job.stream = some stream)
    (bytes : Bytes) : Kept A m (m'.wrote stream bytes) := by
  obtain ⟨entry, hfile, hsole⟩ := h.staged.sole stream hstream
  refine ⟨?_, h.fixed, h.download, ⟨h.staged.download, ?_⟩, h.covers⟩
  · refine h.untouched.trans (.modify (.refl _) fun p hp => ?_)
    rw [hsole.2 p hp]
    exact (h.covers entry hfile).1
  · intro stream' hstream'
    cases hstream'
    exact ⟨entry, hfile, hsole⟩

lemma Kept.writeAll (h : Kept A m m') (bytes : Bytes) :
    wp (writeAll env bytes) (fun _ => Kept A m) (fun _ => Kept A m) m' := by
  refine wp_writeAll (fun _ => h) (fun _ _ _ => h) (fun stream hstream _ => ?_)
    fun stream hstream _ => ?_
  · exact h.wrote hstream _
  · exact h.wrote hstream bytes

lemma writeDownload_kept {block : Block} (h : Ranges A m)
    (hcovers : Covers A m.job block.fileNum) :
    wp (writeDownload libs env block) (fun _ => Kept A m) (fun _ => Kept A m) m := by
  have hwrite : ∀ m', Kept A m m' → wp (do
      writeAll env (block.unpack libs)
      call env .flush
      modify (·.counted (block.unpack libs).length block.data.length) : M Unit)
      (fun _ => Kept A m) (fun _ => Kept A m) m' := by
    intro m' hkept
    rw [wp_bind]
    refine wp_mono (hkept.writeAll _) (fun _ m'' hkept' => ?_) fun _ _ hkept' => hkept'
    simp only [wp_bind, wp_call, wp_modify]
    exact ⟨fun _ => hkept'.of_eq rfl rfl, fun _ => hkept'⟩
  rw [writeDownload]
  simp only [wp_bind, wp_get, wp_check, wp_whenever] at hwrite ⊢
  refine ⟨fun _ => ⟨fun _ => ⟨fun _ => ?_, fun _ => hwrite m h.kept⟩, fun _ => h.kept⟩,
    fun _ => h.kept⟩
  exact wp_mono (startDownloadFile_kept hcovers h) (fun _ => hwrite) fun _ _ hkept => hkept

lemma isWriteNeedConfirmation_kept {isResume : Bool} (h : Kept A m m')
    {Q : DigestCheckResult → Machine → Prop} (hQ : ∀ result, Q result m') :
    wp (isWriteNeedConfirmation libs env isResume path digest) Q (fun _ => Kept A m) m' := by
  rw [isWriteNeedConfirmation, wp_bind, wp_get]
  split
  · exact hQ _
  · split
    · exact hQ _
    · rw [wp_bind, wp_call]
      exact ⟨fun _ => hQ _, fun _ => h⟩

lemma canResumeAt_kept (h : Kept A m m') {Q : Bool → Machine → Prop} (hQ : ∀ resume, Q resume m') :
    wp (canResumeAt env canResume target) Q (fun _ => Kept A m) m' := by
  rw [canResumeAt, wp_bind, wp_get]
  split_ifs
  · rw [wp_bind, wp_tryExists]
    exact ⟨fun _ => hQ _, fun _ => h⟩
  · exact hQ _

lemma downloadDigest_kept (h : Ranges A m) :
    wp (downloadDigest libs env canResume digest) (fun _ => Kept A m) (fun _ => Kept A m)
      m := by
  rw [downloadDigest, wp_bind, wp_get, wp_bind, wp_whenever]
  -- what follows only looks
  have hcheck : ∀ m', Kept A m m' → wp (do
      let target ← downloadTarget env digest.fileNum
      let resume ← canResumeAt env canResume target
      let result ← isWriteNeedConfirmation libs env resume target digest
      if result = .noSuchFile then
        let left ← anyExists env [staging target, digestFile target]
        return if left then .needConfirm { id := digest.id, fileNum := digest.fileNum } else result
      else return result : M DigestCheckResult) (fun _ => Kept A m) (fun _ => Kept A m) m' := by
    intro m' hkept
    rw [wp_bind]
    refine wp_downloadTarget (fun _ => hkept) hkept fun entry hfile => ?_
    rw [wp_bind]
    refine canResumeAt_kept hkept fun resume => ?_
    rw [wp_bind]
    refine isWriteNeedConfirmation_kept hkept fun result => ?_
    split_ifs
    · rw [wp_bind]
      exact wp_anyExists (fun _ _ _ => hkept) hkept
    · exact hkept
  refine ⟨fun _ => ?_, fun _ => hcheck m h.kept⟩
  exact wp_mono (closeDownload_kept h) (fun _ m' hclosed => hcheck m' hclosed.1)
    fun _ _ hclosed => hclosed.1

lemma keeps_removeFile (hA : A (place path)) (disk : Disk) :
    Prog.Keeps (fun m => FileSystem.Untouched A disk m.disk) (removeFile env path) := by
  intro m h
  refine wp_removeFile (fun _ => h) fun disk' hremove => ?_
  obtain ⟨-, rfl⟩ := FileSystem.remove_eq_some hremove
  exact h.trans (.lost (FileSystem.lost_erase _) hA)

lemma removeDownloadFile_untouched (h : Kept A m m') :
    FileSystem.Untouched A m.disk ((removeDownloadFile env).after m').disk := by
  refine wp_iff_after (P := fun m'' : Machine => FileSystem.Untouched A m.disk m''.disk).mp ?_
  simp only [removeDownloadFile, wp_bind, wp_get, wp_whenever, wp_onSome]
  refine ⟨fun _ => ⟨fun entry hfile => ⟨fun path hpath => ?_, fun _ => h.untouched⟩,
    fun _ => h.untouched⟩, fun _ => h.untouched⟩
  rw [TransferJob.resolveEntryPath, if_pos h.staged.download] at hpath
  obtain ⟨hstaging, hdigest⟩ := h.covers entry hfile
  rw [path_of_validatedTarget hpath]
  rw [← wp_bind]
  exact (keeps_removeFile hstaging m.disk).ignore.bind
    (fun _ => (keeps_removeFile hdigest m.disk).ignore) m' h.untouched

end Programs

/-! ### The client -/

lemma confirm_staged (env : Env) (h : Staged m) (r : SendConfirm) :
    Staged (confirm env m r) ∧ (confirm env m r).disk = m.disk := by
  have hjob : (m.job.confirmDownload r).isDownload ∧ ∃ download,
      m.job.confirmDownload r = { m.job with download } := by
    rw [TransferJob.confirmDownload]
    split_ifs
    · exact ⟨h.download, _, rfl⟩
    · exact ⟨rfl, _, rfl⟩
  obtain ⟨hdownload, download, hdownload'⟩ := hjob
  have hrecorded : Staged (m.withJob (m.job.confirmDownload r)) := by
    refine ⟨hdownload, ?_⟩
    rw [hdownload']
    exact h.sole
  have hnot : ∀ m' : Machine, m'.job.isDownload → ¬(m'.job.isDownload && r.resumes) →
      ¬r.resumes := by
    intro m' hm' hboth hresumes
    exact hboth (by rw [hm', hresumes]; rfl)
  simp only [confirm]
  split_ifs with hresumes hnum
  · exact ⟨hrecorded, rfl⟩
  · exact ⟨hrecorded, rfl⟩
  · have hresumes := hnot _ hdownload hresumes
    rw [SendConfirm.resumes] at hresumes
    rw [confirmCurrent]
    split
    · exact ⟨hrecorded.closed rfl rfl, rfl⟩
    · exact ⟨⟨hrecorded.download, hrecorded.sole⟩, rfl⟩
    · rename_i offset hunion
      rw [hunion] at hresumes
      rw [if_neg (by simpa using hresumes)]
      exact ⟨⟨hrecorded.download, hrecorded.sole⟩, rfl⟩
    · exact ⟨hrecorded, rfl⟩

/-- A list is set when there is none, so that no stream is open. -/
lemma Staged.listed {links : List Path} {files : List FileEntry} {job : TransferJob} (h : Staged m)
    (hjob : m.job.setFiles links files = some job) : Staged (m.withJob job) := by
  rw [TransferJob.setFiles] at hjob
  split_ifs at hjob with hfull
  cases hjob
  have hfiles : m.job.files = [] := by simpa [h.download] using hfull
  refine h.closed rfl (Option.eq_none_iff_forall_ne_some.mpr fun stream hstream => ?_)
  obtain ⟨entry, hfile, -⟩ := h.sole stream hstream
  have hmem := TransferJob.mem_of_file hfile
  rw [hfiles] at hmem
  cases hmem

/-- What can happen to a download: messages of the host, which it may send at any time, and what the
user does. -/
inductive DownloadAct where
  | listing (env : Env) (files : List FileEntry)
  | digest (env : Env) (canResume : Bool) (digest : Digest)
  | block (env : Env) (block : Block)
  | done (env : Env)
  | error
  | confirm (env : Env) (r : SendConfirm)
  | remember (overwrite : Bool)
  | resume
  | cancel (env : Env)

/-- The entry a block is for. -/
def DownloadAct.fileNum : DownloadAct → Option ℤ
  | .block _ b => some b.fileNum
  | _ => none

namespace Download

def act (libs : Libs) (w : Download) : DownloadAct → Download
  | .listing env files => w.onListing env files
  | .digest env canResume digest => w.onDigest libs env canResume digest
  | .block env block => w.onBlock libs env block
  | .done env => w.onDone env
  | .error => { w with live := false }
  | .confirm env r => w.confirm env r
  | .remember overwrite =>
    { w with m := w.m.withJob { w.m.job with defaultOverwriteStrategy := some overwrite } }
  | .resume => { w with m := w.m.withJob { w.m.job with isLastJob := false, isResume := true } }
  | .cancel env => w.cancel env

/-- A job that is gone takes no part. -/
def step (libs : Libs) (w : Download) (a : DownloadAct) : Option Download :=
  if w.live then some (w.act libs a) else none

/-- Downloads as the client starts them; what is on disk is arbitrary. -/
def downloading (libs : Libs) : LTS Download DownloadAct where
  init w := w.live ∧ w.m.job.isDownload ∧ w.m.job.stream = none
  step := step libs

/-- The files a step may touch: those beside the current entry and beside the one of a block, and
the current entry itself if the last confirmation is for it, from its start. -/
def Touches (w : Download) (a : DownloadAct) (p : Bool × List Path) : Prop :=
  ∃ j entry, (w.m.job.fileNum = j ∨ a.fileNum = some j) ∧ w.m.job.file j = some entry ∧
    (p = place (staging (w.m.job.path entry)) ∨ p = place (digestFile (w.m.job.path entry)) ∨
      p = place (w.m.job.path entry) ∧ w.m.job.fileNum = j ∧ w.m.job.download = some (some (j, 0)))

variable {libs : Libs} {w w' : Download} {a : DownloadAct}

lemma covers_of_touches {k : ℤ} (hk : w.m.job.fileNum = k ∨ a.fileNum = some k) :
    Covers (w.Touches a) w.m.job k := fun entry hfile =>
  ⟨⟨k, entry, hk, hfile, .inl rfl⟩, k, entry, hk, hfile, .inr (.inl rfl)⟩

lemma mayReplace_touches : MayReplace (w.Touches a) w.m.job w.m.job.fileNum := by
  intro entry hfile hoffset
  refine ⟨w.m.job.fileNum, entry, .inl rfl, hfile, .inr (.inr ⟨rfl, rfl, ?_⟩)⟩
  rw [TransferJob.confirmationOffset] at hoffset
  split at hoffset
  · split_ifs at hoffset with hnum
    cases hoffset
    rw [← hnum]
    assumption
  · cases hoffset

/-- A step of a job leaves the files that are not in `A`, and the stream to a staging file. -/
structure Safe (A : Bool × List Path → Prop) (w w' : Download) : Prop where
  untouched : FileSystem.Untouched A w.m.disk w'.m.disk
  staged : w'.live → Staged w'.m

section Steps

variable {A : Bool × List Path → Prop} {env : Env} {live : Bool} {sent : List SendConfirm}
  {w₁ : Download} {digest : Digest}

lemma Safe.of_kept (h : Kept A w.m m) : Safe A w ⟨m, live, sent⟩ := ⟨h.untouched, fun _ => h.staged⟩

lemma safe_cancel (h : Kept A w.m m) :
    Safe A w (cancel ⟨m, live, sent⟩ env) := ⟨removeDownloadFile_untouched h, nofun⟩

lemma Safe.confirm (h : Safe A w w₁) (hlive : w₁.live) (r : SendConfirm) :
    Safe A w (w₁.confirm env r) := by
  obtain ⟨hstaged, hdisk⟩ := confirm_staged env (h.staged hlive) r
  refine ⟨?_, fun _ => hstaged⟩
  show FileSystem.Untouched A w.m.disk (FileTransfer.confirm env w₁.m r).disk
  rw [hdisk]
  exact h.untouched

lemma Safe.answer {result : DigestCheckResult} (h : Safe A w w₁) (hlive : w₁.live) :
    Safe A w (w₁.answer env digest result) := by
  cases result with
  | isSame => exact h.confirm hlive _
  | noSuchFile => exact ⟨h.untouched, h.staged⟩
  | needConfirm checked =>
    rw [Download.answer]
    cases decision w₁.m.job checked with
    | none => exact h
    | some union => exact h.confirm hlive _

lemma safe_onListing {files : List FileEntry} (h : Ranges A w.m) :
    Safe A w (w.onListing env files) := by
  rw [onListing]
  split
  · rename_i job hjob
    refine ⟨.refl _, fun _ => h.staged.listed hjob⟩
  · exact safe_cancel h.kept

lemma safe_onBlock {block : Block} (h : Ranges A w.m) (hcovers : Covers A w.m.job block.fileNum) :
    Safe A w (w.onBlock libs env block) := by
  have hwrite : wp (writeDownload libs env block) _ _ w.m := writeDownload_kept h hcovers
  rw [wp] at hwrite
  rw [onBlock]
  cases hresult : writeDownload libs env block w.m with
  | ok _ m =>
    rw [hresult] at hwrite
    exact .of_kept hwrite
  | error _ m =>
    rw [hresult] at hwrite
    exact safe_cancel hwrite

/-- What is confirmed follows what is on disk, which the digest has not changed beyond the entry
that it finishes. -/
lemma safe_onDigest {canResume : Bool} (hlive : w.live) (h : Ranges A w.m) :
    Safe A w (w.onDigest libs env canResume digest) := by
  rw [onDigest]
  split_ifs
  · exact .of_kept h.kept
  · have hranges : Ranges A (w.m.setDigest digest) :=
      ⟨⟨h.staged.download, h.staged.sole⟩, h.covers, h.replace⟩
    have hdigest : wp (downloadDigest libs env canResume digest)
        (fun _ => Kept A (w.m.setDigest digest)) (fun _ => Kept A (w.m.setDigest digest))
        (w.m.setDigest digest) := downloadDigest_kept hranges
    have hw : ∀ {m'}, Kept A (w.m.setDigest digest) m' → Kept A w.m m' := fun hkept =>
      ⟨hkept.untouched, hkept.fixed, hkept.download, hkept.staged, hkept.covers⟩
    rw [wp] at hdigest
    cases hresult : downloadDigest libs env canResume digest (w.m.setDigest digest) with
    | error _ m' =>
      rw [hresult] at hdigest
      exact safe_cancel (hw hdigest)
    | ok result m' =>
      rw [hresult] at hdigest
      exact (Safe.of_kept (hw hdigest)).answer hlive

lemma safe_onDone (h : Ranges A w.m) : Safe A w (w.onDone env) :=
  ⟨(wp_iff_after.mp (finishDownload_kept h)).untouched, nofun⟩

end Steps

lemma live_of_step (h : step libs w a = some w') : w.live := by
  rw [step] at h
  split_ifs at h with hlive
  exact hlive

lemma step_safe (h : Staged w.m) (hstep : step libs w a = some w') : Safe (w.Touches a) w w' := by
  have hranges : Ranges (w.Touches a) w.m := ⟨h, covers_of_touches (.inl rfl), mayReplace_touches⟩
  have hlive := live_of_step hstep
  rw [step, if_pos hlive] at hstep
  cases hstep
  cases a with
  | listing env files => exact safe_onListing hranges
  | digest env canResume digest => exact safe_onDigest hlive hranges
  | block env block => exact safe_onBlock hranges (covers_of_touches (.inr rfl))
  | done env => exact safe_onDone hranges
  | error => exact .of_kept hranges.kept
  | confirm env r => exact Safe.confirm (.of_kept hranges.kept) hlive r
  | remember overwrite | resume => exact ⟨.refl _, fun _ => ⟨h.download, h.sole⟩⟩
  | cancel env => exact safe_cancel hranges.kept

/-- A live job only ever writes to a staging file. -/
lemma staged_of_reachable (h : (downloading libs).Reachable w) : w.live → Staged w.m := by
  apply h.invariant
  · rintro w ⟨-, hdownload, hstream⟩ -
    exact ⟨hdownload, fun stream hsome => by rw [hstream] at hsome; cases hsome⟩
  · intro w a w' _ h hstep
    exact (step_safe (h (live_of_step hstep)) hstep).staged

/-- The file at the place of an entry is changed by a step only if the entry is current and its last
confirmation is from the start, or by the work on another entry: as its staging file or digest, or
because it has the same place and that one is current and confirmed. -/
theorem replaced_only_if_confirmed (h : (downloading libs).Reachable w)
    (hstep : (downloading libs).step w a = some w') {k : ℤ} {entry : FileEntry}
    (hfile : w.m.job.file k = some entry) {i : ℕ}
    (hthere : w.m.disk.entry (place (w.m.job.path entry)) = some (.file i))
    (hreplaced : ¬(w'.m.disk.entry (place (w.m.job.path entry)) = some (.file i) ∧
      w'.m.disk.nodes[i]? = w.m.disk.nodes[i]?)) :
    (w.m.job.fileNum = k ∧ w.m.job.download = some (some (k, 0))) ∨
      ∃ j other, j ≠ k ∧ (w.m.job.fileNum = j ∨ a.fileNum = some j) ∧
        w.m.job.file j = some other ∧
        (place (w.m.job.path entry) = place (staging (w.m.job.path other)) ∨
          place (w.m.job.path entry) = place (digestFile (w.m.job.path other)) ∨
          place (w.m.job.path entry) = place (w.m.job.path other) ∧
            w.m.job.fileNum = j ∧ w.m.job.download = some (some (j, 0))) := by
  have hlive : w.live := live_of_step hstep
  have hsafe := step_safe (staged_of_reachable h hlive) hstep
  have htouched : w.Touches a (place (w.m.job.path entry)) := by
    by_contra hnot
    exact hreplaced (hsafe.untouched _ i hthere hnot)
  obtain ⟨j, other, hj, hother, hplace⟩ := htouched
  by_cases hjk : j = k
  · -- the files beside an entry are not in its place
    subst hjk
    cases hfile.symm.trans hother
    rcases hplace with hstaging | hdigest | ⟨-, hconfirmed⟩
    · exact absurd hstaging.symm (place_staging_ne _)
    · exact absurd hdigest.symm (place_digestFile_ne _)
    · exact .inl hconfirmed
  · exact .inr ⟨j, other, hjk, hj, hother, hplace⟩

/-- A job with one file, which is there already. -/
def oneThere : Download where
  m := {
    job := {
      id := 1
      base := "/t".toList
      files := [⟨"a".toList, 7⟩]
      fileNum := 0
      enableOverwriteDetection := true
      download := some none }
    disk := FileSystem.empty.addFile (place "/t/a".toList) }

/-- It is confirmed, written and put in place. -/
theorem replaced_only_if_confirmed_at_done : ∃ w w', (downloading .plain).Reachable w ∧
    (downloading .plain).step w (.done {}) = some w' ∧
    w.m.disk.entry (place "/t/a".toList) = some (.file 0) ∧
    w'.m.disk.entry (place "/t/a".toList) = some (.file 1) ∧
    w.m.job.fileNum = 0 ∧ w.m.job.download = some (some (0, 0)) := by
  have hrun : ∃ w ∈ (downloading .plain).run oneThere
      [.confirm {} ⟨1, 0, some (.offsetBlk 0)⟩, .block {} ⟨1, 0, [1], false⟩],
      ∃ w' ∈ (downloading .plain).step w (.done {}),
        w.m.job.file 0 = some ⟨"a".toList, 7⟩ ∧
        w.m.job.path ⟨"a".toList, 7⟩ = "/t/a".toList ∧ w.m.job.fileNum = 0 ∧
        w.m.disk.entry (place "/t/a".toList) = some (.file 0) ∧
        w'.m.disk.entry (place "/t/a".toList) = some (.file 1) := by decide
  obtain ⟨w, hw, w', hw', hfile, hpath, hnum, hold, hnew⟩ := hrun
  have hstart : (downloading .plain).init oneThere := ⟨rfl, rfl, rfl⟩
  have hreach := (LTS.Reachable.init hstart).run hw
  refine ⟨w, w', hreach, hw', hold, hnew, ?_⟩
  rcases replaced_only_if_confirmed hreach hw' hfile (hpath.symm ▸ hold) (fun hsame => by
    rw [hpath, hnew] at hsame
    cases hsame.1) with hconfirmed | ⟨j, _, hne, hj, -, -⟩
  · exact hconfirmed
  · -- only the current entry is worked on
    rcases hj with hj | hj
    · exact absurd (hj.symm.trans hnum) hne
    · cases hj

end Download

end RustDesk.FileTransfer
