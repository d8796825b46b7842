import RustDesk.FileTransfer.Write

/-!
# Writing a download

The client writes a download. A block that starts a file first finishes the one before, as does a
digest. An existing file is replaced, and an earlier staging file is used, only after it has been
confirmed; and a staging file is gone on with only if it has no other name, a digest, and the length
that was confirmed.
-/

namespace RustDesk.FileTransfer

open Prog

/-! ### System calls -/

/-- `try_exists`. -/
def tryExists (env : Env) (path : Path) : M Bool := do
  call env (.exists_ path)
  return (← get).disk.contains (place path)

/-- Whether one of the paths exists; the first that does ends the search. -/
def anyExists (env : Env) : List Path → M Bool
  | [] => return false
  | path :: paths => do
    let there ← tryExists env path
    if there then return true else anyExists env paths

/-- A file that is not found need not be removed. -/
def removeIfExists (env : Env) (path : Path) : M Unit := do
  call env (.remove path)
  let m ← get
  Prog.whenever (m.disk.contains (place path)) do
    let disk ← Prog.require (m.disk.remove (place path)) .io
    modify (·.withDisk disk)

/-- Open for writing with `create_new`. -/
def createNewFile (env : Env) (path : Path) : M ℕ := do
  call env (.create path)
  let (i, disk) ← Prog.require ((← get).disk.createNew (place path)) .io
  modify (·.withDisk disk)
  return i

section Calls

variable {env : Env} {path : Path} {m : Machine} {R : Error → Machine → Prop}
  {Q : Bool → Machine → Prop}

@[simp] lemma wp_tryExists :
    wp (tryExists env path) Q R m ↔
      (.exists_ path ∉ env.fails → Q (m.disk.contains (place path)) m) ∧
        (.exists_ path ∈ env.fails → R .io m) := by
  simp only [tryExists, wp_bind, wp_call, wp_get, wp_pure]

lemma wp_anyExists {paths : List Path} (hfail : ∀ path ∈ paths, .exists_ path ∈ env.fails → R .io m)
    (hdone : Q (paths.any fun path => m.disk.contains (place path)) m) :
    wp (anyExists env paths) Q R m := by
  induction paths with
  | nil => exact hdone
  | cons path paths ih =>
    simp only [anyExists, wp_bind, wp_tryExists]
    refine ⟨fun _ => ?_, hfail path List.mem_cons_self⟩
    rw [List.any_cons] at hdone
    cases hthere : m.disk.contains (place path) with
    | true =>
      rw [hthere, Bool.true_or] at hdone
      exact hdone
    | false =>
      rw [hthere, Bool.false_or] at hdone
      exact ih (fun path' hmem => hfail path' (List.mem_cons_of_mem _ hmem)) hdone

lemma wp_removeIfExists {Q : Unit → Machine → Prop}
    (hfail : .remove path ∈ env.fails ∨ m.disk.entry (place path) = some .dir → R .io m)
    (hdone : ∀ disk, FileSystem.Lost (place path) m.disk disk → Q () (m.withDisk disk)) :
    wp (removeIfExists env path) Q R m := by
  simp only [removeIfExists, wp_bind, wp_call, wp_get, wp_whenever, wp_require,
    wp_modify]
  refine ⟨fun _ => ⟨fun hthere => ⟨fun disk hremove => ?_, fun hnone => ?_⟩, fun hnot => ?_⟩,
    fun h => hfail (.inl h)⟩
  · rw [(FileSystem.remove_eq_some hremove).2]
    exact hdone _ (FileSystem.lost_erase _)
  · refine hfail (.inr ?_)
    obtain ⟨e, he⟩ := Option.isSome_iff_exists.mp hthere
    cases e with
    | file i => exact absurd he (FileSystem.remove_eq_none hnone i)
    | dir => exact he
  · exact hdone m.disk (FileSystem.lost_of_none (Option.not_isSome_iff_eq_none.mp hnot))

lemma wp_createNewFile {Q : ℕ → Machine → Prop}
    (hfail : .create path ∈ env.fails ∨ (m.disk.entry (place path)).isSome → R .io m)
    (hdone : m.disk.entry (place path) = none →
      Q m.disk.nodes.length (m.withDisk (m.disk.addFile (place path)))) :
    wp (createNewFile env path) Q R m := by
  simp only [createNewFile, wp_bind, wp_call, wp_get, wp_require, wp_modify,
    wp_pure]
  refine ⟨fun _ => ⟨fun created hcreate => ?_, fun hnone => ?_⟩, fun h => hfail (.inl h)⟩
  · obtain ⟨hentry, hi, hdisk⟩ := FileSystem.createNew_eq_some hcreate
    rw [hi, hdisk]
    exact hdone hentry
  · refine hfail (.inr ?_)
    rw [FileSystem.createNew] at hnone
    split at hnone
    · cases hnone
    · rename_i e he
      rw [he]
      rfl

end Calls

/-! ### Jobs -/

/-- `download_target`. -/
def downloadTarget (env : Env) (fileNum : ℤ) : M Path := do
  let m ← get
  let entry ← Prog.require (m.job.file fileNum) .wrongFileNumber
  Prog.require (validatedTarget env.links m.job.base entry.name) .invalidName

/-- `download_confirmation_offset`. -/
def TransferJob.confirmationOffset (job : TransferJob) (fileNum : ℤ) : Option UInt32 :=
  match job.download with
  | some (some (confirmed, offset)) => if confirmed = fileNum then some offset else none
  | _ => none

/-- The part of `finish_download` for a download with a stream. -/
def putInPlace (env : Env) : M Unit := do
  let m ← get
  let target ← downloadTarget env m.job.fileNum
  let there ← tryExists env target
  Prog.check (!there || m.job.confirmationOffset m.job.fileNum = some 0)
    .overwriteRequiresConfirmation
  renameStaging env target
  removeIfExists env (digestFile target)
  let entry ← Prog.require (m.job.file m.job.fileNum) .wrongFileNumber
  setFileMtime env target entry.modifiedTime

def finishDownload (env : Env) : M Unit := do
  let m ← get
  if m.job.isDownload then Prog.whenever m.job.stream.isSome (putInPlace env)
  else modifyTime env

/-- The current file is finished, and closed whether that worked or not. -/
def closeDownload (env : Env) : M Unit := (finishDownload env).finally_ (·.withStream none)

/-- The digest is put beside the staging file. -/
def recordDigest (libs : Libs) (env : Env) (target : Path) : M Unit := do
  removeIfExists env (digestFile target)
  let j ← createNewFile env (digestFile target)
  call env (.writeFile (digestFile target))
  modify fun m => m.withDisk (m.disk.writeAt j 0 (libs.toJson m.job.digest))
  call env .flush

/-- The stream of a new staging file. -/
def Machine.started (m : Machine) (fileNum : ℤ) (i : ℕ) (target : Path) : Machine :=
  ((m.atFile fileNum).withStream (some ⟨i, 0, .write, false⟩)).note (.created target i)

/-- The part of `start_download_file` for a file from its start. -/
def createStaging (libs : Libs) (env : Env) (fileNum : ℤ) (target : Path) : M Unit := do
  call env (.createDirAll target)
  removeIfExists env (staging target)
  let i ← createNewFile env (staging target)
  modify (·.started fileNum i target)
  recordDigest libs env target

/-- The stream of a resumed download. -/
def Machine.resumed (m : Machine) (fileNum : ℤ) (i : ℕ) (offset : ℕ) (target : Path) : Machine :=
  (((m.atFile fileNum).withStream (some ⟨i, offset, .write, false⟩)).counted offset offset).note
    (.reopened target i)

def resumeDownload (env : Env) (fileNum : ℤ) (offset : UInt32) : M Unit := do
  let target ← downloadTarget env fileNum
  let there ← tryExists env target
  Prog.check (!there) .overwriteRequiresConfirmation
  call env (.metadata (digestFile target))
  let digest ← Prog.require ((← get).disk.entry (place (digestFile target))) .io
  Prog.check (digest ≠ .dir) .resumeMetadataNotRegular
  call env (.open_ (staging target))
  let m ← get
  let i ← Prog.require (m.disk.ino (place (staging target))) .io
  call env .fstat
  Prog.check (m.disk.links i = 1) .hardLinked
  Prog.check ((m.disk.data i).map List.length = some offset.toNat) .resumeOffsetMismatch
  call env .seek
  modify (·.resumed fileNum i offset.toNat target)

def startDownloadFile (libs : Libs) (env : Env) (fileNum : ℤ) : M Unit := do
  closeDownload env
  let target ← downloadTarget env fileNum
  let confirmation := (← get).job.confirmationOffset fileNum
  let there ← anyExists env [target, staging target, digestFile target]
  Prog.check (!there || confirmation.isSome) .overwriteRequiresConfirmation
  match confirmation.filter (0 < ·) with
  | some offset => resumeDownload env fileNum offset
  | none => createStaging libs env fileNum target

def writeDownload (libs : Libs) (env : Env) (block : Block) : M Unit := do
  let m ← get
  Prog.check (block.id = m.job.id) .wrongId
  Prog.check (m.job.file block.fileNum).isSome .wrongFileNumber
  Prog.whenever (block.fileNum ≠ m.job.fileNum ∨ m.job.stream.isNone)
    (startDownloadFile libs env block.fileNum)
  writeAll env (block.unpack libs)
  call env .flush
  modify (·.counted (block.unpack libs).length block.data.length)

/-! ### Digests -/

/-- A digest as the receiver completes it. -/
structure CheckedDigest where
  id : ℤ
  fileNum : ℤ
  lastModified : ℕ := 0
  fileSize : ℕ := 0
  isIdentical : Bool := false
  transferredSize : ℕ := 0
  deriving DecidableEq

inductive DigestCheckResult where
  | isSame
  | needConfirm (digest : CheckedDigest)
  | noSuchFile
  deriving DecidableEq

/-- How much of the same file an earlier transfer has left, if anything. -/
def transferredBefore (libs : Libs) (env : Env) (m : Machine) (path : Path) (digest : Digest) :
    Option ℕ := do
  guard (m.exists_ env (digestFile path) ∧ m.exists_ env (staging path))
  guard (.readFile (digestFile path) ∉ env.fails)
  let content ← (m.disk.ino (place (digestFile path))).bind m.disk.data
  let localDigest ← libs.fromJson content
  guard (localDigest.modified = digest.lastModified ∧ localDigest.size = digest.fileSize)
  guard (.metadata (staging path) ∉ env.fails)
  let node ← m.disk.node (place (staging path))
  guard (0 < node.data.length)
  return node.data.length

def isWriteNeedConfirmation (libs : Libs) (env : Env) (isResume : Bool) (path : Path)
    (digest : Digest) : M DigestCheckResult := do
  let m ← get
  match if isResume then transferredBefore libs env m path digest else none with
  | some transferredSize =>
    return .needConfirm ⟨digest.id, digest.fileNum, digest.lastModified, digest.fileSize, true,
      transferredSize⟩
  | none =>
    match if m.exists_ env path then m.disk.node (place path) else none with
    | none => return .noSuchFile
    | some node =>
      call env (.metadata path)
      return .needConfirm ⟨digest.id, digest.fileNum, node.mtime / 10 ^ 9, node.data.length,
        digest.lastModified * 10 ^ 9 = node.mtime ∧ digest.fileSize = node.data.length, 0⟩

/-- Only a file that is not there can be resumed. -/
def canResumeAt (env : Env) (canResume : Bool) (target : Path) : M Bool := do
  if canResume && (← get).job.isResume then
    let there ← tryExists env target
    return !there
  else return false

def downloadDigest (libs : Libs) (env : Env) (canResume : Bool) (digest : Digest) :
    M DigestCheckResult := do
  let m ← get
  Prog.whenever (m.job.fileNum ≠ digest.fileNum && m.job.stream.isSome) (closeDownload env)
  let target ← downloadTarget env digest.fileNum
  let resume ← canResumeAt env canResume target
  let result ← isWriteNeedConfirmation libs env resume target digest
  if result = .noSuchFile then
    let left ← anyExists env [staging target, digestFile target]
    return if left then .needConfirm { id := digest.id, fileNum := digest.fileNum } else result
  else return result

/-! ### The client -/

/-- The only file of a job may go without a name of its own. -/
def validateTransferFileNames (files : List FileEntry) : Bool :=
  (files.length = 1 && files.head?.any (·.name = [])) ||
    files.all fun file => file.name ≠ [] && validateFileNameNoTraversal file.name

/-- `set_files`: the list of a download is not replaced. -/
def TransferJob.setFiles (job : TransferJob) (links : List Path) (files : List FileEntry) :
    Option TransferJob :=
  if job.isDownload && job.files ≠ [] then none
  else if validateTransferFileNames files &&
      files.all fun file => validateNoSymlinkComponents links job.base file.name then
    some { job with files }
  else none

def Machine.setDigest (m : Machine) (digest : Digest) : Machine :=
  m.withJob { m.job with digest := ⟨digest.fileSize, digest.lastModified⟩ }

/-- A download job, until it is removed, and the confirmations that were sent for it. -/
structure Download where
  m : Machine
  live : Bool := true
  sent : List SendConfirm := []

namespace Download

/-- `cancel_transfer_job`. -/
def cancel (w : Download) (env : Env) : Download :=
  { w with m := (removeDownloadFile env).after w.m, live := false }

/-- The decision is taken, on this side and on the other. -/
def confirm (w : Download) (env : Env) (r : SendConfirm) : Download :=
  { w with m := FileTransfer.confirm env w.m r, sent := w.sent ++ [r] }

/-- What the client decides by itself about a digest that needs a confirmation: to go on where it
stopped, or as it was told for the whole job. -/
def decision (job : TransferJob) (digest : CheckedDigest) : Option Confirmation :=
  if digest.isIdentical && job.isResume && 0 < digest.transferredSize then
    some (.offsetBlk (UInt32.ofNat digest.transferredSize))
  else
    job.defaultOverwriteStrategy.map fun overwrite =>
      if overwrite then .offsetBlk 0 else .skip true

/-- The list of files arrives. -/
def onListing (env : Env) (files : List FileEntry) (w : Download) : Download :=
  match w.m.job.setFiles env.links files with
  | some job => { w with m := w.m.withJob job }
  | none => w.cancel env

/-- What follows from a digest; without a decision the user is asked. -/
def answer (env : Env) (digest : Digest) (w : Download) : DigestCheckResult → Download
  | .isSame => w.confirm env ⟨digest.id, digest.fileNum, some (.skip true)⟩
  | .needConfirm checked =>
    match decision w.m.job checked with
    | some union => w.confirm env ⟨digest.id, digest.fileNum, some union⟩
    | none => w
  | .noSuchFile =>
    -- no file was approved for being replaced
    { w with sent := w.sent ++ [⟨digest.id, digest.fileNum, some (.offsetBlk 0)⟩] }

/-- The digest of a file arrives. -/
def onDigest (libs : Libs) (env : Env) (canResume : Bool) (digest : Digest) (w : Download) :
    Download :=
  if (w.m.job.file digest.fileNum).isNone then w
  else
    match downloadDigest libs env canResume digest (w.m.setDigest digest) with
    | .error _ m => cancel { w with m } env
    | .ok result m => answer env digest { w with m } result

/-- A block arrives; the job ends if it cannot be written. -/
def onBlock (libs : Libs) (env : Env) (block : Block) (w : Download) : Download :=
  match writeDownload libs env block w.m with
  | .ok _ m => { w with m }
  | .error _ m => cancel { w with m } env

/-- The other side has sent everything. -/
def onDone (env : Env) (w : Download) : Download :=
  { w with m := (finishDownload env).after w.m, live := false }

end Download

end RustDesk.FileTransfer
