import Mathlib.Data.List.DropRight
import RustDesk.Lib.FileSystem
import RustDesk.Lib.Program
import RustDesk.Lib.Split
import RustDesk.Net.Io

/-!
# Transfer jobs

A `TransferJob` moves a list of files, one after the other. The same type serves the side that
reads, the connection manager that writes an upload, and the client that writes a download. While
a file is written its bytes are in a staging file, next to it under the name with `.download`, and
its digest is under the name with `.digest`.

Jobs of type `Generic` with a path as their source are modelled; file numbers are integers, and a
negative one is out of range as it is after `as usize`. The system calls of a step may fail: the
environment of the step says which.
-/

namespace RustDesk.FileTransfer

variable {env : Env}

/-! ### Names and paths -/

abbrev Path := List Char

def staging (path : Path) : Path := path ++ ".download".toList

def digestFile (path : Path) : Path := path ++ ".digest".toList

/-- `Path::join` with something that is not empty. -/
def Path.push (path seg : Path) : Path :=
  if seg.head? = some '/' then seg
  else if path = [] ∨ path.getLast? = some '/' then path ++ seg
  else path ++ '/' :: seg

/-- `TransferJob::join`. -/
def join (path name : Path) : Path := if name = [] then path else Path.push path name

/-- Whether a segment of a path is a component. -/
def counts (seg : Path) : Bool := seg ≠ [] ∧ seg ≠ ['.']

/-- The components of a path, without the root and the current directory. -/
def components (path : Path) : List Path := (path.splitOn '/').filter counts

/-- What a path names, up to repeated separators and the like: whether it starts at the root, and
its components. -/
def place (path : Path) : Bool × List Path := (path.head? = some '/', components path)

lemma components_append (path : Path) {suffix : Path} (h : '/' ∉ suffix)
    (hlen : 2 ≤ suffix.length) :
    ∃ dirs last, components path = dirs ++ [last].filter counts ∧
      components (path ++ suffix) = dirs ++ [last ++ suffix] := by
  obtain ⟨segs, last, hpath, happend⟩ := Split.splitOn_append path h
  have hlast : counts (last ++ suffix) := by
    refine decide_eq_true ⟨?_, ?_⟩
    · intro heq
      have := congrArg List.length heq
      rw [List.length_append, List.length_nil] at this
      omega
    · intro heq
      have := congrArg List.length heq
      rw [List.length_append, List.length_singleton] at this
      omega
  refine ⟨segs.filter counts, last, ?_, ?_⟩
  · rw [components, hpath, List.filter_append]
  · rw [components, happend, List.filter_append, List.filter_cons_of_pos hlast, List.filter_nil]

lemma place_append_ne (path : Path) {suffix : Path} (h : '/' ∉ suffix) (hlen : 2 ≤ suffix.length) :
    place (path ++ suffix) ≠ place path := by
  intro heq
  obtain ⟨dirs, last, hpath, happend⟩ := components_append path h hlen
  have hcomp : components (path ++ suffix) = components path := congrArg Prod.snd heq
  rw [happend, hpath] at hcomp
  have hmem : last ++ suffix ∈ [last].filter counts := by
    rw [← List.append_cancel_left hcomp]
    exact List.mem_singleton_self _
  have hlast : last ++ suffix = last := List.mem_singleton.mp (List.mem_of_mem_filter hmem)
  have := congrArg List.length hlast
  rw [List.length_append] at this
  omega

lemma place_append_inj {path path' suffix : Path} (h : '/' ∉ suffix) (hlen : 2 ≤ suffix.length)
    (heq : place (path ++ suffix) = place (path' ++ suffix)) : place path = place path' := by
  obtain ⟨dirs, last, hpath, happend⟩ := components_append path h hlen
  obtain ⟨dirs', last', hpath', happend'⟩ := components_append path' h hlen
  have hcomp : components (path ++ suffix) = components (path' ++ suffix) := congrArg Prod.snd heq
  rw [happend, happend'] at hcomp
  obtain ⟨rfl, hlast⟩ := List.append_inj' hcomp rfl
  cases List.append_cancel_right (List.singleton_injective hlast)
  have hroot : ∀ path : Path, ((path ++ suffix).head? = some '/') = (path.head? = some '/') := by
    intro path
    cases path with
    | nil =>
      refine propext ⟨fun hhead => absurd (List.mem_of_mem_head? hhead) h, nofun⟩
    | cons c path => rfl
  have hflag : decide ((path ++ suffix).head? = some '/') =
      decide ((path' ++ suffix).head? = some '/') := congrArg Prod.fst heq
  simp only [hroot] at hflag
  exact Prod.ext hflag (hpath.trans hpath'.symm)

lemma place_staging_ne (path : Path) : place (staging path) ≠ place path :=
  place_append_ne path (by decide) (by decide)

lemma place_digestFile_ne (path : Path) : place (digestFile path) ≠ place path :=
  place_append_ne path (by decide) (by decide)

lemma place_of_staging {path path' : Path} (h : place (staging path) = place (staging path')) :
    place path = place path' := place_append_inj (by decide) (by decide) h

lemma place_of_digestFile {path path' : Path}
    (h : place (digestFile path) = place (digestFile path')) : place path = place path' :=
  place_append_inj (by decide) (by decide) h

lemma place_staging_ne_digestFile (path path' : Path) :
    place (staging path) ≠ place (digestFile path') := by
  intro heq
  have hcomp : components (staging path) = components (digestFile path') := congrArg Prod.snd heq
  obtain ⟨dirs, last, -, hpath⟩ :=
    @components_append path ".download".toList (by decide) (by decide)
  obtain ⟨dirs', last', -, hpath'⟩ :=
    @components_append path' ".digest".toList (by decide) (by decide)
  rw [staging, digestFile, hpath, hpath'] at hcomp
  have hlast := List.singleton_injective (List.append_inj' hcomp rfl).2
  have hchar := congrArg List.getLast? hlast
  rw [List.getLast?_append_of_ne_nil, List.getLast?_append_of_ne_nil] at hchar
  · revert hchar
    decide
  · decide
  · decide

/-- Directories are there from the start or not at all: that a call fails because of one is for the
environment to say. -/
abbrev Disk := FileSystem (Bool × List Path)

def validateFileNameNoTraversal (name : Path) : Bool :=
  '\x00' ∉ name ∧ ['.', '.'] ∉ components name ∧ name.head? ≠ some '/'

/-- The paths from the base down to the last component. -/
def descend (current : Path) : List Path → List Path
  | [] => []
  | seg :: segs => Path.push current seg :: descend (Path.push current seg) segs

/-- `links` has the paths that are symbolic links, or cannot be looked at. -/
def validateNoSymlinkComponents (links : List Path) (base name : Path) : Bool :=
  name.head? ≠ some '/' ∧ ['.', '.'] ∉ components name ∧
    ∀ path ∈ descend base (components name), path ∉ links

def joinValidatedPath (links : List Path) (base name : Path) : Option Path :=
  if validateFileNameNoTraversal name && validateNoSymlinkComponents links base name then
    some (join base name)
  else none

lemma path_of_joinValidatedPath {links : List Path} {base name path : Path}
    (h : joinValidatedPath links base name = some path) : path = join base name := by
  rw [joinValidatedPath] at h
  split_ifs at h
  exact (Option.some.inj h).symm

/-- `parent` and `file_name` of a path. -/
def splitLeaf (path : Path) : Option (Path × Path) :=
  let root := if path.head? = some '/' then ['/'] else []
  match (components path).reverse with
  | [] => none
  | leaf :: dirs =>
    if leaf = ['.', '.'] then none else some (root ++ ['/'].intercalate dirs.reverse, leaf)

def validateComponent (name : Path) : Bool :=
  validateFileNameNoTraversal name ∧ name ≠ [] ∧ name ≠ ['.'] ∧ '/' ∉ name

def validatedTarget (links : List Path) (base name : Path) : Option Path := do
  let (parent, leaf) ← splitLeaf base
  guard (validateComponent leaf)
  guard (validateNoSymlinkComponents links parent leaf)
  let target ← joinValidatedPath links base name
  let (parent, leaf) ← splitLeaf target
  guard (validateNoSymlinkComponents links parent (staging leaf))
  guard (validateNoSymlinkComponents links parent (digestFile leaf))
  return target

lemma path_of_validatedTarget {links : List Path} {base name path : Path}
    (h : validatedTarget links base name = some path) : path = join base name := by
  simp only [validatedTarget, Option.bind_eq_bind, Option.bind_eq_some_iff, Option.pure_def] at h
  obtain ⟨_, -, _, -, _, -, target, htarget, _, -, _, -, _, -, heq⟩ := h
  cases heq
  exact path_of_joinValidatedPath htarget

/-! ### Messages -/

structure FileEntry where
  name : Path
  modifiedTime : ℕ
  deriving DecidableEq

structure FileDigest where
  size : ℕ
  modified : ℕ
  deriving DecidableEq

structure Digest where
  id : ℤ
  fileNum : ℤ
  lastModified : ℕ
  fileSize : ℕ
  isResume : Bool
  deriving DecidableEq

structure Block where
  id : ℤ
  fileNum : ℤ
  data : Bytes
  compressed : Bool
  deriving DecidableEq

inductive Confirmation where
  | skip (skip : Bool)
  | offsetBlk (offset : UInt32)
  deriving DecidableEq

structure SendConfirm where
  id : ℤ
  fileNum : ℤ
  union : Option Confirmation
  deriving DecidableEq

inductive Error where
  | io
  | wrongId
  | wrongFileNumber
  | invalidName
  | streamIsNone
  | overwriteRequiresConfirmation
  | resumeMetadataNotRegular
  | stagingNotRegular
  | hardLinked
  | resumeOffsetMismatch
  deriving DecidableEq

/-! ### Jobs -/

inductive Mode where
  | read
  | write
  deriving DecidableEq

/-- An open file; a write in the background may have failed, which the next one is told. -/
structure Stream where
  ino : ℕ
  pos : ℕ
  mode : Mode
  failed : Bool
  deriving DecidableEq

/-- `download` is there when the job writes a download; it has the last confirmation. -/
structure TransferJob where
  id : ℤ
  base : Path
  files : List FileEntry
  fileNum : ℤ
  stream : Option Stream := none
  isLastJob : Bool := false
  isResume : Bool := false
  enableOverwriteDetection : Bool
  fileConfirmed : Bool := false
  fileSkipped : Bool := false
  fileIsWaiting : Bool := false
  defaultOverwriteStrategy : Option Bool := none
  digest : FileDigest := ⟨0, 0⟩
  download : Option (Option (ℤ × UInt32)) := none
  finishedSize : ℕ := 0
  transferred : ℕ := 0
  deriving DecidableEq

namespace TransferJob

/-- What a job is made with and keeps. -/
def fixed (job : TransferJob) : ℤ × Path × List FileEntry × Bool × Bool :=
  (job.id, job.base, job.files, job.isLastJob, job.enableOverwriteDetection)

/-- `files.get(file_num as usize)`. -/
def file (job : TransferJob) (fileNum : ℤ) : Option FileEntry :=
  if 0 ≤ fileNum then job.files[fileNum.toNat]? else none

/-- Where an entry belongs, unchecked. -/
def path (job : TransferJob) (entry : FileEntry) : Path := join job.base entry.name

lemma path_congr {job job' : TransferJob} (h : job'.fixed = job.fixed) :
    job'.id = job.id ∧ job'.base = job.base ∧ job'.files = job.files ∧ job'.file = job.file ∧
      job'.path = job.path := by
  simp only [fixed, Prod.mk.injEq] at h
  obtain ⟨hid, hbase, hfiles, -, -⟩ := h
  refine ⟨hid, hbase, hfiles, ?_, ?_⟩
  · funext k
    rw [file, file, hfiles]
  · funext entry
    rw [path, path, hbase]

lemma mem_of_file {job : TransferJob} {k : ℤ} {entry : FileEntry} (h : job.file k = some entry) :
    entry ∈ job.files := by
  rw [file] at h
  split_ifs at h
  exact List.mem_of_getElem? h

def isDownload (job : TransferJob) : Bool := job.download.isSome

def setFileConfirmed (job : TransferJob) (confirmed : Bool) : TransferJob :=
  { job with fileConfirmed := confirmed, fileSkipped := false }

def setFileSkipped (job : TransferJob) : TransferJob :=
  { job.setFileConfirmed false with
    stream := none, fileIsWaiting := false, fileNum := job.fileNum + 1, fileSkipped := true }

def jobSkipped (job : TransferJob) : Bool := job.fileSkipped && job.files.length = 1

def jobCompleted (job : TransferJob) : Bool :=
  !job.enableOverwriteDetection || (!job.fileConfirmed && !job.fileIsWaiting)

def resolveEntryPath (job : TransferJob) (links : List Path) (name : Path) : Option Path :=
  if job.isDownload then validatedTarget links job.base name
  else joinValidatedPath links job.base name

end TransferJob

/-! ### The system -/

inductive Call where
  | sync
  | exists_ (path : Path)
  | createDirAll (path : Path)
  | remove (path : Path)
  | create (path : Path)
  | open_ (path : Path)
  | rename (path : Path)
  | metadata (path : Path)
  | fstat
  | setMtime (path : Path)
  | seek
  | read
  | write
  | writeFile (path : Path)
  | readFile (path : Path)
  | flush
  deriving DecidableEq

/-- What the system does in a step: the calls that fail, the paths that are symbolic links, how
much a failing write has written, and how successive reads end: with an error, or after at most
so many bytes past the first. Further reads fill what they are given. -/
structure Env where
  fails : List Call := []
  links : List Path := []
  short : ℕ := 0
  reads : List (Option ℕ) := []
  deriving DecidableEq

/-- What a job has done to files: opened the staging file of a path, made or reopened it, opened a
file for reading, put a staging file in place, or written something at a position; and a block that
failed. -/
inductive Event where
  | created (path : Path) (ino : ℕ)
  | reopened (path : Path) (ino : ℕ)
  | opened (path : Path) (ino : ℕ)
  | renamed (path : Path) (ino : ℕ)
  | wrote (ino pos : ℕ) (data : Bytes)
  | failed (path : Path) (data : Bytes)
  deriving DecidableEq

structure Machine where
  job : TransferJob
  disk : Disk
  trace : List Event := []

abbrev M := Prog Error Machine

namespace Machine

def withJob (m : Machine) (job : TransferJob) : Machine := { m with job }

def note (m : Machine) (event : Event) : Machine := { m with trace := m.trace ++ [event] }

@[simp] lemma withJob_job (m : Machine) (job : TransferJob) : (m.withJob job).job = job := rfl

@[simp] lemma withJob_disk (m : Machine) (job : TransferJob) : (m.withJob job).disk = m.disk := rfl

@[simp] lemma note_job (m : Machine) (event : Event) : (m.note event).job = m.job := rfl

@[simp] lemma note_disk (m : Machine) (event : Event) : (m.note event).disk = m.disk := rfl

/-- `Path::exists`; what cannot be looked at is not there. -/
def exists_ (m : Machine) (env : Env) (path : Path) : Bool :=
  m.disk.contains (place path) && .exists_ path ∉ env.fails

/-- Open a file that is there, for reading or for writing. -/
def open_ (m : Machine) (env : Env) (path : Path) : Option ℕ :=
  if .open_ path ∈ env.fails then none else m.disk.ino (place path)

end Machine

/-! ### Confirmations -/

/-- What `set_stream_offset` opens: the staging file for writing if it is there with its digest,
otherwise the file itself for reading. -/
def Machine.reopen (m : Machine) (env : Env) (path : Path) : Option (Event × ℕ × Mode) :=
  if m.exists_ env (staging path) && m.exists_ env (digestFile path) then
    (m.open_ env (staging path)).map fun i => (.reopened path i, i, .write)
  else if m.exists_ env path then
    (m.open_ env path).map fun i => (.opened path i, i, .read)
  else none

/-- The opened file becomes the stream if it can be put at the offset. -/
def Machine.seekTo (m : Machine) (env : Env) (offset : ℕ) (opened : Event × ℕ × Mode) : Machine :=
  let m := m.note opened.1
  if .seek ∈ env.fails then m
  else m.withJob { m.job with
    stream := some ⟨opened.2.1, offset, opened.2.2, false⟩
    transferred := m.job.transferred + offset
    finishedSize := m.job.finishedSize + offset }

def setStreamOffset (env : Env) (m : Machine) (fileNum : ℤ) (offset : ℕ) : Machine :=
  match m.job.file fileNum with
  | none => m
  | some entry =>
    match m.job.resolveEntryPath env.links entry.name with
    | none => m
    | some path =>
      match m.reopen env path with
      | none => m
      | some opened => m.seekTo env offset opened

/-- What a download remembers of a confirmation. -/
def TransferJob.confirmDownload (job : TransferJob) (r : SendConfirm) : TransferJob :=
  if r.id ≠ job.id ∨ !job.isDownload then job
  else
    let confirmation :=
      match job.file r.fileNum, r.union with
      | some _, some (.offsetBlk offset) => some (r.fileNum, offset)
      | some _, some (.skip false) => some (r.fileNum, 0)
      | _, _ => none
    { job with download := some confirmation }

/-- A confirmation that names the current file. -/
def confirmCurrent (env : Env) (m : Machine) (r : SendConfirm) : Machine :=
  match r.union with
  | some (.skip true) => m.withJob m.job.setFileSkipped
  | some (.skip false) => m.withJob (m.job.setFileConfirmed true)
  | some (.offsetBlk offset) =>
    let m := m.withJob (m.job.setFileConfirmed true)
    if offset > 0 then setStreamOffset env m r.fileNum offset.toNat else m
  | none => m

/-- A resumed download opens its stream when it writes. -/
def SendConfirm.resumes (r : SendConfirm) : Bool :=
  match r.union with
  | some (.offsetBlk offset) => offset > 0
  | _ => false

def confirm (env : Env) (m : Machine) (r : SendConfirm) : Machine :=
  let m := m.withJob (m.job.confirmDownload r)
  if m.job.isDownload && r.resumes then m
  else if m.job.fileNum ≠ r.fileNum then m
  else confirmCurrent env m r

/-- What `set_stream_offset` can do. -/
inductive Offsets (env : Env) (m : Machine) (fileNum : ℤ) (offset : ℕ) : Machine → Prop where
  | noEntry (hfile : m.job.file fileNum = none) : Offsets env m fileNum offset m
  | noPath {entry : FileEntry} (hfile : m.job.file fileNum = some entry)
      (hpath : m.job.resolveEntryPath env.links entry.name = none) : Offsets env m fileNum offset m
  | noFile {entry : FileEntry} {path : Path} (hfile : m.job.file fileNum = some entry)
      (hpath : m.job.resolveEntryPath env.links entry.name = some path)
      (hopen : m.reopen env path = none) : Offsets env m fileNum offset m
  | unseekable {entry : FileEntry} {path : Path} {opened : Event × ℕ × Mode}
      (hfile : m.job.file fileNum = some entry)
      (hpath : m.job.resolveEntryPath env.links entry.name = some path)
      (hopen : m.reopen env path = some opened) (hseek : .seek ∈ env.fails) :
      Offsets env m fileNum offset (m.note opened.1)
  | seeked {entry : FileEntry} {path : Path} {opened : Event × ℕ × Mode}
      (hfile : m.job.file fileNum = some entry)
      (hpath : m.job.resolveEntryPath env.links entry.name = some path)
      (hopen : m.reopen env path = some opened) (hseek : .seek ∉ env.fails) :
      Offsets env m fileNum offset ((m.note opened.1).withJob { m.job with
        stream := some ⟨opened.2.1, offset, opened.2.2, false⟩
        transferred := m.job.transferred + offset
        finishedSize := m.job.finishedSize + offset })

lemma offsets (env : Env) (m : Machine) (fileNum : ℤ) (offset : ℕ) :
    Offsets env m fileNum offset (setStreamOffset env m fileNum offset) := by
  cases hfile : m.job.file fileNum with
  | none =>
    rw [setStreamOffset, hfile]
    exact .noEntry hfile
  | some entry =>
    cases hpath : m.job.resolveEntryPath env.links entry.name with
    | none =>
      simp only [setStreamOffset, hfile, hpath]
      exact .noPath hfile hpath
    | some path =>
      cases hopen : m.reopen env path with
      | none =>
        simp only [setStreamOffset, hfile, hpath, hopen]
        exact .noFile hfile hpath hopen
      | some opened =>
        simp only [setStreamOffset, hfile, hpath, hopen, Machine.seekTo]
        split_ifs with hseek
        · exact .unseekable hfile hpath hopen hseek
        · exact .seeked hfile hpath hopen hseek

/-- What a confirmation can do to a job that is not a download. -/
inductive Confirms (env : Env) (m : Machine) (r : SendConfirm) : Machine → Prop where
  | other (h : m.job.fileNum ≠ r.fileNum ∨ r.union = none) : Confirms env m r m
  | skipped (hnum : m.job.fileNum = r.fileNum) (hunion : r.union = some (.skip true)) :
      Confirms env m r (m.withJob m.job.setFileSkipped)
  | confirmed (hnum : m.job.fileNum = r.fileNum)
      (hunion : r.union = some (.skip false) ∨ r.union = some (.offsetBlk 0)) :
      Confirms env m r (m.withJob (m.job.setFileConfirmed true))
  | resumed {offset : UInt32} {m' : Machine} (hnum : m.job.fileNum = r.fileNum)
      (hunion : r.union = some (.offsetBlk offset)) (hpos : 0 < offset)
      (hoffset : Offsets env (m.withJob (m.job.setFileConfirmed true)) r.fileNum offset.toNat m') :
      Confirms env m r m'

lemma confirms {m : Machine} (h : m.job.download = none) (r : SendConfirm) :
    Confirms env m r (confirm env m r) := by
  have hnot : ¬m.job.isDownload := by simp [TransferJob.isDownload, h]
  have hjob : m.job.confirmDownload r = m.job := by
    rw [TransferJob.confirmDownload, if_pos (.inr (by simpa using hnot))]
  have hconfirm : confirm env m r =
      if m.job.fileNum ≠ r.fileNum then m else confirmCurrent env m r := by
    simp [confirm, hjob, Machine.withJob, hnot]
  rw [hconfirm]
  split_ifs with hnum
  · exact .other (.inl hnum)
  · have hnum : m.job.fileNum = r.fileNum := not_not.mp hnum
    rw [confirmCurrent]
    cases hunion : r.union with
    | none => exact .other (.inr hunion)
    | some union =>
      cases union with
      | skip skip =>
        cases skip with
        | true => exact .skipped hnum hunion
        | false => exact .confirmed hnum (.inl hunion)
      | offsetBlk offset =>
        dsimp only
        split_ifs with hpos
        · exact .resumed hnum hunion hpos (offsets env _ r.fileNum offset.toNat)
        · have hzero : offset = 0 := by
            rw [← UInt32.toNat_inj]
            simpa [UInt32.lt_iff_toNat_lt] using hpos
          exact .confirmed hnum (.inr (hzero ▸ hunion))

lemma Offsets.fixed_eq {m m' : Machine} {fileNum : ℤ} {offset : ℕ}
    (h : Offsets env m fileNum offset m') :
    m'.job.fixed = m.job.fixed ∧ m'.disk = m.disk ∧ m'.job.download = m.job.download := by
  cases h <;> exact ⟨rfl, rfl, rfl⟩

lemma Confirms.fixed_eq {m m' : Machine} {r : SendConfirm} (h : Confirms env m r m') :
    m'.job.fixed = m.job.fixed ∧ m'.disk = m.disk ∧ m'.job.download = m.job.download := by
  cases h with
  | resumed _ _ _ hoffset => exact hoffset.fixed_eq
  | other => exact ⟨rfl, rfl, rfl⟩
  | skipped => exact ⟨rfl, rfl, rfl⟩
  | confirmed => exact ⟨rfl, rfl, rfl⟩

/-- The libraries the code uses: `zstd` and `serde_json`. -/
structure Libs where
  compress : Bytes → Bytes
  decompress : Bytes → Bytes
  toJson : FileDigest → Bytes
  fromJson : Bytes → Option FileDigest

/-- No compression, and digests that cannot be read back. -/
def Libs.plain : Libs := ⟨id, id, fun _ => [], fun _ => none⟩

end RustDesk.FileTransfer
