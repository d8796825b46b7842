import RustDesk.FileTransfer.Job

/-!
# Writing a job

The connection manager writes an upload with `write`. A block of another file, or the first one of
all, finishes the current file with `modify_time` and then opens the staging file of its own;
nothing says whether the current file has been written at all. System calls that fail are told by
the environment, and what was done before a failure stays done.
-/

namespace RustDesk.FileTransfer

open Prog

/-! ### System calls -/

def Machine.withDisk (m : Machine) (disk : Disk) : Machine := { m with disk }

@[simp] lemma Machine.withDisk_disk (m : Machine) (disk : Disk) :
    (m.withDisk disk).disk = disk := rfl

@[simp] lemma Machine.withDisk_job (m : Machine) (disk : Disk) :
    (m.withDisk disk).job = m.job := rfl

def Machine.withStream (m : Machine) (stream : Option Stream) : Machine :=
  m.withJob { m.job with stream }

def Machine.atFile (m : Machine) (fileNum : ℤ) : Machine := m.withJob { m.job with fileNum }

def call (env : Env) (c : Call) : M Unit := Prog.check (c ∉ env.fails) .io

/-- `remove_file`. -/
def removeFile (env : Env) (path : Path) : M Unit := do
  call env (.remove path)
  let disk ← Prog.require ((← get).disk.remove (place path)) .io
  modify (·.withDisk disk)

/-- `File::create`: what is there is cut to nothing. -/
def createFile (env : Env) (path : Path) : M ℕ := do
  call env (.create path)
  let (i, disk) ← Prog.require ((← get).disk.create (place path)) .io
  modify (·.withDisk disk)
  return i

/-- Put the staging file of a path in its place. -/
def renameStaging (env : Env) (path : Path) : M Unit := do
  call env (.rename (staging path))
  let m ← get
  let i ← Prog.require (m.disk.ino (place (staging path))) .io
  let disk ← Prog.require (m.disk.rename (place (staging path)) (place path)) .io
  set ((m.withDisk disk).note (.renamed path i))

/-- `set_file_mtime`; the time is in seconds, and in nanoseconds on disk. -/
def setFileMtime (env : Env) (path : Path) (time : ℕ) : M Unit := do
  call env (.setMtime path)
  let disk ← Prog.require ((← get).disk.setMtime (place path) (time * 10 ^ 9)) .io
  modify (·.withDisk disk)

/-- Bytes have been written through a stream. -/
def Machine.wrote (m : Machine) (stream : Stream) (bytes : Bytes) : Machine :=
  (m.withDisk (m.disk.writeAt stream.ino stream.pos bytes)).withStream
    (some { stream with pos := stream.pos + bytes.length })

/-- `write_all` on the stream with a `flush` after it: when it fails, some of the bytes may have
been written. -/
def writeAll (env : Env) (bytes : Bytes) : M Unit := do
  let m ← get
  let stream ← Prog.require m.job.stream .streamIsNone
  Prog.check (stream.mode = .write) .io
  if .write ∈ env.fails then
    set (m.wrote stream (bytes.take env.short))
    throw .io
  else set (m.wrote stream bytes)

/-- How much `tokio::fs::File` writes at once. -/
def maxBufSize : ℕ := 2 * 1024 * 1024

/-- What has been written when a write fails. -/
def Stream.failsAt (stream : Stream) (env : Env) (bytes : Bytes) : Option ℕ :=
  if stream.mode ≠ .write then some 0
  else if .write ∈ env.fails ∧ env.short < bytes.length then some env.short
  else none

def Machine.buffered (m : Machine) (stream : Stream) (bytes : Bytes) (failed : Bool) : Machine :=
  (m.wrote { stream with failed } bytes).note (.wrote stream.ino stream.pos bytes)

/-- `write_all` on the stream without a `flush`: what is taken is written in the background, and
when that fails, the next piece or the next call is told and is not written. -/
def writeBuffered (env : Env) (bytes : Bytes) : M Unit := do
  let m ← get
  let stream ← Prog.require m.job.stream .streamIsNone
  if bytes = [] then pure ()
  else if stream.failed then
    set (m.withStream (some { stream with failed := false }))
    throw .io
  else match stream.failsAt env bytes with
    | none => set (m.buffered stream bytes false)
    | some n =>
      let last := bytes.length ≤ (n / maxBufSize + 1) * maxBufSize
      set (m.buffered stream (bytes.take n) last)
      Prog.check last .io

/-- `std::fs::write`. -/
def writeFile (env : Env) (path : Path) (bytes : Bytes) : M Unit := do
  let i ← createFile env path
  if .writeFile path ∈ env.fails then
    modify fun m => m.withDisk (m.disk.writeAt i 0 (bytes.take env.short))
    throw .io
  else modify fun m => m.withDisk (m.disk.writeAt i 0 bytes)

/-! ### What a call does -/

section Calls

variable {env : Env} {path : Path} {m : Machine} {Q : Unit → Machine → Prop}
  {R : Error → Machine → Prop} {c : Call} {bytes : Bytes}

@[simp] lemma wp_call :
    wp (call env c) Q R m ↔ (c ∉ env.fails → Q () m) ∧ (c ∈ env.fails → R .io m) := by
  simp [call]

lemma keeps_call {I : Machine → Prop} : Prog.Keeps I (call env c) := Prog.Keeps.check

lemma wp_removeFile (hfail : .remove path ∈ env.fails ∨ m.disk.remove (place path) = none → R .io m)
    (hdone : ∀ disk, m.disk.remove (place path) = some disk → Q () (m.withDisk disk)) :
    wp (removeFile env path) Q R m := by
  simp only [removeFile, wp_bind, wp_call, wp_get, wp_require, wp_modify]
  exact ⟨fun _ => ⟨hdone, fun h => hfail (.inr h)⟩, fun h => hfail (.inl h)⟩

lemma wp_createFile {Q : ℕ → Machine → Prop}
    (hfail : .create path ∈ env.fails ∨ m.disk.create (place path) = none → R .io m)
    (hdone : ∀ i disk, m.disk.create (place path) = some (i, disk) → Q i (m.withDisk disk)) :
    wp (createFile env path) Q R m := by
  simp only [createFile, wp_bind, wp_call, wp_get, wp_require, wp_modify,
    wp_pure]
  exact ⟨fun _ => ⟨fun created hcreate => hdone created.1 created.2 hcreate,
    fun h => hfail (.inr h)⟩, fun h => hfail (.inl h)⟩

lemma wp_renameStaging
    (hfail : .rename (staging path) ∈ env.fails ∨ m.disk.ino (place (staging path)) = none ∨
      m.disk.rename (place (staging path)) (place path) = none → R .io m)
    (hdone : ∀ i disk, .rename (staging path) ∉ env.fails →
      m.disk.entry (place (staging path)) = some (.file i) →
      m.disk.rename (place (staging path)) (place path) = some disk →
      Q () ((m.withDisk disk).note (.renamed path i))) : wp (renameStaging env path) Q R m := by
  simp only [renameStaging, wp_bind, wp_call, wp_get, wp_require, wp_set]
  refine ⟨fun hcall => ⟨fun i hino => ⟨fun disk hrename => ?_, fun h => hfail (.inr (.inr h))⟩,
    fun h => hfail (.inr (.inl h))⟩, fun h => hfail (.inl h)⟩
  exact hdone i disk hcall (FileSystem.entry_of_ino hino) hrename

lemma wp_setFileMtime {time : ℕ}
    (hfail : .setMtime path ∈ env.fails ∨ m.disk.setMtime (place path) (time * 10 ^ 9) = none →
      R .io m)
    (hdone : ∀ disk, m.disk.setMtime (place path) (time * 10 ^ 9) = some disk →
      Q () (m.withDisk disk)) : wp (setFileMtime env path time) Q R m := by
  simp only [setFileMtime, wp_bind, wp_call, wp_get, wp_require, wp_modify]
  exact ⟨fun _ => ⟨hdone, fun h => hfail (.inr h)⟩, fun h => hfail (.inl h)⟩

lemma wp_writeAll (hnone : m.job.stream = none → R .streamIsNone m)
    (hmode : ∀ stream, m.job.stream = some stream → stream.mode ≠ .write → R .io m)
    (hshort : ∀ stream, m.job.stream = some stream → .write ∈ env.fails →
      R .io (m.wrote stream (bytes.take env.short)))
    (hdone : ∀ stream, m.job.stream = some stream → stream.mode = .write →
      Q () (m.wrote stream bytes)) : wp (writeAll env bytes) Q R m := by
  simp only [writeAll, wp_bind, wp_get, wp_require, wp_check,
    decide_eq_true_eq]
  refine ⟨fun stream hstream => ⟨fun hwrite => ?_, hmode stream hstream⟩, hnone⟩
  split_ifs with hfails
  · exact hshort stream hstream hfails
  · exact hdone stream hstream hwrite

lemma keeps_writeBuffered {I : Machine → Prop}
    (hstream : ∀ m stream, I m → I (m.withStream stream))
    (hpiece : ∀ m stream piece failed, I m → I (m.buffered stream piece failed)) :
    Prog.Keeps I (writeBuffered env bytes) := by
  refine .get_bind fun m h => ?_
  simp only [wp_bind, wp_require]
  refine ⟨fun stream _ => ?_, fun _ => h⟩
  split_ifs
  · exact h
  · exact hstream m _ h
  · split
    · exact hpiece m _ _ _ h
    · exact Prog.Keeps.check _ (hpiece m _ _ _ h)

lemma wp_writeFile (hfail : R .io m)
    (hshort : ∀ i disk, m.disk.create (place path) = some (i, disk) →
      R .io (m.withDisk (disk.writeAt i 0 (bytes.take env.short))))
    (hdone : ∀ i disk, m.disk.create (place path) = some (i, disk) →
      Q () (m.withDisk (disk.writeAt i 0 bytes))) :
    wp (writeFile env path bytes) Q R m := by
  simp only [writeFile, wp_bind]
  refine wp_createFile (fun _ => hfail) fun i disk hcreate => ?_
  split_ifs
  · exact hshort i disk hcreate
  · exact hdone i disk hcreate

end Calls

/-! ### Finishing a file -/

def modifyTime (env : Env) : M Unit := do
  let m ← get
  Prog.onSome (m.job.file m.job.fileNum) fun entry =>
    Prog.onSome (m.job.resolveEntryPath env.links entry.name) fun path => do
      (removeFile env (digestFile path)).ignore
      (renameStaging env path).ignore
      (setFileMtime env path entry.modifiedTime).ignore

/-- The files of the current entry that a cancelled job leaves behind are removed; a download
without a stream has none of its own. -/
def removeDownloadFile (env : Env) : M Unit := do
  let m ← get
  Prog.whenever (!m.job.isDownload || m.job.stream.isSome)
    (Prog.onSome (m.job.file m.job.fileNum) fun entry =>
      Prog.onSome (m.job.resolveEntryPath env.links entry.name) fun path => do
        (removeFile env (staging path)).ignore
        (removeFile env (digestFile path)).ignore)

/-! ### Blocks -/

/-- The data of a block. -/
def Block.unpack (libs : Libs) (block : Block) : Bytes :=
  if block.compressed then libs.decompress block.data else block.data

/-- The part of `write` that opens a staging file; `create_dir_all` comes first, and whether it
works is ignored. -/
def openStaging (libs : Libs) (env : Env) (path : Path) : M Unit := do
  Prog.whenever ((← get).exists_ env (digestFile path)) (removeFile env (digestFile path))
  let i ← createFile env (staging path)
  modify fun m => (m.withStream (some ⟨i, 0, .write, false⟩)).note (.created path i)
  (writeFile env (digestFile path) (libs.toJson (← get).job.digest)).ignore

/-- The part of `write` for a block that starts a file. -/
def startFile (libs : Libs) (env : Env) (fileNum : ℤ) (entry : FileEntry) : M Unit := do
  modifyTime env
  Prog.whenever (← get).job.stream.isSome (call env .sync)
  modify (·.atFile fileNum)
  let path ← Prog.require (joinValidatedPath env.links (← get).job.base entry.name) .invalidName
  openStaging libs env path

def Machine.counted (m : Machine) (finished transferred : ℕ) : Machine :=
  m.withJob { m.job with
    finishedSize := m.job.finishedSize + finished, transferred := m.job.transferred + transferred }

def write (libs : Libs) (env : Env) (block : Block) : M Unit := do
  let m ← get
  Prog.check (block.id = m.job.id) .wrongId
  let entry ← Prog.require (m.job.file block.fileNum) .wrongFileNumber
  Prog.whenever (block.fileNum ≠ m.job.fileNum ∨ m.job.stream.isNone)
    (startFile libs env block.fileNum entry)
  writeBuffered env (block.unpack libs)
  modify (·.counted (block.unpack libs).length block.data.length)

end RustDesk.FileTransfer
