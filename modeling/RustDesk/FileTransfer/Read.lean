import RustDesk.FileTransfer.Job

/-!
# Reading a job

The side that has the files opens them one by one, sends the digest of each and waits until it is
confirmed; then it sends blocks of at most 128 KiB, and an empty one at the end of the file.
-/

namespace RustDesk.FileTransfer

variable {env : Env} {m : Machine}

def bufSize : ℕ := 128 * 1024

/-- What is sent to the peer. -/
inductive Out where
  | digest (digest : Digest)
  | block (block : Block)
  | error (id : ℤ) (error : Option Error) (fileNum : ℤ)
  | done (id : ℤ) (fileNum : ℤ)
  deriving DecidableEq

/-- The current file is over, in one way or another. -/
def TransferJob.nextFile (job : TransferJob) : TransferJob :=
  { job with
    fileNum := job.fileNum + 1, stream := none, fileConfirmed := false, fileIsWaiting := false }

/-- The current file is open, and has yet to be confirmed. -/
def TransferJob.opened (job : TransferJob) (i : ℕ) : TransferJob :=
  { job with stream := some ⟨i, 0, .read, false⟩, fileConfirmed := false, fileIsWaiting := false }

/-- True when there is no file left. -/
def openDataStream (env : Env) : M Bool := fun m =>
  match m.job.file m.job.fileNum with
  | none => .ok true (m.withJob { m.job with stream := none })
  | some entry =>
    if m.job.stream.isSome then .ok false m
    else
      match m.open_ env (m.job.path entry) with
      | some i => .ok false ((m.note (.opened (m.job.path entry) i)).withJob (m.job.opened i))
      | none => .error .io (m.withJob m.job.nextFile)

/-- The times are in nanoseconds on disk and in seconds in a digest. -/
def getCurrentDigest (env : Env) (m : Machine) : Except Error (ℕ × ℕ) :=
  match m.job.stream with
  | none => .error .streamIsNone
  | some stream =>
    if .fstat ∈ env.fails then .error .io
    else
      match m.disk.nodes[stream.ino]? with
      | none => .error .io
      | some node => .ok (node.mtime / 10 ^ 9, node.data.length)

/-- The digest of the current file has to go out. -/
def TransferJob.needsDigest (job : TransferJob) : Bool :=
  job.enableOverwriteDetection && !job.fileConfirmed && !job.fileIsWaiting

/-- The digest that goes out, if one does. -/
def initDataStream (env : Env) : M (Option Digest) := fun m =>
  match openDataStream env m with
  | .error e m => .error e m
  | .ok true m => .ok none m
  | .ok false m =>
    if m.job.needsDigest then
      match getCurrentDigest env m with
      | .error e => .error e m
      | .ok (lastModified, fileSize) =>
        .ok (some ⟨m.job.id, m.job.fileNum, lastModified, fileSize, m.job.isResume⟩)
          (m.withJob { m.job with fileIsWaiting := true })
    else .ok none m

/-! ### Blocks -/

/-- The loop that fills the buffer: it ends when a read fails, when nothing is left, or when there
is no room left. -/
def fill : List (Option ℕ) → (rest : Bytes) → (room : ℕ) → Option Bytes
  | [], rest, room => some (rest.take room)
  | none :: _, _, _ => none
  | some most :: reads, rest, room =>
    let got := rest.take (min room (most + 1))
    if got = [] ∨ got.length = room then some got
    else (fill reads (rest.drop got.length) (room - got.length)).map (got ++ ·)

/-- Short reads do not matter. -/
lemma fill_of_no_error {reads : List (Option ℕ)} (h : none ∉ reads) (rest : Bytes) (room : ℕ) :
    fill reads rest room = some (rest.take room) := by
  induction reads generalizing rest room with
  | nil => rfl
  | cons read reads ih =>
    cases read with
    | none => exact absurd List.mem_cons_self h
    | some most =>
      have hreads : none ∉ reads := fun hmem => h (List.mem_cons_of_mem _ hmem)
      have hmin : min room (most + 1) ≤ room := Nat.min_le_left _ _
      rw [fill]
      split_ifs with hstop
      · congr 1
        rw [List.take_eq_take_iff]
        rcases hstop with hnil | hlen
        · have := congrArg List.length hnil
          rw [List.length_take, List.length_nil] at this
          omega
        · rw [List.length_take] at hlen
          omega
      · rw [ih hreads, Option.map_some, ← List.take_append_drop
          (rest.take (min room (most + 1))).length (rest.take room)]
        congr 2
        · rw [List.take_take, List.take_eq_take_iff, List.length_take]
          omega
        · rw [List.drop_take]

/-- However the reads end, the buffer holds what comes next. -/
lemma fill_start {reads : List (Option ℕ)} {rest buf : Bytes} {room : ℕ}
    (h : fill reads rest room = some buf) : buf <+: rest := by
  induction reads generalizing rest room buf with
  | nil =>
    cases h
    exact List.take_prefix room rest
  | cons read reads ih =>
    cases read with
    | none => cases h
    | some most =>
      rw [fill] at h
      split_ifs at h
      · cases h
        exact List.take_prefix _ rest
      · obtain ⟨more, hmore, rfl⟩ := Option.map_eq_some_iff.mp h
        obtain ⟨left, hleft⟩ := ih hmore
        refine ⟨left, ?_⟩
        have htake : rest.take (min room (most + 1)) <+: rest := List.take_prefix _ rest
        rw [List.append_assoc, hleft]
        exact List.prefix_iff_eq_append.mp htake

def getExt (name : Path) : Path :=
  if '.' ∈ name then name.rtakeWhile (· ≠ '.') else []

def compressedExts : List Path :=
  ["xz", "gz", "zip", "7z", "rar", "bz2", "tgz", "png", "jpg"].map String.toList

def isCompressedFile (name : Path) : Bool := compressedExts.contains (getExt name)

/-- The name that says whether a file is compressed already. -/
def TransferJob.nameFor (job : TransferJob) (entry : FileEntry) : Path :=
  if job.files.length = 1 ∧ entry.name = [] then ((splitLeaf job.base).map (·.2)).getD []
  else entry.name

/-- One buffer of an open file; it is empty at the end of the file. -/
def readBuf (env : Env) (disk : Disk) (stream : Stream) : Option Bytes :=
  if stream.mode = .write then none
  else fill env.reads (((disk.data stream.ino).getD []).drop stream.pos) bufSize

lemma readBuf_start {disk : Disk} {stream : Stream} {source buf : Bytes}
    (hdata : disk.data stream.ino = some source) (h : readBuf env disk stream = some buf) :
    buf <+: source.drop stream.pos := by
  rw [readBuf, hdata] at h
  split_ifs at h
  exact fill_start h

/-- The block for a buffer: compressed if that makes it shorter. -/
def pack (libs : Libs) (job : TransferJob) (name : Path) (buf : Bytes) : Block :=
  let tmp := libs.compress buf
  if !isCompressedFile name && tmp.length < buf.length then
    ⟨job.id, job.fileNum, tmp, true⟩
  else
    ⟨job.id, job.fileNum, buf, false⟩

/-- A block of a buffer has gone out. -/
def TransferJob.advanced (job : TransferJob) (stream : Stream) (buf : Bytes) (block : Block) :
    TransferJob :=
  { job with
    stream := some { stream with pos := stream.pos + buf.length }
    finishedSize := job.finishedSize + buf.length
    transferred := job.transferred + block.data.length }

/-- The current file may not be read before it is confirmed. -/
def TransferJob.unconfirmed (job : TransferJob) : Bool :=
  job.enableOverwriteDetection && !job.fileConfirmed

def read (libs : Libs) (env : Env) : M (Option Block) := fun m =>
  if m.job.unconfirmed then .ok none m
  else
    match m.job.file m.job.fileNum, m.job.stream with
    | none, _ => .ok none (m.withJob { m.job with stream := none })
    | some _, none => .error .streamIsNone m
    | some entry, some stream =>
      match readBuf env m.disk stream with
      | none => .error .io (m.withJob m.job.nextFile)
      | some [] => .ok (some ⟨m.job.id, m.job.fileNum, [], false⟩) (m.withJob m.job.nextFile)
      | some buf =>
        let block := pack libs m.job (m.job.nameFor entry) buf
        .ok (some block) (m.withJob (m.job.advanced stream buf block))

/-! ### What a turn can do -/

/-- There is a current file, and it is open; it may just have been opened. -/
inductive Opens (env : Env) (m : Machine) : Machine → Prop where
  | already {entry : FileEntry} {stream : Stream} (hfile : m.job.file m.job.fileNum = some entry)
      (hstream : m.job.stream = some stream) : Opens env m m
  | now {entry : FileEntry} {i : ℕ} (hfile : m.job.file m.job.fileNum = some entry)
      (hstream : m.job.stream = none) (hopen : m.open_ env (m.job.path entry) = some i) :
      Opens env m ((m.note (.opened (m.job.path entry) i)).withJob (m.job.opened i))

inductive Inits (env : Env) (m : Machine) :
    EStateM.Result Error Machine (Option Digest) → Prop where
  | past (hfile : m.job.file m.job.fileNum = none) :
      Inits env m (.ok none (m.withJob { m.job with stream := none }))
  | lost {entry : FileEntry} (hfile : m.job.file m.job.fileNum = some entry)
      (hstream : m.job.stream = none) (hopen : m.open_ env (m.job.path entry) = none) :
      Inits env m (.error .io (m.withJob m.job.nextFile))
  | ready {m' : Machine} (hopen : Opens env m m') (hneeds : ¬m'.job.needsDigest) :
      Inits env m (.ok none m')
  | noDigest {m' : Machine} {e : Error} (hopen : Opens env m m') (hneeds : m'.job.needsDigest)
      (hdigest : getCurrentDigest env m' = .error e) : Inits env m (.error e m')
  | digest {m' : Machine} {lastModified fileSize : ℕ} (hopen : Opens env m m')
      (hneeds : m'.job.needsDigest)
      (hdigest : getCurrentDigest env m' = .ok (lastModified, fileSize)) :
      Inits env m
        (.ok (some ⟨m'.job.id, m'.job.fileNum, lastModified, fileSize, m'.job.isResume⟩)
          (m'.withJob { m'.job with fileIsWaiting := true }))

lemma inits_of_opens {m' : Machine} (hopen : Opens env m m')
    (hrun : openDataStream env m = .ok false m') : Inits env m (initDataStream env m) := by
  rw [initDataStream, hrun]
  dsimp only
  by_cases hneeds : m'.job.needsDigest
  · rw [if_pos hneeds]
    cases hdigest : getCurrentDigest env m' with
    | error e => exact .noDigest hopen hneeds hdigest
    | ok digest => exact .digest hopen hneeds hdigest
  · rw [if_neg hneeds]
    exact .ready hopen hneeds

lemma inits (env : Env) (m : Machine) : Inits env m (initDataStream env m) := by
  cases hfile : m.job.file m.job.fileNum with
  | none =>
    have hrun : openDataStream env m = .ok true (m.withJob { m.job with stream := none }) := by
      simp only [openDataStream, hfile]
    rw [initDataStream, hrun]
    exact .past hfile
  | some entry =>
    cases hstream : m.job.stream with
    | some stream =>
      apply inits_of_opens (.already hfile hstream)
      simp [openDataStream, hfile, hstream]
    | none =>
      cases hopen : m.open_ env (m.job.path entry) with
      | some i =>
        apply inits_of_opens (.now hfile hstream hopen)
        simp [openDataStream, hfile, hstream, hopen]
      | none =>
        have hrun : openDataStream env m = .error .io (m.withJob m.job.nextFile) := by
          simp [openDataStream, hfile, hstream, hopen]
        rw [initDataStream, hrun]
        exact .lost hfile hstream hopen

lemma Inits.fixed_eq {r : EStateM.Result Error Machine (Option Digest)} (h : Inits env m r) :
    (Prog.stateOf r).job.fixed = m.job.fixed := by
  have hopens : ∀ {m' : Machine}, Opens env m m' → m'.job.fixed = m.job.fixed := by
    rintro _ (_ | _) <;> rfl
  cases h with
  | past => rfl
  | lost => rfl
  | ready hopen => exact hopens hopen
  | noDigest hopen => exact hopens hopen
  | digest hopen =>
    have := hopens hopen
    exact this

inductive Reads (libs : Libs) (env : Env) (m : Machine) :
    EStateM.Result Error Machine (Option Block) → Prop where
  | unconfirmed (hconf : m.job.unconfirmed) : Reads libs env m (.ok none m)
  | past (hconf : ¬m.job.unconfirmed) (hfile : m.job.file m.job.fileNum = none) :
      Reads libs env m (.ok none (m.withJob { m.job with stream := none }))
  | noStream (hconf : ¬m.job.unconfirmed) (hstream : m.job.stream = none) :
      Reads libs env m (.error .streamIsNone m)
  | broken {stream : Stream} (hconf : ¬m.job.unconfirmed) (hstream : m.job.stream = some stream)
      (hbuf : readBuf env m.disk stream = none) :
      Reads libs env m (.error .io (m.withJob m.job.nextFile))
  | atEnd {entry : FileEntry} {stream : Stream} (hconf : ¬m.job.unconfirmed)
      (hfile : m.job.file m.job.fileNum = some entry) (hstream : m.job.stream = some stream)
      (hbuf : readBuf env m.disk stream = some []) :
      Reads libs env m
        (.ok (some ⟨m.job.id, m.job.fileNum, [], false⟩) (m.withJob m.job.nextFile))
  | block {entry : FileEntry} {stream : Stream} {buf : Bytes} (hconf : ¬m.job.unconfirmed)
      (hfile : m.job.file m.job.fileNum = some entry) (hstream : m.job.stream = some stream)
      (hbuf : readBuf env m.disk stream = some buf) (hne : buf ≠ []) :
      Reads libs env m (.ok (some (pack libs m.job (m.job.nameFor entry) buf))
        (m.withJob (m.job.advanced stream buf (pack libs m.job (m.job.nameFor entry) buf))))

lemma reads (libs : Libs) (env : Env) (m : Machine) : Reads libs env m (read libs env m) := by
  by_cases hconf : m.job.unconfirmed
  · rw [read, if_pos hconf]
    exact .unconfirmed hconf
  · rw [read, if_neg hconf]
    cases hfile : m.job.file m.job.fileNum with
    | none => exact .past hconf hfile
    | some entry =>
      cases hstream : m.job.stream with
      | none => exact .noStream hconf hstream
      | some stream =>
        dsimp only
        cases hbuf : readBuf env m.disk stream with
        | none => exact .broken hconf hstream hbuf
        | some buf =>
          cases buf with
          | nil => exact .atEnd hconf hfile hstream hbuf
          | cons b bs => exact .block hconf hfile hstream hbuf (List.cons_ne_nil b bs)

lemma Reads.fixed_eq {libs : Libs} {r : EStateM.Result Error Machine (Option Block)}
    (h : Reads libs env m r) : (Prog.stateOf r).job.fixed = m.job.fixed := by
  cases h <;> rfl

/-! ### Jobs side by side -/

/-- `init_data_stream` for one job of `init_jobs`: what it becomes and what is sent. -/
def initJob (disk : Disk) (env : Env) (job : TransferJob) : TransferJob × List Out :=
  if job.isLastJob then (job, [])
  else
    match initDataStream env ⟨job, disk, []⟩ with
    | .ok none m => (m.job, [])
    | .ok (some digest) m => (m.job, [.digest digest])
    | .error e m => (m.job, [.error m.job.id (some e) m.job.fileNum])

/-- What becomes of the job that is read: it goes on, or it is finished, by itself or skipped. -/
inductive Turn where
  | goesOn
  | skipped
  | done
  deriving DecidableEq

/-- The turn of the first job in `handle_read_jobs`. -/
def readJob (libs : Libs) (disk : Disk) (env : Env) (job : TransferJob) :
    TransferJob × List Out × Turn :=
  match read libs env ⟨job, disk, []⟩ with
  | .error e m => (m.job, [.error m.job.id (some e) m.job.fileNum], .goesOn)
  | .ok (some block) m => (m.job, [.block block], .goesOn)
  | .ok none m =>
    if m.job.jobCompleted then
      if m.job.jobSkipped then (m.job, [.error m.job.id none m.job.fileNum], .skipped)
      else (m.job, [.done m.job.id m.job.fileNum], .done)
    else (m.job, [], .goesOn)

/-- The jobs that are read on one side, what was sent for them, and those that ended with a
`FileTransferDone`, as they were then. -/
structure Readers where
  disk : Disk
  jobs : List TransferJob
  sent : List Out
  finished : List TransferJob

def removeJob (id : ℤ) (jobs : List TransferJob) : List TransferJob :=
  jobs.eraseP fun job => job.id = id

/-- The first job with an id, and its place. -/
def getJob (id : ℤ) (jobs : List TransferJob) : Option (ℕ × TransferJob) :=
  (jobs.findIdx? fun job => job.id = id).bind fun i => jobs[i]?.map fun job => (i, job)

lemma getJob_some {id : ℤ} {jobs : List TransferJob} {i : ℕ} {job : TransferJob}
    (h : getJob id jobs = some (i, job)) : jobs[i]? = some job ∧ job.id = id := by
  obtain ⟨j, hfind, hget⟩ := Option.bind_eq_some_iff.mp h
  obtain ⟨job', hget, heq⟩ := Option.map_eq_some_iff.mp hget
  cases heq
  refine ⟨hget, ?_⟩
  obtain ⟨hlt, hjob, -⟩ := List.findIdx?_eq_some_iff_getElem.mp hfind
  rw [List.getElem?_eq_getElem hlt] at hget
  cases hget
  exact of_decide_eq_true hjob

/-- `init_jobs`; each job has an environment of its own. -/
def initJobs (disk : Disk) : (ℕ → Env) → List TransferJob → List TransferJob × List Out
  | _, [] => ([], [])
  | envs, job :: jobs =>
    let (job, out) := initJob disk (envs 0) job
    let (jobs, outs) := initJobs disk (fun i => envs (i + 1)) jobs
    (job :: jobs, out ++ outs)

/-- The loop of `handle_read_jobs`, which ends after the first job that has a turn. -/
def readFirst (libs : Libs) (disk : Disk) :
    (ℕ → Env) → List TransferJob → List TransferJob × List Out × Option (TransferJob × Turn)
  | _, [] => ([], [], none)
  | envs, job :: jobs =>
    if job.isLastJob then
      let (jobs, out, turn) := readFirst libs disk (fun i => envs (i + 1)) jobs
      (job :: jobs, out, turn)
    else
      let (job, out, turn) := readJob libs disk (envs 0) job
      (job :: jobs, out, some (job, turn))

def handleReadJobs (libs : Libs) (envs : ℕ → Env) (w : Readers) : Readers :=
  let (jobs, outs) := initJobs w.disk envs w.jobs
  let (jobs, out, turn) := readFirst libs w.disk envs jobs
  let w := { w with jobs, sent := w.sent ++ outs ++ out }
  match turn with
  | some (job, .done) =>
    { w with jobs := removeJob job.id w.jobs, finished := w.finished ++ [job] }
  | some (job, .skipped) => { w with jobs := removeJob job.id w.jobs }
  | _ => w

/-- A confirmation from the peer, for the first job with its id. -/
def confirmJob (env : Env) (r : SendConfirm) (w : Readers) : Readers :=
  match getJob r.id w.jobs with
  | none => w
  | some (i, _) =>
    { w with jobs := w.jobs.modify i fun job => (confirm env ⟨job, w.disk, []⟩ r).job }

end RustDesk.FileTransfer
