import RustDesk.FileTransfer.Arrival
import RustDesk.FileTransfer.Read
import Mathlib.Algebra.BigOperators.Intervals

/-!
# A transfer from end to end

One side reads a job and the other one writes it as a download. In a round the reading side has one
turn, the other side handles what was sent, and its answers go back. The two sides keep in step:
what has been read of a file is what has been written of it. Every round brings the end nearer, so
that in the end every file has arrived as it is at its source.
-/

namespace RustDesk.FileTransfer

open TransferJob

/-! ### Rounds -/

/-- Both sides of a transfer. -/
structure Transfer where
  sender : Readers
  receiver : Download

/-- What the system does in a round; whether the versions allow resuming is the same to the
receiver. -/
structure RoundEnv where
  reading : ℕ → Env
  confirming : Env
  receiving : Env
  canResume : Bool

def Out.id : Out → ℤ
  | .digest d => d.id
  | .block b => b.id
  | .error id _ _ => id
  | .done id _ => id

/-- A message of the reading side, for a job that is there. -/
def Download.receive (libs : Libs) (e : RoundEnv) (w : Download) (out : Out) : Download :=
  if w.live && out.id = w.m.job.id then
    match out with
    | .digest digest => w.onDigest libs e.receiving e.canResume digest
    | .block block => w.onBlock libs e.receiving block
    | .error _ _ _ => { w with live := false }
    | .done _ _ => w.onDone e.receiving
  else w

namespace Transfer

def round (libs : Libs) (e : RoundEnv) (w : Transfer) : Transfer :=
  let sender := handleReadJobs libs e.reading w.sender
  let receiver := (sender.sent.drop w.sender.sent.length).foldl (Download.receive libs e) w.receiver
  let answers := receiver.sent.drop w.receiver.sent.length
  { sender := answers.foldl (fun sender r => confirmJob e.confirming r sender) sender, receiver }

def run (libs : Libs) (envs : ℕ → RoundEnv) (w : Transfer) : ℕ → Transfer
  | 0 => w
  | n + 1 => round libs (envs n) (run libs envs w n)

end Transfer

/-! ### The side that reads -/

/-- A job that is read: its files are there. -/
structure Sending (disk : Disk) (sources : ℕ → Bytes) (job : TransferJob) : Prop where
  notLast : job.isLastJob = false
  download : job.download = none
  notSkipped : job.fileSkipped = false
  source : ∀ (f : ℕ) entry, job.files[f]? = some entry → ∃ i,
    disk.entry (place (job.path entry)) = some (.file i) ∧ disk.data i = some (sources f)

/-- The file `f` has not been opened. -/
structure Idle (f : ℕ) (job : TransferJob) : Prop where
  num : job.fileNum = f
  closed : job.stream = none
  unconfirmed : job.fileConfirmed = false
  notWaiting : job.fileIsWaiting = false

/-- The file `f` is open, and its digest has gone out. -/
structure Waiting (disk : Disk) (sources : ℕ → Bytes) (f : ℕ) (job : TransferJob) : Prop where
  num : job.fileNum = f
  stream : ∃ i, job.stream = some ⟨i, 0, .read, false⟩ ∧ disk.data i = some (sources f)
  detects : job.enableOverwriteDetection
  unconfirmed : job.fileConfirmed = false
  waiting : job.fileIsWaiting

/-- The file `f` is read; the next byte is the one at `pos`. -/
structure Underway (disk : Disk) (sources : ℕ → Bytes) (f pos : ℕ) (job : TransferJob) : Prop where
  num : job.fileNum = f
  stream : ∃ i, job.stream = some ⟨i, pos, .read, false⟩ ∧ disk.data i = some (sources f)
  confirmed : ¬job.unconfirmed

section Sender

variable {disk : Disk} {sources : ℕ → Bytes} {f pos : ℕ} {job job' : TransferJob} {env : Env}
  {libs : Libs} {entry : FileEntry} {w : Readers}

lemma Sending.congr (h : Sending disk sources job) (hfixed : job'.fixed = job.fixed)
    (hdownload : job'.download = none) (hskipped : job'.fileSkipped = false) :
    Sending disk sources job' := by
  obtain ⟨-, -, hfiles, -, hpath⟩ := path_congr hfixed
  have hlast : job'.isLastJob = job.isLastJob := congrArg (·.2.2.2.1) hfixed
  refine ⟨hlast.trans h.notLast, hdownload, hskipped, ?_⟩
  rw [hfiles, hpath]
  exact h.source

lemma file_fileNum (hnum : job.fileNum = f) : job.file job.fileNum = job.files[f]? := by
  rw [hnum, file_natCast]

/-- What is made smaller is restored. -/
def Libs.Restores (libs : Libs) : Prop :=
  ∀ bytes, (libs.compress bytes).length < bytes.length →
    libs.decompress (libs.compress bytes) = bytes

lemma unpack_pack {name : Path} {buf : Bytes} (hlibs : libs.Restores) :
    (pack libs job name buf).unpack libs = buf := by
  rw [pack]
  split_ifs with hshorter
  · rw [Bool.and_eq_true, decide_eq_true_eq] at hshorter
    exact hlibs buf hshorter.2
  · rfl

lemma pack_id (libs : Libs) (job : TransferJob) (name : Path) (buf : Bytes) :
    (pack libs job name buf).id = job.id ∧ (pack libs job name buf).fileNum = job.fileNum := by
  rw [pack]
  split_ifs <;> exact ⟨rfl, rfl⟩

lemma Underway.not_needsDigest (h : Underway disk sources f pos job) : ¬job.needsDigest := by
  intro hneeds
  rw [TransferJob.needsDigest, Bool.and_eq_true] at hneeds
  exact h.confirmed hneeds.1

section

variable (h : Sending disk sources job) (hentry : job.files[f]? = some entry)

include h hentry

lemma Opens.of_idle {m : Machine} (hidle : Idle f job) (hopen : Opens env ⟨job, disk, []⟩ m) :
    m.disk = disk ∧ ∃ i, disk.data i = some (sources f) ∧ m.job = job.opened i := by
  have hfile : job.file job.fileNum = some entry := (file_fileNum hidle.num).trans hentry
  obtain ⟨i, hino, hdata⟩ := h.source f entry hentry
  cases hopen with
  | already _ hstream => cases hidle.closed.symm.trans hstream
  | now hfile' _ hopen =>
    cases hfile.symm.trans hfile'
    rw [Machine.open_] at hopen
    split_ifs at hopen
    cases (FileSystem.ino_of_entry hino).symm.trans hopen
    exact ⟨rfl, _, hdata, rfl⟩

/-- Opening the next file: either its digest goes out, or it can be read. -/
lemma initJob_idle (hquiet : ∀ c, c ∉ env.fails) (hidle : Idle f job) :
    ∃ job' outs, initJob disk env job = (job', outs) ∧ Sending disk sources job' ∧
      job'.fixed = job.fixed ∧
      (Waiting disk sources f job' ∧ (∃ lastModified fileSize isResume,
          outs = [.digest ⟨job.id, f, lastModified, fileSize, isResume⟩]) ∨
        Underway disk sources f 0 job' ∧ outs = []) := by
  have hfile : job.file job.fileNum = some entry := (file_fileNum hidle.num).trans hentry
  rw [initJob, h.notLast, if_neg Bool.false_ne_true]
  have hinits := inits env ⟨job, disk, []⟩
  generalize initDataStream env ⟨job, disk, []⟩ = r at hinits
  cases hinits with
  | past hpast => cases hpast.symm.trans hfile
  | lost hfile' _ hopen =>
    cases hfile.symm.trans hfile'
    obtain ⟨i, hino, -⟩ := h.source f entry hentry
    rw [Machine.open_, if_neg (hquiet _)] at hopen
    cases (FileSystem.ino_of_entry hino).symm.trans hopen
  | @ready m hopen hneeds =>
    obtain ⟨-, i, hdata, hjob⟩ := hopen.of_idle h hentry hidle
    obtain ⟨opened, disk', trace⟩ := m
    subst hjob
    refine ⟨_, _, rfl, h.congr rfl h.download h.notSkipped, rfl,
      .inr ⟨⟨hidle.num, ⟨i, rfl, hdata⟩, fun hunconfirmed => hneeds ?_⟩, rfl⟩⟩
    rw [TransferJob.needsDigest, Bool.and_eq_true]
    exact ⟨hunconfirmed, rfl⟩
  | noDigest hopen _ hdigest =>
    obtain ⟨hdisk, i, hdata, hjob⟩ := hopen.of_idle h hentry hidle
    obtain ⟨node, hnode, -⟩ := Option.map_eq_some_iff.mp hdata
    simp [getCurrentDigest, hjob, TransferJob.opened, hquiet, hdisk, hnode] at hdigest
  | @digest m _ _ hopen hneeds _ =>
    obtain ⟨-, i, hdata, hjob⟩ := hopen.of_idle h hentry hidle
    obtain ⟨opened, disk', trace⟩ := m
    subst hjob
    rw [TransferJob.needsDigest, Bool.and_eq_true, Bool.and_eq_true] at hneeds
    refine ⟨_, _, rfl, h.congr rfl h.download h.notSkipped, rfl,
      .inl ⟨⟨hidle.num, ⟨i, rfl, hdata⟩, hneeds.1.1, rfl, rfl⟩, ?_⟩⟩
    exact ⟨_, _, _, by rw [← hidle.num]; rfl⟩

lemma initJob_underway (hunderway : Underway disk sources f pos job) :
    initJob disk env job = (job, []) := by
  have hfile : job.file job.fileNum = some entry := (file_fileNum hunderway.num).trans hentry
  obtain ⟨i, hstream, -⟩ := hunderway.stream
  have halready : ∀ {m : Machine}, Opens env ⟨job, disk, []⟩ m → m.job = job := by
    rintro m (_ | ⟨_, hclosed, _⟩)
    · rfl
    · cases hstream.symm.trans hclosed
  rw [initJob, h.notLast, if_neg Bool.false_ne_true]
  have hinits := inits env ⟨job, disk, []⟩
  generalize initDataStream env ⟨job, disk, []⟩ = r at hinits
  cases hinits with
  | past hpast => cases hpast.symm.trans hfile
  | lost _ hclosed _ => cases hstream.symm.trans hclosed
  | ready hopen _ => exact congrArg (·, []) (halready hopen)
  | noDigest hopen hneeds _ | digest hopen hneeds _ =>
    exact absurd (halready hopen ▸ hneeds) hunderway.not_needsDigest

/-- A block has the next bytes of the file; an empty one ends it. -/
lemma readJob_underway (hreads : none ∉ env.reads) (hlibs : libs.Restores)
    (hunderway : Underway disk sources f pos job) :
    ∃ job' block, readJob libs disk env job = (job', [.block block], .goesOn) ∧
      Sending disk sources job' ∧ job'.fixed = job.fixed ∧ block.id = job.id ∧ block.fileNum = f ∧
      block.unpack libs = ((sources f).drop pos).take bufSize ∧
      (block.unpack libs = [] → Idle (f + 1) job') ∧
      (block.unpack libs ≠ [] →
        Underway disk sources f (pos + (block.unpack libs).length) job') := by
  have hfile : job.file job.fileNum = some entry := (file_fileNum hunderway.num).trans hentry
  obtain ⟨i, hstream, hdata⟩ := hunderway.stream
  have hbuf : readBuf env disk ⟨i, pos, .read, false⟩ =
      some (((sources f).drop pos).take bufSize) := by
    rw [readBuf, if_neg Mode.noConfusion, hdata]
    exact fill_of_no_error hreads _ _
  rw [readJob]
  have hreads := reads libs env ⟨job, disk, []⟩
  generalize read libs env ⟨job, disk, []⟩ = r at hreads
  cases hreads with
  | unconfirmed hconf => exact absurd hconf hunderway.confirmed
  | past _ hpast => cases hpast.symm.trans hfile
  | noStream _ hnone => cases hnone.symm.trans hstream
  | broken _ hstream' hbroken =>
    cases hstream.symm.trans hstream'
    cases hbuf.symm.trans hbroken
  | atEnd _ hfile' hstream' hend =>
    cases hstream.symm.trans hstream'
    have hempty := Option.some.inj (hbuf.symm.trans hend)
    refine ⟨_, _, rfl, h.congr rfl h.download h.notSkipped, rfl, rfl, hunderway.num, ?_, ?_, ?_⟩
    · rw [hempty]
      rfl
    · intro _
      refine ⟨?_, rfl, rfl, rfl⟩
      rw [Nat.cast_succ, ← hunderway.num]
      rfl
    · exact fun hne => absurd rfl hne
  | block _ hfile' hstream' hblock hne =>
    cases hstream.symm.trans hstream'
    have hbuf := Option.some.inj (hbuf.symm.trans hblock)
    obtain ⟨hid, hnum⟩ := pack_id libs job (job.nameFor _) _
    refine ⟨_, _, rfl, h.congr rfl h.download h.notSkipped, rfl, hid, hnum.trans hunderway.num, ?_,
      ?_, ?_⟩
    · rw [unpack_pack hlibs, hbuf]
    · intro hempty
      rw [unpack_pack hlibs] at hempty
      exact absurd hempty hne
    · intro _
      rw [unpack_pack hlibs]
      exact ⟨hunderway.num, ⟨i, rfl, hdata⟩, hunderway.confirmed⟩

end

/-- Nothing is read before the confirmation. -/
lemma readJob_waiting (h : Waiting disk sources f job) :
    readJob libs disk env job = (job, [], .goesOn) := by
  have hunconfirmed : job.unconfirmed := by
    rw [TransferJob.unconfirmed, h.detects, h.unconfirmed]
    rfl
  have hcompleted : job.jobCompleted = false := by
    rw [TransferJob.jobCompleted, h.detects, h.unconfirmed, h.waiting]
    rfl
  rw [readJob, read, if_pos hunconfirmed]
  exact if_neg (by rw [hcompleted]; exact Bool.false_ne_true)

lemma confirm_waiting (env : Env) (hdownload : job.download = none)
    (h : Waiting disk sources f job) (id : ℤ) :
    Underway disk sources f 0 (confirm env ⟨job, disk, []⟩ ⟨id, f, some (.offsetBlk 0)⟩).job ∧
      (confirm env ⟨job, disk, []⟩ ⟨id, f, some (.offsetBlk 0)⟩).job =
        job.setFileConfirmed true := by
  have hconfirms : Confirms env ⟨job, disk, []⟩ ⟨id, f, some (.offsetBlk 0)⟩
      (confirm env ⟨job, disk, []⟩ ⟨id, f, some (.offsetBlk 0)⟩) := confirms hdownload _
  generalize confirm env ⟨job, disk, []⟩ ⟨id, f, some (.offsetBlk 0)⟩ = m at hconfirms
  cases hconfirms with
  | other hother =>
    rcases hother with hnum | hnone
    · exact absurd h.num hnum
    · cases hnone
  | skipped _ hunion => cases hunion
  | resumed _ hunion hpos _ =>
    cases hunion
    exact absurd hpos (by decide)
  | confirmed =>
    refine ⟨⟨h.num, h.stream, ?_⟩, rfl⟩
    rw [TransferJob.unconfirmed, Bool.and_eq_true]
    rintro ⟨-, hnot⟩
    cases hnot

lemma Idle.reset (h : Idle f job) : { job with stream := none } = job := by rw [← h.closed]

lemma confirmJob_single {r : SendConfirm} (hjobs : w.jobs = [job]) (hid : job.id = r.id) :
    confirmJob env r w = { w with jobs := [(confirm env ⟨job, w.disk, []⟩ r).job] } := by
  have hget : getJob r.id w.jobs = some (0, job) := by simp [getJob, hjobs, hid]
  rw [confirmJob, hget, hjobs]
  rfl

/-- When no file is left nothing is opened, and the job is over. -/
lemma initJob_past (h : Sending disk sources job) (hidle : Idle f job)
    (hpast : job.files[f]? = none) : initJob disk env job = (job, []) := by
  have hfile : job.file job.fileNum = none := (file_fileNum hidle.num).trans hpast
  have hnever : ∀ {m : Machine}, ¬Opens env ⟨job, disk, []⟩ m := by
    rintro m (⟨hsome, _⟩ | ⟨hsome, _, _⟩)
    · cases hfile.symm.trans hsome
    · cases hfile.symm.trans hsome
  rw [initJob, h.notLast, if_neg Bool.false_ne_true]
  have hinits := inits env ⟨job, disk, []⟩
  generalize initDataStream env ⟨job, disk, []⟩ = r at hinits
  cases hinits with
  | past =>
    exact congrArg (·, []) hidle.reset
  | lost hsome => cases hfile.symm.trans hsome
  | ready hopen | noDigest hopen | digest hopen => exact absurd hopen hnever

lemma readJob_past (h : Sending disk sources job) (hidle : Idle f job)
    (hpast : job.files[f]? = none) :
    readJob libs disk env job = (job, [.done job.id f], .done) := by
  have hfile : job.file job.fileNum = none := (file_fileNum hidle.num).trans hpast
  have hread : read libs env ⟨job, disk, []⟩ = .ok none ⟨job, disk, []⟩ := by
    rw [read]
    split_ifs
    · rfl
    · simp only [hfile]
      exact congrArg (fun job => EStateM.Result.ok none (⟨job, disk, []⟩ : Machine)) hidle.reset
  have hcompleted : job.jobCompleted := by
    rw [TransferJob.jobCompleted, hidle.unconfirmed, hidle.notWaiting]
    exact Bool.or_true _
  have hskipped : ¬job.jobSkipped := by
    rw [TransferJob.jobSkipped, h.notSkipped]
    exact Bool.false_ne_true
  rw [readJob, hread]
  simp only [if_pos hcompleted, if_neg hskipped, hidle.num]

/-- The only job has had its turn. -/
def Readers.turned (w : Readers) (job : TransferJob) (outs : List Out) : Turn → Readers
  | .goesOn => { w with jobs := [job], sent := w.sent ++ outs }
  | .skipped => { w with jobs := [], sent := w.sent ++ outs }
  | .done => { w with jobs := [], sent := w.sent ++ outs, finished := w.finished ++ [job] }

lemma handleReadJobs_single {envs : ℕ → Env} {job₁ job₂ : TransferJob} {outs out : List Out}
    {turn : Turn} (hjobs : w.jobs = [job]) (hinit : initJob w.disk (envs 0) job = (job₁, outs))
    (hlast : job₁.isLastJob = false)
    (hread : readJob libs w.disk (envs 0) job₁ = (job₂, out, turn)) :
    handleReadJobs libs envs w = w.turned job₂ (outs ++ out) turn := by
  simp only [handleReadJobs, hjobs, initJobs, hinit, readFirst, hlast, hread, List.append_nil,
    List.append_assoc]
  cases turn with
  | goesOn => rfl
  | skipped => simp [removeJob, Readers.turned]
  | done => simp [removeJob, Readers.turned]

end Sender

/-! ### The side that writes -/

lemma Accepts.congr {env : Env} {job job' : TransferJob} (h : Accepts env job)
    (hfixed : job'.fixed = job.fixed) : Accepts env job' := by
  obtain ⟨-, hbase, hfiles, -, hpath⟩ := path_congr hfixed
  rw [Accepts, hbase, hfiles, hpath]
  exact h

section Receiver

variable {sources : ℕ → Bytes} {f : ℕ} {w : Download} {e : RoundEnv} {written : Bytes}
  {entry : FileEntry} (libs : Libs) (hquiet : ∀ c, c ∉ e.receiving.fails)
  (haccepts : Accepts e.receiving w.m.job) (hlive : w.live)

include hquiet haccepts hlive

lemma receive_block {block : Block} (h : Before sources f written w.m)
    (hentry : w.m.job.files[f]? = some entry) (hid : block.id = w.m.job.id)
    (hnum : block.fileNum = f) : ∃ m', w.receive libs e (.block block) = { w with m := m' } ∧
      Writing sources f (written ++ block.unpack libs) m' ∧ m'.job.fixed = w.m.job.fixed := by
  obtain ⟨m', hblock, hm'⟩ := Download.onBlock_of_wp (w := w)
    (writeDownload_before hquiet haccepts hentry h hid hnum)
  refine ⟨m', ?_, hm'⟩
  rw [Download.receive, if_pos (by rw [hlive]; exact decide_eq_true hid)]
  exact hblock

lemma receive_digest (digest : Digest) (h : Ready sources f w.m)
    (hentry : w.m.job.files[f]? = some entry) (hid : digest.id = w.m.job.id)
    (hnum : digest.fileNum = f) : ∃ m', w.receive libs e (.digest digest) =
        { w with m := m', sent := w.sent ++ [⟨digest.id, f, some (.offsetBlk 0)⟩] } ∧
      Settled sources f m' ∧ m'.job.fixed = w.m.job.fixed := by
  have hfile : w.m.job.file digest.fileNum = some entry := by
    rw [hnum, file_natCast]
    exact hentry
  have hcheck : Prog.wp (downloadDigest libs e.receiving e.canResume digest)
      (fun result m' => result = .noSuchFile ∧ Settled sources f m' ∧
        m'.job.fixed = w.m.job.fixed) (fun _ _ => False) (w.m.setDigest digest) :=
    downloadDigest_ready hquiet haccepts hentry (h.setDigest digest) hnum
  obtain ⟨_, m', hdigest, rfl, hsettled, hfixed⟩ := Prog.wp_total hcheck
  refine ⟨m', ?_, hsettled, hfixed⟩
  rw [Download.receive, if_pos (by rw [hlive]; exact decide_eq_true hid)]
  rw [Download.onDigest, hfile, hdigest, ← hnum]
  rfl

lemma receive_done {id : ℤ} (n : ℤ) (h : Ready sources f w.m) (hid : id = w.m.job.id) :
    ∃ m', w.receive libs e (.done id n) = { w with m := m', live := false } ∧
      Others sources f m' ∧ m'.job.fixed = w.m.job.fixed := by
  obtain ⟨hsettled, hfixed⟩ := Prog.after_of_wp (finishDownload_ready hquiet haccepts h)
  refine ⟨(finishDownload e.receiving).after w.m, ?_, hsettled.others, hfixed⟩
  rw [Download.receive, if_pos (by rw [hlive]; exact decide_eq_true hid)]
  rfl

end Receiver

/-! ### Both sides in step -/

/-- The job is on both sides; `w₀` is how the transfer started. -/
structure Linked (sources : ℕ → Bytes) (w₀ w : Transfer) (job : TransferJob) : Prop where
  jobs : w.sender.jobs = [job]
  sending : Sending w.sender.disk sources job
  finished : w.sender.finished = w₀.sender.finished
  sameId : job.id = w₀.receiver.m.job.id
  count : job.files.length = w₀.receiver.m.job.files.length
  fixed : w.receiver.m.job.fixed = w₀.receiver.m.job.fixed
  live : w.receiver.live

/-- What is still to come of the files from `f` on. -/
def remaining (sources : ℕ → Bytes) (f n : ℕ) : ℕ := ∑ j ∈ Finset.Ico f n, ((sources j).length + 2)

/-- Where the two sides are, and a bound for the rounds that are left. -/
inductive Phase (sources : ℕ → Bytes) (w₀ w : Transfer) : ℕ → Prop where
  | idle {job : TransferJob} {f : ℕ} (hlinked : Linked sources w₀ w job) (hidle : Idle f job)
      (hle : f ≤ job.files.length) (hready : Ready sources f w.receiver.m) :
      Phase sources w₀ w (remaining sources f job.files.length)
  | underway {job : TransferJob} {f pos : ℕ} (hlinked : Linked sources w₀ w job)
      (hunderway : Underway w.sender.disk sources f pos job) (hlt : f < job.files.length)
      (hbefore : Before sources f ((sources f).take pos) w.receiver.m) :
      Phase sources w₀ w
        (remaining sources (f + 1) job.files.length + ((sources f).length - pos) + 1)

/-- The job is over, and all files have arrived. -/
structure Finished (sources : ℕ → Bytes) (w₀ w : Transfer) : Prop where
  jobs : w.sender.jobs = []
  finished : ∃ job : TransferJob, w.sender.finished = w₀.sender.finished ++ [job] ∧
    job.fileNum = w₀.receiver.m.job.files.length
  fixed : w.receiver.m.job.fixed = w₀.receiver.m.job.fixed
  others : Others sources w₀.receiver.m.job.files.length w.receiver.m

/-- In a round no call fails. -/
structure Quiet (e : RoundEnv) (job : TransferJob) : Prop where
  reading : ∀ i c, c ∉ (e.reading i).fails
  reads : ∀ i, none ∉ (e.reading i).reads
  receiving : ∀ c, c ∉ e.receiving.fails
  accepts : Accepts e.receiving job

section Rounds

variable {sources : ℕ → Bytes} {w₀ w : Transfer} {job job₁ : TransferJob} {e : RoundEnv}
  {libs : Libs} {f pos n μ : ℕ} {envs : ℕ → RoundEnv}

lemma remaining_succ (h : f < n) :
    remaining sources f n = (sources f).length + 2 + remaining sources (f + 1) n :=
  Finset.sum_eq_sum_Ico_succ_bot h _

lemma Transfer.round_eq {sender : Readers} {outs : List Out} {receiver : Download}
    {answers : List SendConfirm} (hturn : handleReadJobs libs e.reading w.sender = sender)
    (hsent : sender.sent = w.sender.sent ++ outs)
    (hreceive : outs.foldl (Download.receive libs e) w.receiver = receiver)
    (hanswers : receiver.sent = w.receiver.sent ++ answers) : w.round libs e =
      { sender := answers.foldl (fun sender r => confirmJob e.confirming r sender) sender
        receiver } := by
  rw [Transfer.round, hturn, hsent]
  simp only [List.drop_left, hreceive, hanswers]

lemma round_of_no_jobs (h : w.sender.jobs = []) : w.round libs e = w := by
  have hturn : handleReadJobs libs e.reading w.sender = w.sender := by
    simp only [handleReadJobs, h, initJobs, readFirst, List.append_nil]
    rw [← h]
  exact Transfer.round_eq hturn (List.append_nil _).symm rfl (List.append_nil _).symm

lemma Finished.round (h : Finished sources w₀ w) : Finished sources w₀ (w.round libs e) := by
  rw [round_of_no_jobs h.jobs]
  exact h

lemma exists_entry (hlinked : Linked sources w₀ w job) (hlt : f < job.files.length) :
    ∃ entry, w.receiver.m.job.files[f]? = some entry := by
  obtain ⟨-, -, hfiles, -, -⟩ := path_congr hlinked.fixed
  rw [hfiles]
  exact ⟨_, List.getElem?_eq_getElem (hlinked.count ▸ hlt)⟩

lemma Linked.id_eq (hlinked : Linked sources w₀ w job) : job.id = w.receiver.m.job.id :=
  hlinked.sameId.trans (path_congr hlinked.fixed).1.symm

/-- What has been written, and the block that comes next. -/
lemma take_append_chunk (source : Bytes) (pos size : ℕ) :
    source.take pos ++ (source.drop pos).take size =
      source.take (pos + ((source.drop pos).take size).length) := by
  rw [List.take_add]
  exact congrArg _ (List.prefix_iff_eq_take.mp (List.take_prefix size (source.drop pos)))

section

variable (hquiet : Quiet e w₀.receiver.m.job) (hlinked : Linked sources w₀ w job)

include hquiet hlinked

lemma block_round (hlibs : libs.Restores)
    (hinit : initJob w.sender.disk (e.reading 0) job = (job₁, []))
    (hsending : Sending w.sender.disk sources job₁) (hfixed : job₁.fixed = job.fixed)
    (hunderway : Underway w.sender.disk sources f pos job₁) (hlt : f < job.files.length)
    (hbefore : Before sources f ((sources f).take pos) w.receiver.m) :
    ∃ μ ≤ remaining sources (f + 1) job.files.length + ((sources f).length - pos),
      Phase sources w₀ (w.round libs e) μ := by
  obtain ⟨hid, -, hfiles, -, -⟩ := path_congr hfixed
  have hlt₁ : f < job₁.files.length := hfiles ▸ hlt
  obtain ⟨job₂, block, hread, hsending₂, hfixed₂, hblockId, hnum, hchunk, hend, hmore⟩ :=
    readJob_underway hsending (List.getElem?_eq_getElem hlt₁) (hquiet.reads 0) hlibs hunderway
  obtain ⟨hid₂, -, hfiles₂, -, -⟩ := path_congr hfixed₂
  obtain ⟨entry, hentry⟩ := exists_entry hlinked hlt
  obtain ⟨m', hreceive, hwriting, hfixed'⟩ := receive_block libs hquiet.receiving
    (hquiet.accepts.congr hlinked.fixed) hlinked.live hbefore hentry
    (by rw [hblockId, hid, hlinked.id_eq]) hnum
  have hturn := handleReadJobs_single hlinked.jobs hinit hsending.notLast hread
  have hround : w.round libs e = ⟨w.sender.turned job₂ [.block block] .goesOn,
      { w.receiver with m := m' }⟩ := Transfer.round_eq hturn rfl hreceive (List.append_nil _).symm
  rw [hround]
  have hlinked' : Linked sources w₀ ⟨w.sender.turned job₂ [.block block] .goesOn,
      { w.receiver with m := m' }⟩ job₂ := by
    refine ⟨rfl, hsending₂, hlinked.finished, ?_, ?_, hfixed'.trans hlinked.fixed, hlinked.live⟩
    · rw [hid₂, hid, hlinked.sameId]
    · rw [hfiles₂, hfiles, hlinked.count]
  rw [hchunk] at hwriting hend hmore
  have hcount : job₂.files.length = job.files.length := by rw [hfiles₂, hfiles]
  by_cases hempty : ((sources f).drop pos).take bufSize = []
  · -- the file has been read to its end
    have hlen : (sources f).length ≤ pos := by
      rcases List.take_eq_nil_iff.mp hempty with hzero | hnil
      · exact absurd hzero (by decide)
      · exact List.drop_eq_nil_iff.mp hnil
    rw [hempty, List.append_nil, List.take_of_length_le hlen] at hwriting
    have hphase := Phase.idle hlinked' (hend hempty) (hcount ▸ hlt) (.inr ⟨f, rfl, hwriting⟩)
    rw [hcount] at hphase
    exact ⟨_, Nat.le_add_right _ _, hphase⟩
  · rw [take_append_chunk] at hwriting
    have hphase := Phase.underway hlinked' (hmore hempty) (hcount ▸ hlt) (.inr hwriting)
    rw [hcount] at hphase
    refine ⟨_, ?_, hphase⟩
    have hpos : 0 < (((sources f).drop pos).take bufSize).length := List.length_pos_iff.mpr hempty
    have hle : (((sources f).drop pos).take bufSize).length ≤ (sources f).length - pos := by
      rw [← List.length_drop]
      exact List.length_take_le' bufSize _
    omega

lemma digest_round {lastModified fileSize : ℕ} {isResume : Bool}
    (hinit : initJob w.sender.disk (e.reading 0) job =
      (job₁, [.digest ⟨job.id, f, lastModified, fileSize, isResume⟩]))
    (hsending : Sending w.sender.disk sources job₁) (hfixed : job₁.fixed = job.fixed)
    (hwaiting : Waiting w.sender.disk sources f job₁) (hlt : f < job.files.length)
    (hready : Ready sources f w.receiver.m) : Phase sources w₀ (w.round libs e)
      (remaining sources (f + 1) job.files.length + ((sources f).length - 0) + 1) := by
  obtain ⟨hid, -, hfiles, -, -⟩ := path_congr hfixed
  obtain ⟨entry, hentry⟩ := exists_entry hlinked hlt
  obtain ⟨m', hreceive, hsettled, hfixed'⟩ := receive_digest libs
    hquiet.receiving (hquiet.accepts.congr hlinked.fixed) hlinked.live
    ⟨job.id, f, lastModified, fileSize, isResume⟩ hready hentry hlinked.id_eq rfl
  have hturn : handleReadJobs libs e.reading w.sender = w.sender.turned job₁
      [.digest ⟨job.id, f, lastModified, fileSize, isResume⟩] .goesOn :=
    handleReadJobs_single hlinked.jobs hinit hsending.notLast (readJob_waiting hwaiting)
  obtain ⟨hunderway, hjob⟩ := confirm_waiting e.confirming hsending.download hwaiting job.id
  rw [hjob] at hunderway
  have hround : w.round libs e = ⟨w.sender.turned (job₁.setFileConfirmed true)
      [.digest ⟨job.id, f, lastModified, fileSize, isResume⟩] .goesOn,
      { w.receiver with
        m := m', sent := w.receiver.sent ++ [⟨job.id, f, some (.offsetBlk 0)⟩] }⟩ := by
    rw [Transfer.round_eq hturn rfl hreceive rfl, List.foldl_cons, List.foldl_nil,
      confirmJob_single rfl hid]
    simp only [Readers.turned, hjob]
  rw [hround, show job.files = (job₁.setFileConfirmed true).files from hfiles.symm]
  refine .underway ?_ hunderway (hfiles.symm ▸ hlt) (.inl ⟨rfl, .inl hsettled⟩)
  exact ⟨rfl, hsending.congr rfl hsending.download rfl, hlinked.finished, hid.trans hlinked.sameId,
    (congrArg List.length hfiles).trans hlinked.count, hfixed'.trans hlinked.fixed, hlinked.live⟩

lemma done_round (hidle : Idle job.files.length job)
    (hready : Ready sources job.files.length w.receiver.m) :
    Finished sources w₀ (w.round libs e) := by
  have hpast : job.files[job.files.length]? = none := List.getElem?_eq_none le_rfl
  obtain ⟨m', hreceive, hothers, hfixed'⟩ := receive_done libs hquiet.receiving
    (hquiet.accepts.congr hlinked.fixed) hlinked.live job.files.length hready hlinked.id_eq
  have hturn : handleReadJobs libs e.reading w.sender =
      w.sender.turned job [.done job.id job.files.length] .done :=
    handleReadJobs_single hlinked.jobs (initJob_past hlinked.sending hidle hpast)
      hlinked.sending.notLast (readJob_past hlinked.sending hidle hpast)
  have hround : w.round libs e = ⟨w.sender.turned job [.done job.id job.files.length] .done,
      { w.receiver with m := m', live := false }⟩ :=
    Transfer.round_eq hturn rfl hreceive (List.append_nil _).symm
  rw [hround]
  refine ⟨rfl, ⟨job, ?_, ?_⟩, hfixed'.trans hlinked.fixed, ?_⟩
  · exact congrArg (· ++ [job]) hlinked.finished
  · rw [hidle.num, hlinked.count]
  · rw [← hlinked.count]
    exact hothers

end

lemma Phase.round (hquiet : Quiet e w₀.receiver.m.job) (hlibs : libs.Restores)
    (h : Phase sources w₀ w μ) :
    Finished sources w₀ (w.round libs e) ∨ ∃ μ' < μ, Phase sources w₀ (w.round libs e) μ' := by
  cases h with
  | @idle job f hlinked hidle hle hready =>
    rcases Nat.lt_or_eq_of_le hle with hlt | rfl
    · rw [remaining_succ hlt]
      obtain ⟨job₁, outs, hinit, hsending, hfixed, hopened⟩ := initJob_idle hlinked.sending
        (List.getElem?_eq_getElem hlt) (hquiet.reading 0) hidle
      rcases hopened with ⟨hwaiting, lastModified, fileSize, isResume, rfl⟩ | ⟨hunderway, rfl⟩
      · refine .inr ⟨_, ?_, digest_round hquiet hlinked hinit hsending hfixed hwaiting hlt hready⟩
        omega
      · obtain ⟨μ', hle, hphase⟩ := block_round hquiet hlinked hlibs hinit hsending hfixed hunderway
          hlt (.inl ⟨rfl, hready⟩)
        exact .inr ⟨μ', by omega, hphase⟩
    · exact .inl (done_round hquiet hlinked hidle hready)
  | underway hlinked hunderway hlt hbefore =>
    have hinit : initJob w.sender.disk (e.reading 0) _ = (_, []) :=
      initJob_underway hlinked.sending (List.getElem?_eq_getElem hlt) hunderway
    obtain ⟨μ', hle, hphase⟩ := block_round hquiet hlinked hlibs hinit hlinked.sending rfl hunderway
      hlt hbefore
    exact .inr ⟨μ', Nat.lt_succ_of_le hle, hphase⟩

lemma Phase.finishes (hquiet : ∀ n, Quiet (envs n) w₀.receiver.m.job) (hlibs : libs.Restores)
    (h : Phase sources w₀ (w.run libs envs n) μ) :
    ∃ n', Finished sources w₀ (w.run libs envs n') := by
  induction μ using Nat.strong_induction_on generalizing n with
  | _ μ ih =>
    rcases h.round (hquiet n) hlibs with hfinished | ⟨μ', hlt, hphase⟩
    · exact ⟨n + 1, hfinished⟩
    · exact ih μ' hlt (n := n + 1) hphase

lemma Finished.stays {n' : ℕ} (h : Finished sources w₀ (w.run libs envs n)) (hle : n ≤ n') :
    Finished sources w₀ (w.run libs envs n') := by
  induction n', hle using Nat.le_induction with
  | base => exact h
  | succ n' _ ih => exact ih.round

end Rounds

/-- A job that has not begun: the sources are there, and where its files belong there is nothing. -/
structure Transfer.Starts (sources : ℕ → Bytes) (w : Transfer) (job : TransferJob) : Prop where
  jobs : w.sender.jobs = [job]
  sending : Sending w.sender.disk sources job
  idle : Idle 0 job
  sameId : job.id = w.receiver.m.job.id
  count : job.files.length = w.receiver.m.job.files.length
  live : w.receiver.live
  plain : Plain w.receiver.m
  closed : w.receiver.m.job.stream = none
  blank : ∀ entry ∈ w.receiver.m.job.files,
    Blank w.receiver.m.disk (w.receiver.m.job.path entry)

/-- In the end every file is in its place with the bytes of its source and nothing is beside it, and
the job was read to its end. -/
theorem every_file_arrives {libs : Libs} {sources : ℕ → Bytes} {w : Transfer} {job : TransferJob}
    {envs : ℕ → RoundEnv} (hstart : w.Starts sources job)
    (hquiet : ∀ n, Quiet (envs n) w.receiver.m.job)
    (hlibs : ∀ bytes, (libs.compress bytes).length < bytes.length →
      libs.decompress (libs.compress bytes) = bytes) :
    ∃ n₀, ∀ n ≥ n₀,
      (∀ (f : ℕ) entry, w.receiver.m.job.files[f]? = some entry →
        Arrived (w.run libs envs n).receiver.m.disk (w.receiver.m.job.path entry) (sources f)) ∧
      ∃ done : TransferJob, (w.run libs envs n).sender.finished = w.sender.finished ++ [done] ∧
        done.fileNum = job.files.length := by
  have hphase : Phase sources w (w.run libs envs 0) (remaining sources 0 job.files.length) := by
    refine .idle ⟨hstart.jobs, hstart.sending, rfl, hstart.sameId, hstart.count, rfl, hstart.live⟩
      hstart.idle (Nat.zero_le _) (.inl ⟨hstart.plain, hstart.closed, ?_, ?_⟩)
    · intro j entry hentry
      exact ⟨fun hlt => absurd hlt (Nat.not_lt_zero j),
        fun _ => hstart.blank entry (List.mem_of_getElem? hentry)⟩
    · intro entry hentry
      exact hstart.blank entry (List.mem_of_getElem? hentry)
  obtain ⟨n₀, hfinished⟩ := hphase.finishes hquiet hlibs
  refine ⟨n₀, fun n hle => ?_⟩
  have hfinished := hfinished.stays hle
  obtain ⟨-, -, hfiles, -, hpath⟩ := path_congr hfinished.fixed
  obtain ⟨done, hdone, hnum⟩ := hfinished.finished
  refine ⟨fun f entry hentry => ?_, done, hdone, by rw [hnum, hstart.count]⟩
  have hlt : f < w.receiver.m.job.files.length := (List.getElem?_eq_some_iff.mp hentry).1
  rw [← hfiles] at hentry
  rw [← hpath]
  exact (hfinished.others f entry hentry).1 hlt

/-- Two bytes in the file `a`, none in the file `b`. -/
def twoFiles : Transfer where
  sender := {
    disk := ((FileSystem.empty.addFile (place "/s/a".toList)).writeAt 0 0 [1, 2]).addFile
      (place "/s/b".toList)
    jobs := [{
      id := 1
      base := "/s".toList
      files := [⟨"a".toList, 7⟩, ⟨"b".toList, 8⟩]
      fileNum := 0
      enableOverwriteDetection := true }]
    sent := []
    finished := [] }
  receiver := {
    m := {
      job := {
        id := 1
        base := "/t".toList
        files := [⟨"a".toList, 7⟩, ⟨"b".toList, 8⟩]
        fileNum := 0
        enableOverwriteDetection := true
        download := some none }
      disk := FileSystem.empty } }

def calm : RoundEnv := ⟨fun _ => {}, {}, {}, true⟩

lemma apart_twoFiles : Apart twoFiles.receiver.m.job := by
  intro j k entry other hj hk hne
  have hj' : j < 2 := (List.getElem?_eq_some_iff.mp hj).1
  have hk' : k < 2 := (List.getElem?_eq_some_iff.mp hk).1
  interval_cases j <;> interval_cases k
  case «0».«0» | «1».«1» => exact absurd rfl hne
  all_goals
    cases hj
    cases hk
    unfold Around
    decide

lemma starts_twoFiles : ∃ job, twoFiles.Starts (fun f => if f = 0 then [1, 2] else []) job := by
  have hsource : ∀ (f : ℕ) entry, twoFiles.receiver.m.job.files[f]? = some entry →
      ∃ i, twoFiles.sender.disk.entry (place (join "/s".toList entry.name)) = some (.file i) ∧
        twoFiles.sender.disk.data i = some (if f = 0 then [1, 2] else []) := by
    intro f entry hentry
    have hf : f < 2 := (List.getElem?_eq_some_iff.mp hentry).1
    interval_cases f
    · cases hentry
      exact ⟨0, by decide⟩
    · cases hentry
      exact ⟨1, by decide⟩
  have hblank : ∀ path, Blank twoFiles.receiver.m.disk path := fun path =>
    ⟨FileSystem.entry_empty _, FileSystem.entry_empty _, FileSystem.entry_empty _⟩
  exact ⟨_, rfl, ⟨rfl, rfl, rfl, hsource⟩, ⟨rfl, rfl, rfl, rfl⟩, rfl, rfl, rfl,
    ⟨rfl, apart_twoFiles⟩, rfl, fun _ _ => hblank _⟩

lemma quiet_twoFiles : Quiet calm twoFiles.receiver.m.job := by
  refine ⟨fun _ _ => List.not_mem_nil, fun _ => List.not_mem_nil, fun _ => List.not_mem_nil, ?_⟩
  show ∀ entry ∈ [(⟨"a".toList, 7⟩ : FileEntry), ⟨"b".toList, 8⟩],
    validatedTarget [] "/t".toList entry.name = some (join "/t".toList entry.name)
  decide

/-- The contents of the first get shorter. -/
def Libs.shorter : Libs :=
  { Libs.plain with
    compress := fun bytes => if bytes = [1, 2] then [0] else bytes
    decompress := fun packed => if packed = [0] then [1, 2] else packed }

lemma decompress_shorter (bytes : Bytes)
    (h : (Libs.shorter.compress bytes).length < bytes.length) :
    Libs.shorter.decompress (Libs.shorter.compress bytes) = bytes := by
  by_cases hbytes : bytes = [1, 2]
  · subst hbytes
    rfl
  · simp [Libs.shorter, hbytes] at h

/-- Both of them arrive, the first in a compressed block. -/
theorem every_file_arrives_two : ∃ n₀, ∀ n ≥ n₀,
    Arrived (twoFiles.run .shorter (fun _ => calm) n).receiver.m.disk "/t/a".toList [1, 2] ∧
    Arrived (twoFiles.run .shorter (fun _ => calm) n).receiver.m.disk "/t/b".toList [] := by
  obtain ⟨job, hstart⟩ := starts_twoFiles
  obtain ⟨n₀, h⟩ := @every_file_arrives .shorter _ _ _ (fun _ => calm) hstart
    (fun _ => quiet_twoFiles) decompress_shorter
  exact ⟨n₀, fun n hle => ⟨(h n hle).1 0 _ rfl, (h n hle).1 1 _ rfl⟩⟩

end RustDesk.FileTransfer
