import RustDesk.FileTransfer.Read
import RustDesk.Lib.Transition

/-!
# When a read job is done

`handle_read_jobs` takes a job for complete when nothing was read and its current file is neither
confirmed nor waiting. Both flags are also cleared when the file cannot be opened or its digest
cannot be taken, and the same turn goes on to read: the job is reported as done with files left.
It is not in runs where this does not happen to the job whose turn it is.
-/

namespace RustDesk.FileTransfer

open Prog

variable {job : TransferJob} {envs : ℕ → Env} {libs : Libs} {w : Readers}

/-! ### One turn -/

/-- A job at its turn: `init_data_stream`, then `read`. -/
def turn (libs : Libs) (disk : Disk) (env : Env) (job : TransferJob) : TransferJob × Turn :=
  let (job, _, turn) := readJob libs disk env (initJob disk env job).1
  (job, turn)

/-- The digest of an open file cannot be taken. -/
def noDigest (disk : Disk) (env : Env) (i : ℕ) : Bool :=
  .fstat ∈ env.fails ∨ disk.nodes[i]? = none

/-- The current file is neither confirmed nor waiting to be. -/
def TransferJob.idle (job : TransferJob) : Bool := !job.fileConfirmed && !job.fileIsWaiting

/-- At its turn the job will clear its flags with files left: its current file cannot be opened and
another follows, its digest is due and cannot be taken, or its file number is negative. -/
def hindered (disk : Disk) (env : Env) (job : TransferJob) : Bool :=
  job.enableOverwriteDetection && !job.jobSkipped &&
    match job.file job.fileNum with
    | none => job.fileNum < 0 && job.idle
    | some entry =>
      match job.stream with
      | some stream => job.needsDigest && noDigest disk env stream.ino
      | none =>
        match Machine.open_ ⟨job, disk, []⟩ env (job.path entry) with
        | some i => noDigest disk env i
        | none => job.fileNum + 1 < job.files.length

lemma TransferJob.file_eq_none {k : ℤ} (h : job.file k = none) :
    k < 0 ∨ (job.files.length : ℤ) ≤ k := by
  rw [file] at h
  split_ifs at h with hk
  · have := List.getElem?_eq_none_iff.mp h
    omega
  · omega

lemma TransferJob.file_lt {k : ℤ} {entry : FileEntry} (h : job.file k = some entry) :
    0 ≤ k ∧ k < job.files.length := by
  rw [file] at h
  split_ifs at h with hk
  have := (List.getElem?_eq_some_iff.mp h).1
  omega

section Turn

variable {disk : Disk} {env : Env} {m : Machine}

lemma initJob_fst (hlast : ¬job.isLastJob) :
    (initJob disk env job).1 = (stateOf (initDataStream env ⟨job, disk, []⟩)).job := by
  rw [initJob, if_neg hlast]
  rcases initDataStream env ⟨job, disk, []⟩ with ⟨_ | digest, m⟩ | ⟨e, m⟩ <;> rfl

lemma readJob_of_confirmed (hdet : job.enableOverwriteDetection) (h : job.fileConfirmed) :
    (readJob libs disk env job).2.2 ≠ .done := by
  have hreads := reads libs env ⟨job, disk, []⟩
  rw [readJob]
  cases hread : read libs env ⟨job, disk, []⟩ with
  | error e m => simp
  | ok block m =>
    cases block with
    | some block => simp
    | none =>
      have hm : m.job.enableOverwriteDetection ∧ m.job.fileConfirmed := by
        rw [hread] at hreads
        cases hreads with
        | unconfirmed hconf => exact ⟨hdet, h⟩
        | past hconf hfile => exact ⟨hdet, h⟩
      have hcompleted : ¬m.job.jobCompleted := by simp [TransferJob.jobCompleted, hm.1, hm.2]
      dsimp only
      rw [if_neg hcompleted]
      simp

/-- Nothing is read of a file that is not confirmed, and then the flags decide. -/
lemma readJob_done_iff (hdet : job.enableOverwriteDetection) :
    (readJob libs disk env job).2.2 = .done ∧
      (readJob libs disk env job).1.fileNum < (readJob libs disk env job).1.files.length ↔
    job.idle ∧ ¬job.jobSkipped ∧ job.fileNum < job.files.length := by
  by_cases hc : job.fileConfirmed
  · have hidle : ¬job.idle := by simp [TransferJob.idle, hc]
    have hdone : (readJob libs disk env job).2.2 ≠ .done := readJob_of_confirmed hdet hc
    exact iff_of_false (fun h => hdone h.1) (fun h => hidle h.1)
  · have hread : read libs env ⟨job, disk, []⟩ = .ok none ⟨job, disk, []⟩ := by
      rw [read, if_pos (by simp [TransferJob.unconfirmed, hdet, hc])]
    have hcompleted : job.jobCompleted = job.idle := by
      simp [TransferJob.jobCompleted, TransferJob.idle, hdet]
    rw [readJob, hread]
    dsimp only
    rw [hcompleted]
    by_cases hi : job.idle <;> by_cases hs : job.jobSkipped <;> simp [hi, hs]

lemma noDigest_iff {stream : Stream} (h : m.job.stream = some stream) :
    (∃ e, getCurrentDigest env m = .error e) ↔ noDigest m.disk env stream.ino := by
  rw [getCurrentDigest, h, noDigest]
  by_cases hf : Call.fstat ∈ env.fails
  · simp [hf]
  · cases hn : m.disk.nodes[stream.ino]? <;> simp [hf, hn]

section

variable (hdet : job.enableOverwriteDetection)

include hdet

lemma needsDigest_eq_idle : job.needsDigest = job.idle := by
  simp [TransferJob.needsDigest, TransferJob.idle, hdet]

/-- With the current file open, only its digest can be in the way. -/
lemma hindered_of_opens (h : Opens env ⟨job, disk, []⟩ m) :
    ∃ stream, m.job.stream = some stream ∧ m.disk = disk ∧
      m.job.enableOverwriteDetection ∧ m.job.jobSkipped = job.jobSkipped ∧
      m.job.fileNum < m.job.files.length ∧
      (hindered disk env job ↔
        ¬job.jobSkipped ∧ m.job.needsDigest ∧ noDigest disk env stream.ino) := by
  cases h with
  | already hfile hstream =>
    dsimp only at hfile hstream
    refine ⟨_, hstream, rfl, hdet, rfl, (TransferJob.file_lt hfile).2, ?_⟩
    simp [hindered, hdet, hfile, hstream]
  | now hfile hstream hopen =>
    dsimp only at hfile hstream hopen
    refine ⟨_, rfl, rfl, hdet, rfl, (TransferJob.file_lt hfile).2, ?_⟩
    have hneeds : ∀ i, (job.opened i).needsDigest := fun i => by
      simp [TransferJob.needsDigest, TransferJob.opened, hdet]
    simp [hindered, hdet, hfile, hstream, hopen, hneeds]

/-- What `init_data_stream` leaves behind is idle with files left exactly when it was hindered. -/
lemma idle_iff_hindered
    {r : EStateM.Result Error Machine (Option Digest)} (h : Inits env ⟨job, disk, []⟩ r) :
    (stateOf r).job.enableOverwriteDetection ∧
      ((stateOf r).job.idle ∧ ¬(stateOf r).job.jobSkipped ∧
        (stateOf r).job.fileNum < (stateOf r).job.files.length ↔
      hindered disk env job) := by
  cases h with
  | past hfile =>
    have hrange : job.fileNum < job.files.length ↔ job.fileNum < 0 := by
      have := TransferJob.file_eq_none hfile
      dsimp only at this
      omega
    refine ⟨hdet, ?_⟩
    simp only [hindered, hdet, hfile, Bool.true_and, Bool.and_eq_true, Bool.not_eq_true',
      decide_eq_true_eq]
    show job.idle ∧ ¬job.jobSkipped ∧ job.fileNum < job.files.length ↔ _
    rw [hrange]
    simp only [Bool.not_eq_true]
    tauto
  | lost hfile hstream hopen =>
    dsimp only at hfile hstream hopen
    refine ⟨hdet, ?_⟩
    simp only [hindered, hdet, hfile, hstream, hopen, Bool.true_and, Bool.and_eq_true,
      Bool.not_eq_true', decide_eq_true_eq]
    show job.nextFile.idle ∧ ¬job.jobSkipped ∧ job.fileNum + 1 < job.files.length ↔ _
    simp only [Bool.not_eq_true]
    exact and_iff_right rfl
  | ready hopen hneeds =>
    obtain ⟨stream, -, -, hdet', -, -, hiff⟩ := hindered_of_opens hdet hopen
    refine ⟨hdet', ?_⟩
    rw [hiff]
    refine iff_of_false ?_ (fun h => hneeds h.2.1)
    rintro ⟨hidle, -⟩
    exact hneeds (needsDigest_eq_idle hdet' ▸ hidle)
  | noDigest hopen hneeds hdigest =>
    obtain ⟨stream, hstream, hdisk, hdet', hskip, hlt, hiff⟩ := hindered_of_opens hdet hopen
    refine ⟨hdet', ?_⟩
    have hno : noDigest disk env stream.ino := hdisk ▸ (noDigest_iff hstream).mp ⟨_, hdigest⟩
    rw [hiff, ← hskip]
    refine ⟨fun h => ⟨h.2.1, hneeds, hno⟩, fun h => ⟨?_, h.1, hlt⟩⟩
    exact needsDigest_eq_idle hdet' ▸ hneeds
  | digest hopen hneeds hdigest =>
    obtain ⟨stream, hstream, hdisk, hdet', hskip, hlt, hiff⟩ := hindered_of_opens hdet hopen
    refine ⟨hdet', ?_⟩
    rw [hiff]
    refine iff_of_false ?_ ?_
    · rintro ⟨hidle, -⟩
      simp [stateOf, TransferJob.idle] at hidle
    · rintro ⟨-, -, hno⟩
      obtain ⟨e, he⟩ := noDigest_iff hstream |>.mpr (hdisk.symm ▸ hno)
      rw [he] at hdigest
      cases hdigest

/-- At its turn a job is reported as done with files left exactly when it is hindered. -/
lemma turn_done_iff (hlast : ¬job.isLastJob) : (turn libs disk env job).2 = .done ∧
      (turn libs disk env job).1.fileNum < (turn libs disk env job).1.files.length ↔
    hindered disk env job := by
  obtain ⟨hdet', hiff⟩ := idle_iff_hindered hdet (inits env ⟨job, disk, []⟩)
  have hturn : turn libs disk env job =
      ((readJob libs disk env (initJob disk env job).1).1,
        (readJob libs disk env (initJob disk env job).1).2.2) := rfl
  rw [hturn, initJob_fst hlast, ← hiff]
  exact readJob_done_iff hdet'

end

lemma initJob_fixed : (initJob disk env job).1.fixed = job.fixed := by
  by_cases hlast : job.isLastJob
  · rw [initJob, if_pos hlast]
  · rw [initJob_fst hlast]
    exact (inits env ⟨job, disk, []⟩).fixed_eq

lemma readJob_fixed : (readJob libs disk env job).1.fixed = job.fixed := by
  have hfst : (readJob libs disk env job).1 =
      (stateOf (read libs env ⟨job, disk, []⟩)).job := by
    rw [readJob]
    rcases read libs env ⟨job, disk, []⟩ with ⟨_ | block, m⟩ | ⟨e, m⟩
    · dsimp only [stateOf]
      split_ifs <;> rfl
    · rfl
    · rfl
  rw [hfst]
  exact (reads libs env ⟨job, disk, []⟩).fixed_eq

lemma turn_fixed : (turn libs disk env job).1.fixed = job.fixed :=
  readJob_fixed.trans initJob_fixed

end Turn

/-! ### Whole runs -/

/-- The job whose turn it is: the first that is not a restored one. -/
def firstActive : (ℕ → Env) → List TransferJob → Option (Env × TransferJob)
  | _, [] => none
  | envs, job :: jobs =>
    if job.isLastJob then firstActive (fun i => envs (i + 1)) jobs else some (envs 0, job)

lemma not_last_of_firstActive {jobs : List TransferJob} {env : Env}
    (h : firstActive envs jobs = some (env, job)) : ¬job.isLastJob := by
  induction jobs generalizing envs with
  | nil => cases h
  | cons first jobs ih =>
    rw [firstActive] at h
    split_ifs at h with hlast
    · exact ih h
    · cases h
      exact hlast

lemma readFirst_initJobs (libs : Libs) (disk : Disk) (envs : ℕ → Env) (jobs : List TransferJob) :
    (readFirst libs disk envs (initJobs disk envs jobs).1).2.2 =
      (firstActive envs jobs).map fun first => turn libs disk first.1 first.2 := by
  induction jobs generalizing envs with
  | nil => rfl
  | cons job jobs ih =>
    have hlast : (initJob disk (envs 0) job).1.isLastJob = job.isLastJob :=
      congrArg (·.2.2.2.1) initJob_fixed
    have hinit : (initJobs disk envs (job :: jobs)).1 =
        (initJob disk (envs 0) job).1 :: (initJobs disk (fun i => envs (i + 1)) jobs).1 := rfl
    rw [hinit, readFirst, firstActive, hlast]
    split_ifs with h
    · exact ih _
    · rfl

/-- What can happen to the jobs of one side: a tick of the timer, a confirmation from the peer, a
new job, a job that is dropped, and files that others change. -/
inductive Readers.Act where
  | tick (envs : ℕ → Env)
  | confirm (env : Env) (r : SendConfirm)
  | push (job : TransferJob)
  | remove (id : ℤ)
  | change (disk : Disk)

def Readers.step (libs : Libs) (w : Readers) : Readers.Act → Option Readers
  | .tick envs => some (handleReadJobs libs envs w)
  | .confirm env r => some (confirmJob env r w)
  | .push job => some { w with jobs := w.jobs ++ [job] }
  | .remove id => some { w with jobs := removeJob id w.jobs }
  | .change disk => some { w with disk }

/-- The jobs that are read on one side, from any that there are. -/
def readers (libs : Libs) : LTS Readers Readers.Act where
  init w := w.finished = []
  step := Readers.step libs

/-- Of every job with overwrite detection that was reported as done all files are over. -/
def Readers.AllOver (w : Readers) : Prop :=
  ∀ job ∈ w.finished, job.enableOverwriteDetection → (job.files.length : ℤ) ≤ job.fileNum

/-- The job whose turn it is is not hindered. -/
def Readers.unhindered (w : Readers) : Readers.Act → Bool
  | .tick envs =>
    match firstActive envs w.jobs with
    | some (env, job) => !hindered w.disk env job
    | none => true
  | _ => true

/-- The job that a tick reports as done, if it does. -/
def Readers.reported (libs : Libs) (w : Readers) (envs : ℕ → Env) : List TransferJob :=
  match (firstActive envs w.jobs).map fun first => turn libs w.disk first.1 first.2 with
  | some (job, .done) => [job]
  | _ => []

lemma handleReadJobs_finished (libs : Libs) (envs : ℕ → Env) (w : Readers) :
    (handleReadJobs libs envs w).finished = w.finished ++ w.reported libs envs := by
  rw [handleReadJobs, Readers.reported, ← readFirst_initJobs]
  dsimp only
  rcases (readFirst libs w.disk envs (initJobs w.disk envs w.jobs).1).2.2 with _ | ⟨job, _ | _ | _⟩
  · exact (List.append_nil _).symm
  · exact (List.append_nil _).symm
  · exact (List.append_nil _).symm
  · rfl

lemma mem_reported :
    job ∈ w.reported libs envs ↔ ∃ env first, firstActive envs w.jobs = some (env, first) ∧
      (turn libs w.disk env first).1 = job ∧ (turn libs w.disk env first).2 = .done := by
  rw [Readers.reported]
  cases hfirst : firstActive envs w.jobs with
  | none => simp
  | some first =>
    obtain ⟨env, first⟩ := first
    rcases hturn : turn libs w.disk env first with ⟨job', _ | _ | _⟩ <;>
      simp [hturn, eq_comm (a := job)]

lemma Readers.unhindered_tick_iff : w.unhindered (.tick envs) ↔
    ∀ env job, firstActive envs w.jobs = some (env, job) → ¬hindered w.disk env job := by
  rw [unhindered]
  cases firstActive envs w.jobs with
  | none => simp
  | some first => obtain ⟨env, job⟩ := first; simp

/-- What a tick reports as done is over exactly when the job whose turn it is is not hindered. -/
lemma reported_over_iff : (∀ job ∈ w.reported libs envs, job.enableOverwriteDetection →
      (job.files.length : ℤ) ≤ job.fileNum) ↔ w.unhindered (.tick envs) := by
  have hdetect : ∀ env first, (turn libs w.disk env first).1.enableOverwriteDetection =
      first.enableOverwriteDetection := fun env first => congrArg (·.2.2.2.2) turn_fixed
  rw [Readers.unhindered_tick_iff]
  constructor
  · intro h env first hfirst hhind
    have hdet : first.enableOverwriteDetection := by
      simp only [hindered, Bool.and_eq_true] at hhind
      exact hhind.1.1
    obtain ⟨hdone, hlt⟩ := (turn_done_iff hdet (not_last_of_firstActive hfirst)).mpr hhind
    have hle := h _ (mem_reported.mpr ⟨env, first, hfirst, rfl, hdone⟩) ((hdetect _ _).trans hdet)
    exact absurd hlt (not_lt.mpr hle)
  · intro h job hjob hdet
    obtain ⟨env, first, hfirst, rfl, hdone⟩ := mem_reported.mp hjob
    rw [hdetect] at hdet
    by_contra hlt
    apply h env first hfirst
    exact (turn_done_iff hdet (not_last_of_firstActive hfirst)).mp ⟨hdone, not_le.mp hlt⟩

lemma Readers.step_finished {w' : Readers} {a : Readers.Act} (h : w.step libs a = some w') :
    (∃ envs, a = .tick envs ∧ w'.finished = w.finished ++ w.reported libs envs) ∨
      w'.finished = w.finished ∧ w.unhindered a := by
  cases a with
  | tick envs =>
    cases h
    exact .inl ⟨envs, rfl, handleReadJobs_finished libs envs w⟩
  | confirm env r =>
    cases h
    rw [confirmJob]
    split
    · exact .inr ⟨rfl, rfl⟩
    · exact .inr ⟨rfl, rfl⟩
  | push job | remove id | change disk => cases h; exact .inr ⟨rfl, rfl⟩

/-- The step lemma: a step keeps what was reported, and adds a wrong report exactly when the job
whose turn it is is hindered. -/
lemma Readers.allOver_step_iff {w' : Readers} {a : Readers.Act} (h : w.step libs a = some w') :
    w'.AllOver ↔ w.AllOver ∧ w.unhindered a := by
  rcases step_finished h with ⟨envs, rfl, hfin⟩ | ⟨hfin, hok⟩
  · simp only [AllOver, hfin, List.mem_append, or_imp, forall_and]
    rw [reported_over_iff]
  · simp only [AllOver, hfin, hok, and_true]

/-- A job is reported as done only with all its files over, exactly when at no tick the job whose
turn it is fails to open its file with another to follow, or to take a digest that is due. -/
theorem done_iff_unhindered {libs : Libs} {w w' : Readers} {acts : List Readers.Act}
    (hstart : (readers libs).init w) (h : (readers libs).run w acts = some w') :
    w'.AllOver ↔ ((readers libs).restrict Readers.unhindered).run w acts = some w' := by
  have hP : w.AllOver := by
    intro job hjob
    rw [show w.finished = [] from hstart] at hjob
    cases hjob
  refine LTS.run_restrict_iff (I := fun _ => True) (fun _ _ _ _ _ => trivial) ?_ ?_ ?_ h trivial hP
  · intro s a s' _ hs hok hstep
    exact (Readers.allOver_step_iff hstep).mpr ⟨hs, hok⟩
  · intro s a s' _ hok hstep hs'
    exact hok ((Readers.allOver_step_iff hstep).mp hs').2
  · intro s a s' _ hs hstep hs'
    exact hs ((Readers.allOver_step_iff hstep).mp hs').1

/-- A job with overwrite detection for the files `a` and `b`, or only for `a`, in a directory that
has both. -/
def sampleReaders (files : List FileEntry) : Readers where
  disk := ((FileSystem.empty.addFile (place ['d', '/', 'a'])).writeAt 0 0 [1]).addFile
    (place ['d', '/', 'b'])
  jobs := [{ id := 7, base := ['d'], files, fileNum := 0, enableOverwriteDetection := true }]
  sent := []
  finished := []

/-- A file of one byte: its digest goes out, it is confirmed, the block and the empty block are
sent, and only then is the job done. -/
theorem done_iff_unhindered_one_file :
    ∃ w ∈ (readers .plain).run (sampleReaders [⟨['a'], 0⟩])
        [.tick fun _ => {}, .confirm {} ⟨7, 0, some (.offsetBlk 0)⟩, .tick fun _ => {},
          .tick fun _ => {}, .tick fun _ => {}],
      w.finished.map (·.fileNum) = [1] ∧ w.AllOver :=
  LTS.exists_run_iff Readers.unhindered (by decide) fun _ => done_iff_unhindered rfl

/-- The first of two files cannot be opened: in the same turn the job is reported as done. -/
theorem done_with_file_left :
    ∃ w ∈ (readers .plain).run (sampleReaders [⟨['a'], 0⟩, ⟨['b'], 0⟩])
        [.tick fun _ => { fails := [.open_ ['d', '/', 'a']] }],
      w.sent = [.error 7 (some .io) 1, .done 7 1] ∧ ¬w.AllOver := by
  refine ⟨_, rfl, by decide, fun h => ?_⟩
  have hjob := h { id := 7, base := ['d'], files := [⟨['a'], 0⟩, ⟨['b'], 0⟩], fileNum := 1,
                   enableOverwriteDetection := true } (by decide) rfl
  revert hjob
  decide

end RustDesk.FileTransfer
