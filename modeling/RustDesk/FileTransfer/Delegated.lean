import RustDesk.FileTransfer.Read
import RustDesk.Lib.Transition

/-!
# Read jobs in the connection manager

On Windows the connection delegates read jobs to the connection manager and forwards what the peer
confirms. The message carries the number of the file, but the request that is rebuilt from it has
the job's current number instead: the check in `confirm` cannot fail, and an answer that comes
twice confirms, skips or seeks a file that it does not name. When each digest is answered once at
most, an answer finds the file it names.
-/

namespace RustDesk.FileTransfer

variable {announced awaited : ℤ → Prop} {job : TransferJob}

/-! ### The two processes -/

/-- What the connection sends to the connection manager for read jobs. -/
inductive Fs where
  | readFile (path : Path) (id fileNum : ℤ) (overwriteDetection : Bool)
  | cancelRead (id : ℤ)
  | sendConfirmForRead (id fileNum : ℤ) (skip : Bool) (offsetBlk : UInt32)
  deriving DecidableEq

/-- The getters of the protocol's `oneof` have defaults. -/
def SendConfirm.skip (r : SendConfirm) : Bool :=
  match r.union with
  | some (.skip skip) => skip
  | _ => false

def SendConfirm.offsetBlk (r : SendConfirm) : UInt32 :=
  match r.union with
  | some (.offsetBlk offset) => offset
  | _ => 0

/-- A confirmation that was handled: the file it named, and the job before and after. -/
structure Handled where
  fileNum : ℤ
  before : TransferJob
  after : TransferJob
  deriving DecidableEq

/-- `requested` and `confirms` have what the peer has asked for and confirmed, and `sent` what it
was sent. -/
structure Delegation where
  disk : Disk
  cmReadJobIds : List ℤ := []
  inbox : List Fs := []
  readJobs : List TransferJob := []
  outbox : List Out := []
  sent : List Out := []
  requested : List ℤ := []
  confirms : List (ℤ × ℤ) := []
  handled : List Handled := []

/-- One round of the loop over the jobs: what the job becomes, what is sent, and whether the job is
finished and the loop goes on. -/
structure Round where
  job : TransferJob
  out : List Out
  finished : Bool
  goesOn : Bool

def round (libs : Libs) (disk : Disk) (env : Env) (job : TransferJob) : Round :=
  match initDataStream env ⟨job, disk, []⟩ with
  | .error e m => ⟨m.job, [.error m.job.id (some e) m.job.fileNum], true, true⟩
  | .ok digest m =>
    let out := (digest.map Out.digest).toList
    match read libs env m with
    | .error e m => ⟨m.job, out ++ [.error m.job.id (some e) m.job.fileNum], true, false⟩
    | .ok (some block) m => ⟨m.job, out ++ [.block block], false, false⟩
    | .ok none m =>
      if m.job.jobCompleted then
        let last := if m.job.jobSkipped then Out.error m.job.id none m.job.fileNum
          else Out.done m.job.id m.job.fileNum
        ⟨m.job, out ++ [last], true, false⟩
      else ⟨m.job, out, false, false⟩

/-- The loop passes over restored jobs and goes on after a job that could not be started. -/
def rounds (libs : Libs) (disk : Disk) : (ℕ → Env) → List TransferJob → List Round
  | _, [] => []
  | envs, job :: jobs =>
    if job.isLastJob then ⟨job, [], false, true⟩ :: rounds libs disk (fun i => envs (i + 1)) jobs
    else
      let first := round libs disk (envs 0) job
      first ::
        if first.goesOn then rounds libs disk (fun i => envs (i + 1)) jobs
        else jobs.map fun job => ⟨job, [], false, true⟩

def handleReadJobsTick (libs : Libs) (envs : ℕ → Env) (w : Delegation) : Delegation :=
  let passed := rounds libs w.disk envs w.readJobs
  let finished := (passed.filter (·.finished)).map (·.job.id)
  { w with
    readJobs := finished.foldl (fun jobs id => removeJob id jobs) (passed.map (·.job))
    outbox := w.outbox ++ passed.flatMap (·.out) }

/-- The request that is rebuilt in the connection manager has the number of the job. -/
def confirmForRead (env : Env) (disk : Disk) (skip : Bool) (offsetBlk : UInt32)
    (job : TransferJob) : TransferJob :=
  let union := if skip then Confirmation.skip true else .offsetBlk offsetBlk
  (confirm env ⟨job, disk, []⟩ ⟨job.id, job.fileNum, some union⟩).job

def newRead (path : Path) (id fileNum : ℤ) (overwriteDetection : Bool) (files : List FileEntry) :
    TransferJob :=
  { id := id, base := path, files := files, fileNum := fileNum,
    enableOverwriteDetection := overwriteDetection }

namespace Delegation

/-- The connection manager handles a message; `files` is what it finds under a path to read. -/
def handleFs (env : Env) (files : Option (List FileEntry)) (w : Delegation) : Fs → Delegation
  | .readFile path id fileNum overwriteDetection =>
    match files with
    | none => { w with outbox := w.outbox ++ [.error id (some .io) 0] }
    | some files => { w with
        readJobs := w.readJobs ++ [newRead path id fileNum overwriteDetection files] }
  | .cancelRead id => { w with readJobs := removeJob id w.readJobs }
  | .sendConfirmForRead id fileNum skip offsetBlk =>
    match getJob id w.readJobs with
    | none => w
    | some (i, job) => { w with
        readJobs := w.readJobs.modify i (confirmForRead env w.disk skip offsetBlk)
        handled := w.handled ++ [⟨fileNum, job, confirmForRead env w.disk skip offsetBlk job⟩] }

/-- The connection passes on what it gets for a job that it still knows. -/
def forward (w : Delegation) (out : Out) : Delegation :=
  match out with
  | .digest digest =>
    if digest.id ∈ w.cmReadJobIds then { w with sent := w.sent ++ [out] } else w
  | .block block => if block.id ∈ w.cmReadJobIds then { w with sent := w.sent ++ [out] } else w
  | .error id _ _ | .done id _ =>
    if id ∈ w.cmReadJobIds then
      { w with sent := w.sent ++ [out], cmReadJobIds := w.cmReadJobIds.filter (· ≠ id) }
    else w

inductive Act where
  | send (path : Path) (id fileNum : ℤ) (overwriteDetection : Bool)
  | cancel (id : ℤ)
  | confirm (r : SendConfirm)
  | receive (env : Env) (files : Option (List FileEntry))
  | tick (envs : ℕ → Env)
  | forward
  | change (disk : Disk)

/-- The peer asks for files, cancels and confirms; the connection manager takes a message or reads;
the connection takes what the connection manager has for it; and others change files. -/
def step (libs : Libs) (w : Delegation) : Act → Option Delegation
  | .send path id fileNum overwriteDetection => some { w with
      cmReadJobIds := w.cmReadJobIds.insert id
      inbox := w.inbox ++ [.readFile path id fileNum overwriteDetection]
      requested := w.requested ++ [id] }
  | .cancel id => some { w with
      cmReadJobIds := w.cmReadJobIds.filter (· ≠ id)
      inbox := w.inbox ++ [.cancelRead id] }
  | .confirm r => some { w with
      inbox := if r.id ∈ w.cmReadJobIds then
          w.inbox ++ [.sendConfirmForRead r.id r.fileNum r.skip r.offsetBlk]
        else w.inbox
      confirms := w.confirms ++ [(r.id, r.fileNum)] }
  | .receive env files =>
    match w.inbox with
    | [] => none
    | fs :: inbox => some ({ w with inbox }.handleFs env files fs)
  | .tick envs => some (handleReadJobsTick libs envs w)
  | .forward =>
    match w.outbox with
    | [] => none
    | out :: outbox => some ({ w with outbox }.forward out)
  | .change disk => some { w with disk }

end Delegation

/-- The system starts without jobs and messages. -/
def delegated (libs : Libs) : LTS Delegation Delegation.Act where
  init w := ∃ disk, w = { disk := disk }
  step := Delegation.step libs

/-! ### What should hold -/

/-- What a confirmation decides: whether the current file is sent, skipped, and from where. -/
def TransferJob.answer (job : TransferJob) : Bool × Bool × Option Stream :=
  (job.fileConfirmed, job.fileSkipped, job.stream)

def Delegation.AppliesToNamed (w : Delegation) : Prop :=
  ∀ h ∈ w.handled, h.after.answer ≠ h.before.answer → h.before.fileNum = h.fileNum

/-- The files whose digests are in a list of messages. -/
def digestsOf (outs : List Out) : List (ℤ × ℤ) :=
  outs.filterMap fun
    | .digest digest => some (digest.id, digest.fileNum)
    | _ => none

/-- The peer uses an id once, and answers each digest that it was sent at most once. -/
def Delegation.answersOnce (w : Delegation) : Delegation.Act → Bool
  | .send _ id _ _ => id ∉ w.requested
  | .confirm r => (r.id, r.fileNum) ∈ digestsOf w.sent ∧ (r.id, r.fileNum) ∉ w.confirms
  | _ => true

/-! ### One job -/

/-- A job against the digests that were sent for it and those whose answers are to come: digests
were sent for no later file, and an answer is to come only for the current one, which waits for
it. -/
structure Tracked (announced awaited : ℤ → Prop) (job : TransferJob) : Prop where
  download : job.download = none
  waits : job.fileIsWaiting → job.enableOverwriteDetection ∧ job.stream.isSome ∧
    (job.file job.fileNum).isSome
  le : ∀ k, announced k → k ≤ job.fileNum
  current : announced job.fileNum → job.fileIsWaiting
  awaited : ∀ k, awaited k → k = job.fileNum ∧ job.fileIsWaiting ∧ ¬job.fileConfirmed

lemma Opens.isSome {env : Env} {m m' : Machine} (h : Opens env m m') :
    m'.job.stream.isSome ∧ (m'.job.file m'.job.fileNum).isSome := by
  cases h with
  | already hfile hstream => simp [hfile, hstream]
  | now hfile hstream hopen => exact ⟨rfl, Option.isSome_of_eq_some hfile⟩

namespace Tracked

variable {announced' awaited' : ℤ → Prop} {env : Env} {m : Machine}

section

variable (h : Tracked announced awaited job)

include h

lemma mono (hann : ∀ k, announced' k → announced k)
    (hawait : ∀ k, awaited' k → awaited k) : Tracked announced' awaited' job where
  download := h.download
  waits := h.waits
  le k hk := h.le k (hann k hk)
  current hk := h.current (hann _ hk)
  awaited k hk := h.awaited k (hawait k hk)

lemma not_awaited (hwait : ¬job.fileIsWaiting) (k : ℤ) :
    ¬awaited k := fun hk => hwait (h.awaited k hk).2.1

lemma not_waiting
    (hlost : job.stream = none ∨ job.file job.fileNum = none) : ¬job.fileIsWaiting := by
  intro hwait
  obtain ⟨-, hstream, hfile⟩ := h.waits hwait
  rcases hlost with hnone | hnone <;> simp [hnone] at hstream hfile

lemma moved_on {job' : TransferJob}
    (hdownload : job'.download = none) (hnum : job'.fileNum = job.fileNum + 1)
    (hwait : ¬job'.fileIsWaiting) (hno : ∀ k, ¬awaited' k) : Tracked announced awaited' job' where
  download := hdownload
  waits hw := absurd hw hwait
  le k hk := by
    have := h.le k hk
    omega
  current hk := by
    have := h.le _ hk
    omega
  awaited k hk := absurd hk (hno k)

end

lemma of_opens {m' : Machine} (h : Tracked announced awaited m.job) (hopen : Opens env m m') :
    Tracked announced awaited m'.job := by
  cases hopen with
  | already => exact h
  | now hfile hstream hopen =>
    have hwait := h.not_waiting (.inl hstream)
    exact ⟨h.download, nofun, h.le, fun hk => absurd (h.current hk) hwait, fun k hk =>
      absurd hk (h.not_awaited hwait k)⟩

/-- The digest that a result of `init_data_stream` has. -/
def announcedBy : EStateM.Result Error Machine (Option Digest) → Option Digest
  | .ok digest _ => digest
  | .error _ _ => none

lemma init {r : EStateM.Result Error Machine (Option Digest)} (h : Tracked announced awaited m.job)
    (hinits : Inits env m r) : (∀ digest ∈ announcedBy r, digest.id = m.job.id) ∧
      Tracked (fun k => announced k ∨ ∃ digest ∈ announcedBy r, digest.fileNum = k)
        (fun k => awaited k ∨ ∃ digest ∈ announcedBy r, digest.fileNum = k)
        (Prog.stateOf r).job := by
  have hnone : ∀ {p : ℤ → Prop} {k : ℤ}, (p k ∨ ∃ digest ∈ (none : Option Digest),
      digest.fileNum = k) → p k := by
    rintro p k (hk | ⟨digest, hmem, -⟩)
    · exact hk
    · cases hmem
  have hno : ∀ digest ∈ (none : Option Digest), digest.id = m.job.id := by
    intro _ hmem
    cases hmem
  cases hinits with
  | past hfile =>
    exact ⟨hno, Tracked.mono ⟨h.download, fun hw => absurd hw (h.not_waiting (.inr hfile)), h.le,
      h.current, h.awaited⟩ (fun _ => hnone) (fun _ => hnone)⟩
  | lost hfile hstream hopen =>
    refine ⟨hno, Tracked.mono ?_ (fun _ => hnone) (fun _ => hnone)⟩
    exact h.moved_on h.download rfl Bool.false_ne_true
      (h.not_awaited (h.not_waiting (.inl hstream)))
  | ready hopen | noDigest hopen =>
    exact ⟨hno, (h.of_opens hopen).mono (fun _ => hnone) (fun _ => hnone)⟩
  | @digest m' _ _ hopen hneeds hdigest =>
    have h' := h.of_opens hopen
    obtain ⟨hdet, hconf, hwait⟩ : m'.job.enableOverwriteDetection ∧ ¬m'.job.fileConfirmed ∧
        ¬m'.job.fileIsWaiting := by
      simpa [TransferJob.needsDigest, and_assoc] using hneeds
    have hid : m'.job.id = m.job.id := by rcases hopen with _ | _ <;> rfl
    refine ⟨?_, ⟨h'.download, fun _ => ⟨hdet, hopen.isSome⟩, ?_, fun _ => rfl, ?_⟩⟩
    · rintro digest ⟨⟩
      exact hid
    · rintro k (hk | ⟨digest, ⟨⟩, rfl⟩)
      · exact h'.le k hk
      · exact le_refl _
    · rintro k (hk | ⟨digest, ⟨⟩, rfl⟩)
      · exact absurd hk (h'.not_awaited hwait k)
      · exact ⟨rfl, rfl, hconf⟩

lemma read {libs : Libs} {r : EStateM.Result Error Machine (Option Block)}
    (h : Tracked announced awaited m.job) (hreads : Reads libs env m r) :
    Tracked announced awaited (Prog.stateOf r).job := by
  -- a file that may be read has no answer to come: it is confirmed, or needs no confirmation
  have hover : ¬m.job.unconfirmed → ∀ k, ¬awaited k := by
    intro hconf k hk
    obtain ⟨-, hwait, hnot⟩ := h.awaited k hk
    apply hconf
    simp [TransferJob.unconfirmed, (h.waits hwait).1, hnot]
  cases hreads with
  | unconfirmed => exact h
  | noStream => exact h
  | past hconf hfile =>
    exact ⟨h.download, fun hw => absurd hw (h.not_waiting (.inr hfile)), h.le, h.current,
      h.awaited⟩
  | broken hconf | atEnd hconf => exact h.moved_on h.download rfl Bool.false_ne_true (hover hconf)
  | block hconf hfile hstream hbuf =>
    exact ⟨h.download, fun hw => ⟨(h.waits hw).1, rfl, (h.waits hw).2.2⟩, h.le, h.current,
      h.awaited⟩

lemma confirm {disk : Disk} {r : SendConfirm} (h : Tracked announced awaited job)
    (hno : ∀ k, ¬awaited' k) : Tracked announced awaited' (confirm env ⟨job, disk, []⟩ r).job := by
  have hconfirms : Confirms env ⟨job, disk, []⟩ r (FileTransfer.confirm env ⟨job, disk, []⟩ r) :=
    confirms h.download r
  have hconfirmed : Tracked announced awaited' (job.setFileConfirmed true) :=
    ⟨h.download, h.waits, h.le, h.current, fun k hk => absurd hk (hno k)⟩
  generalize FileTransfer.confirm env ⟨job, disk, []⟩ r = m at hconfirms
  cases hconfirms with
  | other => exact ⟨h.download, h.waits, h.le, h.current, fun k hk => absurd hk (hno k)⟩
  | skipped => exact h.moved_on h.download rfl Bool.false_ne_true hno
  | confirmed => exact hconfirmed
  | resumed _ _ _ hoffset =>
    cases hoffset with
    | noEntry | noPath | noFile | unseekable => exact hconfirmed
    | seeked =>
      exact ⟨h.download, fun hw => ⟨(h.waits hw).1, rfl, (h.waits hw).2.2⟩, h.le, h.current,
        fun k hk => absurd hk (hno k)⟩

end Tracked

/-! ### One round -/

lemma digestsOf_append (outs outs' : List Out) :
    digestsOf (outs ++ outs') = digestsOf outs ++ digestsOf outs' := List.filterMap_append

/-- What a round does to a job that is tracked. -/
structure Passed (announced awaited : ℤ → Prop) (job : TransferJob) (passed : Round) : Prop where
  id : passed.job.id = job.id
  digests : ∀ key ∈ digestsOf passed.out, key.1 = job.id
  tracked : Tracked (fun k => announced k ∨ (job.id, k) ∈ digestsOf passed.out)
    (fun k => awaited k ∨ (job.id, k) ∈ digestsOf passed.out) passed.job

lemma Passed.untouched (h : Tracked announced awaited job) :
    Passed announced awaited job ⟨job, [], false, true⟩ where
  id := rfl
  digests key hkey := by cases hkey
  tracked := by
    have hnil : ∀ {p : ℤ → Prop} {k : ℤ}, (p k ∨ (job.id, k) ∈ digestsOf []) → p k := by
      rintro p k (hk | hk)
      · exact hk
      · cases hk
    exact h.mono (fun _ => hnil) (fun _ => hnil)

/-- A round announces what `init_data_stream` does and leaves the job as it was read. -/
lemma round_eq (libs : Libs) (disk : Disk) (env : Env) (job : TransferJob) :
    digestsOf (round libs disk env job).out =
      ((Tracked.announcedBy (initDataStream env ⟨job, disk, []⟩)).map
        fun digest => (digest.id, digest.fileNum)).toList ∧ ((round libs disk env job).job =
        (Prog.stateOf (initDataStream env ⟨job, disk, []⟩)).job ∨
      (round libs disk env job).job = (Prog.stateOf
        (read libs env (Prog.stateOf (initDataStream env ⟨job, disk, []⟩)))).job) := by
  rw [round]
  rcases initDataStream env ⟨job, disk, []⟩ with ⟨digest, m⟩ | ⟨e, m⟩
  · have hdigest : digestsOf ((digest.map Out.digest).toList) =
        (digest.map fun digest => (digest.id, digest.fileNum)).toList := by
      cases digest <;> rfl
    have hlast : ∀ out, digestsOf [out] = [] → digestsOf ((digest.map Out.digest).toList ++ [out]) =
        (digest.map fun digest => (digest.id, digest.fileNum)).toList := by
      intro out hout
      rw [digestsOf_append, hout, List.append_nil, hdigest]
    dsimp only [Tracked.announcedBy, Prog.stateOf]
    rcases read libs env m with ⟨_ | block, m'⟩ | ⟨e, m'⟩
    · dsimp only
      split_ifs
      · exact ⟨hlast _ rfl, .inr rfl⟩
      · exact ⟨hlast _ rfl, .inr rfl⟩
      · exact ⟨hdigest, .inr rfl⟩
    · exact ⟨hlast _ rfl, .inr rfl⟩
    · exact ⟨hlast _ rfl, .inr rfl⟩
  · exact ⟨rfl, .inl rfl⟩

lemma Passed.round (h : Tracked announced awaited job) (libs : Libs) (disk : Disk) (env : Env) :
    Passed announced awaited job (round libs disk env job) := by
  obtain ⟨hdigests, hjob⟩ := round_eq libs disk env job
  have hinits := inits env ⟨job, disk, []⟩
  obtain ⟨hid, htracked⟩ := @Tracked.init announced awaited _ ⟨job, disk, []⟩ _ h hinits
  have hfixed := hinits.fixed_eq
  generalize initDataStream env ⟨job, disk, []⟩ = r at *
  have hmem : ∀ key, key ∈ digestsOf (FileTransfer.round libs disk env job).out ↔
      ∃ digest ∈ Tracked.announcedBy r, (digest.id, digest.fileNum) = key := by
    intro key
    rw [hdigests, Option.mem_toList, Option.map_eq_some_iff]
    rfl
  have hreads := reads libs env (Prog.stateOf r)
  have hnum : ∀ {p : ℤ → Prop} {k : ℤ}, (p k ∨ (job.id, k) ∈
      digestsOf (FileTransfer.round libs disk env job).out) →
      (p k ∨ ∃ digest ∈ Tracked.announcedBy r, digest.fileNum = k) := by
    rintro p k (hk | hk)
    · exact .inl hk
    · obtain ⟨digest, hdigest, hkey⟩ := (hmem _).mp hk
      exact .inr ⟨digest, hdigest, congrArg Prod.snd hkey⟩
  refine ⟨?_, ?_, ?_⟩
  · rcases hjob with hjob | hjob
    · rw [hjob]
      exact congrArg Prod.fst hfixed
    · rw [hjob]
      exact congrArg Prod.fst (hreads.fixed_eq.trans hfixed)
  · intro key hkey
    obtain ⟨digest, hdigest, rfl⟩ := (hmem key).mp hkey
    exact hid digest hdigest
  · rcases hjob with hjob | hjob
    · rw [hjob]
      exact htracked.mono (fun _ => hnum) (fun _ => hnum)
    · rw [hjob]
      exact (htracked.read hreads).mono (fun _ => hnum) (fun _ => hnum)

lemma rounds_passed {announced awaited : ℤ → ℤ → Prop} {jobs : List TransferJob}
    (h : ∀ job ∈ jobs, Tracked (announced job.id) (awaited job.id) job) (libs : Libs) (disk : Disk)
    (envs : ℕ → Env) :
    List.Forall₂ (fun job passed => Passed (announced job.id) (awaited job.id) job passed) jobs
      (rounds libs disk envs jobs) := by
  induction jobs generalizing envs with
  | nil => exact .nil
  | cons job jobs ih =>
    have hjob := h job List.mem_cons_self
    have hjobs : ∀ job ∈ jobs, Tracked (announced job.id) (awaited job.id) job :=
      fun job hmem => h job (List.mem_cons_of_mem _ hmem)
    have hrest : List.Forall₂
        (fun job passed => Passed (announced job.id) (awaited job.id) job passed)
        jobs (jobs.map fun job => ⟨job, [], false, true⟩) := by
      rw [List.forall₂_map_right_iff, List.forall₂_same]
      exact fun job hmem => .untouched (hjobs job hmem)
    rw [rounds]
    split_ifs with hlast
    · exact .cons (.untouched hjob) (ih hjobs _)
    · refine .cons (.round hjob libs disk _) ?_
      split_ifs
      · exact ih hjobs _
      · exact hrest

/-! ### Both processes -/

/-- The job that a message makes. -/
def Fs.reads : Fs → Option ℤ
  | .readFile _ id _ _ => some id
  | _ => none

/-- The file that a message confirms. -/
def Fs.confirms : Fs → Option (ℤ × ℤ)
  | .sendConfirmForRead id fileNum _ _ => some (id, fileNum)
  | _ => none

lemma confirmForRead_id (env : Env) (disk : Disk) (skip : Bool) (offsetBlk : UInt32)
    (h : job.download = none) : (confirmForRead env disk skip offsetBlk job).id = job.id :=
  congrArg Prod.fst (@confirms env ⟨job, disk, []⟩ h _).fixed_eq.1

namespace Delegation

/-- The files whose digests were sent or are on their way. -/
def digests (w : Delegation) : List (ℤ × ℤ) := digestsOf (w.sent ++ w.outbox)

/-- The jobs that there are or that are on their way. -/
def ids (w : Delegation) : List ℤ := w.inbox.filterMap Fs.reads ++ w.readJobs.map (·.id)

/-- The digest of the file was sent or is on its way. -/
def announces (w : Delegation) (id k : ℤ) : Prop := (id, k) ∈ w.digests

/-- The file has been announced and its confirmation has not been handled. -/
def awaits (w : Delegation) (id k : ℤ) : Prop :=
  (id, k) ∈ w.digests ∧ ((id, k) ∈ w.inbox.filterMap Fs.confirms ∨ (id, k) ∉ w.confirms)

structure Awaited (w : Delegation) : Prop where
  unique : w.ids.Nodup
  known : ∀ id ∈ w.ids, id ∈ w.requested
  announced : ∀ key ∈ w.digests, key.1 ∈ w.requested ∧ key.1 ∉ w.inbox.filterMap Fs.reads
  once : (w.inbox.filterMap Fs.confirms).Nodup
  asked : ∀ key ∈ w.inbox.filterMap Fs.confirms, key ∈ w.confirms ∧ key ∈ digestsOf w.sent
  tracked : ∀ job ∈ w.readJobs, Tracked (w.announces job.id) (w.awaits job.id) job
  handled : ∀ h ∈ w.handled, h.before.fileNum = h.fileNum

variable {w : Delegation} {inbox : List Fs} {fs : Fs} {outbox : List Out}

section

variable (h : w.Awaited)

include h

lemma Awaited.send (path : Path) {id : ℤ} (fileNum : ℤ) (overwriteDetection : Bool)
    (hnew : id ∉ w.requested) : Awaited { w with
      cmReadJobIds := w.cmReadJobIds.insert id
      inbox := w.inbox ++ [.readFile path id fileNum overwriteDetection]
      requested := w.requested ++ [id] } := by
  have hreads : (w.inbox ++ [Fs.readFile path id fileNum overwriteDetection]).filterMap Fs.reads =
      w.inbox.filterMap Fs.reads ++ [id] := List.filterMap_append
  have hconfirms : (w.inbox ++ [Fs.readFile path id fileNum overwriteDetection]).filterMap
      Fs.confirms = w.inbox.filterMap Fs.confirms := by
    rw [List.filterMap_append]
    exact List.append_nil _
  have hperm :
      (w.inbox.filterMap Fs.reads ++ [id] ++ w.readJobs.map (·.id)).Perm (id :: w.ids) := by
    rw [List.append_assoc]
    exact List.perm_middle
  refine ⟨?_, ?_, ?_, ?_, ?_, ?_, h.handled⟩
  · rw [ids, hreads, hperm.nodup_iff, List.nodup_cons]
    exact ⟨fun hmem => hnew (h.known id hmem), h.unique⟩
  · intro id' hid
    rw [ids, hreads, hperm.mem_iff, List.mem_cons] at hid
    rcases hid with rfl | hid
    · exact List.mem_append_right _ List.mem_cons_self
    · exact List.mem_append_left _ (h.known id' hid)
  · intro key hkey
    obtain ⟨hreq, hnot⟩ := h.announced key hkey
    refine ⟨List.mem_append_left _ hreq, ?_⟩
    rw [hreads, List.mem_append, List.mem_singleton, not_or]
    exact ⟨hnot, fun heq => hnew (heq ▸ hreq)⟩
  · rw [hconfirms]
    exact h.once
  · rw [hconfirms]
    exact h.asked
  · intro job hjob
    refine (h.tracked job hjob).mono (fun _ hk => hk) ?_
    intro k hk
    rw [awaits, hconfirms] at hk
    exact hk

/-- Messages that are taken, jobs that are removed, the files and the jobs the connection knows do
not matter. -/
lemma Awaited.less (disk : Disk) (cmReadJobIds : List ℤ) {jobs : List TransferJob}
    (hjobs : jobs.Sublist w.readJobs)
    (hreads : (inbox.filterMap Fs.reads).Sublist (w.inbox.filterMap Fs.reads))
    (hconfirms : (inbox.filterMap Fs.confirms).Sublist (w.inbox.filterMap Fs.confirms)) :
    Awaited { w with disk, cmReadJobIds, inbox, readJobs := jobs } := by
  have hids : (inbox.filterMap Fs.reads ++ jobs.map (·.id)).Sublist w.ids :=
    hreads.append (hjobs.map _)
  refine ⟨h.unique.sublist hids, fun id hid => h.known id (hids.mem hid), fun key hkey => ?_,
    h.once.sublist hconfirms, fun key hkey => h.asked key (hconfirms.mem hkey),
    fun job hjob => ?_, h.handled⟩
  · exact (h.announced key hkey).imp_right fun hnot hmem => hnot (hreads.mem hmem)
  · exact (h.tracked job (hjobs.mem hjob)).mono (fun _ hk => hk) fun k hk =>
      hk.imp_right (Or.imp_left hconfirms.mem)

lemma Awaited.confirm {r : SendConfirm}
    (hsent : (r.id, r.fileNum) ∈ digestsOf w.sent) (hnew : (r.id, r.fileNum) ∉ w.confirms)
    (hreads : inbox.filterMap Fs.reads = w.inbox.filterMap Fs.reads)
    (hinbox : inbox.filterMap Fs.confirms = w.inbox.filterMap Fs.confirms ∨
      inbox.filterMap Fs.confirms = w.inbox.filterMap Fs.confirms ++ [(r.id, r.fileNum)]) :
    Awaited { w with inbox, confirms := w.confirms ++ [(r.id, r.fileNum)] } := by
  have hdigest : (r.id, r.fileNum) ∈ w.digests := by
    rw [digests, digestsOf_append]
    exact List.mem_append_left _ hsent
  have hmem : ∀ key ∈ inbox.filterMap Fs.confirms,
      key ∈ w.inbox.filterMap Fs.confirms ∨ key = (r.id, r.fileNum) := by
    intro key hkey
    rcases hinbox with heq | heq
    · exact .inl (heq ▸ hkey)
    · rw [heq, List.mem_append, List.mem_singleton] at hkey
      exact hkey
  refine ⟨?_, ?_, ?_, ?_, ?_, ?_, h.handled⟩
  · rw [ids, hreads]
    exact h.unique
  · rw [ids, hreads]
    exact h.known
  · rw [hreads]
    exact h.announced
  · rcases hinbox with heq | heq
    · rw [heq]
      exact h.once
    · rw [heq, List.nodup_append]
      refine ⟨h.once, List.nodup_singleton _, ?_⟩
      rintro key hkey _ hlast rfl
      rw [List.mem_singleton] at hlast
      exact hnew (hlast ▸ (h.asked key hkey).1)
  · intro key hkey
    rcases hmem key hkey with hold | rfl
    · exact ⟨List.mem_append_left _ (h.asked key hold).1, (h.asked key hold).2⟩
    · exact ⟨List.mem_append_right _ List.mem_cons_self, hsent⟩
  · intro job hjob
    refine (h.tracked job hjob).mono (fun _ hk => hk) ?_
    rintro k ⟨hk, hin | hout⟩
    · rcases hmem _ hin with hold | heq
      · exact ⟨hk, .inl hold⟩
      · exact ⟨hk, .inr (heq ▸ hnew)⟩
    · exact ⟨hk, .inr fun hold => hout (List.mem_append_left _ hold)⟩

lemma Awaited.push (hid : job.id ∉ w.ids) (hreq : job.id ∈ w.requested)
    (hdigests : ∀ key ∈ w.digests, key.1 ≠ job.id)
    (htracked : Tracked (fun _ => False) (fun _ => False) job) :
    Awaited { w with readJobs := w.readJobs ++ [job] } := by
  have hids :
      w.inbox.filterMap Fs.reads ++ (w.readJobs ++ [job]).map (·.id) = w.ids ++ [job.id] := by
    rw [List.map_append, ← List.append_assoc]
    rfl
  refine ⟨?_, ?_, h.announced, h.once, h.asked, ?_, h.handled⟩
  · rw [ids, hids, List.nodup_append]
    refine ⟨h.unique, List.nodup_singleton _, ?_⟩
    rintro id hmem _ hlast rfl
    rw [List.mem_singleton] at hlast
    exact hid (hlast ▸ hmem)
  · intro id hmem
    rw [ids, hids, List.mem_append, List.mem_singleton] at hmem
    rcases hmem with hold | rfl
    · exact h.known id hold
    · exact hreq
  · refine List.forall_mem_append.mpr ⟨h.tracked, List.forall_mem_singleton.mpr ?_⟩
    exact htracked.mono (fun k hk => hdigests _ hk rfl) (fun k hk => hdigests _ hk.1 rfl)

lemma Awaited.answered {i : ℕ} (hget : w.readJobs[i]? = some job)
    {f : TransferJob → TransferJob} (hid : (f job).id = job.id)
    (htracked : Tracked (w.announces job.id) (w.awaits job.id) (f job)) : Awaited { w with
      readJobs := w.readJobs.modify i f, handled := w.handled ++ [⟨job.fileNum, job, f job⟩] } := by
  have hmap : (w.readJobs.modify i f).map (·.id) = w.readJobs.map (·.id) :=
    Slots.map_modify hget hid
  refine ⟨?_, ?_, h.announced, h.once, h.asked, ?_, ?_⟩
  · rw [ids, hmap]
    exact h.unique
  · rw [ids, hmap]
    exact h.known
  · intro job' hjob
    obtain ⟨j, hj⟩ := List.getElem?_of_mem hjob
    obtain ⟨job₀, hjob₀, ⟨rfl, rfl⟩ | ⟨-, rfl⟩⟩ := Slots.modify_cases hj
    · cases hget.symm.trans hjob₀
      rw [hid]
      exact htracked
    · exact h.tracked _ (List.mem_of_getElem? hjob₀)
  · intro record hrecord
    rcases List.mem_append.mp hrecord with hold | hnew
    · exact h.handled record hold
    · rw [List.mem_singleton.mp hnew]

/-- Messages for the peer move on, or something without a digest is added to them. -/
lemma Awaited.passOn {sent : List Out} (cmReadJobIds : List ℤ)
    (hdigests : ∀ key ∈ digestsOf (sent ++ outbox), key ∈ w.digests)
    (hsent : ∀ key ∈ digestsOf w.sent, key ∈ digestsOf sent) :
    Awaited { w with sent, outbox, cmReadJobIds } := by
  refine ⟨h.unique, h.known, fun key hkey => h.announced key (hdigests key hkey), h.once,
    fun key hkey => ⟨(h.asked key hkey).1, hsent key (h.asked key hkey).2⟩, ?_, h.handled⟩
  intro job hjob
  exact (h.tracked job hjob).mono (fun k hk => hdigests _ hk)
    (fun k hk => ⟨hdigests _ hk.1, hk.2⟩)

end

lemma removeJob_sublist (id : ℤ) (jobs : List TransferJob) : (removeJob id jobs).Sublist jobs :=
  List.eraseP_sublist

lemma foldl_removeJob_sublist (ids : List ℤ) (jobs : List TransferJob) :
    (ids.foldl (fun jobs id => removeJob id jobs) jobs).Sublist jobs := by
  induction ids generalizing jobs with
  | nil => exact List.Sublist.refl jobs
  | cons id ids ih => exact (ih _).trans (removeJob_sublist id jobs)

/-- The jobs have had their rounds: each has announced at most its own current file. -/
lemma Awaited.rounds (h : w.Awaited) {passed : List Round}
    (hpassed : List.Forall₂
      (fun job round => Passed (w.announces job.id) (w.awaits job.id) job round)
      w.readJobs passed) :
    Awaited { w with
      readJobs := passed.map (·.job), outbox := w.outbox ++ passed.flatMap (·.out) } := by
  have hids : (passed.map (·.job)).map (·.id) = w.readJobs.map (·.id) := by
    rw [List.map_map]
    exact Slots.map_of_forall₂ hpassed fun job round hpass => hpass.id
  have hunique : (w.readJobs.map (·.id)).Nodup := (List.nodup_append.mp h.unique).2.1
  -- a digest that was announced in this tick belongs to the job at its place
  have hnew : ∀ key ∈ digestsOf (passed.flatMap (·.out)),
      ∃ (i : ℕ) (job : TransferJob) (round : Round), w.readJobs[i]? = some job ∧
        passed[i]? = some round ∧ key ∈ digestsOf round.out ∧ key.1 = job.id := by
    intro key hkey
    rw [digestsOf, List.mem_filterMap] at hkey
    obtain ⟨out, hout, hkey⟩ := hkey
    obtain ⟨round, hround, hout⟩ := List.mem_flatMap.mp hout
    obtain ⟨i, hi⟩ := List.getElem?_of_mem hround
    obtain ⟨job, hjob, hpass⟩ := Slots.forall₂_get hpassed hi
    have hmem : key ∈ digestsOf round.out := List.mem_filterMap.mpr ⟨out, hout, hkey⟩
    exact ⟨i, job, round, hjob, hi, hmem, hpass.digests key hmem⟩
  have hdigests : ∀ key, key ∈ digestsOf (w.sent ++ (w.outbox ++ passed.flatMap (·.out))) →
      key ∈ w.digests ∨ key ∈ digestsOf (passed.flatMap (·.out)) := by
    intro key hkey
    rw [← List.append_assoc, digestsOf_append, List.mem_append] at hkey
    exact hkey
  refine ⟨?_, ?_, ?_, h.once, h.asked, ?_, h.handled⟩
  · rw [ids, hids]
    exact h.unique
  · rw [ids, hids]
    exact h.known
  · intro key hkey
    rcases hdigests key hkey with hold | hfresh
    · exact h.announced key hold
    · obtain ⟨i, job, -, hjob, -, -, hid⟩ := hnew key hfresh
      have hmem : key.1 ∈ w.readJobs.map (·.id) :=
        List.mem_map.mpr ⟨job, List.mem_of_getElem? hjob, hid.symm⟩
      refine ⟨h.known _ (List.mem_append_right _ hmem), fun hreads => ?_⟩
      exact (List.nodup_append.mp h.unique).2.2 _ hreads _ hmem rfl
  · intro job' hjob'
    obtain ⟨i, hi⟩ := List.getElem?_of_mem hjob'
    rw [List.getElem?_map, Option.map_eq_some_iff] at hi
    obtain ⟨round, hround, rfl⟩ := hi
    obtain ⟨job, hjob, hpass⟩ := Slots.forall₂_get hpassed hround
    have hown : ∀ k,
        (round.job.id, k) ∈ digestsOf (w.sent ++ (w.outbox ++ passed.flatMap (·.out))) →
        (job.id, k) ∈ w.digests ∨ (job.id, k) ∈ digestsOf round.out := by
      intro k hk
      rw [hpass.id] at hk
      rcases hdigests _ hk with hold | hfresh
      · exact .inl hold
      · obtain ⟨j, job₂, round₂, hjob₂, hround₂, hmem, hid⟩ := hnew _ hfresh
        have hij : i = j := by
          refine (List.getElem?_inj ?_ hunique).mp ?_
          · rw [List.length_map]
            exact (List.getElem?_eq_some_iff.mp hjob).1
          · rw [List.getElem?_map, List.getElem?_map, hjob, hjob₂]
            exact congrArg some hid
        subst hij
        cases hround.symm.trans hround₂
        exact .inr hmem
    refine hpass.tracked.mono hown ?_
    rintro k ⟨hk, hopen⟩
    rcases hown k hk with hold | hfresh
    · rw [hpass.id] at hopen
      exact .inl ⟨hold, hopen⟩
    · exact .inr hfresh

lemma Awaited.handleFs (h : w.Awaited) (hinbox : w.inbox = fs :: inbox) (env : Env)
    (files : Option (List FileEntry)) :
    (Delegation.handleFs env files { w with inbox } fs).Awaited := by
  have hsub : inbox.Sublist w.inbox := hinbox ▸ List.sublist_cons_self fs inbox
  have htake := h.less w.disk w.cmReadJobIds (.refl _) (hsub.filterMap _) (hsub.filterMap _)
  cases fs with
  | readFile path id fileNum overwriteDetection =>
    have hreads : w.inbox.filterMap Fs.reads = id :: inbox.filterMap Fs.reads := by
      rw [hinbox]
      rfl
    have hmem : id ∈ w.inbox.filterMap Fs.reads := hreads ▸ List.mem_cons_self
    cases files with
    | none =>
      refine htake.passOn w.cmReadJobIds ?_ (fun _ hkey => hkey)
      intro key hkey
      rw [← List.append_assoc, digestsOf_append, List.mem_append] at hkey
      rcases hkey with hkey | hkey
      · exact hkey
      · cases hkey
    | some files =>
      refine htake.push ?_ (h.known id (List.mem_append_left _ hmem)) ?_ ?_
      · have hunique := h.unique
        rw [Delegation.ids, hreads, List.cons_append, List.nodup_cons] at hunique
        exact hunique.1
      · rintro key hkey rfl
        exact (h.announced key hkey).2 hmem
      · exact ⟨rfl, nofun, nofun, nofun, nofun⟩
  | cancelRead id => exact htake.less _ _ (removeJob_sublist id _) (.refl _) (.refl _)
  | sendConfirmForRead id fileNum skip offsetBlk =>
    have hconfirms :
        w.inbox.filterMap Fs.confirms = (id, fileNum) :: inbox.filterMap Fs.confirms := by
      rw [hinbox]
      rfl
    have hmem : (id, fileNum) ∈ w.inbox.filterMap Fs.confirms := hconfirms ▸ List.mem_cons_self
    rw [Delegation.handleFs]
    dsimp only
    cases hfind : getJob id w.readJobs with
    | none => exact htake
    | some found =>
      obtain ⟨i, job⟩ := found
      obtain ⟨hget, rfl⟩ := getJob_some hfind
      have htracked := h.tracked job (List.mem_of_getElem? hget)
      have hdigest : (job.id, fileNum) ∈ w.digests := by
        rw [digests, digestsOf_append]
        exact List.mem_append_left _ (h.asked _ hmem).2
      have hnum : fileNum = job.fileNum := (htracked.awaited fileNum ⟨hdigest, .inl hmem⟩).1
      -- the answer was the only one to come
      have hno : ∀ k, ¬Delegation.awaits { w with inbox } job.id k := by
        rintro k ⟨hk, hin | hout⟩
        · have hkey : (job.id, k) ∈ w.inbox.filterMap Fs.confirms :=
            hconfirms ▸ List.mem_cons_of_mem _ hin
          have hkk := (htracked.awaited k ⟨hk, .inl hkey⟩).1
          have honce := h.once
          rw [hconfirms, List.nodup_cons] at honce
          exact honce.1 (hnum.trans hkk.symm ▸ hin)
        · have hkk := (htracked.awaited k ⟨hk, .inr hout⟩).1
          exact hout (hkk.trans hnum.symm ▸ (h.asked _ hmem).1)
      subst hnum
      refine htake.answered hget (confirmForRead_id env w.disk skip offsetBlk htracked.download) ?_
      exact htracked.confirm hno

lemma Awaited.forward (h : w.Awaited) {out : Out} (houtbox : w.outbox = out :: outbox) :
    (Delegation.forward { w with outbox } out).Awaited := by
  have hdigests : ∀ key ∈ digestsOf (w.sent ++ [out] ++ outbox), key ∈ w.digests := by
    intro key hkey
    rw [digests, houtbox, List.append_cons]
    exact hkey
  have hpass : ∀ cmReadJobIds,
      Awaited { w with sent := w.sent ++ [out], outbox, cmReadJobIds } := by
    intro cmReadJobIds
    refine h.passOn cmReadJobIds hdigests ?_
    intro key hkey
    rw [digestsOf_append]
    exact List.mem_append_left _ hkey
  have hdrop : Awaited { w with outbox } := by
    refine h.passOn w.cmReadJobIds ?_ (fun _ hkey => hkey)
    intro key hkey
    apply hdigests
    rw [digestsOf_append] at hkey ⊢
    rw [digestsOf_append]
    rcases List.mem_append.mp hkey with hsent | hout
    · exact List.mem_append_left _ (List.mem_append_left _ hsent)
    · exact List.mem_append_right _ hout
  cases out <;> rw [Delegation.forward] <;> split_ifs <;> first | exact hpass _ | exact hdrop

lemma Awaited.step {libs : Libs} {w' : Delegation} {a : Act} (h : w.Awaited) (hok : w.answersOnce a)
    (hstep : w.step libs a = some w') : w'.Awaited := by
  cases a with
  | send path id fileNum overwriteDetection =>
    cases hstep
    exact h.send path fileNum overwriteDetection (of_decide_eq_true hok)
  | cancel id =>
    cases hstep
    exact h.less w.disk _ (.refl _) (by simp [Fs.reads]) (by simp [Fs.confirms])
  | confirm r =>
    cases hstep
    obtain ⟨hsent, hnew⟩ := of_decide_eq_true hok
    refine h.confirm hsent hnew ?_ ?_
    · split_ifs
      · rw [List.filterMap_append]
        exact List.append_nil _
      · rfl
    · split_ifs
      · exact .inr List.filterMap_append
      · exact .inl rfl
  | receive env files =>
    rw [Delegation.step] at hstep
    split at hstep <;> cases hstep
    next hinbox => exact h.handleFs hinbox env files
  | tick envs =>
    cases hstep
    have hrounds := h.rounds (rounds_passed h.tracked libs w.disk envs)
    exact hrounds.less _ _ (foldl_removeJob_sublist _ _) (.refl _) (.refl _)
  | forward =>
    rw [Delegation.step] at hstep
    split at hstep <;> cases hstep
    next houtbox => exact h.forward houtbox
  | change disk =>
    cases hstep
    exact h.less disk w.cmReadJobIds (.refl _) (.refl _) (.refl _)

end Delegation

/-- When the peer uses each job id once and answers each digest at most once, a confirmation changes
a job only while the job is at the file it names. -/
theorem confirm_applies_to_named {libs : Libs} {w : Delegation}
    (h : ((delegated libs).restrict Delegation.answersOnce).Reachable w) : w.AppliesToNamed := by
  have hawaited : w.Awaited := by
    refine h.restrict_invariant ?_ fun _ _ _ hw => hw.step
    rintro _ ⟨disk, rfl⟩
    exact ⟨List.nodup_nil, nofun, nofun, List.nodup_nil, nofun, List.forall_mem_nil _,
      List.forall_mem_nil _⟩
  intro record hrecord _
  exact hawaited.handled record hrecord

/-- The peer asks for two files and is sent the digest of the first. -/
def sampleRequest : List Delegation.Act :=
  [.send ['d'] 7 0 true, .receive {} (some [⟨['a'], 0⟩, ⟨['b'], 0⟩]), .tick fun _ => {}, .forward]

def sampleDelegation : Delegation where
  disk := (FileSystem.empty.addFile (place ['d', '/', 'a'])).addFile (place ['d', '/', 'b'])

/-- Each file is skipped after its digest. -/
theorem confirm_applies_to_named_skip :
    ∃ w ∈ (delegated .plain).run sampleDelegation (sampleRequest ++
        [.confirm ⟨7, 0, some (.skip true)⟩, .receive {} none, .tick fun _ => {}, .forward,
          .confirm ⟨7, 1, some (.skip true)⟩, .receive {} none]),
      w.handled.map (fun h => (h.fileNum, h.before.fileNum)) = [(0, 0), (1, 1)] ∧
        w.AppliesToNamed :=
  LTS.exists_run_restrict Delegation.answersOnce ⟨_, rfl⟩ (by decide) fun _ =>
    confirm_applies_to_named

/-- The same answer twice: it skips the second file too. -/
theorem repeated_answer_skips_next :
    ∃ w ∈ (delegated .plain).run sampleDelegation (sampleRequest ++
        [.confirm ⟨7, 0, some (.skip true)⟩, .confirm ⟨7, 0, some (.skip true)⟩,
          .receive {} none, .tick fun _ => {}, .receive {} none]),
      w.readJobs.map (·.fileNum) = [2] ∧ ¬w.AppliesToNamed := by
  refine LTS.exists_run_of (P := fun w => w.readJobs.map (·.fileNum) = [2] ∧
    ∃ h ∈ w.handled, h.after.answer ≠ h.before.answer ∧ h.before.fileNum ≠ h.fileNum)
    (by decide) ?_
  rintro w - ⟨hjobs, h, hmem, hchange, hnum⟩
  exact ⟨hjobs, fun hnamed => hnum (hnamed h hmem hchange)⟩

end RustDesk.FileTransfer
