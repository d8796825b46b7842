import RustDesk.FileTransfer.Read
import RustDesk.Lib.Transition

/-!
# A read job reads its source

What `read` yields for a file should be the bytes of that file, from the confirmed offset on, and
reading should leave other files alone. `set_stream_offset` is shared with the side that writes: it
takes the staging file if one is there with its digest, and opens it for writing; and where it
opens nothing the stream stays where it was. With confirmations that avoid both, the job reads
its source.
-/

namespace RustDesk.FileTransfer

variable {disk : Disk} {job job' : TransferJob} {entry : FileEntry} {i expect : ℕ} {m m' : Machine}
  {env : Env} {libs : Libs} {y : Yield} {w w' : Reading}

/-- A block that was read: its file, the offset it should start at, and the bytes it is made of. -/
structure Yield where
  fileNum : ℤ
  start : ℕ
  raw : Bytes
  block : Block
  deriving DecidableEq

/-- A job, with the offset at which the next block of its current file should start. -/
structure Reading where
  m : Machine
  expect : ℕ := 0
  yields : List Yield := []

namespace Reading

inductive Act where
  | init (env : Env)
  | read (env : Env)
  | confirm (env : Env) (r : SendConfirm)
  deriving DecidableEq

/-- A new file starts at its first byte. -/
def moved (w : Reading) (m : Machine) (expect : ℕ) : Reading :=
  { w with m, expect := if m.job.fileNum = w.m.job.fileNum then expect else 0 }

/-- Where the current file goes on after a confirmation. -/
def confirmedAt (w : Reading) (r : SendConfirm) : ℕ :=
  if w.m.job.fileNum ≠ r.fileNum then w.expect
  else
    match r.union with
    | some (.offsetBlk offset) => offset.toNat
    | some (.skip false) => 0
    | _ => w.expect

/-- The bytes a block is made of. -/
def buffer (w : Reading) (env : Env) : Bytes :=
  ((w.m.job.stream).bind (readBuf env w.m.disk)).getD []

def step (libs : Libs) (w : Reading) : Act → Option Reading
  | .init env => some (w.moved (Prog.stateOf (initDataStream env w.m)) w.expect)
  | .read env =>
    match FileTransfer.read libs env w.m with
    | .ok (some block) m =>
      some { w.moved m (w.expect + (w.buffer env).length) with
        yields := w.yields ++ [⟨w.m.job.fileNum, w.expect, w.buffer env, block⟩] }
    | .ok none m => some (w.moved m w.expect)
    | .error _ m => some (w.moved m w.expect)
  | .confirm env r => some (w.moved (FileTransfer.confirm env w.m r) (w.confirmedAt r))

end Reading

/-- A job that was just made to read files. -/
def reading (libs : Libs) : LTS Reading Reading.Act where
  init w := w.m.job.download = none ∧ w.m.job.stream = none ∧ w.m.trace = [] ∧ w.expect = 0 ∧
    w.yields = []
  step := Reading.step libs

/-! ### What should hold -/

/-- The block is made of the bytes of the job's file that start where they should. -/
def Yield.FromSource (libs : Libs) (disk : Disk) (job : TransferJob) (y : Yield) : Prop :=
  ∃ entry i source, job.file y.fileNum = some entry ∧
    disk.ino (place (job.path entry)) = some i ∧ disk.data i = some source ∧
    y.raw <+: source.drop y.start ∧
    (y.block = ⟨job.id, y.fileNum, y.raw, false⟩ ∨
      y.block = ⟨job.id, y.fileNum, libs.compress y.raw, true⟩)

/-- Files of the job were opened for reading, and nothing else was done to files. -/
def Event.ReadsOf (job : TransferJob) (event : Event) : Prop :=
  ∃ entry ∈ job.files, ∃ i, event = .opened (job.path entry) i

structure Reading.OnlySource (libs : Libs) (w : Reading) : Prop where
  yields : ∀ y ∈ w.yields, y.FromSource libs w.m.disk w.m.job
  events : ∀ event ∈ w.m.trace, event.ReadsOf w.m.job

/-- The current file can be put at an offset: its name is valid, it can be opened, and no staging
file with a digest is next to it. -/
def Machine.seekable (m : Machine) (env : Env) : Bool :=
  match m.job.file m.job.fileNum with
  | none => true
  | some entry =>
    match joinValidatedPath env.links m.job.base entry.name with
    | none => false
    | some path =>
      !(m.exists_ env (staging path) && m.exists_ env (digestFile path)) &&
        m.exists_ env path && (m.open_ env path).isSome && .seek ∉ env.fails

/-- A confirmation for the current file with an offset finds it seekable, and one without an offset
finds it at its start. -/
def Reading.resumable (w : Reading) : Reading.Act → Bool
  | .confirm env r =>
    w.m.job.fileNum ≠ r.fileNum ||
      match r.union with
      | some (.skip true) => true
      | some (.skip false) => w.m.job.stream.all (·.pos = 0)
      | some (.offsetBlk offset) =>
        if 0 < offset then w.m.seekable env else w.m.job.stream.all (·.pos = 0)
      | none => true
  | _ => true

/-! ### The stream -/

/-- The stream reads the current file and is where it should be. -/
structure Aimed (disk : Disk) (job : TransferJob) (expect : ℕ) : Prop where
  stream : ∀ stream, job.stream = some stream → stream.mode = .read ∧ stream.pos = expect ∧
    ∃ entry, job.file job.fileNum = some entry ∧
      disk.ino (place (job.path entry)) = some stream.ino
  closed : job.stream = none → expect = 0 ∨ job.file job.fileNum = none

lemma Aimed.of_none (h : job.stream = none) : Aimed disk job 0 where
  stream stream hstream := by
    rw [h] at hstream
    cases hstream
  closed _ := .inl rfl

lemma Aimed.opened {pos : ℕ} {failed : Bool} (hfile : job.file job.fileNum = some entry)
    (hino : disk.ino (place (job.path entry)) = some i)
    (hstream : job.stream = some ⟨i, pos, .read, failed⟩) : Aimed disk job pos where
  stream stream h := by
    cases hstream.symm.trans h
    exact ⟨rfl, rfl, entry, hfile, hino⟩
  closed h := by
    rw [hstream] at h
    cases h

lemma Machine.ino_of_open {path : Path} (h : m.open_ env path = some i) :
    m.disk.ino (place path) = some i := by
  rw [Machine.open_] at h
  split_ifs at h
  exact h

/-- What is kept of a job when a file of it has just been opened, or was open. -/
lemma Aimed.of_opens (h : Aimed m.disk m.job expect) (hopen : Opens env m m') :
    Aimed m'.disk m'.job expect ∧ m'.job.fileNum = m.job.fileNum ∧
      m'.disk = m.disk ∧ ((∃ event, m'.trace = m.trace ++ [event] ∧ event.ReadsOf m.job) ∨
        m'.trace = m.trace) := by
  cases hopen with
  | already hfile hstream => exact ⟨h, rfl, rfl, .inr rfl⟩
  | now hfile hstream hopen =>
    have hzero : expect = 0 := by
      rcases h.closed hstream with hzero | hnone
      · exact hzero
      · rw [hfile] at hnone
        cases hnone
    subst hzero
    have hmem := TransferJob.mem_of_file hfile
    refine ⟨?_, rfl, rfl, .inl ⟨_, rfl, _, hmem, _, rfl⟩⟩
    exact @Aimed.opened _ (m.job.opened _) _ _ _ _ hfile (Machine.ino_of_open hopen) rfl

/-! ### Whole runs -/

lemma Yield.FromSource.congr (h : y.FromSource libs disk job) (hfixed : job'.fixed = job.fixed) :
    y.FromSource libs disk job' := by
  obtain ⟨hid, -, -, hfile, hpath⟩ := TransferJob.path_congr hfixed
  rw [FromSource, hid, hfile, hpath]
  exact h

lemma Event.ReadsOf.congr {event : Event} (h : event.ReadsOf job)
    (hfixed : job'.fixed = job.fixed) : event.ReadsOf job' := by
  obtain ⟨-, -, hfiles, -, hpath⟩ := TransferJob.path_congr hfixed
  rw [ReadsOf, hfiles, hpath]
  exact h

structure Sourced (libs : Libs) (w : Reading) : Prop extends w.OnlySource libs where
  download : w.m.job.download = none
  aimed : Aimed w.m.disk w.m.job w.expect

/-- What a step leaves alone, and what it may add to the trace. -/
structure Machine.Quiet (m m' : Machine) : Prop where
  disk : m'.disk = m.disk
  fixed : m'.job.fixed = m.job.fixed
  download : m'.job.download = m.job.download
  trace : ∀ event ∈ m'.trace, event ∈ m.trace ∨ event.ReadsOf m.job

lemma Machine.Quiet.of_trace_eq (hdisk : m'.disk = m.disk) (hfixed : m'.job.fixed = m.job.fixed)
    (hdownload : m'.job.download = m.job.download) (htrace : m'.trace = m.trace) : m.Quiet m' :=
  ⟨hdisk, hfixed, hdownload, fun _ hevent => .inl (htrace ▸ hevent)⟩

lemma pack_eq (libs : Libs) (job : TransferJob) (name : Path) (buf : Bytes) :
    pack libs job name buf = ⟨job.id, job.fileNum, buf, false⟩ ∨
      pack libs job name buf = ⟨job.id, job.fileNum, libs.compress buf, true⟩ := by
  rw [pack]
  split_ifs
  · exact .inr rfl
  · exact .inl rfl

/-- Where the file is seekable, it is the file itself that is opened, for reading. -/
lemma Machine.reopen_of_seekable (hfile : m.job.file m.job.fileNum = some entry)
    (h : m.seekable env) :
    ∃ i, m.disk.ino (place (m.job.path entry)) = some i ∧
      joinValidatedPath env.links m.job.base entry.name = some (m.job.path entry) ∧
      m.reopen env (m.job.path entry) = some (.opened (m.job.path entry) i, i, .read) ∧
      .seek ∉ env.fails := by
  rw [seekable, hfile] at h
  dsimp only at h
  cases hpath : joinValidatedPath env.links m.job.base entry.name with
  | none =>
    rw [hpath] at h
    cases h
  | some path =>
    rw [hpath] at h
    cases path_of_joinValidatedPath hpath
    simp only [Bool.and_eq_true, Bool.not_eq_true', decide_eq_true_eq] at h
    obtain ⟨⟨⟨hstaging, hexists⟩, hopen⟩, hseek⟩ := h
    obtain ⟨i, hopen⟩ := Option.isSome_iff_exists.mp hopen
    refine ⟨i, ino_of_open hopen, rfl, ?_, hseek⟩
    show m.reopen env (join m.job.base entry.name) = _
    rw [reopen, hstaging, if_neg Bool.false_ne_true, if_pos hexists, hopen]
    rfl

lemma Aimed.confirmed (h : Aimed disk job expect) (hpos : job.stream.all (·.pos = 0)) :
    Aimed disk (job.setFileConfirmed true) 0 := by
  cases hstream : job.stream with
  | none => exact Aimed.of_none hstream
  | some stream =>
    obtain ⟨-, hexpect, -⟩ := h.stream stream hstream
    have hzero : expect = 0 := by
      rw [hstream, Option.all_some, decide_eq_true_eq] at hpos
      exact hexpect.symm.trans hpos
    subst hzero
    exact ⟨h.stream, h.closed⟩

section

variable (h : Sourced libs w)

include h

lemma Sourced.moved (hquiet : w.m.Quiet m)
    (haimed : Aimed m.disk m.job (w.moved m expect).expect) : Sourced libs (w.moved m expect) where
  yields y hy := by
    have hfrom := (h.yields y hy).congr hquiet.fixed
    rw [← hquiet.disk] at hfrom
    exact hfrom
  events event hevent := by
    rcases hquiet.trace event hevent with hold | hnew
    · exact (h.events event hold).congr hquiet.fixed
    · exact hnew.congr hquiet.fixed
  download := hquiet.download.trans h.download
  aimed := haimed

lemma Sourced.stays (hquiet : w.m.Quiet m)
    (hnum : m.job.fileNum = w.m.job.fileNum) (haimed : Aimed m.disk m.job expect) :
    Sourced libs (w.moved m expect) := by
  refine h.moved hquiet ?_
  rw [Reading.moved, if_pos hnum]
  exact haimed

lemma Sourced.leaves (hquiet : w.m.Quiet m)
    (hnum : m.job.fileNum = w.m.job.fileNum + 1) (hstream : m.job.stream = none) :
    Sourced libs (w.moved m expect) := by
  refine h.moved hquiet ?_
  rw [Reading.moved, if_neg (by omega)]
  exact Aimed.of_none hstream

lemma Sourced.init {r : EStateM.Result Error Machine (Option Digest)}
    (hinits : Inits env w.m r) : Sourced libs (w.moved (Prog.stateOf r) w.expect) := by
  have hquiet : ∀ {m : Machine}, Opens env w.m m → w.m.Quiet m := by
    intro m hopen
    obtain ⟨-, -, hdisk, htrace⟩ := h.aimed.of_opens hopen
    refine ⟨hdisk, ?_, ?_, ?_⟩
    · rcases hopen with _ | _ <;> rfl
    · rcases hopen with _ | _ <;> rfl
    · intro event hevent
      rcases htrace with ⟨new, htrace, hnew⟩ | htrace
      · rw [htrace, List.mem_append, List.mem_singleton] at hevent
        rcases hevent with hold | rfl
        · exact .inl hold
        · exact .inr hnew
      · exact .inl (htrace ▸ hevent)
  cases hinits with
  | past hfile =>
    refine h.stays (.of_trace_eq rfl rfl rfl rfl) rfl ⟨?_, fun _ => .inr hfile⟩
    intro _ hstream
    cases hstream
  | lost => exact h.leaves (.of_trace_eq rfl rfl rfl rfl) rfl rfl
  | ready hopen | noDigest hopen =>
    obtain ⟨haimed, hnum, -⟩ := h.aimed.of_opens hopen
    exact h.stays (hquiet hopen) hnum haimed
  | digest hopen =>
    obtain ⟨haimed, hnum, -⟩ := h.aimed.of_opens hopen
    obtain ⟨hdisk, hfixed, hdownload, htrace⟩ := hquiet hopen
    exact h.stays ⟨hdisk, hfixed, hdownload, htrace⟩ hnum ⟨haimed.stream, haimed.closed⟩

/-- What an open stream that is where it should be yields is from the source. -/
lemma Sourced.fromSource {stream : Stream} {buf : Bytes} {block : Block}
    (hstream : w.m.job.stream = some stream) (hbuf : readBuf env w.m.disk stream = some buf)
    (hblock : block = ⟨w.m.job.id, w.m.job.fileNum, buf, false⟩ ∨ block = ⟨w.m.job.id,
      w.m.job.fileNum, libs.compress buf, true⟩) :
    Yield.FromSource libs w.m.disk w.m.job ⟨w.m.job.fileNum, w.expect, buf, block⟩ := by
  obtain ⟨-, hpos, entry, hfile, hino⟩ := h.aimed.stream stream hstream
  obtain ⟨source, hdata⟩ := FileSystem.data_of_ino hino
  refine ⟨entry, stream.ino, source, hfile, hino, hdata, ?_, hblock⟩
  rw [← hpos]
  exact readBuf_start hdata hbuf

lemma Sourced.yield (hy : y.FromSource libs w.m.disk w.m.job) :
    Sourced libs { w with yields := w.yields ++ [y] } where
  yields := List.forall_mem_append.mpr ⟨h.yields, List.forall_mem_singleton.mpr hy⟩
  events := h.events
  download := h.download
  aimed := h.aimed

lemma Sourced.read (hstep : w.step libs (.read env) = some w') :
    Sourced libs w' := by
  have hbuffer : ∀ {stream buf}, w.m.job.stream = some stream →
      readBuf env w.m.disk stream = some buf → w.buffer env = buf := by
    intro stream buf hstream hbuf
    rw [Reading.buffer, hstream, Option.bind_some, hbuf, Option.getD_some]
  have hreads := reads libs env w.m
  rw [Reading.step] at hstep
  cases hread : FileTransfer.read libs env w.m with
  | error e m =>
    rw [hread] at hstep hreads
    cases hstep
    cases hreads with
    | noStream => exact h.stays (.of_trace_eq rfl rfl rfl rfl) rfl h.aimed
    | broken => exact h.leaves (.of_trace_eq rfl rfl rfl rfl) rfl rfl
  | ok block m =>
    rw [hread] at hstep hreads
    cases block with
    | none =>
      cases hstep
      cases hreads with
      | unconfirmed => exact h.stays (.of_trace_eq rfl rfl rfl rfl) rfl h.aimed
      | past _ hfile =>
        refine h.stays (.of_trace_eq rfl rfl rfl rfl) rfl ⟨?_, fun _ => .inr hfile⟩
        intro _ hstream
        cases hstream
    | some block =>
      cases hstep
      cases hreads with
      | atEnd hconf hfile hstream hbuf =>
        have hfrom := h.fromSource hstream hbuf (.inl rfl)
        rw [hbuffer hstream hbuf]
        exact (h.yield hfrom).leaves (.of_trace_eq rfl rfl rfl rfl) rfl rfl
      | @block entry stream buf hconf hfile hstream hbuf =>
        have hpack := pack_eq libs w.m.job (w.m.job.nameFor entry) buf
        have hfrom := h.fromSource hstream hbuf hpack
        obtain ⟨hmode, hpos, entry, hfile, hino⟩ := h.aimed.stream stream hstream
        rw [hbuffer hstream hbuf]
        refine (h.yield hfrom).stays (.of_trace_eq rfl rfl rfl rfl) rfl ?_
        rw [← hpos]
        refine @Aimed.opened _ _ _ _ _ stream.failed hfile hino ?_
        show some _ = some _
        rw [← hmode]

lemma Sourced.offset {offset : ℕ} (hseek : w.m.seekable env)
    (hoffset : Offsets env (w.m.withJob (w.m.job.setFileConfirmed true)) w.m.job.fileNum offset m) :
    Sourced libs (w.moved m offset) := by
  have hresolve : ∀ name, (w.m.job.setFileConfirmed true).resolveEntryPath env.links name =
      joinValidatedPath env.links w.m.job.base name := by
    intro name
    rw [TransferJob.resolveEntryPath, if_neg]
    · rfl
    · show ¬w.m.job.download.isSome
      rw [h.download]
      exact Bool.false_ne_true
  cases hoffset with
  | noEntry hfile =>
    refine h.stays (.of_trace_eq rfl rfl rfl rfl) rfl
      ⟨fun stream hstream => ?_, fun _ => .inr hfile⟩
    -- an open stream has a file
    obtain ⟨-, -, entry, hentry, -⟩ := h.aimed.stream stream hstream
    cases hfile.symm.trans hentry
  | noPath hfile hpath =>
    obtain ⟨i, -, hjoin, -⟩ := Machine.reopen_of_seekable hfile hseek
    cases hpath.symm.trans ((hresolve _).trans hjoin)
  | noFile hfile hpath hopen =>
    obtain ⟨i, -, hjoin, hreopen, -⟩ := Machine.reopen_of_seekable hfile hseek
    cases hpath.symm.trans ((hresolve _).trans hjoin)
    cases hopen.symm.trans hreopen
  | unseekable hfile hpath hopen hfails =>
    obtain ⟨i, -, -, -, hok⟩ := Machine.reopen_of_seekable hfile hseek
    exact absurd hfails hok
  | seeked hfile hpath hopen hok =>
    obtain ⟨i, hino, hjoin, hreopen, -⟩ := Machine.reopen_of_seekable hfile hseek
    cases hpath.symm.trans ((hresolve _).trans hjoin)
    cases hopen.symm.trans hreopen
    refine h.stays ⟨rfl, rfl, rfl, fun event hevent => ?_⟩ rfl (Aimed.opened hfile hino rfl)
    rcases List.mem_append.mp hevent with hold | hnew
    · exact .inl hold
    · rw [List.mem_singleton.mp hnew]
      exact .inr ⟨_, TransferJob.mem_of_file hfile, i, rfl⟩

lemma Sourced.confirm {r : SendConfirm} (hok : w.resumable (.confirm env r)) :
    Sourced libs (w.moved (FileTransfer.confirm env w.m r) (w.confirmedAt r)) := by
  have hconfirms : Confirms env w.m r (FileTransfer.confirm env w.m r) := confirms h.download r
  rw [Reading.resumable] at hok
  generalize FileTransfer.confirm env w.m r = m at hconfirms
  cases hconfirms with
  | other hother =>
    have hat : w.confirmedAt r = w.expect := by
      rw [Reading.confirmedAt]
      rcases hother with hne | hnone
      · rw [if_pos hne]
      · rw [hnone, ite_self]
    rw [hat]
    exact h.stays (.of_trace_eq rfl rfl rfl rfl) rfl h.aimed
  | skipped hnum hunion => exact h.leaves (.of_trace_eq rfl rfl rfl rfl) rfl rfl
  | confirmed hnum hunion =>
    have hat : w.confirmedAt r = 0 ∧ w.m.job.stream.all (·.pos = 0) := by
      rw [Reading.confirmedAt, if_neg (not_not.mpr hnum)]
      rcases hunion with hunion | hunion
      · simpa [hunion, hnum] using hok
      · simpa [hunion, hnum] using hok
    rw [hat.1]
    exact h.stays (.of_trace_eq rfl rfl rfl rfl) rfl (h.aimed.confirmed hat.2)
  | @resumed offset m' hnum hunion hpos hoffset =>
    have hat : w.confirmedAt r = offset.toNat := by
      rw [Reading.confirmedAt, if_neg (not_not.mpr hnum), hunion]
    have hseek : w.m.seekable env := by simpa [hunion, hnum, hpos] using hok
    rw [hat]
    exact h.offset hseek (hnum ▸ hoffset)

lemma Sourced.step {a : Reading.Act} (hok : w.resumable a) (hstep : w.step libs a = some w') :
    Sourced libs w' := by
  cases a with
  | init env =>
    cases hstep
    exact h.init (inits env w.m)
  | read env => exact h.read hstep
  | confirm env r =>
    cases hstep
    exact h.confirm hok

end

/-- A read job whose confirmations find the current file seekable, or at its start if they come
without an offset, yields the bytes of its files where they belong, and opens nothing else. -/
theorem reads_only_source {libs : Libs} {w : Reading}
    (h : ((reading libs).restrict Reading.resumable).Reachable w) : w.OnlySource libs := by
  have hsourced : Sourced libs w := by
    refine h.restrict_invariant ?_ fun _ _ _ hw => hw.step
    rintro w ⟨hdownload, hstream, htrace, hexpect, hyields⟩
    refine ⟨⟨?_, ?_⟩, hdownload, hexpect ▸ Aimed.of_none hstream⟩
    · intro y hy
      rw [hyields] at hy
      cases hy
    · intro event hevent
      rw [htrace] at hevent
      cases hevent
  exact hsourced.toOnlySource

/-- A job for the file `a`, which holds three bytes; beside it there may be a staging file with its
digest. -/
def sampleReading (others : List Path) : Reading where
  m := {
    job := { id := 7, base := ['d'], files := [⟨['a'], 0⟩], fileNum := 0,
             enableOverwriteDetection := true }
    disk := others.foldl (fun disk name => disk.addFile (place name))
      ((FileSystem.empty.addFile (place ['d', '/', 'a'])).writeAt 0 0 [1, 2, 3]) }

/-- A file that is resumed after its first byte: the block has the other two. -/
theorem reads_only_source_resumed :
    ∃ w ∈ (reading .plain).run (sampleReading [])
        [.init {}, .confirm {} ⟨7, 0, some (.offsetBlk 1)⟩, .read {}],
      w.yields = [⟨0, 1, [2, 3], ⟨7, 0, [2, 3], false⟩⟩] ∧ w.OnlySource .plain :=
  LTS.exists_run_restrict Reading.resumable ⟨rfl, rfl, rfl, rfl, rfl⟩ (by decide) fun _ =>
    reads_only_source

/-- With a staging file and its digest next to the source, a confirmed offset opens the staging
file for writing. -/
theorem staging_opened_by_reader :
    ∃ w ∈ (reading .plain).run
        (sampleReading [staging ['d', '/', 'a'], digestFile ['d', '/', 'a']])
        [.init {}, .confirm {} ⟨7, 0, some (.offsetBlk 1)⟩],
      w.m.job.stream = some ⟨1, 1, .write, false⟩ ∧ ¬w.OnlySource .plain := by
  refine LTS.exists_run_of (P := fun w => w.m.job.stream = some ⟨1, 1, .write, false⟩ ∧
    .reopened ['d', '/', 'a'] 1 ∈ w.m.trace) (by decide) ?_
  rintro w - ⟨hstream, hmem⟩
  refine ⟨hstream, fun h => ?_⟩
  obtain ⟨_, _, _, hevent⟩ := h.events _ hmem
  cases hevent

end RustDesk.FileTransfer
