import RustDesk.FileTransfer.Write
import RustDesk.Lib.Transition

/-!
# Uploads in the connection manager

The requests of one upload job: blocks, confirmations, digests, and what ends it. `modify_time` puts
whatever has the name of the staging file in the place of the current file, so a staging file that
an earlier transfer left there is taken for the job's own. A write that fails is told to the next
block, which is then not written either; this is reported, but the job goes on: the file is put in
place without them.
-/

namespace RustDesk.FileTransfer

open Prog FileSystem

variable {trace : List Event} {event : Event} {job : TransferJob} {libs : Libs} {env : Env}
  {block : Block} {m : Machine}

/-- A job, until it is removed. -/
structure Upload where
  m : Machine
  live : Bool := true

namespace Upload

inductive Act where
  | writeBlock (env : Env) (fileNum : ℤ) (data : Bytes) (compressed : Bool)
  | checkDigest (digest : FileDigest)
  | sendConfirm (env : Env) (r : SendConfirm)
  | writeDone (env : Env)
  | cancelWrite (env : Env)
  | writeError
  deriving DecidableEq

/-- A block for a file of the job could not be written. -/
def refuse (libs : Libs) (m : Machine) (block : Block) : Machine :=
  match m.job.file block.fileNum with
  | none => m
  | some entry => m.note (.failed (m.job.path entry) (block.unpack libs))

def writeBlock (libs : Libs) (env : Env) (block : Block) (m : Machine) : Machine :=
  match write libs env block m with
  | .ok _ m => m
  | .error _ m => refuse libs m block

/-- A request; the job is gone after the last three. -/
def step (libs : Libs) (w : Upload) : Act → Option Upload
  | .writeBlock env fileNum data compressed =>
    if w.live then
      some { w with m := writeBlock libs env ⟨w.m.job.id, fileNum, data, compressed⟩ w.m }
    else none
  | .checkDigest digest =>
    if w.live then some { w with m := w.m.withJob { w.m.job with digest } } else none
  | .sendConfirm env r => if w.live then some { w with m := confirm env w.m r } else none
  | .writeDone env => if w.live then some ⟨(modifyTime env).after w.m, false⟩ else none
  | .cancelWrite env => if w.live then some ⟨(removeDownloadFile env).after w.m, false⟩ else none
  | .writeError => if w.live then some { w with live := false } else none

end Upload

/-- A new job that writes an upload, on any disk. -/
def uploading (libs : Libs) : LTS Upload Upload.Act where
  init w := w.live ∧ w.m.job.download = none ∧ w.m.job.stream = none ∧ w.m.trace = []
  step := Upload.step libs

/-! ### Its own staging files -/

/-- Whenever a staging file was put in the place of a file, `P` held of what had been done before,
the path and the staging file. -/
def AtRenames (P : List Event → Path → ℕ → Prop) (trace : List Event) : Prop :=
  ∀ before path i rest, trace = before ++ .renamed path i :: rest → P before path i

namespace AtRenames

variable {P : List Event → Path → ℕ → Prop}

lemma nil : AtRenames P [] := by
  intro before path i rest heq
  exact absurd heq (List.append_ne_nil_of_right_ne_nil _ (List.cons_ne_nil _ _)).symm

/-- The last event decides, and the events before it as before. -/
lemma concat (h : AtRenames P trace) (hlast : ∀ path i, event = .renamed path i → P trace path i) :
    AtRenames P (trace ++ [event]) := by
  intro before path i rest heq
  rcases List.eq_nil_or_concat' rest with rfl | ⟨rest', last, rfl⟩
  · obtain ⟨rfl, hevent⟩ := List.append_inj' heq rfl
    exact hlast path i (List.singleton_injective hevent)
  · rw [← List.cons_append, ← List.append_assoc] at heq
    exact h before path i rest' (List.append_inj' heq rfl).1

end AtRenames

/-- The job made the file, or reopened it to resume. -/
def Made (trace : List Event) (i : ℕ) : Prop :=
  ∃ path, .created path i ∈ trace ∨ .reopened path i ∈ trace

/-- What was put in the place of a file was the job's own by then. -/
def OwnStaging : List Event → Prop := AtRenames fun before _ i => Made before i

/-- No entry of the job has a staging file. -/
def Upload.noStaging (w : Upload) : Bool :=
  w.m.job.files.all fun entry => w.m.disk.ino (place (staging (w.m.job.path entry))) = none

lemma Made.append {i : ℕ} (h : Made trace i) (more : List Event) : Made (trace ++ more) i := by
  obtain ⟨path, hmem | hmem⟩ := h
  · exact ⟨path, .inl (List.mem_append_left _ hmem)⟩
  · exact ⟨path, .inr (List.mem_append_left _ hmem)⟩

/-- The staging files of the entries are the job's own. -/
structure OwnFiles (job : TransferJob) (m : Machine) : Prop where
  fixed : m.job.fixed = job.fixed
  download : m.job.download = none
  own : OwnStaging m.trace
  staged : ∀ entry ∈ job.files, ∀ i,
    m.disk.entry (place (staging (job.path entry))) = some (.file i) → Made m.trace i

namespace OwnFiles

variable {path : Path} {disk : Disk} {entry : FileEntry} {bytes : Bytes}

lemma withJob (h : OwnFiles job m) {job' : TransferJob} (hfixed : job'.fixed = m.job.fixed)
    (hdownload : job'.download = m.job.download) : OwnFiles job (m.withJob job') :=
  ⟨hfixed.trans h.fixed, hdownload.trans h.download, h.own, h.staged⟩

/-- A disk on which every staging file was one before, or is the job's own. -/
lemma withDisk (h : OwnFiles job m)
    (hdisk : ∀ entry ∈ job.files, ∀ i,
      disk.entry (place (staging (job.path entry))) = some (.file i) →
      m.disk.entry (place (staging (job.path entry))) = some (.file i) ∨ Made m.trace i) :
    OwnFiles job (m.withDisk disk) := by
  refine ⟨h.fixed, h.download, h.own, fun entry hentry i hi => ?_⟩
  rcases hdisk entry hentry i hi with hold | hmade
  · exact h.staged entry hentry i hold
  · exact hmade

lemma note (h : OwnFiles job m) (hlast : ∀ path i, event = .renamed path i → Made m.trace i) :
    OwnFiles job (m.note event) :=
  ⟨h.fixed, h.download, AtRenames.concat h.own hlast,
    fun entry hentry i hi => (h.staged entry hentry i hi).append _⟩

lemma removeFile : Prog.Keeps (OwnFiles job) (removeFile env path) := by
  intro m h
  refine wp_removeFile (fun _ => h) fun disk hremove => h.withDisk ?_
  obtain ⟨-, rfl⟩ := remove_eq_some hremove
  intro entry _ i hi
  by_cases hp : place (staging (job.path entry)) = place path
  · rw [hp, entry_erase_self] at hi
    cases hi
  · rw [entry_erase_ne hp] at hi
    exact .inl hi

lemma setFileMtime {time : ℕ} : Prog.Keeps (OwnFiles job) (setFileMtime env path time) := by
  intro m h
  refine wp_setFileMtime (fun _ => h) fun disk hset => h.withDisk ?_
  obtain ⟨i, -, rfl⟩ := setMtime_eq_some hset
  exact fun _ _ _ hi => .inl hi

/-- The staging file of an entry is put in its place. It may have the name of another staging file
then, but it is the job's own. -/
lemma renameStaging (hentry : entry ∈ job.files) :
    Prog.Keeps (OwnFiles job) (renameStaging env (job.path entry)) := by
  intro m h
  refine wp_renameStaging (fun _ => h) fun i disk _ hstaging hrename => ?_
  have hmade := h.staged entry hentry i hstaging
  obtain ⟨i', hstaging', -, -, hnew, hgone, hother⟩ := rename_eq_some hrename
  cases hstaging.symm.trans hstaging'
  have hdisk : OwnFiles job (m.withDisk disk) := by
    refine h.withDisk fun entry' _ j hj => ?_
    by_cases hplace : place (staging (job.path entry')) = place (job.path entry)
    · rw [hplace, hnew] at hj
      cases hj
      exact .inr hmade
    · by_cases hsame : place (staging (job.path entry')) = place (staging (job.path entry))
      · rw [hsame, hgone (place_staging_ne _)] at hj
        cases hj
      · rw [hother _ hsame hplace] at hj
        exact .inl hj
  refine hdisk.note fun path j heq => ?_
  cases heq
  exact hmade

lemma created (h : OwnFiles job m) {i : ℕ}
    (hcreate : m.disk.create (place (staging path)) = some (i, disk)) (stream : Option Stream) :
    OwnFiles job (((m.withDisk disk).withStream stream).note (.created path i)) := by
  obtain ⟨hself, hother⟩ := create_entry hcreate
  have hnote : OwnFiles job (m.note (.created path i)) := h.note fun _ _ heq => by cases heq
  have hmade : Made (m.trace ++ [.created path i]) i :=
    ⟨path, .inl (List.mem_append_right _ List.mem_cons_self)⟩
  refine ⟨h.fixed, h.download, hnote.own, fun entry hentry j hj => ?_⟩
  by_cases hp : place (staging (job.path entry)) = place (staging path)
  · rw [hp] at hj
    cases hself.symm.trans hj
    exact hmade
  · have hold := (hother _ hp).symm.trans hj
    exact hnote.staged entry hentry j hold

lemma writeDigest : Prog.Keeps (OwnFiles job) (writeFile env (digestFile path) bytes) := by
  intro m h
  have hdisk : ∀ i disk bytes, m.disk.create (place (digestFile path)) = some (i, disk) →
      OwnFiles job (m.withDisk (disk.writeAt i 0 bytes)) := by
    intro i disk bytes hcreate
    refine h.withDisk fun entry _ j hj => .inl ?_
    rw [entry_writeAt] at hj
    rw [← hj, (create_entry hcreate).2]
    exact place_staging_ne_digestFile _ _
  exact wp_writeFile h (fun i disk => hdisk i disk _) (fun i disk => hdisk i disk _)

lemma wrote (h : OwnFiles job m) (stream : Stream) (bytes : Bytes) :
    OwnFiles job (m.wrote stream bytes) := by
  have hdisk : OwnFiles job (m.withDisk (m.disk.writeAt stream.ino stream.pos bytes)) :=
    h.withDisk fun _ _ _ hi => .inl hi
  exact hdisk.withJob rfl rfl

lemma writeBuffered : Prog.Keeps (OwnFiles job) (writeBuffered env bytes) :=
  keeps_writeBuffered (fun _ _ h => h.withJob rfl rfl) fun _ _ _ _ h => (h.wrote _ _).note nofun

lemma resolve (h : OwnFiles job m) {links : List Path}
    (hpath : m.job.resolveEntryPath links entry.name = some path) : path = job.path entry := by
  rw [TransferJob.resolveEntryPath, if_neg] at hpath
  · obtain ⟨-, hbase, -⟩ := TransferJob.path_congr h.fixed
    rw [path_of_joinValidatedPath hpath, hbase]
    rfl
  · rw [TransferJob.isDownload, h.download]
    exact Bool.false_ne_true

lemma mem_files (h : OwnFiles job m) {k : ℤ} (hfile : m.job.file k = some entry) :
    entry ∈ job.files := by
  obtain ⟨-, -, hfiles, -⟩ := TransferJob.path_congr h.fixed
  exact hfiles ▸ TransferJob.mem_of_file hfile

lemma modifyTime : Prog.Keeps (OwnFiles job) (modifyTime env) := by
  refine .get_bind fun m h =>
    Prog.Keeps.onSome (fun entry hfile => .onSome fun path hpath => ?_) m h
  cases h.resolve hpath
  exact .bind (.ignore removeFile) fun _ =>
    .bind (.ignore (renameStaging (h.mem_files hfile))) fun _ => .ignore setFileMtime

lemma removeDownloadFile : Prog.Keeps (OwnFiles job) (removeDownloadFile env) := by
  refine .get_bind fun m h => Prog.Keeps.whenever (.onSome fun _ _ => .onSome fun _ _ => ?_) m h
  exact .bind (.ignore removeFile) fun _ => .ignore removeFile

lemma openStaging : Prog.Keeps (OwnFiles job) (openStaging libs env path) := by
  refine .get_bind fun m h => Prog.Keeps.bind (.whenever removeFile) (fun _ m h => ?_) m h
  simp only [wp_bind, wp_modify, wp_get]
  refine wp_createFile (fun _ => h) fun i disk hcreate => ?_
  exact Prog.Keeps.ignore writeDigest _ (h.created hcreate _)

lemma startFile {fileNum : ℤ} : Prog.Keeps (OwnFiles job) (startFile libs env fileNum entry) := by
  refine .bind modifyTime fun _ => .get_bind fun m h => ?_
  refine Prog.Keeps.bind (.whenever keeps_call) (fun _ => .bind (.modify ?_) fun _ => ?_) m h
  · exact fun m h => h.withJob rfl rfl
  · exact .get_bind fun m h => Prog.Keeps.bind .require (fun _ => openStaging) m h

lemma write : Prog.Keeps (OwnFiles job) (write libs env block) := by
  refine .get_bind fun m h => Prog.Keeps.bind .check (fun _ => .bind .require fun _ => ?_) m h
  refine .bind (.whenever startFile) fun _ => .bind writeBuffered fun _ => .modify ?_
  exact fun m h => h.withJob rfl rfl

/-- What `set_stream_offset` opens is not put in place of anything. -/
lemma reopen_event {opened : Event × ℕ × Mode} (h : m.reopen env path = some opened) :
    ∀ path' i, opened.1 ≠ .renamed path' i := by
  rw [Machine.reopen] at h
  split_ifs at h
  all_goals
    obtain ⟨j, -, rfl⟩ := Option.map_eq_some_iff.mp h
    exact fun _ _ => Event.noConfusion

lemma confirm (h : OwnFiles job m) {r : SendConfirm} : OwnFiles job (confirm env m r) := by
  have hconfirms : Confirms env m r (FileTransfer.confirm env m r) := confirms h.download r
  have hconfirmed : OwnFiles job (m.withJob (m.job.setFileConfirmed true)) := h.withJob rfl rfl
  generalize FileTransfer.confirm env m r = m' at hconfirms
  cases hconfirms with
  | other => exact h
  | skipped => exact h.withJob rfl rfl
  | confirmed => exact hconfirmed
  | resumed _ _ _ hoffset =>
    cases hoffset with
    | noEntry => exact hconfirmed
    | noPath => exact hconfirmed
    | noFile => exact hconfirmed
    | unseekable _ _ hopen =>
      exact hconfirmed.note fun path i heq => absurd heq (reopen_event hopen path i)
    | seeked _ _ hopen =>
      have hnote := hconfirmed.note fun path i heq => absurd heq (reopen_event hopen path i)
      exact hnote.withJob rfl rfl

end OwnFiles

lemma Upload.writeBlock_of_wp {I : Machine → Prop}
    (hwrite : wp (write libs env block) (fun _ => I) (fun _ => I) m)
    (hnote : ∀ m path data, I m → I (m.note (.failed path data))) :
    I (Upload.writeBlock libs env block m) := by
  rw [wp] at hwrite
  rw [Upload.writeBlock]
  cases hrun : write libs env block m with
  | ok _ m' =>
    rw [hrun] at hwrite
    exact hwrite
  | error _ m' =>
    rw [hrun] at hwrite
    dsimp only [Upload.refuse]
    split
    · exact hwrite
    · exact hnote _ _ _ hwrite

lemma OwnFiles.writeBlock (h : OwnFiles job m) :
    OwnFiles job (Upload.writeBlock libs env block m) :=
  Upload.writeBlock_of_wp (OwnFiles.write m h) fun _ _ _ h => h.note nofun

lemma Upload.live_of_step {w w' : Upload} {a : Upload.Act} (h : w.step libs a = some w') :
    w.live := by
  cases hlive : w.live with
  | true => rfl
  | false => cases a <;> simp [Upload.step, hlive] at h

lemma Upload.ownFiles_step {w w' : Upload} {a : Upload.Act} (h : OwnFiles job w.m)
    (hstep : w.step libs a = some w') : OwnFiles job w'.m := by
  have hlive := Upload.live_of_step hstep
  cases a <;> rw [Upload.step, if_pos hlive] at hstep <;> cases hstep
  case writeBlock => exact h.writeBlock
  case checkDigest => exact h.withJob rfl rfl
  case sendConfirm => exact h.confirm
  case writeDone => exact OwnFiles.modifyTime.after h
  case cancelWrite => exact OwnFiles.removeDownloadFile.after h
  case writeError => exact h

/-- When no staging file is there at the start, whatever is put in the place of a file was made by
the job, or reopened by it, before. -/
theorem renamed_own_staging {libs : Libs} {w w' : Upload} {acts : List Upload.Act}
    (hstart : (uploading libs).init w) (hclean : w.noStaging)
    (h : (uploading libs).run w acts = some w') : OwnStaging w'.m.trace := by
  obtain ⟨-, hdownload, -, htrace⟩ := hstart
  have hown : OwnFiles w.m.job w.m := by
    refine ⟨rfl, hdownload, ?_, ?_⟩
    · rw [htrace]
      exact AtRenames.nil
    · intro entry hentry i hi
      have hnone := of_decide_eq_true (List.all_eq_true.mp hclean entry hentry)
      rw [ino_of_entry hi] at hnone
      cases hnone
  have hrun : OwnFiles w.m.job w'.m :=
    LTS.run_invariant (P := fun w' => OwnFiles w.m.job w'.m)
      (fun _ _ _ hs hstep => Upload.ownFiles_step hs hstep) h hown
  exact hrun.own

/-- An upload of the file `a`; next to it there may be a staging file with one byte. -/
def sampleUpload (stale : Bool) : Upload where
  m := {
    job := { id := 7, base := ['d'], files := [⟨['a'], 5⟩], fileNum := 0,
             enableOverwriteDetection := true }
    disk :=
      if stale then (FileSystem.empty.addFile (place (staging ['d', '/', 'a']))).writeAt 0 0 [9]
      else FileSystem.empty }

/-- One block, and the file is in place. -/
theorem renamed_own_staging_one_block :
    ∃ w ∈ (uploading .plain).run (sampleUpload false) [.writeBlock {} 0 [1] false, .writeDone {}],
      .renamed ['d', '/', 'a'] 0 ∈ w.m.trace ∧ OwnStaging w.m.trace := by
  have hstart : (uploading .plain).init (sampleUpload false) := ⟨rfl, rfl, rfl, rfl⟩
  exact LTS.exists_run (by decide) fun _ hw _ =>
    renamed_own_staging hstart (by decide) hw

/-- The first block of a file puts the staging file that an earlier transfer left in its place,
before anything has been written. -/
theorem stale_staging_renamed :
    ∃ w ∈ (uploading .plain).run (sampleUpload true) [.writeBlock {} 0 [1] false],
      w.m.disk.data 0 = some [9] ∧ w.m.disk.ino (place ['d', '/', 'a']) = some 0 ∧
        ¬OwnStaging w.m.trace := by
  refine LTS.exists_run_of (P := fun w => w.m.disk.data 0 = some [9] ∧
    w.m.disk.ino (place ['d', '/', 'a']) = some 0 ∧
    w.m.trace.head? = some (.renamed ['d', '/', 'a'] 0)) (by decide) ?_
  rintro w - ⟨hdata, hino, hhead⟩
  refine ⟨hdata, hino, fun hown => ?_⟩
  obtain ⟨rest, htrace⟩ := List.head?_eq_some_iff.mp hhead
  obtain ⟨_, hmem | hmem⟩ := hown [] _ _ rest htrace
  · cases hmem
  · cases hmem

/-! ### Blocks that fail -/

/-- The blocks with data for a path that failed. -/
def failures (path : Path) (trace : List Event) : List Bytes :=
  trace.filterMap fun
    | .failed target data => if place target = place path ∧ data ≠ [] then some data else none
    | _ => none

/-- What was written to a file, and where, since it was made or cut to nothing, without what was
written over. -/
def payloads (i : ℕ) (trace : List Event) : List (ℕ × Bytes) :=
  trace.foldl (fun written event =>
    match event with
    | .created _ j => if j = i then [] else written
    | .wrote j pos bytes =>
      if j = i then
        (written.filter fun old => old.1 + old.2.length ≤ pos || pos + bytes.length ≤ old.1) ++
          [(pos, bytes)]
      else written
    | _ => written) []

/-- Each block for the path that failed has been written to the file after it failed. -/
def madeUp (trace : List Event) (path : Path) (i : ℕ) : Bool :=
  trace.tails.all fun since => (failures path since).isSubperm ((payloads i since).map Prod.snd)

/-- A file is put in place only with the data of every block for it that has failed before. -/
def NoGap : List Event → Prop := AtRenames fun before path i => madeUp before path i

/-- The staging file that `modify_time` puts in the place of the current file. -/
def Machine.finishes (m : Machine) (env : Env) : Option (Path × ℕ) := do
  let entry ← m.job.file m.job.fileNum
  let path ← m.job.resolveEntryPath env.links entry.name
  guard (.rename (staging path) ∉ env.fails)
  return (path, ← m.disk.ino (place (staging path)))

/-- The staging file that a request puts in place: the end of the job does, and a block that starts
a file. -/
def Upload.finishes (w : Upload) : Upload.Act → Option (Path × ℕ)
  | .writeDone env => w.m.finishes env
  | .writeBlock env k _ _ =>
    if (w.m.job.file k).isSome ∧ (k ≠ w.m.job.fileNum ∨ w.m.job.stream.isNone) then
      w.m.finishes env
    else none
  | _ => none

/-- So far no file has been put in place with a gap. -/
def GapFree (m : Machine) : Prop := NoGap m.trace

namespace GapFree

variable {path : Path} {fileNum : ℤ} {entry : FileEntry}

lemma note (h : GapFree m) (hevent : ∀ path i, event ≠ .renamed path i) : GapFree (m.note event) :=
  AtRenames.concat h fun path i heq => absurd heq (hevent path i)

lemma removeFile : Prog.Keeps GapFree (removeFile env path) :=
  fun _ h => wp_removeFile (fun _ => h) fun _ _ => h

/-- The digest goes first, which leaves the staging file where it is. -/
lemma modifyTime (h : GapFree m)
    (hmade : ∀ path i, m.finishes env = some (path, i) → madeUp m.trace path i) :
    wp (modifyTime env) (fun _ => GapFree) (fun _ => GapFree) m := by
  simp only [FileTransfer.modifyTime, wp_bind, wp_get, wp_onSome, wp_ignore]
  refine ⟨fun entry hfile => ⟨fun path hpath => ?_, fun _ => h⟩, fun _ => h⟩
  have hmtime : Prog.Keeps GapFree (setFileMtime env path entry.modifiedTime) :=
    fun _ h => wp_setFileMtime (fun _ => h) fun _ _ => h
  have hrename : ∀ disk, disk.entry (place (staging path)) = m.disk.entry (place (staging path)) →
      wp (renameStaging env path)
        (fun _ => wp (setFileMtime env path entry.modifiedTime) (fun _ => GapFree) fun _ => GapFree)
        (fun _ => wp (setFileMtime env path entry.modifiedTime) (fun _ => GapFree) fun _ => GapFree)
        (m.withDisk disk) := by
    intro disk hdisk
    refine wp_renameStaging (fun _ => hmtime _ h) fun i disk' hcall hstaging _ => hmtime _ ?_
    refine AtRenames.concat h fun path' i' heq => ?_
    cases heq
    have hino : m.disk.ino (place (staging path)) = some i := ino_of_entry (hdisk ▸ hstaging)
    exact hmade path i (by simp [Machine.finishes, hfile, hpath, hcall, hino])
  refine wp_removeFile (fun _ => hrename m.disk rfl) fun disk hremove => hrename disk ?_
  obtain ⟨-, rfl⟩ := remove_eq_some hremove
  exact entry_erase_ne (place_staging_ne_digestFile path path)

lemma openStaging : Prog.Keeps GapFree (openStaging libs env path) := by
  refine .get_bind fun m h => Prog.Keeps.bind (.whenever removeFile) (fun _ m h => ?_) m h
  simp only [wp_bind, wp_modify, wp_get, wp_ignore]
  refine wp_createFile (fun _ => h) fun i disk _ => ?_
  have hnote : GapFree (((m.withDisk disk).withStream (some ⟨i, 0, .write, false⟩)).note
      (.created path i)) :=
    note (m := (m.withDisk disk).withStream _) h fun _ _ heq => by cases heq
  exact wp_writeFile hnote (fun _ _ _ => hnote) (fun _ _ _ => hnote)

lemma startFile (h : GapFree m)
    (hmade : ∀ path i, m.finishes env = some (path, i) → madeUp m.trace path i) :
    wp (startFile libs env fileNum entry) (fun _ => GapFree) (fun _ => GapFree) m := by
  rw [FileTransfer.startFile, wp_bind]
  refine wp_mono (modifyTime h hmade) (fun _ => Prog.Keeps.get_bind fun m h => ?_) fun _ _ => id
  refine Prog.Keeps.bind (.whenever keeps_call) (fun _ => .bind (.modify ?_) fun _ => ?_) m h
  · exact fun m h => h
  · exact .get_bind fun m h => Prog.Keeps.bind .require (fun _ => openStaging) m h

lemma writeBlock (h : GapFree m)
    (hmade : (m.job.file block.fileNum).isSome →
      block.fileNum ≠ m.job.fileNum ∨ m.job.stream.isNone →
      ∀ path i, m.finishes env = some (path, i) → madeUp m.trace path i) :
    GapFree (Upload.writeBlock libs env block m) := by
  have hrest : Prog.Keeps GapFree (do
      writeBuffered env (block.unpack libs)
      modify (·.counted (block.unpack libs).length block.data.length) : M Unit) :=
    .bind (keeps_writeBuffered (fun _ _ h => h) fun m stream piece failed h =>
      note (m := m.wrote { stream with failed } piece) h fun _ _ heq => by cases heq) fun _ =>
      .modify fun _ h => h
  have hwrite : wp (write libs env block) (fun _ => GapFree) (fun _ => GapFree) m := by
    simp only [write, wp_bind, wp_get, wp_check, wp_require, wp_whenever, decide_eq_true_eq]
    refine ⟨fun _ => ⟨fun entry hfile => ⟨fun hopen => ?_, fun _ => ?_⟩, fun _ => h⟩, fun _ => h⟩
    · exact wp_mono (startFile h (hmade (by rw [hfile]; rfl) hopen)) (fun _ m' h' =>
        wp_bind.mp (hrest m' h')) fun _ _ => id
    · exact wp_bind.mp (hrest m h)
  exact Upload.writeBlock_of_wp hwrite fun m _ _ h => h.note fun _ _ heq => by cases heq

lemma confirm (h : GapFree m) (r : SendConfirm) : GapFree (confirm env m r) := by
  have hoffset : ∀ {m fileNum offset}, GapFree m →
      GapFree (setStreamOffset env m fileNum offset) := by
    intro m fileNum offset h
    have hoffset := offsets env m fileNum offset
    generalize setStreamOffset env m fileNum offset = m' at hoffset
    cases hoffset with
    | unseekable _ _ hopen | seeked _ _ hopen => exact h.note (OwnFiles.reopen_event hopen)
    | _ => exact h
  rw [FileTransfer.confirm]
  split_ifs
  · exact h
  · exact h
  · rw [confirmCurrent]
    split
    · exact h
    · exact h
    · dsimp only
      split_ifs
      · refine hoffset ?_
        exact h
      · exact h
    · exact h

lemma removeDownloadFile : Prog.Keeps GapFree (removeDownloadFile env) := by
  refine .get_bind fun m h => Prog.Keeps.whenever (.onSome fun _ _ => .onSome fun _ _ => ?_) m h
  exact .bind (.ignore removeFile) fun _ => .ignore removeFile

end GapFree

end RustDesk.FileTransfer
