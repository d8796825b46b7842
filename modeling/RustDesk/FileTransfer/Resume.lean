import RustDesk.FileTransfer.Receive

/-!
# Resuming a download

An earlier transfer has left a part of a file. The client finds it when the digest of the file
arrives, and asks for the rest with the length of the part as an offset of 32 bits; the length is
compared with the offset again before anything is written.
-/

namespace RustDesk.FileTransfer

open Prog FileSystem

/-- An earlier transfer has left the part of a file, and the digest that has now arrived again. -/
structure Interrupted (libs : Libs) (env : Env) (w : Download) (digest : Digest) (target : Path)
    (i : ℕ) (part : Bytes) : Prop where
  download : w.m.job.isDownload
  resume : w.m.job.isResume
  closed : w.m.job.stream = none
  sameId : digest.id = w.m.job.id
  valid : ∃ entry, w.m.job.file digest.fileNum = some entry ∧
    validatedTarget env.links w.m.job.base entry.name = some target
  absent : w.m.disk.entry (place target) = none
  staged : w.m.disk.entry (place (staging target)) = some (.file i)
  data : w.m.disk.data i = some part
  nonempty : 0 < part.length
  recorded : ∃ j content, w.m.disk.entry (place (digestFile target)) = some (.file j) ∧
    w.m.disk.data j = some content ∧
    libs.fromJson content = some ⟨digest.fileSize, digest.lastModified⟩

variable {libs : Libs} {env : Env} {w : Download} {digest : Digest} {target : Path} {i : ℕ}
  {part : Bytes} {m : Machine} {k : ℤ} {offset : UInt32} {sent : List SendConfirm}

section Digest

variable (hquiet : ∀ c, c ∉ env.fails) (h : Interrupted libs env w digest target i part)
include hquiet h

lemma transferredBefore_interrupted :
    transferredBefore libs env (w.m.setDigest digest) target digest = some part.length := by
  obtain ⟨j, content, hentry, hcontent, hjson⟩ := h.recorded
  obtain ⟨node, hnode, rfl⟩ := Option.map_eq_some_iff.mp h.data
  have hpos := h.nonempty
  have hstaging := ino_of_entry h.staged
  have hdigest := ino_of_entry hentry
  simp [transferredBefore, Machine.exists_, Machine.setDigest, FileSystem.contains, h.staged,
    hentry, hquiet, hdigest, hcontent, hjson, FileSystem.node, hstaging, hnode, hpos]

lemma downloadDigest_interrupted : downloadDigest libs env true digest (w.m.setDigest digest) =
      .ok (.needConfirm ⟨digest.id, digest.fileNum, digest.lastModified, digest.fileSize, true,
        part.length⟩) (w.m.setDigest digest) := by
  obtain ⟨entry, hfile, htarget⟩ := h.valid
  have hthere : (w.m.setDigest digest).disk.contains (place target) = false := by
    rw [FileSystem.contains]
    exact congrArg Option.isSome h.absent
  have hresume : (true && (w.m.setDigest digest).job.isResume) = true := h.resume
  have hclosed : ¬((w.m.setDigest digest).job.fileNum ≠ digest.fileNum &&
      (w.m.setDigest digest).job.stream.isSome) = true := by
    have hnone : (w.m.setDigest digest).job.stream = none := h.closed
    rw [hnone, Option.isSome_none, Bool.and_false]
    exact Bool.false_ne_true
  apply eq_ok_of_wp
  rw [downloadDigest, wp_bind, wp_get, wp_bind, wp_whenever]
  refine ⟨fun hopen => absurd hopen hclosed, fun _ => ?_⟩
  rw [wp_bind]
  refine wp_downloadTarget_some hfile htarget ?_
  rw [wp_bind, canResumeAt, wp_bind, wp_get, if_pos hresume, wp_bind,
    wp_tryExists]
  refine ⟨fun _ => ?_, hquiet _⟩
  rw [hthere, wp_pure, wp_bind, isWriteNeedConfirmation, wp_bind, wp_get]
  simp only [Bool.not_false, if_true, transferredBefore_interrupted hquiet h, wp_pure]
  rw [if_neg nofun]
  exact ⟨rfl, rfl⟩

/-- The client asks for the rest, with the length as it fits an offset. -/
lemma onDigest_interrupted :
    w.onDigest libs env true digest = Download.confirm { w with m := w.m.setDigest digest } env
      ⟨digest.id, digest.fileNum, some (.offsetBlk (UInt32.ofNat part.length))⟩ := by
  obtain ⟨entry, hfile, -⟩ := h.valid
  have hdecision : ∀ job : TransferJob, job.isResume → Download.decision job ⟨digest.id,
      digest.fileNum, digest.lastModified, digest.fileSize, true, part.length⟩ =
      some (.offsetBlk (UInt32.ofNat part.length)) := by
    intro job hresume
    rw [Download.decision, hresume, if_pos]
    simpa using h.nonempty
  rw [Download.onDigest, hfile, if_neg (by simp), downloadDigest_interrupted hquiet h]
  simp only [Download.answer]
  rw [hdecision (w.m.setDigest digest).job h.resume]

omit hquiet in
lemma confirm_interrupted (hoffset : 0 < offset) :
    confirm env (w.m.setDigest digest) ⟨digest.id, digest.fileNum, some (.offsetBlk offset)⟩ =
      (w.m.setDigest digest).withJob { (w.m.setDigest digest).job with
        download := some (some (digest.fileNum, offset)) } := by
  obtain ⟨entry, hfile, -⟩ := h.valid
  have hfile' : (w.m.setDigest digest).job.file digest.fileNum = some entry := hfile
  have hjob : (w.m.setDigest digest).job.confirmDownload
      ⟨digest.id, digest.fileNum, some (.offsetBlk offset)⟩ =
      { (w.m.setDigest digest).job with download := some (some (digest.fileNum, offset)) } := by
    rw [TransferJob.confirmDownload, if_neg]
    · simp only [hfile']
    · rintro (hid | hnot)
      · exact hid h.sameId
      · have hdownload : (w.m.setDigest digest).job.isDownload = true := h.download
        rw [hdownload] at hnot
        cases hnot
  rw [confirm, hjob]
  exact if_pos (decide_eq_true hoffset)

/-- The download after the answer. -/
def Machine.asked (m : Machine) (digest : Digest) (offset : UInt32) : Machine :=
  (m.setDigest digest).withJob { (m.setDigest digest).job with
    download := some (some (digest.fileNum, offset)) }

lemma onDigest_resumable (hoffset : (UInt32.ofNat part.length).toNat = part.length) :
    w.onDigest libs env true digest =
      { w with
        m := w.m.asked digest (UInt32.ofNat part.length)
        sent := w.sent ++
          [⟨digest.id, digest.fileNum, some (.offsetBlk (UInt32.ofNat part.length))⟩] } := by
  have hpos : 0 < UInt32.ofNat part.length := by
    rw [UInt32.lt_iff_toNat_lt, hoffset]
    exact h.nonempty
  rw [onDigest_interrupted hquiet h, Download.confirm, confirm_interrupted h hpos]
  rfl

lemma sent_interrupted : (w.onDigest libs env true digest).sent = w.sent ++
    [⟨digest.id, digest.fileNum, some (.offsetBlk (UInt32.ofNat part.length))⟩] := by
  rw [onDigest_interrupted hquiet h]
  rfl

end Digest

/-- A file with several names is not gone on with. -/
lemma resumeDownload_links {entry : FileEntry} (offset : UInt32) (hfile : m.job.file k = some entry)
    (htarget : validatedTarget env.links m.job.base entry.name = some target)
    (hstaging : m.disk.entry (place (staging target)) = some (.file i)) :
    wp (resumeDownload env k offset) (fun _ _ => m.disk.links i = 1) (fun _ _ => True) m := by
  rw [resumeDownload, wp_bind]
  refine wp_downloadTarget_some hfile htarget ?_
  simp only [wp_bind, wp_tryExists, wp_check, wp_call, wp_get, wp_require,
    wp_modify, ino_of_entry hstaging, implies_true, and_true, decide_eq_true_eq]
  intro _ _ _ _ _ _ _ i' hi' _ hlinks _ _
  cases hi'
  exact hlinks

/-- The first block after the confirmation opens the part. -/
lemma startDownloadFile_resumed {entry : FileEntry} (hquiet : ∀ c, c ∉ env.fails)
    (hdownload : m.job.download = some (some (k, offset))) (hstream : m.job.stream = none)
    (hoffset : 0 < offset) (hfile : m.job.file k = some entry)
    (htarget : validatedTarget env.links m.job.base entry.name = some target)
    (h : wp (resumeDownload env k offset)
      (fun _ m' => Filling m' k target i part ∧ Within (Around target) m m')
      (fun _ _ => False) m) :
    wp (startDownloadFile libs env k)
      (fun _ m' => Within (Around target) m m' ∧ ∃ i, Filling m' k target i part)
      (fun _ _ => False) m := by
  have hconfirmed : m.job.confirmationOffset k = some offset := by
    rw [TransferJob.confirmationOffset, hdownload]
    exact if_pos rfl
  have hisDownload : m.job.isDownload := by
    rw [TransferJob.isDownload, hdownload]
    rfl
  rw [startDownloadFile, wp_bind]
  refine wp_mono (closeDownload_closed hisDownload hstream) ?_ fun _ _ => id
  rintro - m' rfl
  rw [wp_bind]
  refine wp_downloadTarget_some hfile htarget ?_
  rw [wp_bind, wp_get, wp_bind]
  refine wp_anyExists (fun _ _ hfail => hquiet _ hfail) ?_
  rw [wp_bind, wp_check, hconfirmed]
  refine ⟨fun _ => ?_, fun hnot => hnot (Bool.or_true _)⟩
  have hfilter : (some offset).filter (0 < ·) = some offset := by simp [hoffset]
  rw [hfilter]
  exact wp_mono h (fun _ _ hm => ⟨hm.2, i, hm.1⟩) fun _ _ => id

/-- The blocks of a file are added one after the other, the first of them to a file that is open
or to one that is opened for it. -/
lemma foldl_onBlock_filling {entry : FileEntry} {written : Bytes} {blocks : List Block}
    (hquiet : ∀ c, c ∉ env.fails) (hfile : w.m.job.file k = some entry)
    (hblocks : ∀ block ∈ blocks, block.id = w.m.job.id ∧ block.fileNum = k)
    (hstart : (k ≠ w.m.job.fileNum ∨ w.m.job.stream.isNone) → blocks ≠ [] ∧
      wp (startDownloadFile libs env k)
        (fun _ m' => Within (Around target) w.m m' ∧ ∃ i, Filling m' k target i written)
        (fun _ _ => False) w.m)
    (hopen : ¬(k ≠ w.m.job.fileNum ∨ w.m.job.stream.isNone) →
      ∃ i, Filling w.m k target i written) :
    ∃ i m', blocks.foldl (fun w block => w.onBlock libs env block) w = { w with m := m' } ∧
      Filling m' k target i (written ++ (blocks.map (Block.unpack libs)).flatten) ∧
      Within (Around target) w.m m' := by
  induction blocks generalizing w written with
  | nil =>
    obtain ⟨i, h⟩ := hopen fun hclosed => (hstart hclosed).1 rfl
    refine ⟨i, w.m, rfl, ?_, .refl _, rfl, rfl⟩
    rw [List.map_nil, List.flatten_nil, List.append_nil]
    exact h
  | cons block blocks ih =>
    obtain ⟨hid, rfl⟩ := hblocks block List.mem_cons_self
    obtain ⟨m', hblock, m₁, i', hwithin₁, hwithin, hfilling⟩ := Download.onBlock_of_wp
      (writeDownload_filling (P := Within (Around target) w.m) hquiet hid hfile
        (fun hclosed => (hstart hclosed).2) fun hgoing => ⟨⟨.refl _, rfl, rfl⟩, hopen hgoing⟩)
    have hwithin := hwithin₁.trans hwithin
    obtain ⟨hsame, -, -, hfiles, -⟩ := TransferJob.path_congr hwithin.fixed
    have hrest : ∀ block' ∈ blocks, block'.id = m'.job.id ∧ block'.fileNum = block.fileNum := by
      intro block' hmem
      rw [hsame]
      exact hblocks block' (List.mem_cons_of_mem _ hmem)
    have hgoing : ¬(block.fileNum ≠ m'.job.fileNum ∨ m'.job.stream.isNone) := by
      rw [hfilling.num, hfilling.stream]
      simp
    obtain ⟨i'', m'', hfold, hfilling', hwithin'⟩ := ih (w := { w with m := m' }) (hfiles ▸ hfile)
      hrest (fun hclosed => absurd hclosed hgoing) fun _ => ⟨i', hfilling⟩
    refine ⟨i'', m'', ?_, ?_, hwithin.trans hwithin'⟩
    · rw [List.foldl_cons, hblock, hfold]
    · rw [List.map_cons, List.flatten_cons, ← List.append_assoc]
      exact hfilling'

section Asked

variable (hquiet : ∀ c, c ∉ env.fails) (h : Interrupted libs env w digest target i part)
  (hlinks : w.m.disk.links i = 1) (hoffset : offset.toNat = part.length)
include hquiet h hlinks hoffset

lemma resumeDownload_asked : wp (resumeDownload env digest.fileNum offset)
      (fun _ m' => Filling m' digest.fileNum target i part ∧
        Within (Around target) (w.m.asked digest offset) m')
      (fun _ _ => False) (w.m.asked digest offset) := by
  obtain ⟨entry, hfile, htarget⟩ := h.valid
  obtain ⟨j, content, hdigest, -, -⟩ := h.recorded
  exact resumeDownload_filling (m := w.m.asked digest offset) hquiet hfile htarget h.absent h.staged
    hlinks h.data hdigest hoffset

lemma foldl_onBlock_asked {blocks : List Block} (hsome : blocks ≠ [])
    (hblocks : ∀ block ∈ blocks, block.id = w.m.job.id ∧ block.fileNum = digest.fileNum) :
    ∃ i m', blocks.foldl (fun w block => w.onBlock libs env block)
        { w with m := w.m.asked digest offset, sent } = { w with m := m', sent } ∧
      Filling m' digest.fileNum target i (part ++ (blocks.map (Block.unpack libs)).flatten) ∧
      Within (Around target) (w.m.asked digest offset) m' := by
  obtain ⟨entry, hfile, htarget⟩ := h.valid
  have hpos : 0 < offset := by
    rw [UInt32.lt_iff_toNat_lt, hoffset]
    exact h.nonempty
  refine foldl_onBlock_filling (w := { w with m := w.m.asked digest offset, sent }) hquiet hfile
    hblocks (fun _ => ⟨hsome, ?_⟩) fun hgoing => ?_
  · exact startDownloadFile_resumed hquiet rfl h.closed hpos hfile htarget
      (resumeDownload_asked hquiet h hlinks hoffset)
  · exact absurd (.inr (Option.isNone_iff_eq_none.mpr h.closed)) hgoing

/-- The blocks of a file arrive, and then the end of the job. -/
def Download.received (libs : Libs) (env : Env) (blocks : List Block) (w : Download) : Download :=
  (blocks.foldl (fun w block => w.onBlock libs env block) w).onDone env

lemma received_asked {blocks : List Block} (hsome : blocks ≠ [])
    (hblocks : ∀ block ∈ blocks, block.id = w.m.job.id ∧ block.fileNum = digest.fileNum) :
    ∃ i, (Download.received libs env blocks
        { w with m := w.m.asked digest offset, sent }).m.disk.entry (place target) =
          some (.file i) ∧
      (Download.received libs env blocks
        { w with m := w.m.asked digest offset, sent }).m.disk.data i =
          some (part ++ (blocks.map (Block.unpack libs)).flatten) := by
  obtain ⟨entry, hfile, htarget⟩ := h.valid
  obtain ⟨i', m', hfold, hfilling, hwithin⟩ :=
    @foldl_onBlock_asked _ _ _ _ _ _ _ _ sent hquiet h hlinks hoffset _ hsome hblocks
  obtain ⟨-, hbase, -, hfiles, -⟩ := TransferJob.path_congr hwithin.fixed
  have hdownload : m'.job.isDownload := by
    rw [TransferJob.isDownload, hwithin.download]
    rfl
  have hfinish := finishDownload_filling hquiet hdownload hfilling (hfiles ▸ hfile)
    (hbase ▸ htarget)
  have hplaced := after_of_wp (P := fun m'' => Placed m' m'' target i' _) hfinish
  rw [Download.received, hfold]
  exact ⟨i', hplaced.entry, hplaced.data⟩

end Asked

/-- The client asks for what is missing, goes on with the part, and ends with the whole file in its
place. -/
def Resumes (libs : Libs) (env : Env) (w : Download) (digest : Digest) (target : Path)
    (part rest : Bytes) (blocks : List Block) : Prop :=
  let w' := w.onDigest libs env true digest
  ∃ offset : UInt32,
    w'.sent = w.sent ++ [⟨digest.id, digest.fileNum, some (.offsetBlk offset)⟩] ∧
    offset.toNat = part.length ∧
    (∃ m', resumeDownload env digest.fileNum offset w'.m = .ok () m') ∧
    ∃ i, (w'.received libs env blocks).m.disk.entry (place target) = some (.file i) ∧
      (w'.received libs env blocks).m.disk.data i = some (part ++ rest)

/-- It does so if the length of the part fits an offset and the staging file has no other name, and
not otherwise. -/
theorem resumes_iff (hquiet : ∀ c, c ∉ env.fails) (h : Interrupted libs env w digest target i part)
    {rest : Bytes} {blocks : List Block} (hsome : blocks ≠ [])
    (hblocks : ∀ block ∈ blocks, block.id = w.m.job.id ∧ block.fileNum = digest.fileNum)
    (hrest : (blocks.map (Block.unpack libs)).flatten = rest) :
    Resumes libs env w digest target part rest blocks ↔
      part.length < 2 ^ 32 ∧ w.m.disk.links i = 1 := by
  obtain ⟨entry, hfile, htarget⟩ := h.valid
  rw [Resumes]
  constructor
  · rintro ⟨offset, hsent, hoffset, ⟨m', hm'⟩, -⟩
    refine ⟨hoffset ▸ offset.toNat_lt, ?_⟩
    obtain rfl : UInt32.ofNat part.length = offset := by
      rw [sent_interrupted hquiet h] at hsent
      simpa using hsent
    rw [onDigest_resumable hquiet h hoffset] at hm'
    have hlinks := resumeDownload_links (m := w.m.asked digest (UInt32.ofNat part.length))
      (UInt32.ofNat part.length) hfile htarget h.staged
    rw [wp, hm'] at hlinks
    exact hlinks
  · rintro ⟨hlen, hlinks⟩
    have hoffset : (UInt32.ofNat part.length).toNat = part.length := UInt32.toNat_ofNat_of_lt hlen
    rw [onDigest_resumable hquiet h hoffset]
    obtain ⟨_, m', hm', -⟩ := wp_total (resumeDownload_asked hquiet h hlinks hoffset)
    refine ⟨UInt32.ofNat part.length, rfl, hoffset, ⟨m', hm'⟩, ?_⟩
    rw [← hrest]
    exact received_asked hquiet h hlinks hoffset hsome hblocks

/-- A digest as it is stored. -/
def FileDigest.json (d : FileDigest) : Bytes :=
  s!"\x7b\"size\":{d.size},\"modified\":{d.modified}\x7d".toUTF8.data.toList

/-- Only the digest of a file of two bytes is read back. -/
def Libs.twoBytes : Libs :=
  { Libs.plain with
    toJson := FileDigest.json
    fromJson := fun text => if text = FileDigest.json ⟨2, 7⟩ then some ⟨2, 7⟩ else none }

/-- An earlier transfer has left the part of the file `a`. -/
def leftBehind (part : Bytes) : Download where
  m := {
    job := {
      id := 1
      base := "/t".toList
      files := [⟨"a".toList, 7⟩]
      fileNum := 0
      isResume := true
      enableOverwriteDetection := true
      download := some none }
    disk := (((FileSystem.empty.addFile (place (staging "/t/a".toList))).writeAt 0 0 part).addFile
      (place (digestFile "/t/a".toList))).writeAt 1 0 (FileDigest.json ⟨2, 7⟩) }

lemma interrupted_leftBehind {part : Bytes} (h : 0 < part.length) :
    Interrupted .twoBytes {} (leftBehind part) ⟨1, 0, 7, 2, true⟩ "/t/a".toList 0 part := by
  have hvalid : validatedTarget [] "/t".toList "a".toList = some "/t/a".toList := by decide
  have hne : place (staging "/t/a".toList) ≠ place (digestFile "/t/a".toList) :=
    place_staging_ne_digestFile _ _
  have hstaged : (leftBehind part).m.disk.entry (place (staging "/t/a".toList)) = some (.file 0) :=
    (entry_addFile_ne hne).trans (entry_addFile_self _)
  have hdata : (leftBehind part).m.disk.data 0 = some (FileSystem.overwrite [] 0 part) := rfl
  refine ⟨rfl, rfl, rfl, rfl, ⟨_, rfl, hvalid⟩, ?_, hstaged, ?_, h, 1, _, ?_, ?_, if_pos rfl⟩
  · exact (entry_addFile_ne (place_digestFile_ne _).symm).trans
      (entry_addFile_ne (place_staging_ne _).symm)
  · simpa [FileSystem.overwrite] using hdata
  · exact entry_addFile_self _
  · exact data_writeAt data_addFile

/-- A part of one byte, and the byte that is missing. -/
theorem resumes_iff_one_byte : Resumes .twoBytes {} (leftBehind [1]) ⟨1, 0, 7, 2, true⟩
    "/t/a".toList [1] [2] [⟨1, 0, [2], false⟩, ⟨1, 0, [], false⟩] := by
  refine (resumes_iff (fun _ => List.not_mem_nil) (interrupted_leftBehind (by decide)) (i := 0)
    ?_ ?_ ?_).mpr ?_
  · exact List.cons_ne_nil _ _
  · decide
  · rfl
  · decide

/-- With one byte more than 4 GiB the client asks for everything but the first byte. -/
theorem long_part_not_resumed : ∃ part : Bytes, part.length = 2 ^ 32 + 1 ∧
    Interrupted .twoBytes {} (leftBehind part) ⟨1, 0, 7, 2, true⟩ "/t/a".toList 0 part ∧
    (leftBehind part).m.disk.links 0 = 1 ∧
    ((leftBehind part).onDigest .twoBytes {} true ⟨1, 0, 7, 2, true⟩).sent =
      [⟨1, 0, some (.offsetBlk 1)⟩] ∧
    ∀ rest blocks, ¬Resumes .twoBytes {} (leftBehind part) ⟨1, 0, 7, 2, true⟩ "/t/a".toList part
      rest blocks := by
  obtain ⟨part, hlen⟩ : ∃ part : Bytes, part.length = 2 ^ 32 + 1 :=
    ⟨List.replicate _ 0, List.length_replicate⟩
  have hpos : 0 < part.length := by
    rw [hlen]
    exact Nat.succ_pos _
  have h := interrupted_leftBehind hpos
  have hsent : ((leftBehind part).onDigest .twoBytes {} true ⟨1, 0, 7, 2, true⟩).sent =
      [⟨1, 0, some (.offsetBlk 1)⟩] := by
    rw [sent_interrupted (fun _ => List.not_mem_nil) h, hlen]
    rfl
  refine ⟨part, hlen, h, rfl, hsent, ?_⟩
  rintro rest blocks ⟨offset, hsent', hoffset, -⟩
  rw [hsent] at hsent'
  obtain rfl : offset = 1 := by simpa [leftBehind] using hsent'.symm
  rw [hlen] at hoffset
  exact absurd hoffset (by decide)

end RustDesk.FileTransfer
