import RustDesk.FileTransfer.Download

/-!
# Receiving a file

What the programs of a download do while no call fails: a staging file is opened, new or as an
earlier transfer has left it, bytes are added to its end, and it is put in its place. Nothing
happens outside the places of the file.
-/

namespace RustDesk.FileTransfer

open Prog FileSystem

/-- The place of a file, and those beside it. -/
def Around (target : Path) (p : Bool × List Path) : Prop :=
  p = place target ∨ p = place (staging target) ∨ p = place (digestFile target)

/-- The entry `k` is being written; so far the staging file, which has no other name, has the bytes
`written`. -/
structure Filling (m : Machine) (k : ℤ) (target : Path) (i : ℕ) (written : Bytes) : Prop where
  num : m.job.fileNum = k
  stream : m.job.stream = some ⟨i, written.length, .write, false⟩
  sole : m.disk.Sole (place (staging target)) i
  data : m.disk.data i = some written
  absent : m.disk.entry (place target) = none
  digest : m.disk.entry (place (digestFile target)) ≠ some .dir

/-- Nothing has changed outside `A`, nor has what the job was made with or what it was told. -/
structure Within (A : Bool × List Path → Prop) (m m' : Machine) : Prop where
  disk : FileSystem.SameOutside A m.disk m'.disk
  fixed : m'.job.fixed = m.job.fixed
  download : m'.job.download = m.job.download

/-- The file is in its place, and nothing is beside it. -/
structure Placed (m m' : Machine) (target : Path) (i : ℕ) (written : Bytes) : Prop where
  job : m'.job = m.job
  disk : FileSystem.SameOutside (Around target) m.disk m'.disk
  entry : m'.disk.entry (place target) = some (.file i)
  data : m'.disk.data i = some written
  staging : m'.disk.entry (place (staging target)) = none
  digest : m'.disk.entry (place (digestFile target)) = none

lemma Within.trans {A : Bool × List Path → Prop} {m m' m'' : Machine} (h : Within A m m')
    (h' : Within A m' m'') : Within A m m'' :=
  ⟨h.disk.trans h'.disk, h'.fixed.trans h.fixed, h'.download.trans h.download⟩

section Programs

variable {m : Machine} {env : Env} {libs : Libs} {k : ℤ} {target : Path} {entry : FileEntry} {i : ℕ}
  {written : Bytes}

lemma wp_downloadTarget_some {Q : Path → Machine → Prop} {R : Error → Machine → Prop}
    (hfile : m.job.file k = some entry)
    (htarget : validatedTarget env.links m.job.base entry.name = some target) (hQ : Q target m) :
    wp (downloadTarget env k) Q R m := by
  simp only [downloadTarget, wp_bind, wp_get, wp_require]
  refine ⟨fun entry' hfile' => ?_, fun hnone => by cases hnone.symm.trans hfile⟩
  cases hfile.symm.trans hfile'
  refine ⟨fun target' htarget' => ?_, fun hnone => by cases hnone.symm.trans htarget⟩
  cases htarget.symm.trans htarget'
  exact hQ

/-! ### Finishing a file -/

section

variable (hquiet : ∀ c, c ∉ env.fails) (hdownload : m.job.isDownload)
  (h : Filling m k target i written) (hfile : m.job.file k = some entry)
  (htarget : validatedTarget env.links m.job.base entry.name = some target)
include hquiet h hfile htarget

lemma putInPlace_filling :
    wp (putInPlace env) (fun _ m' => Placed m m' target i written) (fun _ _ => False) m := by
  have hne : place target ≠ place (digestFile target) := (place_digestFile_ne _).symm
  have hne' : place (staging target) ≠ place (digestFile target) := place_staging_ne_digestFile _ _
  simp only [putInPlace, wp_bind, wp_get]
  rw [h.num]
  refine wp_downloadTarget_some hfile htarget ?_
  simp only [wp_tryExists, wp_check]
  have hthere : m.disk.contains (place target) = false := by
    rw [FileSystem.contains, h.absent]
    rfl
  refine ⟨fun _ => ⟨fun _ => ?_, fun hcheck => hcheck (by rw [hthere]; rfl)⟩, hquiet _⟩
  refine wp_renameStaging ?_ fun i' disk _ hi' hrename => ?_
  · rintro (hfail | hnone | hnone)
    · exact hquiet _ hfail
    · rw [ino_of_entry h.sole.1] at hnone
      cases hnone
    · rcases rename_eq_none hnone with hnone | hdir
      · rw [ino_of_entry h.sole.1] at hnone
        cases hnone
      · cases h.absent.symm.trans hdir
  obtain ⟨-, -, -, hnodes, -, hgone, hother⟩ := rename_eq_some hrename
  have hsole : disk.Sole (place target) i := h.sole.rename hrename
  refine wp_removeIfExists ?_ fun disk' hlost => ?_
  · rintro (hfail | hdir)
    · exact hquiet _ hfail
    · exact h.digest ((hother _ hne'.symm hne.symm).symm.trans hdir)
  have hlost : FileSystem.Lost (place (digestFile target)) disk disk' := hlost
  have hsole' : disk'.Sole (place target) i := hsole.lost hlost hne
  simp only [wp_require]
  refine ⟨fun entry' _ => ?_, fun hnone => by cases hnone.symm.trans hfile⟩
  refine wp_setFileMtime ?_ fun disk'' hset => ?_
  · rintro (hfail | hnone)
    · exact hquiet _ hfail
    · rw [FileSystem.setMtime, Option.map_eq_none_iff] at hnone
      cases hnone.symm.trans (ino_of_entry hsole'.1)
  have hset : disk'.setMtime (place target) (entry'.modifiedTime * 10 ^ 9) = some disk'' := hset
  have hdata : disk''.data i = some written := by
    rw [data_setMtime hset, ← h.data]
    exact data_congr (hlost.nodes.trans hnodes)
  obtain ⟨j, hj, rfl⟩ := setMtime_eq_some hset
  cases hsole'.1.symm.trans hj
  refine ⟨rfl, ?_, hsole'.1, hdata, (hlost.other _ hne').trans (hgone (place_staging_ne _)),
    hlost.gone⟩
  have hrenamed : FileSystem.SameOutside (Around target) m.disk disk :=
    .rename hrename (.inr (.inl rfl)) (.inl rfl)
  refine (hrenamed.trans (.lost hlost (.inr (.inr rfl)))).trans (.modify fun p hp => ?_)
  exact .inl (hsole'.2 p hp)

include hdownload in
lemma finishDownload_filling :
    wp (finishDownload env) (fun _ m' => Placed m m' target i written) (fun _ _ => False) m := by
  simp only [finishDownload, wp_bind, wp_get, if_pos hdownload, wp_whenever]
  refine ⟨fun _ => putInPlace_filling hquiet h hfile htarget, fun hclosed => ?_⟩
  rw [h.stream] at hclosed
  exact absurd rfl hclosed

end

lemma finishDownload_closed (hdownload : m.job.isDownload) (hstream : m.job.stream = none) :
    wp (finishDownload env) (fun _ m' => m' = m) (fun _ _ => False) m := by
  simp only [finishDownload, wp_bind, wp_get, if_pos hdownload, wp_whenever]
  refine ⟨fun hopen => ?_, fun _ => trivial⟩
  rw [hstream] at hopen
  cases hopen

lemma closeDownload_closed (hdownload : m.job.isDownload) (hstream : m.job.stream = none) :
    wp (closeDownload env) (fun _ m' => m' = m) (fun _ _ => False) m := by
  rw [closeDownload, wp_finally]
  refine wp_mono (finishDownload_closed hdownload hstream) (fun _ m' hm => ?_) fun _ _ => id
  rw [hm, Machine.withStream, ← hstream]
  rfl

/-! ### Starting a file -/

variable (hquiet : ∀ c, c ∉ env.fails)

include hquiet

lemma recordDigest_filling (h : Filling m k target i written) : wp (recordDigest libs env target)
      (fun _ m' => Filling m' k target i written ∧ Within (Around target) m m')
      (fun _ _ => False) m := by
  have hne : place (staging target) ≠ place (digestFile target) := place_staging_ne_digestFile _ _
  have hne' : place target ≠ place (digestFile target) := (place_digestFile_ne _).symm
  simp only [recordDigest, wp_bind, wp_call, wp_modify]
  refine wp_removeIfExists (fun hfail => hfail.elim (hquiet _) h.digest) fun disk hlost => ?_
  refine wp_createNewFile ?_ fun hnone => ?_
  · rintro (hfail | hthere)
    · exact hquiet _ hfail
    · rw [Machine.withDisk_disk, hlost.gone] at hthere
      cases hthere
  refine ⟨fun _ => ⟨fun _ => ?_, hquiet _⟩, hquiet _⟩
  -- the digest is all that changes
  have hremoved : FileSystem.SameOutside (· = place (digestFile target)) m.disk disk :=
    .lost hlost rfl
  have hsame : FileSystem.SameOutside (· = place (digestFile target)) m.disk
      ((disk.addFile (place (digestFile target))).writeAt disk.nodes.length 0
        (libs.toJson m.job.digest)) := by
    refine (hremoved.trans (.addFile rfl)).trans (.modify ?_)
    exact (sole_addFile _).2
  refine ⟨⟨h.num, h.stream, (h.sole.lost hlost hne).addFile hne, ?_, ?_, ?_⟩, ?_, rfl, rfl⟩
  · exact (hsame.data h.sole.1 hne).trans h.data
  · exact (hsame.entry _ hne').trans h.absent
  · intro hdir
    cases (entry_addFile_self _).symm.trans hdir
  · exact hsame.mono fun p hp => .inr (.inr hp)

/-- A staging file is made; whatever is beside the file was left from an earlier transfer. -/
lemma createStaging_filling (habsent : m.disk.entry (place target) = none)
    (hstaging : m.disk.entry (place (staging target)) ≠ some .dir)
    (hdigest : m.disk.entry (place (digestFile target)) ≠ some .dir) :
    wp (createStaging libs env k target)
      (fun _ m' => ∃ i, Filling m' k target i [] ∧ Within (Around target) m m')
      (fun _ _ => False) m := by
  simp only [createStaging, wp_bind, wp_call, wp_modify]
  refine ⟨fun _ => ?_, hquiet _⟩
  refine wp_removeIfExists (fun hfail => hfail.elim (hquiet _) hstaging) fun disk hlost => ?_
  refine wp_createNewFile ?_ fun _ => ?_
  · rintro (hfail | hthere)
    · exact hquiet _ hfail
    · rw [Machine.withDisk_disk, hlost.gone] at hthere
      cases hthere
  have hremoved : FileSystem.SameOutside (· = place (staging target)) m.disk disk := .lost hlost rfl
  have hsame : FileSystem.SameOutside (· = place (staging target)) m.disk
      (disk.addFile (place (staging target))) := hremoved.trans (.addFile rfl)
  have hfilling : Filling
      (((m.withDisk disk).withDisk (disk.addFile (place (staging target)))).started
      k disk.nodes.length target) k target disk.nodes.length [] := by
    refine ⟨rfl, rfl, sole_addFile _, data_addFile, ?_, ?_⟩
    · exact (hsame.entry _ (place_staging_ne _).symm).trans habsent
    · intro hdir
      exact hdigest ((hsame.entry _ (place_staging_ne_digestFile _ _).symm).symm.trans hdir)
  have hwithin : Within (Around target) m (((m.withDisk disk).withDisk
      (disk.addFile (place (staging target)))).started k disk.nodes.length target) :=
    ⟨hsame.mono fun p hp => Or.inr (.inl hp), rfl, rfl⟩
  refine wp_mono (recordDigest_filling hquiet hfilling) (fun _ m' hm' => ?_) fun _ _ => id
  exact ⟨_, hm'.1, hwithin.trans hm'.2⟩

/-- The staging file of an earlier transfer is gone on with if its length is the offset and it has
no other name. -/
lemma resumeDownload_filling (hfile : m.job.file k = some entry)
    (htarget : validatedTarget env.links m.job.base entry.name = some target)
    (habsent : m.disk.entry (place target) = none)
    (hstaging : m.disk.entry (place (staging target)) = some (.file i))
    (hlinks : m.disk.links i = 1) (hdata : m.disk.data i = some written) {j : ℕ}
    (hdigest : m.disk.entry (place (digestFile target)) = some (.file j)) {offset : UInt32}
    (hoffset : offset.toNat = written.length) : wp (resumeDownload env k offset)
      (fun _ m' => Filling m' k target i written ∧ Within (Around target) m m')
      (fun _ _ => False) m := by
  have hthere : m.disk.contains (place target) = false := by
    rw [FileSystem.contains, habsent]
    rfl
  simp only [resumeDownload, wp_bind]
  refine wp_downloadTarget_some hfile htarget ?_
  simp only [wp_tryExists, wp_check, wp_call, wp_get, wp_require, wp_modify,
    decide_eq_true_eq, hthere, hdigest, ino_of_entry hstaging, hoffset]
  refine ⟨fun _ => ⟨fun _ => ⟨fun _ => ⟨fun e he => ?_, Option.some_ne_none _⟩, hquiet _⟩,
    fun hnot => hnot rfl⟩, hquiet _⟩
  cases he
  refine ⟨fun _ => ⟨fun _ => ⟨fun i' hi' => ?_, Option.some_ne_none _⟩, hquiet _⟩,
    fun hnot => hnot Entry.noConfusion⟩
  cases hi'
  refine ⟨fun _ => ⟨fun _ => ⟨fun _ => ⟨fun _ => ?_, hquiet _⟩, fun hnot => ?_⟩,
    fun hnot => hnot hlinks⟩, hquiet _⟩
  · have hsole := sole_of_links hlinks hstaging
    refine ⟨⟨rfl, rfl, hsole, hdata, habsent, ?_⟩, .refl _, rfl, rfl⟩
    intro hdir
    cases hdigest.symm.trans hdir
  · rw [hdata] at hnot
    exact hnot rfl

/-! ### Blocks -/

lemma writeAll_filling (h : Filling m k target i written) (bytes : Bytes) : wp (writeAll env bytes)
      (fun _ m' => Filling m' k target i (written ++ bytes) ∧ Within (Around target) m m')
      (fun _ _ => False) m := by
  refine wp_writeAll (fun hnone => ?_) (fun stream hstream hmode => ?_)
    (fun _ _ hfail => hquiet _ hfail) fun stream hstream _ => ?_
  · cases hnone.symm.trans h.stream
  · cases h.stream.symm.trans hstream
    exact hmode rfl
  cases h.stream.symm.trans hstream
  refine ⟨⟨h.num, ?_, h.sole, data_writeAt h.data, h.absent, h.digest⟩, ?_, rfl, rfl⟩
  · rw [List.length_append]
    rfl
  · exact .modify fun p hp => Or.inr (.inl (h.sole.2 p hp))

/-- A block is written once its file is open; `P` is what is known then. -/
lemma writeDownload_filling {block : Block} {P : Machine → Prop} (hid : block.id = m.job.id)
    (hfile : m.job.file block.fileNum = some entry)
    (hstart : (block.fileNum ≠ m.job.fileNum ∨ m.job.stream.isNone) →
      wp (startDownloadFile libs env block.fileNum)
        (fun _ m' => P m' ∧ ∃ i, Filling m' block.fileNum target i written) (fun _ _ => False) m)
    (hgoing : ¬(block.fileNum ≠ m.job.fileNum ∨ m.job.stream.isNone) →
      P m ∧ ∃ i, Filling m block.fileNum target i written) : wp (writeDownload libs env block)
      (fun _ m' => ∃ m₁ i, P m₁ ∧ Within (Around target) m₁ m' ∧
        Filling m' block.fileNum target i (written ++ block.unpack libs)) (fun _ _ => False) m := by
  simp only [writeDownload, wp_bind, wp_get, wp_check, wp_whenever,
    decide_eq_true_eq]
  -- what is done once the file is open
  have hwrite : ∀ m₁, (P m₁ ∧ ∃ i, Filling m₁ block.fileNum target i written) →
      wp (writeAll env (block.unpack libs)) (fun _ m' => wp (call env .flush)
        (fun _ m' => ∃ m₁ i, P m₁ ∧
          Within (Around target) m₁ (m'.counted (block.unpack libs).length block.data.length) ∧
          Filling (m'.counted (block.unpack libs).length block.data.length) block.fileNum target i
            (written ++ block.unpack libs))
        (fun _ _ => False) m') (fun _ _ => False) m₁ := by
    rintro m₁ ⟨hP, i, hfilling⟩
    refine wp_mono (writeAll_filling hquiet hfilling _) (fun _ m' hm' => ?_) fun _ _ => id
    obtain ⟨hwritten, hwithin⟩ := hm'
    refine wp_call.mpr ⟨fun _ => ⟨m₁, i, hP, ?_, ?_⟩, hquiet _⟩
    · exact ⟨hwithin.disk, hwithin.fixed, hwithin.download⟩
    · exact ⟨hwritten.num, hwritten.stream, hwritten.sole, hwritten.data, hwritten.absent,
        hwritten.digest⟩
  refine ⟨fun _ => ⟨fun _ => ⟨fun hopen => ?_, fun hopen => hwrite m (hgoing hopen)⟩,
    fun hnot => ?_⟩, fun hnot => hnot hid⟩
  · exact wp_mono (hstart hopen) (fun _ => hwrite) fun _ _ => id
  · rw [hfile] at hnot
    exact hnot rfl

end Programs

namespace Download

variable {w : Download} {libs : Libs} {env : Env} {k : ℤ} {target : Path} {i : ℕ} {written : Bytes}

lemma onBlock_of_wp {block : Block} {Q : Machine → Prop}
    (h : wp (writeDownload libs env block) (fun _ => Q) (fun _ _ => False) w.m) :
    ∃ m', w.onBlock libs env block = { w with m := m' } ∧ Q m' := by
  obtain ⟨_, m', hm, hQ⟩ := wp_total h
  refine ⟨m', ?_, hQ⟩
  rw [onBlock, hm]

end Download

end RustDesk.FileTransfer
