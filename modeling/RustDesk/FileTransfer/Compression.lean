import RustDesk.FileTransfer.Read
import RustDesk.FileTransfer.Write
import RustDesk.Terminal.Response

/-!
# Data that could not be compressed

A block of a file and a message of a terminal are compressed if that makes them shorter. A call of
the compressor that fails returns nothing, which is shorter than anything; so nothing is sent,
marked as compressed, and the receiver unpacks nothing from it.
-/

namespace RustDesk.FileTransfer

variable {buf : Bytes}

/-- What a job reads from. -/
inductive DataSource where
  | filePath
  | memoryCursor
  deriving DecidableEq

/-- The end of `read`, for a buffer that is not empty: what comes from memory is not compressed. -/
def packFrom (libs : Libs) (source : DataSource) (job : TransferJob) (name : Path) (buf : Bytes) :
    Block :=
  match source with
  | .filePath => pack libs job name buf
  | .memoryCursor => ⟨job.id, job.fileNum, buf, false⟩

/-- The libraries, with the calls that `compress` makes to `zstd`. -/
def zstdLibs (z : Zstd) (attempt : ∀ data, Attempt z data) (json : Libs) : Libs where
  compress data := compress (attempt data)
  decompress := decompress z
  toJson := json.toJson
  fromJson := json.fromJson

lemma length_fill_le {reads : List (Option ℕ)} {rest : Bytes} {room : ℕ}
    (h : fill reads rest room = some buf) : buf.length ≤ room := by
  -- by induction on the reads: each takes from the room what it adds to the buffer
  induction reads generalizing rest room buf with
  | nil =>
    cases h
    exact List.length_take_le _ _
  | cons read reads ih =>
    cases read with
    | none => cases h
    | some most =>
      have hgot : (rest.take (min room (most + 1))).length ≤ room := by
        rw [List.length_take]
        omega
      rw [fill] at h
      split_ifs at h
      · cases h
        exact hgot
      · obtain ⟨more, hmore, rfl⟩ := Option.map_eq_some_iff.mp h
        have hle := ih hmore
        rw [List.length_append]
        omega

lemma length_readBuf_le {env : Env} {disk : Disk} {stream : Stream}
    (h : readBuf env disk stream = some buf) : buf.length ≤ bufSize := by
  rw [readBuf] at h
  split_ifs at h
  exact length_fill_le h

section

variable {z : Zstd} {attempt : ∀ data, Attempt z data} {json : Libs} {job : TransferJob}
  {name : Path} {buf : Bytes}

/-- A block of a file restores its buffer exactly if compressing it was not tried or succeeded. -/
lemma unpack_pack_iff (hne : buf ≠ []) (hbuf : buf.length ≤ bufSize) :
    (pack (zstdLibs z attempt json) job name buf).unpack (zstdLibs z attempt json) = buf ↔
      isCompressedFile name = true ∨ (attempt buf).succeeded = true := by
  have hlimit : buf.length ≤ maxDecompressedSize := hbuf.trans (by decide)
  cases hname : isCompressedFile name with
  | true =>
    rw [pack, hname]
    exact iff_of_true rfl (.inl rfl)
  | false =>
    have hunpack : (pack (zstdLibs z attempt json) job name buf).unpack (zstdLibs z attempt json) =
        if (compress (attempt buf)).length < buf.length then decompress z (compress (attempt buf))
        else buf := by
      rw [pack, hname]
      show Block.unpack _ (ite (_ && decide ((compress (attempt buf)).length < buf.length)) _ _) = _
      by_cases hshort : (compress (attempt buf)).length < buf.length
      · rw [if_pos hshort, decide_eq_true hshort]
        rfl
      · rw [if_neg hshort, decide_eq_false hshort]
        rfl
    rw [hunpack, shorter_restored_iff hne, Attempt.restores_eq_succeeded hlimit]
    simp

lemma block_of_read {libs : Libs} {env : Env} {m m' : Machine} {entry : FileEntry}
    {stream : Stream} {block : Block} (hread : read libs env m = .ok (some block) m')
    (hfile : m.job.file m.job.fileNum = some entry) (hstream : m.job.stream = some stream)
    (hbuf : readBuf env m.disk stream = some buf) (hne : buf ≠ []) :
    block = packFrom libs .filePath m.job (m.job.nameFor entry) buf := by
  have hreads := reads libs env m
  rw [hread] at hreads
  cases hreads with
  | atEnd _ _ hstream' hbuf' =>
    cases hstream.symm.trans hstream'
    cases hbuf.symm.trans hbuf'
    exact absurd rfl hne
  | block _ hfile' hstream' hbuf' =>
    cases hstream.symm.trans hstream'
    cases hbuf.symm.trans hbuf'
    cases hfile.symm.trans hfile'
    rfl

end

/-- A block of a transfer job, from a file or from memory, restores its buffer, and a message of a
terminal its output, exactly if no compression was tried or it succeeded. Output over the receiver's
limit must not get shorter either. -/
theorem restored_iff_compressed (z : Zstd) :
    (∀ (attempt : ∀ data, Attempt z data) (json : Libs) (source : DataSource) (job : TransferJob)
      (name : Path) (buf : Bytes), buf ≠ [] → buf.length ≤ bufSize →
      ((packFrom (zstdLibs z attempt json) source job name buf).unpack (zstdLibs z attempt json) =
          buf ↔
        source = .memoryCursor ∨ isCompressedFile name = true ∨
          (attempt buf).succeeded = true)) ∧
    (∀ (libs : Libs) (env : Env) (m m' : Machine) (entry : FileEntry) (stream : Stream)
      (buf : Bytes) (block : Block), read libs env m = .ok (some block) m' →
      m.job.file m.job.fileNum = some entry → m.job.stream = some stream →
      readBuf env m.disk stream = some buf → buf.length ≤ bufSize ∧ (buf ≠ [] →
        block = packFrom libs .filePath m.job (m.job.nameFor entry) buf)) ∧
    ∀ (terminalId : ℤ) (data : Bytes) (attempt : Attempt z data),
      (Terminal.createTerminalDataResponse terminalId data attempt).output z = data ↔
        data.length ≤ Terminal.compressThreshold ∨ attempt.restores = true := by
  refine ⟨?_, ?_, ?_⟩
  · intro attempt json source job name buf hne hbuf
    cases source with
    | memoryCursor => exact iff_of_true rfl (.inl rfl)
    | filePath =>
      rw [packFrom, unpack_pack_iff hne hbuf]
      simp
  · intro libs env m m' entry stream buf block hread hfile hstream hbuf
    exact ⟨length_readBuf_le hbuf, block_of_read hread hfile hstream hbuf⟩
  · intro terminalId data attempt
    exact Terminal.output_createTerminalDataResponse_iff terminalId attempt

/-- A block that is compressed to itself, and a message likewise, come back. -/
theorem restored_iff_compressed_stored :
    let z : Zstd := ⟨some, rfl⟩
    let libs := zstdLibs z (fun data => .done data rfl) .plain
    let job : TransferJob :=
      { id := 1, base := [], files := [], fileNum := 0, enableOverwriteDetection := false }
    (packFrom libs .filePath job ['a'] [1, 2]).unpack libs = [1, 2] ∧
      (Terminal.createTerminalDataResponse (z := z) 1 [1, 2] (.done [1, 2] rfl)).output z =
        [1, 2] := by
  intro z libs job
  obtain ⟨hblock, -, hmessage⟩ := restored_iff_compressed z
  exact ⟨(hblock _ _ _ _ _ _ (by decide) (by decide)).mpr (.inr (.inr rfl)),
    (hmessage 1 [1, 2] _).mpr (.inl (by decide))⟩

/-- A call of the compressor that fails: a file of one byte arrives empty, and so does a message of
a terminal. -/
theorem lost_to_failed_compression :
    let z : Zstd := ⟨some, rfl⟩
    let libs := zstdLibs z (fun _ => .failed) .plain
    let job : TransferJob :=
      { id := 1, base := [], files := [], fileNum := 0, enableOverwriteDetection := false }
    packFrom libs .filePath job ['a'] [1] = ⟨1, 0, [], true⟩ ∧
      (packFrom libs .filePath job ['a'] [1]).unpack libs ≠ [1] ∧
      (Terminal.createTerminalDataResponse (z := z) 1 (List.replicate 513 0) .failed).output z ≠
        List.replicate 513 0 := by
  decide +kernel

end RustDesk.FileTransfer
