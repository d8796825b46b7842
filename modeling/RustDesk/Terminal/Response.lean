import RustDesk.Net.Compress

/-!
# Terminal output on the wire

Output of a terminal goes to the client in messages, compressed if it is long and that makes it
shorter.
-/

namespace RustDesk.Terminal

/-- `COMPRESS_THRESHOLD` -/
def compressThreshold : ℕ := 512

structure TerminalData where
  terminalId : ℤ
  data : Bytes
  compressed : Bool
  deriving DecidableEq

variable {z : Zstd} {data : Bytes}

def createTerminalDataResponse (terminalId : ℤ) (data : Bytes) (attempt : Attempt z data) :
    TerminalData :=
  if compressThreshold < data.length then
    let compressed := compress attempt
    if compressed.length < data.length then ⟨terminalId, compressed, true⟩
    else ⟨terminalId, data, false⟩
  else ⟨terminalId, data, false⟩

/-- What the client makes of a message. -/
def TerminalData.output (z : Zstd) (d : TerminalData) : Bytes :=
  if d.compressed then decompress z d.data else d.data

/-- A message has the output it was made of exactly if the output is short or the call of the
compressor restores it. -/
lemma output_createTerminalDataResponse_iff (terminalId : ℤ) (attempt : Attempt z data) :
    (createTerminalDataResponse terminalId data attempt).output z = data ↔
      data.length ≤ compressThreshold ∨ attempt.restores = true := by
  by_cases hlong : compressThreshold < data.length
  · have hne : data ≠ [] := by
      rintro rfl
      cases hlong
    have houtput : (createTerminalDataResponse terminalId data attempt).output z =
        if (compress attempt).length < data.length then decompress z (compress attempt)
        else data := by
      simp only [createTerminalDataResponse, if_pos hlong]
      split_ifs <;> rfl
    rw [houtput, shorter_restored_iff hne, or_iff_right (Nat.not_le.mpr hlong)]
  · rw [createTerminalDataResponse, if_neg hlong]
    exact iff_of_true rfl (.inl (Nat.not_lt.mp hlong))

end RustDesk.Terminal
