import RustDesk.Net.Io

/-!
# Compression

`compress` and `decompress` wrap `zstd`. Neither returns an error: one that fails returns an empty
vector. The callers compare lengths to decide whether to send what was compressed.
-/

namespace RustDesk

/-- The decoder of `zstd`: all that its input decodes to, if there is no error. Nothing decodes to
nothing, or to an error. -/
structure Zstd where
  decode : Bytes → Option Bytes
  decode_nil : (decode []).getD [] = []

/-- A call of the compressor: it cannot be borrowed, could not be made, fails, or returns what
decodes to the data. -/
inductive Attempt (z : Zstd) (data : Bytes) where
  | busy
  | noCompressor
  | failed
  | done (res : Bytes) (h : z.decode res = some data)

def compress {z : Zstd} {data : Bytes} : Attempt z data → Bytes
  | .done res _ => res
  | .busy | .noCompressor | .failed => []

/-- `MAX_DECOMPRESSED_SIZE` -/
def maxDecompressedSize : ℕ := 256 * 1024 * 1024

def decompressWithLimit (z : Zstd) (data : Bytes) (limit : ℕ) : Option Bytes :=
  (z.decode data).filter (·.length ≤ limit)

def decompress (z : Zstd) (data : Bytes) : Bytes :=
  (decompressWithLimit z data maxDecompressedSize).getD []

variable {z : Zstd} {data : Bytes}

namespace Attempt

def succeeded : Attempt z data → Bool
  | .done _ _ => true
  | .busy | .noCompressor | .failed => false

/-- The call succeeds, and what it returns is not sent in place of more data than the receiver
takes. -/
def restores : Attempt z data → Bool
  | .done res _ => data.length ≤ maxDecompressedSize || data.length ≤ res.length
  | .busy | .noCompressor | .failed => false

lemma restores_eq_succeeded (h : data.length ≤ maxDecompressedSize) (attempt : Attempt z data) :
    attempt.restores = attempt.succeeded := by
  cases attempt with
  | done => simp [restores, succeeded, h]
  | _ => rfl

end Attempt

lemma decompress_nil (z : Zstd) : decompress z [] = [] := by
  have hnil := z.decode_nil
  unfold decompress decompressWithLimit
  cases hdecode : z.decode [] with
  | none => rfl
  | some out =>
    rw [hdecode, Option.getD_some] at hnil
    subst hnil
    rfl

/-- Data within the limit comes back from what it was compressed to. -/
lemma decompress_of_decode {res : Bytes} (h : z.decode res = some data) :
    decompress z res = if data.length ≤ maxDecompressedSize then data else [] := by
  unfold decompress decompressWithLimit
  rw [h]
  by_cases hlen : data.length ≤ maxDecompressedSize
  · simp [Option.filter, hlen]
  · simp [Option.filter, hlen]

/-- Sending the shorter of the data and what it was compressed to restores the data exactly if the
call of the compressor does: one that fails counts as short. -/
lemma shorter_restored_iff (hne : data ≠ []) (attempt : Attempt z data) :
    (if (compress attempt).length < data.length then decompress z (compress attempt) else data) =
      data ↔ attempt.restores = true := by
  have hpos : 0 < data.length := List.length_pos_iff.mpr hne
  have hlost : (if ([] : Bytes).length < data.length then decompress z [] else data) ≠ data := by
    rw [if_pos (by simpa using hpos), decompress_nil]
    exact hne.symm
  cases attempt with
  | busy | noCompressor | failed => exact iff_of_false hlost Bool.false_ne_true
  | done res h =>
    change (if res.length < data.length then decompress z res else data) = data ↔
      (decide (data.length ≤ maxDecompressedSize) || decide (data.length ≤ res.length)) = true
    rw [Bool.or_eq_true, decide_eq_true_eq, decide_eq_true_eq, decompress_of_decode h]
    by_cases hshort : res.length < data.length
    · rw [if_pos hshort]
      by_cases hlimit : data.length ≤ maxDecompressedSize
      · rw [if_pos hlimit]
        exact iff_of_true rfl (.inl hlimit)
      · rw [if_neg hlimit]
        exact iff_of_false hne.symm fun h => h.elim hlimit (Nat.not_le.mpr hshort)
    · rw [if_neg hshort]
      exact iff_of_true rfl (.inr (Nat.not_lt.mp hshort))

end RustDesk
