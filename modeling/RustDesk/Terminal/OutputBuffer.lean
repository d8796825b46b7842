import Mathlib.Data.List.ModifyLast
import RustDesk.Net.Io

/-!
# The output a terminal keeps

`OutputBuffer` keeps the last output of a terminal in lines, for a client that comes back. Old lines
go when there are too many or they are too long together; of a line that is too long by itself, and
not complete, the newest half is kept. Whatever goes, what is left is the end of all output.
-/

namespace RustDesk.Terminal

/-- `MAX_OUTPUT_BUFFER_SIZE` -/
def maxOutputBufferSize : ℕ := 1024 * 1024

/-- `MAX_BUFFER_LINES` -/
def maxBufferLines : ℕ := 10000

/-- `b'\n'` -/
def newline : UInt8 := 10

structure OutputBuffer where
  lines : List Bytes := []
  totalSize : ℕ := 0
  lastLineIncomplete : Bool := false
  deriving DecidableEq

namespace OutputBuffer

/-- All the buffer holds. -/
def content (b : OutputBuffer) : Bytes := b.lines.flatten

def pushBack (b : OutputBuffer) (line : Bytes) : OutputBuffer :=
  { b with totalSize := b.totalSize + line.length, lines := b.lines ++ [line] }

/-- The last line gets longer. -/
def extendLast (b : OutputBuffer) (more : Bytes) : OutputBuffer :=
  { b with
    lines := b.lines.modifyLast (· ++ more)
    totalSize := b.totalSize + more.length }

/-- The part of `append` that completes the last line: what it takes off the data goes there. -/
def continueLine (b : OutputBuffer) (data : Bytes) : OutputBuffer × Bytes :=
  if b.lastLineIncomplete && !b.lines.isEmpty then
    match data.findIdx? (· = newline) with
    | some pos =>
      ({ b.extendLast (data.take (pos + 1)) with lastLineIncomplete := false }, data.drop (pos + 1))
    | none => (b.extendLast data, [])
  else (b, data)

/-- The loop over the pieces between newlines; the last piece has none behind it. -/
def pushLines (endsWithNewline : Bool) : OutputBuffer → List Bytes → OutputBuffer
  | b, [] => b
  | b, [line] =>
    let b := if !endsWithNewline && !line.isEmpty then { b with lastLineIncomplete := true } else b
    if !line.isEmpty then b.pushBack (if endsWithNewline then line ++ [newline] else line) else b
  | b, line :: lines => pushLines endsWithNewline (b.pushBack (line ++ [newline])) lines

/-- The loop that trims old data, over the lines from the oldest on. -/
def trim : (lines : List Bytes) → (totalSize : ℕ) → (lastLineIncomplete : Bool) → OutputBuffer
  | [], totalSize, lastLineIncomplete =>
    if maxOutputBufferSize < totalSize then ⟨[], 0, false⟩ else ⟨[], totalSize, lastLineIncomplete⟩
  | line :: lines, totalSize, lastLineIncomplete =>
    if maxOutputBufferSize < totalSize ∨ maxBufferLines < lines.length + 1 then
      if lines.isEmpty && lastLineIncomplete then
        let line := line.drop (line.length - maxOutputBufferSize / 2)
        ⟨[line], line.length, lastLineIncomplete⟩
      else
        trim lines
          (if totalSize < line.length then (lines.map List.length).sum else totalSize - line.length)
          (!lines.isEmpty && lastLineIncomplete)
    else ⟨line :: lines, totalSize, lastLineIncomplete⟩

def append (b : OutputBuffer) (data : Bytes) : OutputBuffer :=
  if data.isEmpty then b
  else
    let (b, remaining) := b.continueLine data
    let b := pushLines (remaining.getLast? = some newline) b (remaining.splitOn newline)
    trim b.lines b.totalSize b.lastLineIncomplete

/-- At most `skips` bytes from `offset` on that continue a character are passed over. -/
def skipContinuation (bytes : Bytes) : (skips offset : ℕ) → ℕ
  | 0, offset => offset
  | skips + 1, offset =>
    match bytes[offset]? with
    | some b => if b &&& 0xC0 = 0x80 then skipContinuation bytes skips (offset + 1) else offset
    | none => offset

/-- The chunks `get_recent` collects, from the newest line on; of a newest line that is too long,
its end. -/
def recentChunks (maxBytes : ℕ) : List Bytes → (size : ℕ) → List Bytes
  | [], _ => []
  | line :: older, size =>
    if maxBytes < size + line.length then
      if size = 0 ∧ maxBytes < line.length then
        let offset := skipContinuation line 3 (line.length - maxBytes)
        if offset < line.length then [line.drop offset] else []
      else []
    else line :: recentChunks maxBytes older (size + line.length)

def getRecent (b : OutputBuffer) (maxBytes : ℕ) : Bytes :=
  if maxBytes = 0 then [] else (recentChunks maxBytes b.lines.reverse 0).reverse.flatten

/-! ### The end of all output -/

variable {b : OutputBuffer} {data : Bytes}

lemma recentChunks_suffix (maxBytes : ℕ) (lines : List Bytes) (size : ℕ) :
    (recentChunks maxBytes lines size).reverse.flatten <:+ lines.reverse.flatten := by
  -- by induction from the newest line on: older lines only come in front
  induction lines generalizing size with
  | nil => exact List.suffix_rfl
  | cons line older ih =>
    have hsplit : (line :: older).reverse.flatten = older.reverse.flatten ++ line := by simp
    unfold recentChunks
    dsimp only
    rw [hsplit]
    split_ifs with hlong honly hoffset
    · have hdrop := List.drop_suffix (skipContinuation line 3 (line.length - maxBytes)) line
      simpa using hdrop.trans (List.suffix_append _ _)
    · exact List.nil_suffix
    · exact List.nil_suffix
    · obtain ⟨front, hfront⟩ := ih (size + line.length)
      refine ⟨front, ?_⟩
      rw [← hfront]
      simp

lemma getRecent_suffix (b : OutputBuffer) (maxBytes : ℕ) : b.getRecent maxBytes <:+ b.content := by
  unfold getRecent content
  split_ifs
  · exact List.nil_suffix
  · simpa using recentChunks_suffix maxBytes b.lines.reverse 0

lemma trim_suffix (lines : List Bytes) (totalSize : ℕ) (lastLineIncomplete : Bool) :
    (trim lines totalSize lastLineIncomplete).content <:+ lines.flatten := by
  induction lines generalizing totalSize lastLineIncomplete with
  | nil =>
    unfold trim
    split_ifs <;> exact List.suffix_rfl
  | cons line lines ih =>
    unfold trim
    dsimp only
    split_ifs with hlarge hlast
    · have hempty : lines = [] := by simp_all
      subst hempty
      simpa [content] using List.drop_suffix (line.length - maxOutputBufferSize / 2) line
    · exact (ih _ _).trans (List.suffix_append _ _)
    · exact (ih _ _).trans (List.suffix_append _ _)
    · exact List.suffix_rfl

lemma content_pushBack (b : OutputBuffer) (line : Bytes) :
    (b.pushBack line).content = b.content ++ line := by
  simp [content, pushBack]

lemma content_extendLast (hne : b.lines ≠ []) (more : Bytes) :
    (b.extendLast more).content = b.content ++ more := by
  obtain ⟨init, last, hlines⟩ := (List.eq_nil_or_concat' b.lines).resolve_left hne
  simp [content, extendLast, hlines, List.modifyLast_concat]

/-- What `append` takes off the data for the last line is in the buffer. -/
lemma content_continueLine (b : OutputBuffer) (data : Bytes) :
    (b.continueLine data).1.content ++ (b.continueLine data).2 = b.content ++ data := by
  unfold continueLine
  split_ifs with hincomplete
  · have hne : b.lines ≠ [] := by simp_all
    cases data.findIdx? (· = newline) with
    | none =>
      dsimp only
      rw [content_extendLast hne, List.append_nil]
    | some pos =>
      show (b.extendLast (data.take (pos + 1))).content ++ data.drop (pos + 1) = _
      rw [content_extendLast hne, List.append_assoc, List.take_append_drop]
  · rfl

/-- What the loop over the pieces pushes. -/
def rejoin (endsWithNewline : Bool) : List Bytes → Bytes
  | [] => []
  | [line] =>
    if line.isEmpty then [] else if endsWithNewline then line ++ [newline] else line
  | line :: lines => line ++ [newline] ++ rejoin endsWithNewline lines

lemma content_pushLines (endsWithNewline : Bool) (b : OutputBuffer) (lines : List Bytes) :
    (pushLines endsWithNewline b lines).content = b.content ++ rejoin endsWithNewline lines := by
  induction lines generalizing b with
  | nil => simp [pushLines, rejoin]
  | cons line lines ih =>
    cases lines with
    | nil =>
      simp only [pushLines, rejoin]
      cases hempty : line.isEmpty with
      | true => simp
      | false =>
        cases endsWithNewline with
        | true => exact content_pushBack _ _
        | false => exact content_pushBack { b with lastLineIncomplete := true } line
    | cons next lines =>
      show (pushLines _ (b.pushBack (line ++ [newline])) (next :: lines)).content =
        b.content ++ (line ++ [newline] ++ rejoin endsWithNewline (next :: lines))
      rw [ih, content_pushBack, List.append_assoc]

/-- The pieces of the data are put together again. -/
lemma rejoin_splitOn (data : Bytes) :
    rejoin (data.getLast? = some newline) (data.splitOn newline) = data := by
  induction data with
  | nil => rfl
  | cons byte data ih =>
    have hsplit : (byte :: data).splitOn newline = if byte = newline then [] :: data.splitOn newline
        else (data.splitOn newline).modifyHead (byte :: ·) := by
      simp [List.splitOn, List.splitOnP_cons_eq_if_modifyHead]
    obtain ⟨line, lines, hlines⟩ := List.exists_cons_of_ne_nil (List.splitOn_ne_nil newline data)
    rw [hsplit, hlines]
    rw [hlines] at ih
    cases data with
    | nil =>
      cases hlines
      by_cases hbyte : byte = newline
      · subst hbyte
        rfl
      · rw [if_neg hbyte]
        simp [rejoin, hbyte]
    | cons next data =>
      have hlast : (byte :: next :: data).getLast? = (next :: data).getLast? := by simp
      rw [hlast]
      generalize decide ((next :: data).getLast? = some newline) = endsWithNewline at ih ⊢
      by_cases hbyte : byte = newline
      · rw [if_pos hbyte, hbyte]
        show [] ++ [newline] ++ rejoin endsWithNewline (line :: lines) = _
        rw [ih]
        rfl
      · rw [if_neg hbyte]
        cases lines with
        | nil =>
          have hne : line.isEmpty = false := by
            cases line with
            | nil => cases ih
            | cons => rfl
          rw [rejoin, hne] at ih
          simp only [List.modifyHead_cons, rejoin, List.isEmpty_cons]
          cases endsWithNewline <;> simp_all
        | cons piece lines =>
          show byte :: line ++ [newline] ++ rejoin endsWithNewline (piece :: lines) = _
          rw [← ih]
          rfl

/-- What is left after an `append` is the end of what there was with the data behind it. -/
lemma append_suffix (b : OutputBuffer) (data : Bytes) :
    (b.append data).content <:+ b.content ++ data := by
  unfold append
  split_ifs with hempty
  · rw [List.isEmpty_iff.mp hempty, List.append_nil]
  · have hcontinue := content_continueLine b data
    generalize b.continueLine data = continued at hcontinue ⊢
    obtain ⟨b', remaining⟩ := continued
    dsimp only at hcontinue ⊢
    refine (trim_suffix _ _ _).trans ?_
    rw [← hcontinue]
    have hpushed := content_pushLines (remaining.getLast? = some newline) b'
      (remaining.splitOn newline)
    rw [rejoin_splitOn] at hpushed
    exact hpushed ▸ List.suffix_rfl

/-- So it is after any number of them. -/
lemma foldl_append_suffix (datas : List Bytes) (b : OutputBuffer) :
    (datas.foldl append b).content <:+ b.content ++ datas.flatten := by
  induction datas generalizing b with
  | nil => simp
  | cons data datas ih =>
    obtain ⟨front, hfront⟩ := append_suffix b data
    refine (ih (b.append data)).trans ⟨front, ?_⟩
    rw [← List.append_assoc, hfront, List.flatten_cons, List.append_assoc]

end OutputBuffer

end RustDesk.Terminal
