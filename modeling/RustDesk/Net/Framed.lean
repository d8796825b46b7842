import RustDesk.Net.BytesCodec

/-!
# Framed sockets

A `FramedStream` of the relay is a `Framed` of `tokio_util` around a socket, with no key set.
Reading alternates between handing what has been read to the codec and reading more; the flags of
`Framed` say which is due. A read that is given up between two rounds of the loop loses nothing,
since all of its state is here. Writing encodes into a buffer, which is then flushed in as many
writes as it takes.
-/

namespace RustDesk

namespace BytesCodec

/-- `Decoder::decode_eof`, which the codec leaves as it is. -/
def decodeEof (c : BytesCodec) (src : Bytes) : Except IoError (Option Bytes × BytesCodec × Bytes) :=
  match c.decode src with
  | .error e => .error e
  | .ok (some data, c, src) => .ok (some data, c, src)
  | .ok (none, c, src) =>
    if src.isEmpty then .ok (none, c, src) else .error ⟨.other 0, "bytes remaining on stream"⟩

variable {c c' : BytesCodec} {src src' data : Bytes}

lemma decode_of_decodeEof_some (h : c.decodeEof src = .ok (some data, c', src')) :
    c.decode src = .ok (some data, c', src') := by
  unfold decodeEof at h
  split at h
  · cases h
  · rename_i hdecode
    rw [hdecode]
    exact h
  · split_ifs at h
    cases h

lemma decode_of_decodeEof_none (h : c.decodeEof src = .ok (none, c', src')) :
    c.decode src = .ok (none, c', src') ∧ src' = [] := by
  unfold decodeEof at h
  split at h
  · cases h
  · cases h
  · rename_i hdecode
    split_ifs at h with hempty
    rw [hdecode]
    cases h
    exact ⟨rfl, List.isEmpty_iff.mp hempty⟩

/-! ### Raw streams -/

/-- Without frames, all there is in the buffer is one item. -/
lemma decode_raw_some (hraw : c.raw = true) (h : c.decode src = .ok (some data, c', src')) :
    data = src ∧ c' = c ∧ src' = [] ∧ src ≠ [] := by
  simp only [decode, hraw, if_true] at h
  split_ifs at h with hempty
  · cases h
    exact ⟨rfl, rfl, rfl, by simpa using hempty⟩
  · cases h

lemma decode_raw_none (hraw : c.raw = true) (h : c.decode src = .ok (none, c', src')) :
    c' = c ∧ src' = src ∧ src = [] := by
  simp only [decode, hraw, if_true] at h
  split_ifs at h with hempty
  · cases h
  · cases h
    exact ⟨rfl, rfl, by simpa using hempty⟩

/-! ### The first frame of a stream -/

/-- The payload of the first frame and what is behind it, once the frame is complete. -/
def firstFrame (sent : Bytes) : Option (Bytes × Bytes) :=
  match BytesCodec.new.decode sent with
  | .ok (some payload, _, rest) => some (payload, rest)
  | _ => none

/-- A stream that begins with the frame of `payload`, in any of the forms a header can have. -/
def Begins (payload rest sent : Bytes) : Prop :=
  ∃ hd, IsHead payload.length hd ∧ sent = hd ++ payload ++ rest

variable {payload rest sent w : Bytes} {m n : ℕ}

lemma Begins.append (h : Begins payload rest sent) (more : Bytes) :
    Begins payload (rest ++ more) (sent ++ more) := by
  obtain ⟨hd, hhd, rfl⟩ := h
  exact ⟨hd, hhd, List.append_assoc _ _ _⟩

lemma headValue_lt (src : Bytes) (headLen : ℕ) : headValue src headLen < 2 ^ 32 := by
  have hbyte : ∀ i k, k ≤ 24 → (src.getD i 0).toNat <<< k < 2 ^ 32 := by
    intro i k hk
    have hlt := (src.getD i 0).toNat_lt
    calc (src.getD i 0).toNat <<< k = (src.getD i 0).toNat * 2 ^ k := Nat.shiftLeft_eq _ _
      _ < 2 ^ 8 * 2 ^ k := by gcongr
      _ = 2 ^ (8 + k) := (pow_add 2 8 k).symm
      _ ≤ 2 ^ 32 := Nat.pow_le_pow_right (by decide) (by omega)
  have hor : ∀ (p : Prop) [Decidable p] (a i k : ℕ), a < 2 ^ 32 → k ≤ 24 →
      (if p then a ||| (src.getD i 0).toNat <<< k else a) < 2 ^ 32 := by
    intro p _ a i k ha hk
    split_ifs
    · exact Nat.or_lt_two_pow ha (hbyte i k hk)
    · exact ha
  have hfirst : (src.getD 0 0).toNat < 2 ^ 32 := (src.getD 0 0).toNat_lt.trans (by decide)
  unfold headValue
  exact hor _ _ 3 24 (hor _ _ 2 16 (hor _ _ 1 8 hfirst (by decide)) (by decide)) (by decide)

lemma IsHead.le {hd : Bytes} (h : IsHead n hd) : n ≤ maxFrameLength := by
  have hlt := headValue_lt hd hd.length
  have hvalue := h.value
  rw [Nat.shiftRight_eq_div_pow] at hvalue
  unfold maxFrameLength
  omega

lemma Begins.firstFrame_eq (h : Begins payload rest sent) :
    firstFrame sent = some (payload, rest) := by
  obtain ⟨hd, hhd, rfl⟩ := h
  have hmax : payload.length ≤ new.maxPacketLength := hhd.le.trans (by decide)
  have hdecode : new.decode (hd ++ payload ++ rest) = .ok (some payload, new, rest) := by
    rw [List.append_assoc, decode_of_some rfl rfl (decodeHead_append hhd hmax _),
      decodePacket_append]
    rfl
  rw [firstFrame, hdecode]

/-- The bytes that say how long a header is, and are that many, are a header. -/
lemma isHead_take {k : ℕ} (hk : (src.getD 0 0 &&& 0x3).toNat + 1 = k) (hlen : k ≤ src.length) :
    IsHead (headValue src k >>> 2) (src.take k) := by
  have htake : (src.take k).length = k := List.length_take_of_le hlen
  have hne : src.take k ≠ [] := by
    rw [← List.length_pos_iff, htake]
    omega
  have hsplit : src.take k ++ src.drop k = src := List.take_append_drop k src
  constructor
  · have hfirst := List.getD_append (src.take k) (src.drop k) (0 : UInt8) 0
      (List.length_pos_iff.mpr hne)
    rw [hsplit] at hfirst
    rw [← hfirst, hk, htake]
  · have hvalue := headValue_append hne (src.drop k)
    rw [hsplit, htake] at hvalue
    rw [htake, hvalue]

lemma isHead_of_decodeHead (h : c.decodeHead src = .ok (some (n, src'))) :
    ∃ hd, IsHead n hd ∧ src = hd ++ src' := by
  unfold decodeHead at h
  dsimp only at h
  split_ifs at h with hnil hlen hbig
  · cases h
  · cases h
  · cases h
    exact ⟨_, isHead_take rfl (Nat.not_lt.mp hlen), (List.take_append_drop _ src).symm⟩

lemma decodePacket_some (h : c.decodePacket n src = (some data, c', src')) :
    data.length = n ∧ c' = { c with state := .head } ∧ src = data ++ src' := by
  simp only [decodePacket, decodeData] at h
  split_ifs at h with hlen
  · cases h
  · cases h
    refine ⟨?_, rfl, (List.take_append_drop n src).symm⟩
    rw [List.length_take]
    omega

lemma decodePacket_none (h : c.decodePacket n src = (none, c', src')) :
    c' = { c with state := .data n } ∧ src' = src := by
  simp only [decodePacket, decodeData] at h
  split_ifs at h with hlen
  · cases h
    exact ⟨rfl, rfl⟩
  · cases h

/-- The two ways `decode` gets to the payload: through a header in the buffer, or through one that
was taken off before. -/
lemma Holds.decode_cases (hh : Holds m (c, src) w) {out : Option Bytes × BytesCodec × Bytes}
    (h : c.decode src = .ok out) :
    out = (none, c, src) ∨
      ∃ n hd rest, IsHead n hd ∧ w = hd ++ rest ∧ out = c.decodePacket n rest := by
  have hraw : c.raw = false := hh.raw
  rcases hh.taken with ⟨hs, hw⟩ | ⟨n, hd, hs, hhd, hw⟩
  · simp only at hs hw
    subst hw
    cases hhead : c.decodeHead w with
    | error e =>
      simp only [decode, hraw, hs, hhead] at h
      cases h
    | ok found =>
      cases found with
      | none =>
        rw [decode_of_none hraw hs hhead] at h
        cases h
        exact .inl rfl
      | some found =>
        obtain ⟨n, rest⟩ := found
        obtain ⟨hd, hhd, hsplit⟩ := isHead_of_decodeHead hhead
        rw [decode_of_some hraw hs hhead] at h
        exact .inr ⟨n, hd, rest, hhd, hsplit, (Except.ok.inj h).symm⟩
  · simp only at hs hw
    rw [decode_of_data hraw hs] at h
    exact .inr ⟨n, hd, src, hhd, hw, (Except.ok.inj h).symm⟩

/-- While the first frame is not complete, what was read stays with the decoder. -/
lemma Holds.decode_none (hh : Holds m (c, src) w) (h : c.decode src = .ok (none, c', src')) :
    Holds m (c', src') w := by
  rcases hh.decode_cases h with hout | ⟨n, hd, rest, hhd, rfl, hout⟩
  · cases hout
    exact hh
  · obtain ⟨rfl, rfl⟩ := decodePacket_none hout.symm
    exact ⟨hh.raw, hh.maxPacketLength, .inr ⟨n, hd, rfl, hhd, rfl⟩⟩

/-- A complete first frame leaves exactly what is behind it. -/
lemma Holds.decode_some (hh : Holds m (c, src) w) (h : c.decode src = .ok (some data, c', src')) :
    Begins data src' w := by
  rcases hh.decode_cases h with hout | ⟨n, hd, rest, hhd, rfl, hout⟩
  · cases hout
  · obtain ⟨rfl, rfl, rfl⟩ := decodePacket_some hout.symm
    exact ⟨hd, hhd, (List.append_assoc _ _ _).symm⟩

end BytesCodec

/-! ### Reading and writing -/

/-- The state of `Framed`: what has been read, where the reading is, what is to be written. -/
structure Framed where
  codec : BytesCodec := .new
  buffer : Bytes := []
  eof : Bool := false
  isReadable : Bool := false
  hasErrored : Bool := false
  writeBuffer : Bytes := []
  deriving DecidableEq

/-- How one round of the loop in `poll_next` ends. -/
inductive Round where
  | item (result : Except IoError Bytes)
  | finished
  | again
  | pending

namespace Framed

def setRaw (f : Framed) : Framed := { f with codec := f.codec.setRaw }

/-- The next round reads from the socket. -/
def wantsRead (f : Framed) : Bool := !f.hasErrored && !f.isReadable

/-- One round of the loop in `poll_next`; `read` is what the socket answers, if it is asked. -/
def poll (f : Framed) (read : Poll) : Round × Framed :=
  if f.hasErrored then (.finished, { f with isReadable := false, hasErrored := false })
  else if f.isReadable then
    match if f.eof then f.codec.decodeEof f.buffer else f.codec.decode f.buffer with
    | .error e => (.item (.error e), { f with hasErrored := true })
    | .ok (some data, codec, buffer) => (.item (.ok data), { f with codec, buffer })
    | .ok (none, codec, buffer) =>
      (if f.eof then .finished else .again, { f with codec, buffer, isReadable := false })
  else
    match read with
    | .pending => (.pending, f)
    | .ready (.error e) => (.item (.error e), { f with hasErrored := true })
    | .ready (.ok bytes) =>
      if bytes.isEmpty then
        if f.eof then (.finished, f) else (.again, { f with eof := true, isReadable := true })
      else (.again, { f with buffer := f.buffer ++ bytes, eof := false, isReadable := true })

/-- The first half of `send`: the item goes into the write buffer. -/
def startSend (f : Framed) (data : Bytes) : Except IoError Framed :=
  (f.codec.encode data f.writeBuffer).map fun writeBuffer => { f with writeBuffer }

/-- One write of the flush: the socket takes `n` bytes. -/
def wrote (f : Framed) (n : ℕ) : Framed := { f with writeBuffer := f.writeBuffer.drop n }

/-- The rounds of the loop, one rule for each way through it. -/
inductive Polled (f : Framed) (read : Poll) : Round → Framed → Prop where
  | errored (h : f.hasErrored = true) :
    Polled f read .finished { f with isReadable := false, hasErrored := false }
  | failed (e : IoError) : Polled f read (.item (.error e)) { f with hasErrored := true }
  | decoded {data buffer : Bytes} {codec : BytesCodec} (hreadable : f.isReadable = true)
    (h : f.codec.decode f.buffer = .ok (some data, codec, buffer)) :
    Polled f read (.item (.ok data)) { f with codec, buffer }
  | short {buffer : Bytes} {codec : BytesCodec} (hreadable : f.isReadable = true)
    (heof : f.eof = false) (h : f.codec.decode f.buffer = .ok (none, codec, buffer)) :
    Polled f read .again { f with codec, buffer, isReadable := false }
  | ended {codec : BytesCodec} (hreadable : f.isReadable = true) (heof : f.eof = true)
    (h : f.codec.decode f.buffer = .ok (none, codec, [])) :
    Polled f read .finished { f with codec, buffer := [], isReadable := false }
  | pending (hread : read = .pending) : Polled f read .pending f
  | closed (hwants : f.wantsRead = true) (hread : read = .ready (.ok [])) (heof : f.eof = false) :
    Polled f read .again { f with eof := true, isReadable := true }
  | paused (hwants : f.wantsRead = true) (heof : f.eof = true) : Polled f read .finished f
  | read {bytes : Bytes} (hwants : f.wantsRead = true) (hread : read = .ready (.ok bytes))
    (hne : bytes ≠ []) :
    Polled f read .again { f with buffer := f.buffer ++ bytes, eof := false, isReadable := true }

variable {f f' : Framed} {read : Poll} {round : Round}

lemma wantsRead_of_readable (h : f.isReadable = true) : f.wantsRead = false := by
  simp [wantsRead, h]

lemma isReadable_of_wantsRead (h : f.wantsRead = true) : f.isReadable = false := by
  simp only [wantsRead, Bool.and_eq_true, Bool.not_eq_true'] at h
  exact h.2

lemma polled_of_poll (h : f.poll read = (round, f')) : f.Polled read round f' := by
  unfold poll at h
  split at h
  · cases h
    exact .errored ‹_›
  · next herrored =>
    split at h
    · next hreadable =>
      split at h
      · cases h
        exact .failed _
      · next hdecode =>
        cases h
        refine .decoded hreadable ?_
        split_ifs at hdecode with heof
        · exact BytesCodec.decode_of_decodeEof_some hdecode
        · exact hdecode
      · next hdecode =>
        cases h
        split_ifs at hdecode ⊢ with heof
        · obtain ⟨hdecode, rfl⟩ := BytesCodec.decode_of_decodeEof_none hdecode
          exact .ended hreadable heof hdecode
        · exact .short hreadable (by simpa using heof) hdecode
    · next hreadable =>
      have hwants : f.wantsRead = true := by simp [wantsRead, herrored, hreadable]
      split at h
      · cases h
        exact .pending rfl
      · cases h
        exact .failed _
      · split_ifs at h with hempty heof <;> cases h
        · exact .paused hwants heof
        · exact .closed hwants (by rw [List.isEmpty_iff.mp hempty]) (by simpa using heof)
        · exact .read hwants rfl (by simpa using hempty)

/-- An item of a raw stream goes into the write buffer as it is. -/
lemma startSend_raw (hraw : f.codec.raw = true) (data : Bytes) :
    f.startSend data = .ok { f with writeBuffer := f.writeBuffer ++ data } := by
  unfold startSend BytesCodec.encode
  rw [if_pos hraw]
  rfl

end Framed

end RustDesk
