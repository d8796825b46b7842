import Mathlib.Data.List.GetD
import RustDesk.Lib.Framing
import RustDesk.Net.Io

/-!
# The frame codec

`BytesCodec` puts a header of one to four bytes in front of every packet: the two low bits of
the first byte give the header's own length, the other bits the packet's. The decoder keeps the
length of the packet it is waiting for in `DecodeState`, so a header is read once however the
stream is cut.

`src.reserve` in `decode_head` changes the capacity of the buffer and not its contents; it is
left out. An error ends the stream, so `decode` returns no state with it.
-/

namespace RustDesk

/-- The largest payload the four-byte header can represent. -/
def maxFrameLength : ℕ := 0x3FFFFFFF

def usizeMax : ℕ := 2 ^ 64 - 1

inductive DecodeState where
  | head
  | data (n : ℕ)
  deriving DecidableEq

structure BytesCodec where
  state : DecodeState
  raw : Bool
  maxPacketLength : ℕ
  deriving DecidableEq

namespace BytesCodec

variable {data src' src hd : Bytes} {c' c : BytesCodec} {n len : ℕ}

open Framing

def new : BytesCodec where
  state := .head
  raw := false
  maxPacketLength := usizeMax

def setRaw (c : BytesCodec) : BytesCodec := { c with raw := true }

def setMaxPacketLength (c : BytesCodec) (n : ℕ) : BytesCodec := { c with maxPacketLength := n }

/-! ### Decoding -/

/-- The number a header of `headLen` bytes stands for, before the two low bits are dropped. -/
def headValue (src : Bytes) (headLen : ℕ) : ℕ :=
  let n := (src.getD 0 0).toNat
  let n := if headLen > 1 then n ||| (src.getD 1 0).toNat <<< 8 else n
  let n := if headLen > 2 then n ||| (src.getD 2 0).toNat <<< 16 else n
  if headLen > 3 then n ||| (src.getD 3 0).toNat <<< 24 else n

/-- The packet length in the header and the buffer behind it, `none` while the header is not
complete. -/
def decodeHead (c : BytesCodec) (src : Bytes) : Except IoError (Option (ℕ × Bytes)) :=
  if src.isEmpty then
    .ok none
  else
    let headLen := (src.getD 0 0 &&& 0x3).toNat + 1
    if src.length < headLen then
      .ok none
    else
      let n := headValue src headLen >>> 2
      if n > c.maxPacketLength then
        .error ⟨.invalidData, "Too big packet"⟩
      else
        .ok (some (n, src.drop headLen))

def decodeData (n : ℕ) (src : Bytes) : Option (Bytes × Bytes) :=
  if src.length < n then none else some (src.take n, src.drop n)

/-- The second half of `decode`, once the length of the packet is known. -/
def decodePacket (c : BytesCodec) (n : ℕ) (src : Bytes) : Option Bytes × BytesCodec × Bytes :=
  match decodeData n src with
  | some (data, src) => (some data, { c with state := .head }, src)
  | none => (none, { c with state := .data n }, src)

def decode (c : BytesCodec) (src : Bytes) :
    Except IoError (Option Bytes × BytesCodec × Bytes) :=
  if c.raw then
    if !src.isEmpty then .ok (some src, c, []) else .ok (none, c, src)
  else
    match c.state with
    | .head => do
      match ← c.decodeHead src with
      | some (n, src) => return c.decodePacket n src
      | none => return (none, c, src)
    | .data n => .ok (c.decodePacket n src)

/-! ### Encoding -/

def putU16Le (n : ℕ) : Bytes := [UInt8.ofNat n, UInt8.ofNat (n >>> 8)]

def putU32Le (n : ℕ) : Bytes :=
  [UInt8.ofNat n, UInt8.ofNat (n >>> 8), UInt8.ofNat (n >>> 16), UInt8.ofNat (n >>> 24)]

/-- The header `encode` writes for a packet of `len` bytes, `none` where there is none. -/
def putHead (len : ℕ) : Option Bytes :=
  if len ≤ 0x3F then
    some [UInt8.ofNat (len <<< 2)]
  else if len ≤ 0x3FFF then
    some (putU16Le ((len <<< 2) % 2 ^ 16 ||| 0x1))
  else if len ≤ 0x3FFFFF then
    let h := (len <<< 2) % 2 ^ 32 ||| 0x2
    some (putU16Le (h &&& 0xFFFF) ++ [UInt8.ofNat (h >>> 16)])
  else if len ≤ maxFrameLength then
    some (putU32Le ((len <<< 2) % 2 ^ 32 ||| 0x3))
  else
    none

def encode (c : BytesCodec) (data buf : Bytes) : Except IoError Bytes :=
  if c.raw then
    .ok (buf ++ data)
  else
    match putHead data.length with
    | some h => .ok (buf ++ h ++ data)
    | none => .error ⟨.invalidInput, "Overflow"⟩

/-- Several packets written into one buffer. -/
def encodeAll (c : BytesCodec) : List Bytes → Bytes → Except IoError Bytes
  | [], buf => .ok buf
  | data :: datas, buf => do
    let buf ← c.encode data buf
    c.encodeAll datas buf

/-! ### Reading a stream of chunks -/

/-- Bounds the calls of `decode` on a buffer: one that yields a packet reads a header, or ends
the wait for the packet of a header read before. -/
def work (c : BytesCodec) (src : Bytes) : ℕ :=
  2 * src.length + if c.state = .head then 0 else 1

lemma work_decodePacket (c : BytesCodec) (n : ℕ) (src : Bytes)
    (h : c.decodePacket n src = (some data, c', src')) : c'.work src' ≤ 2 * src.length := by
  simp only [decodePacket, decodeData] at h
  split_ifs at h with hn
  · simp at h
  · simp only [Prod.mk.injEq] at h
    obtain ⟨-, rfl, rfl⟩ := h
    simp [work]

lemma decodeHead_length (h : c.decodeHead src = .ok (some (n, src'))) :
    src'.length < src.length := by
  simp only [decodeHead] at h
  split_ifs at h with hnil hlen hbig
  · simp at h
  · simp at h
  · simp only [Except.ok.injEq, Option.some.injEq, Prod.mk.injEq] at h
    obtain ⟨-, rfl⟩ := h
    rw [List.length_drop]
    omega

/-- A call that yields a packet leaves less work. -/
lemma work_decode (h : c.decode src = .ok (some data, c', src')) : c'.work src' < c.work src := by
  simp only [decode] at h
  split_ifs at h with hraw hnil
  · simp only [Except.ok.injEq, Prod.mk.injEq] at h
    obtain ⟨-, rfl, rfl⟩ := h
    have : 0 < src.length := List.length_pos_iff.mpr (by simpa using hnil)
    simp only [work, List.length_nil]
    omega
  · simp at h
  · cases hstate : c.state with
    | head =>
      rw [hstate] at h
      cases hhead : c.decodeHead src with
      | error e => rw [hhead] at h; cases h
      | ok found =>
        rw [hhead] at h
        cases found with
        | none => simp [bind, Except.bind, pure, Except.pure] at h
        | some found =>
          obtain ⟨n, rest⟩ := found
          have hle := work_decodePacket c n rest (Except.ok.inj h)
          have hlt := decodeHead_length hhead
          simp only [work, hstate] at hle ⊢
          omega
    | data n =>
      rw [hstate] at h
      have hle := work_decodePacket c n src (Except.ok.inj h)
      simp only [work, hstate] at hle ⊢
      simp only [reduceCtorEq, if_false]
      omega

/-- Call `decode` until it returns `None`. -/
def drain (c : BytesCodec) (src : Bytes) : Except IoError (List Bytes × BytesCodec × Bytes) :=
  match _h : c.decode src with
  | .error e => .error e
  | .ok (none, c, src) => .ok ([], c, src)
  | .ok (some data, c, src) => do
    let (datas, c, src) ← c.drain src
    return (data :: datas, c, src)
termination_by c.work src
decreasing_by exact work_decode _h

/-- A chunk arrives: it goes behind what the buffer holds. -/
def feed (s : BytesCodec × Bytes) (chunk : Bytes) :
    Except IoError (List Bytes × BytesCodec × Bytes) :=
  s.1.drain (s.2 ++ chunk)

/-! ### The header round trip -/

/-- `hd` is a header that says it is `hd.length` bytes long and announces a packet of `len`. -/
structure IsHead (len : ℕ) (hd : Bytes) : Prop where
  length : (hd.getD 0 0 &&& 0x3).toNat + 1 = hd.length
  value : headValue hd hd.length >>> 2 = len

lemma shiftLeft_two_or (len : ℕ) {k : ℕ} (hk : k < 4) : len <<< 2 ||| k = 4 * len + k := by
  rw [Nat.shiftLeft_eq, mul_comm, ← Nat.two_pow_add_eq_or_of_lt hk]

lemma or_shiftLeft {a i : ℕ} (h : a < 2 ^ i) (b : ℕ) : a ||| b <<< i = a + 2 ^ i * b := by
  rw [Nat.shiftLeft_eq, mul_comm, Nat.or_comm, ← Nat.two_pow_add_eq_or_of_lt h, add_comm]

/-- The two low bits of the first byte. -/
lemma toNat_and_three (n : ℕ) : (UInt8.ofNat n &&& 0x3).toNat = n % 4 := by
  rw [UInt8.toNat_and, UInt8.toNat_ofNat']
  change n % 2 ^ 8 &&& (2 ^ 2 - 1) = n % 4
  rw [Nat.and_two_pow_sub_one_eq_mod]
  omega

lemma headValue_one (a : UInt8) : headValue [a] 1 = a.toNat := rfl

lemma headValue_two (a b : UInt8) : headValue [a, b] 2 = a.toNat + 2 ^ 8 * b.toNat :=
  or_shiftLeft a.toNat_lt _

lemma headValue_three (a b c : UInt8) :
    headValue [a, b, c] 3 = a.toNat + 2 ^ 8 * b.toNat + 2 ^ 16 * c.toNat := by
  have ha := a.toNat_lt
  have hb := b.toNat_lt
  calc headValue [a, b, c] 3 = (a.toNat ||| b.toNat <<< 8) ||| c.toNat <<< 16 := rfl
    _ = _ := by rw [or_shiftLeft ha, or_shiftLeft (by omega)]

lemma headValue_four (a b c d : UInt8) :
    headValue [a, b, c, d] 4 =
      a.toNat + 2 ^ 8 * b.toNat + 2 ^ 16 * c.toNat + 2 ^ 24 * d.toNat := by
  have ha := a.toNat_lt
  have hb := b.toNat_lt
  have hc := c.toNat_lt
  calc headValue [a, b, c, d] 4
      = ((a.toNat ||| b.toNat <<< 8) ||| c.toNat <<< 16) ||| d.toNat <<< 24 := rfl
    _ = (a.toNat + 2 ^ 8 * b.toNat + 2 ^ 16 * c.toNat) ||| d.toNat <<< 24 := by
      rw [or_shiftLeft ha, or_shiftLeft (a := a.toNat + 2 ^ 8 * b.toNat) (i := 16) (by omega)]
    _ = _ := or_shiftLeft (by omega) _

/-- A header is the bytes of `4 * len`, with the number of further bytes in its low bits. -/
lemma isHead_of_value {tl : Bytes} (htl : tl.length < 4) (hn : n = 4 * len + tl.length)
    (hval : headValue (UInt8.ofNat n :: tl) (tl.length + 1) = n) :
    IsHead len (UInt8.ofNat n :: tl) where
  length := by
    rw [List.getD_cons_zero, toNat_and_three, List.length_cons]
    omega
  value := by
    rw [List.length_cons, hval, Nat.shiftRight_eq_div_pow]
    omega

lemma exists_isHead (h : len ≤ maxFrameLength) : ∃ hd, putHead len = some hd ∧ IsHead len hd := by
  have hmax : len ≤ 0x3FFFFFFF := h
  have hshift : len <<< 2 = 4 * len := by rw [Nat.shiftLeft_eq, mul_comm]
  simp only [putHead]
  split_ifs with h1 h2 h3
  · refine ⟨_, rfl, isHead_of_value (by simp) hshift ?_⟩
    rw [List.length_nil, headValue_one, UInt8.toNat_ofNat']
    omega
  · have hval : (len <<< 2) % 2 ^ 16 ||| 0x1 = 4 * len + 1 := by
      rw [Nat.mod_eq_of_lt (by omega), shiftLeft_two_or len (by decide)]
    refine ⟨_, rfl, isHead_of_value (by simp) hval ?_⟩
    rw [hval, List.length_singleton, headValue_two]
    simp only [UInt8.toNat_ofNat', Nat.shiftRight_eq_div_pow]
    omega
  · have hval : (len <<< 2) % 2 ^ 32 ||| 0x2 = 4 * len + 2 := by
      rw [Nat.mod_eq_of_lt (by omega), shiftLeft_two_or len (by decide)]
    have hlow : (4 * len + 2) &&& 0xFFFF = (4 * len + 2) % 2 ^ 16 :=
      Nat.and_two_pow_sub_one_eq_mod _ 16
    have hfirst : UInt8.ofNat ((4 * len + 2) % 2 ^ 16) = UInt8.ofNat (4 * len + 2) := by
      apply UInt8.toNat_inj.mp
      simp only [UInt8.toNat_ofNat']
      omega
    refine ⟨_, rfl, ?_⟩
    simp only [hval, hlow, putU16Le, hfirst, List.cons_append, List.nil_append]
    refine isHead_of_value (by simp) rfl ?_
    rw [show [_, _].length + 1 = 3 from rfl, headValue_three]
    simp only [UInt8.toNat_ofNat', Nat.shiftRight_eq_div_pow]
    omega
  · have hval : (len <<< 2) % 2 ^ 32 ||| 0x3 = 4 * len + 3 := by
      rw [Nat.mod_eq_of_lt (by omega), shiftLeft_two_or len (by decide)]
    refine ⟨_, rfl, isHead_of_value (by simp) hval ?_⟩
    rw [hval, show [_, _, _].length + 1 = 4 from rfl, headValue_four]
    simp only [UInt8.toNat_ofNat', Nat.shiftRight_eq_div_pow]
    omega

/-! ### What `decode` does to a prefix of the stream -/

/-- The frame of a packet, as `encode` writes it. -/
def frame (data : Bytes) : Bytes := (putHead data.length).getD [] ++ data

lemma headValue_append (h : hd ≠ []) (rest : Bytes) :
    headValue (hd ++ rest) hd.length = headValue hd hd.length := by
  have hget : ∀ i, hd.length > i → (hd ++ rest).getD i 0 = hd.getD i 0 := fun i hi =>
    List.getD_append _ _ _ _ hi
  have hor : ∀ i a, (if hd.length > i then a ||| ((hd ++ rest).getD i 0).toNat <<< (8 * i) else a)
      = if hd.length > i then a ||| (hd.getD i 0).toNat <<< (8 * i) else a := fun i a =>
    if_ctx_congr Iff.rfl (fun hi => by rw [hget i hi]) fun _ => rfl
  simp only [headValue]
  rw [hget 0 (List.length_pos_iff.mpr h), hor 1, hor 2, hor 3]

lemma IsHead.ne_nil (h : IsHead len hd) : hd ≠ [] := by
  rintro rfl
  have := h.length
  simp at this

/-- The first byte of a header tells how long it is. -/
lemma IsHead.length_of_append (h : IsHead len hd) (rest : Bytes) :
    ((hd ++ rest).getD 0 0 &&& 0x3).toNat + 1 = hd.length := by
  rw [List.getD_append _ _ _ _ (List.length_pos_iff.mpr h.ne_nil), h.length]

/-- No header is the beginning of another. -/
lemma IsHead.unique {n' : ℕ} {hd' rest rest' : Bytes} (h : IsHead n hd) (h' : IsHead n' hd')
    (heq : hd ++ rest = hd' ++ rest') : n = n' ∧ hd = hd' ∧ rest = rest' := by
  have hlen : hd.length = hd'.length := by
    rw [← h.length_of_append rest, heq, h'.length_of_append rest']
  obtain ⟨rfl, rfl⟩ := List.append_inj heq hlen
  exact ⟨by rw [← h.value, h'.value], rfl, rfl⟩

section Decode

variable {m : ℕ} {p w : Bytes} {ps : List Bytes} {s : BytesCodec × Bytes}

lemma decodeHead_append (h : IsHead n hd) (hn : n ≤ c.maxPacketLength) (rest : Bytes) :
    c.decodeHead (hd ++ rest) = .ok (some (n, rest)) := by
  have hne : (hd ++ rest).isEmpty = false := by simp [h.ne_nil]
  simp only [decodeHead, hne, h.length_of_append rest, headValue_append h.ne_nil, h.value]
  rw [if_neg (by simp), if_neg (by simp), if_neg (by omega), List.drop_left]

/-- A header that has not arrived in full is left in the buffer. -/
lemma decodeHead_short (h : IsHead n hd) (hsrc : src <+: hd) (hlt : src.length < hd.length) :
    c.decodeHead src = .ok none := by
  obtain ⟨rest, rfl⟩ := hsrc
  simp only [decodeHead]
  split_ifs with hnil hlen hbig
  · rfl
  · rfl
  all_goals
    have hpos : 0 < src.length := List.length_pos_iff.mpr (by simpa using hnil)
    have := h.length
    rw [List.getD_append _ _ _ _ hpos] at this
    omega

lemma decodePacket_append (c : BytesCodec) (p rest : Bytes) :
    c.decodePacket p.length (p ++ rest) = (some p, { c with state := .head }, rest) := by
  simp [decodePacket, decodeData]

lemma decodePacket_short (c : BytesCodec) (h : src.length < n) :
    c.decodePacket n src = (none, { c with state := .data n }, src) := by
  simp [decodePacket, decodeData, h]

lemma decode_of_none (hraw : c.raw = false) (hs : c.state = .head)
    (h : c.decodeHead src = .ok none) : c.decode src = .ok (none, c, src) := by
  simp only [decode, hraw, hs, h]
  rfl

lemma decode_of_some {rest : Bytes} (hraw : c.raw = false) (hs : c.state = .head)
    (h : c.decodeHead src = .ok (some (n, rest))) :
    c.decode src = .ok (c.decodePacket n rest) := by
  simp only [decode, hraw, hs, h]
  rfl

lemma decode_of_data (hraw : c.raw = false) (hs : c.state = .data n) :
    c.decode src = .ok (c.decodePacket n src) := by
  simp only [decode, hraw, hs]
  rfl

/-- The decoder has taken in the bytes `w` of a stream of frames: all of them are in the buffer,
or a header has been read off and its length is in the state. -/
structure Holds (m : ℕ) (s : BytesCodec × Bytes) (w : Bytes) : Prop where
  raw : s.1.raw = false
  maxPacketLength : s.1.maxPacketLength = m
  taken : s.1.state = .head ∧ w = s.2 ∨
    ∃ n hd, s.1.state = .data n ∧ IsHead n hd ∧ w = hd ++ s.2

/-- A payload that fits a frame and the receiver's limit. -/
def Fits (m : ℕ) (p : Bytes) : Prop := p.length ≤ maxFrameLength ∧ p.length ≤ m

lemma Fits.head (h : Fits m p) : ∃ hd, IsHead p.length hd ∧ frame p = hd ++ p := by
  obtain ⟨hd, hput, hhd⟩ := exists_isHead h.1
  exact ⟨hd, hhd, by rw [frame, hput, Option.getD_some]⟩

lemma Holds.append (h : Holds m s w) (chunk : Bytes) :
    Holds m (s.1, s.2 ++ chunk) (w ++ chunk) where
  raw := h.raw
  maxPacketLength := h.maxPacketLength
  taken := by
    rcases h.taken with ⟨hs, rfl⟩ | ⟨n, hd, hs, hhd, rfl⟩
    · exact .inl ⟨hs, rfl⟩
    · exact .inr ⟨n, hd, hs, hhd, List.append_assoc _ _ _⟩

/-- A frame that has arrived in full is handed out. -/
lemma decode_frame (h : Holds m (c, src) (frame p ++ w)) (hp : Fits m p) :
    c.decode src = .ok (some p, { c with state := .head }, w) := by
  obtain ⟨hd, hhd, hframe⟩ := hp.head
  have hmax : p.length ≤ c.maxPacketLength := h.maxPacketLength ▸ hp.2
  rw [hframe, List.append_assoc] at h
  rcases h.taken with ⟨hs, hsrc⟩ | ⟨n, hd', hs, hhd', hsrc⟩
  · simp only at hsrc
    subst hsrc
    rw [decode_of_some h.raw hs (decodeHead_append hhd hmax _), decodePacket_append]
  · obtain ⟨rfl, rfl, hrest⟩ := hhd.unique hhd' hsrc
    simp only at hrest
    rw [decode_of_data h.raw hs, ← hrest, decodePacket_append]

/-- While the frame is not complete `decode` returns `None`, and forgets nothing. -/
lemma decode_short (h : Holds m (c, src) w) (hp : Fits m p) (hw : w <+: frame p)
    (hlt : w.length < (frame p).length) :
    ∃ s, c.decode src = .ok (none, s) ∧ Holds m s w := by
  obtain ⟨hd, hhd, hframe⟩ := hp.head
  have hmax : p.length ≤ c.maxPacketLength := h.maxPacketLength ▸ hp.2
  rw [hframe] at hw hlt
  rw [List.length_append] at hlt
  rcases h.taken with ⟨hs, hsrc⟩ | ⟨n, hd', hs, hhd', hsrc⟩
  · simp only at hsrc
    subst hsrc
    by_cases hlen : w.length < hd.length
    · have hsrc : w <+: hd :=
        List.prefix_of_prefix_length_le hw (List.prefix_append _ _) (by omega)
      exact ⟨(c, w), decode_of_none h.raw hs (decodeHead_short hhd hsrc hlen), h⟩
    · obtain ⟨rest, rfl⟩ : hd <+: w :=
        List.prefix_of_prefix_length_le (List.prefix_append _ _) hw (by omega)
      rw [List.length_append] at hlt
      rw [decode_of_some h.raw hs (decodeHead_append hhd hmax rest),
        decodePacket_short c (by omega)]
      exact ⟨_, rfl, h.raw, h.maxPacketLength, .inr ⟨_, hd, rfl, hhd, rfl⟩⟩
  · simp only at hsrc
    obtain ⟨rest, hrest⟩ := hw
    rw [hsrc, List.append_assoc] at hrest
    obtain ⟨rfl, rfl, -⟩ := hhd'.unique hhd hrest
    rw [hsrc, List.length_append] at hlt
    rw [decode_of_data h.raw hs, decodePacket_short c (by omega)]
    exact ⟨_, rfl, h.raw, h.maxPacketLength, .inr ⟨_, hd', rfl, hhd, hsrc⟩⟩

lemma drain_of_none (h : c.decode src = .ok (none, s)) : c.drain src = .ok ([], s) := by
  obtain ⟨c', src'⟩ := s
  rw [drain]
  split <;> simp_all

lemma drain_of_some {datas : List Bytes} (h : c.decode src = .ok (some p, c', src'))
    (hrest : c'.drain src' = .ok (datas, s)) : c.drain src = .ok (p :: datas, s) := by
  rw [drain]
  split <;> simp_all

/-- One run of `decode` until `None` hands out exactly the frames the bytes so far complete. -/
lemma drain_cut (h : Holds m (c, src) w) (hps : ∀ p ∈ ps, Fits m p) (hw : w <+: wire frame ps) :
    ∃ done todo part s, c.drain src = .ok (done, s) ∧ Cut frame ps w done todo part ∧
      Holds m s part := by
  -- by induction on the payloads: the first frame is complete, or decoding stops at it
  induction ps generalizing c src w with
  | nil =>
    have hnil : w = [] := List.prefix_nil.mp hw
    rcases h.taken with ⟨hs, hsrc⟩ | ⟨n, hd, hs, hhd, hsrc⟩
    · simp only [hnil] at hsrc
      have hdec : c.decode src = .ok (none, c, src) :=
        decode_of_none h.raw hs (by rw [← hsrc]; rfl)
      exact ⟨[], [], w, _, drain_of_none hdec, ⟨rfl, rfl, hw, by simp⟩, h⟩
    · have := hhd.ne_nil
      simp_all
  | cons p ps ih =>
    have hp := hps p List.mem_cons_self
    rw [wire_cons] at hw
    by_cases hlt : w.length < (frame p).length
    · have hpre : w <+: frame p :=
        List.prefix_of_prefix_length_le hw (List.prefix_append _ _) hlt.le
      obtain ⟨s, hdec, hs⟩ := decode_short h hp hpre hlt
      refine ⟨[], p :: ps, w, s, drain_of_none hdec, ⟨rfl, rfl, ?_, ?_⟩, hs⟩
      · rwa [wire_cons]
      · simpa using hlt
    · obtain ⟨rest, rfl⟩ : frame p <+: w :=
        List.prefix_of_prefix_length_le (List.prefix_append _ _) hw (by omega)
      have hrest : rest <+: wire frame ps := (List.prefix_append_right_inj _).mp hw
      have hholds : Holds m ({ c with state := .head }, rest) rest :=
        ⟨h.raw, h.maxPacketLength, .inl ⟨rfl, rfl⟩⟩
      obtain ⟨done, todo, part, s, hdrain, hcut, hs⟩ :=
        ih hholds (fun q hq => hps q (List.mem_cons_of_mem _ hq)) hrest
      exact ⟨p :: done, todo, part, s, drain_of_some (decode_frame h hp) hdrain, hcut.cons p, hs⟩

/-- Any list of chunks hands out the frames its bytes complete. -/
lemma feedAll_frames {chunks : List Bytes} (hps : ∀ p ∈ ps, Fits m p)
    (hw : chunks.flatten <+: wire frame ps) :
    ∃ done todo part s, feedAll feed (new.setMaxPacketLength m, []) chunks = .ok (done, s) ∧
      Cut frame ps chunks.flatten done todo part ∧ Holds m s part := by
  have hstart : Holds m (new.setMaxPacketLength m, []) [] := ⟨rfl, rfl, .inl ⟨rfl, rfl⟩⟩
  have hunfinished : Unfinished frame ps [] := by
    refine ⟨List.nil_prefix, fun p hp => ?_⟩
    obtain ⟨hd, hhd, hframe⟩ := (hps p (List.mem_of_head? hp)).head
    have := List.length_pos_iff.mpr hhd.ne_nil
    rw [hframe, List.length_append, List.length_nil]
    omega
  have hfeed : ∀ (s : BytesCodec × Bytes) (part : Bytes) (ps : List Bytes) (chunk : Bytes),
      Holds m s part → (∀ p ∈ ps, Fits m p) → Unfinished frame ps part →
      part ++ chunk <+: wire frame ps → ∃ done todo part' s',
        feed s chunk = .ok (done, s') ∧ Cut frame ps (part ++ chunk) done todo part' ∧
          Holds m s' part' :=
    fun s part ps chunk hs hok _ hw => drain_cut (hs.append chunk) hok hw
  have hcut := feedAll_cut (Holds m) hfeed hstart hps hunfinished (by rwa [List.nil_append])
  rwa [List.nil_append] at hcut

lemma encodeAll_eq {e : BytesCodec} (he : e.raw = false) (hps : ∀ p ∈ ps, Fits m p)
    (buf : Bytes) : e.encodeAll ps buf = .ok (buf ++ wire frame ps) := by
  induction ps generalizing buf with
  | nil => rw [wire_nil, List.append_nil]; rfl
  | cons p ps ih =>
    obtain ⟨hd, hput, -⟩ := exists_isHead (hps p List.mem_cons_self).1
    have henc : e.encode p buf = .ok (buf ++ frame p) := by
      simp [encode, he, hput, frame]
    have hps' : ∀ q ∈ ps, Fits m q := fun q hq => hps q (List.mem_cons_of_mem _ hq)
    rw [encodeAll, henc, wire_cons, ← List.append_assoc]
    exact ih hps' (buf ++ frame p)

end Decode

/-- Framing is lossless under any segmentation: the packets come out as they went in, and after
some of the chunks exactly those have come out whose last byte has arrived. -/
theorem framing_lossless (e : BytesCodec) (he : e.raw = false) (m : ℕ) (payloads : List Bytes)
    (h : ∀ p ∈ payloads, p.length ≤ maxFrameLength ∧ p.length ≤ m) :
    ∃ sent, e.encodeAll payloads [] = .ok sent ∧ ∀ chunks : List Bytes, chunks.flatten = sent →
      feedAll feed (new.setMaxPacketLength m, []) chunks =
        .ok (payloads, new.setMaxPacketLength m, []) ∧
      ∀ seen, seen <+: chunks → ∃ frames s,
        feedAll feed (new.setMaxPacketLength m, []) seen = .ok (frames, s) ∧
        frames <+: payloads ∧
        ∀ k ≤ payloads.length, ∃ first, e.encodeAll (payloads.take k) [] = .ok first ∧
          (k ≤ frames.length ↔ first.length ≤ seen.flatten.length) := by
  refine ⟨wire frame payloads, encodeAll_eq (m := m) he h [], fun chunks hchunks => ⟨?_, ?_⟩⟩
  · obtain ⟨done, todo, part, s, hfeed, hcut, hs⟩ :=
      feedAll_frames (m := m) h (by rw [hchunks])
    rw [hchunks] at hcut
    obtain ⟨rfl, rfl, rfl⟩ := hcut.eq_of_wire
    obtain ⟨⟨state, raw, max⟩, buf⟩ := s
    obtain ⟨rfl, rfl, htaken⟩ := hs
    rcases htaken with ⟨rfl, rfl⟩ | ⟨n, hd, -, hhd, hnil⟩
    · exact hfeed
    · exact absurd (List.append_eq_nil_iff.mp hnil.symm).1 hhd.ne_nil
  · intro seen hseen
    have hw : seen.flatten <+: wire frame payloads := by
      obtain ⟨later, rfl⟩ := hseen
      rw [← hchunks, List.flatten_append]
      exact List.prefix_append _ _
    obtain ⟨done, todo, part, s, hfeed, hcut, -⟩ := feedAll_frames (m := m) h hw
    refine ⟨done, s, hfeed, ⟨todo, hcut.messages.symm⟩, fun k hk => ?_⟩
    have htake : ∀ p ∈ payloads.take k, Fits m p := fun p hp => h p (List.mem_of_mem_take hp)
    exact ⟨wire frame (payloads.take k), encodeAll_eq he htake [], hcut.le_length_iff hk⟩

/-- The shortest packet for each size of the header. -/
def packets : List Bytes := [1, 0x40, 0x4000, 0x400000].map fun len => List.replicate len 7

theorem framing_lossless_four_packets :
    ∃ sent, new.encodeAll packets [] = .ok sent ∧ ∀ chunks : List Bytes, chunks.flatten = sent →
      feedAll feed (new.setMaxPacketLength 0x400000, []) chunks =
        .ok (packets, new.setMaxPacketLength 0x400000, []) := by
  have hfits : ∀ p ∈ packets, p.length ≤ maxFrameLength ∧ p.length ≤ 0x400000 := by
    refine List.forall_mem_map.mpr ?_
    simp only [List.length_replicate]
    decide
  obtain ⟨sent, hsent, hchunks⟩ := framing_lossless new rfl 0x400000 packets hfits
  exact ⟨sent, hsent, fun chunks h => (hchunks chunks h).1⟩

end BytesCodec

end RustDesk
