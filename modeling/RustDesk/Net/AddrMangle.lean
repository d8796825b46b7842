import RustDesk.Lib.LittleEndian
import RustDesk.Net.Addr

/-!
# Mangled addresses

`AddrMangle` writes an IPv4 address and its port into one number together with the time, so that
no router on the way finds the address in the packet: the address plus the time above bit 49, the
time above bit 17, the port plus the low half of the time below. An IPv6 address is written as it
is.

Slices and subtractions of `decode` are checked here: `none` is a slice out of range, which
panics, or a subtraction below zero, which panics in a build with overflow checks and wraps in one
without.
-/

namespace RustDesk

/-- `Ipv6Addr::is_loopback`: the address is `::1`. -/
def Ipv6Addr.isLoopback (ip : Ipv6Addr) : Bool :=
  ip.octets.toList = [0, 0, 0, 0, 0, 0, 0, 0, 0, 0, 0, 0, 0, 0, 0, 1]

/-- `Ipv6Addr::to_ipv4`, of compatible and of mapped addresses. -/
def Ipv6Addr.toIpv4 (ip : Ipv6Addr) : Option Ipv4Addr :=
  match ip.octets.toList with
  | [0, 0, 0, 0, 0, 0, 0, 0, 0, 0, 0, 0, a, b, c, d] => some (.new a b c d)
  | [0, 0, 0, 0, 0, 0, 0, 0, 0, 0, 0xff, 0xff, a, b, c, d] => some (.new a b c d)
  | _ => none

def tryIntoV4 (addr : SocketAddr) : SocketAddr :=
  match addr with
  | .v6 ip port _ _ =>
    if ip.isLoopback then addr
    else
      match ip.toIpv4 with
      | some v4 => .v4 v4 port
      | none => addr
  | .v4 _ _ => addr

/-- `Ipv4Addr::new` on the first four bytes. -/
def Ipv4Addr.ofBytes (ip : Bytes) : Ipv4Addr :=
  .new (ip.getD 0 0) (ip.getD 1 0) (ip.getD 2 0) (ip.getD 3 0)

/-- `Config::get_any_listen_addr`. -/
def getAnyListenAddr (isIpv4 : Bool) : SocketAddr :=
  if isIpv4 then .v4 (.new 0 0 0 0) 0 else .v6 ⟨.replicate 16 0⟩ 0 0 0

/-- An address without the IPv6 flow info and scope id. -/
def SocketAddr.plain : SocketAddr → SocketAddr
  | v4 ip port => v4 ip port
  | v6 ip port _ _ => v6 ip port 0 0

/-- `a - b` on unsigned numbers. -/
def checkedSub (a b : ℕ) : Option ℕ := if b ≤ a then some (a - b) else none

/-- `bytes[i..j]`. -/
def slice (bytes : Bytes) (i j : ℕ) : Option Bytes :=
  if i ≤ j ∧ j ≤ bytes.length then some ((bytes.drop i).take (j - i)) else none

namespace AddrMangle

variable {ip port tm : ℕ} {bytes : Bytes}

/-- The number an IPv4 address is mangled into; it stays below `2 ^ 82`. -/
def mangle (ip port tm : ℕ) : ℕ := (ip + tm) <<< 49 ||| tm <<< 17 ||| (port + (tm &&& 0xFFFF))

/-- How many zero bytes the loop over the reversed bytes counts. -/
def padding : Bytes → ℕ
  | [] => 0
  | b :: bs => if b = 0 then padding bs + 1 else 0

/-- `micros` is the time since the epoch that the clock gives, zero when it is before. -/
def encode (addr : SocketAddr) (micros : ℕ) : Bytes :=
  match tryIntoV4 addr with
  | .v4 ip port =>
    let tm := micros % 2 ^ 32
    let bytes := leBytes 16 (mangle (leValue ip.octets.toList) port.toNat tm)
    bytes.take (16 - padding bytes.reverse)
  | .v6 ip port _ _ => ip.octets.toList ++ leBytes 2 port.toNat

/-- The IPv4 address and the port in a mangled number. -/
def unmangle (number : ℕ) : Option SocketAddr := do
  let tm := number >>> 17 &&& 0xFFFFFFFF
  let ip ← checkedSub (number >>> 49) tm
  let port ← checkedSub (number &&& 0xFFFFFF) (tm &&& 0xFFFF)
  return .v4 (.ofBytes (leBytes 4 (ip % 2 ^ 32))) (UInt16.ofNat port)

def decode (bytes : Bytes) : Option SocketAddr :=
  if bytes.length > 16 then
    if bytes.length ≠ 18 then
      some (getAnyListenAddr false)
    else do
      let port ← slice bytes 16 bytes.length
      let ip ← slice bytes 0 16
      return .v6 ⟨.ofFn fun i => ip.getD i 0⟩ (UInt16.ofNat (leValue port)) 0 0
  else do
    let padded := List.replicate 16 0
    let filled ← slice padded 0 bytes.length
    unmangle (leValue (bytes ++ padded.drop filled.length))

/-! ### The padding -/

lemma padding_le (bs : Bytes) : padding bs ≤ bs.length := by
  induction bs with
  | nil => exact le_rfl
  | cons b bs ih =>
    rw [padding, List.length_cons]
    split_ifs <;> omega

lemma take_padding (bs : Bytes) : bs.take (padding bs) = List.replicate (padding bs) 0 := by
  induction bs with
  | nil => rfl
  | cons b bs ih =>
    rw [padding]
    split_ifs with hb
    · rw [List.take_succ_cons, List.replicate_succ, ih, hb]
    · rfl

/-- Filling up with zeros brings back the bytes that were cut off. -/
lemma pad_take (bs : Bytes) :
    bs.take (bs.length - padding bs.reverse) ++ List.replicate (padding bs.reverse) 0 = bs := by
  have hle := padding_le bs.reverse
  rw [List.length_reverse] at hle
  have htail : bs.drop (bs.length - padding bs.reverse) =
      List.replicate (padding bs.reverse) 0 := by
    have h := congrArg List.reverse (take_padding bs.reverse)
    rwa [List.reverse_replicate, List.take_reverse, List.reverse_reverse] at h
  rw [← htail, List.take_append_drop]

/-! ### The number -/

/-- The three fields do not overlap. -/
lemma mangle_eq (hport : port < 2 ^ 16) (htm : tm < 2 ^ 32) :
    mangle ip port tm = 2 ^ 49 * (ip + tm) + (2 ^ 17 * tm + (port + tm % 2 ^ 16)) := by
  have hand : tm &&& 0xFFFF = tm % 2 ^ 16 := Nat.and_two_pow_sub_one_eq_mod tm 16
  have hlow : port + tm % 2 ^ 16 < 2 ^ 17 := by omega
  have hmid : 2 ^ 17 * tm + (port + tm % 2 ^ 16) < 2 ^ 49 := by omega
  rw [mangle, hand, Nat.shiftLeft_eq, Nat.shiftLeft_eq, mul_comm, mul_comm tm, Nat.or_assoc,
    ← Nat.two_pow_add_eq_or_of_lt hlow, ← Nat.two_pow_add_eq_or_of_lt hmid]

/-- The time in a mangled number. -/
def timeField (number : ℕ) : ℕ := number / 2 ^ 17 % 2 ^ 32

/-- The address plus the time. -/
def addrField (number : ℕ) : ℕ := number / 2 ^ 49

/-- The port plus the low half of the time. -/
def portField (number : ℕ) : ℕ := number % 2 ^ 17

/-- `unmangle` in terms of the fields; the mask for the port takes seven bits of the time too. -/
lemma unmangle_eq (number : ℕ) :
    unmangle number = (checkedSub (addrField number) (timeField number)).bind fun ip =>
      (checkedSub (number % 2 ^ 24) (timeField number % 2 ^ 16)).map fun port =>
        .v4 (.ofBytes (leBytes 4 (ip % 2 ^ 32))) (UInt16.ofNat port) := by
  have htm : number / 2 ^ 17 &&& 0xFFFFFFFF = timeField number :=
    Nat.and_two_pow_sub_one_eq_mod _ 32
  have hlow : timeField number &&& 0xFFFF = timeField number % 2 ^ 16 :=
    Nat.and_two_pow_sub_one_eq_mod _ 16
  have hport : number &&& 0xFFFFFF = number % 2 ^ 24 := Nat.and_two_pow_sub_one_eq_mod _ 24
  simp only [unmangle, Nat.shiftRight_eq_div_pow, htm, hlow, hport, addrField,
    Option.map_eq_bind, Function.comp_def, Option.bind_eq_bind, Option.pure_def]

/-- The fields of what `encode` writes give the address and the port back. -/
lemma unmangle_mangle (hip : ip < 2 ^ 32) (hport : port < 2 ^ 16) (htm : tm < 2 ^ 32) :
    unmangle (mangle ip port tm) = some (.v4 (.ofBytes (leBytes 4 ip)) (UInt16.ofNat port)) := by
  have hv : mangle ip port tm = _ := mangle_eq hport htm
  have hdiv : mangle ip port tm / 2 ^ 17 = 2 ^ 32 * (ip + tm) + tm := by
    rw [hv]
    omega
  have htime : timeField (mangle ip port tm) = tm := by
    rw [timeField, hdiv]
    omega
  have haddr : addrField (mangle ip port tm) = ip + tm := by
    rw [addrField, hv]
    omega
  -- seven bits of the time stay in the port, above the 16 that are kept
  obtain ⟨k, hk⟩ : ∃ k, mangle ip port tm % 2 ^ 24 = port + tm % 2 ^ 16 + 2 ^ 17 * k :=
    ⟨tm % 2 ^ 7, by rw [hv]; omega⟩
  have hcut : UInt16.ofNat (port + 2 ^ 17 * k) = UInt16.ofNat port := by
    apply UInt16.toNat_inj.mp
    rw [UInt16.toNat_ofNat', UInt16.toNat_ofNat']
    omega
  have hsub : checkedSub (port + tm % 2 ^ 16 + 2 ^ 17 * k) (tm % 2 ^ 16) =
      some (port + 2 ^ 17 * k) := by
    rw [checkedSub, if_pos (by omega)]
    congr 1
    omega
  rw [unmangle_eq, htime, haddr, hk, hsub, checkedSub, if_pos (Nat.le_add_left _ _),
    Nat.add_sub_cancel, Option.bind_some, Option.map_some, hcut, Nat.mod_eq_of_lt hip]

lemma decode_of_le (h : bytes.length ≤ 16) :
    decode bytes = unmangle (leValue (bytes ++ List.replicate (16 - bytes.length) 0)) := by
  have hslice : slice (List.replicate 16 (0 : UInt8)) 0 bytes.length =
      some (List.replicate bytes.length 0) := by
    rw [slice, if_pos ⟨Nat.zero_le _, by simpa using h⟩, List.drop_zero, Nat.sub_zero,
      List.take_replicate, min_eq_left h]
  rw [decode, if_neg (by omega)]
  simp only [hslice]
  rw [Option.bind_eq_bind, Option.bind_some, List.length_replicate, List.drop_replicate]

/-! ### Round trip -/

lemma ofBytes_octets (ip : Ipv4Addr) : Ipv4Addr.ofBytes ip.octets.toList = ip := by
  obtain ⟨v⟩ := ip
  rw [Ipv4Addr.ofBytes, Ipv4Addr.new, Ipv4Addr.mk.injEq]
  ext i hi
  match i, hi with
  | 0, _ => simp
  | 1, _ => simp
  | 2, _ => simp
  | 3, _ => simp

lemma ofFn_octets (ip : Ipv6Addr) :
    (⟨.ofFn fun i => ip.octets.toList.getD i 0⟩ : Ipv6Addr) = ip := by
  obtain ⟨v⟩ := ip
  rw [Ipv6Addr.mk.injEq]
  ext i hi
  simp

lemma decode_encode_v4 (ip : Ipv4Addr) (port : UInt16) (htm : tm < 2 ^ 32)
    (hbytes : bytes = leBytes 16 (mangle (leValue ip.octets.toList) port.toNat tm)) :
    decode (bytes.take (16 - padding bytes.reverse)) = some (.v4 ip port) := by
  have hlen : bytes.length = 16 := by rw [hbytes, length_leBytes]
  have hpad : padding bytes.reverse ≤ 16 := by
    have := padding_le bytes.reverse
    rwa [List.length_reverse, hlen] at this
  have hip : leValue ip.octets.toList < 2 ^ 32 := by
    have := leValue_lt ip.octets.toList
    rw [Vector.length_toList] at this
    exact this
  have hlt : mangle (leValue ip.octets.toList) port.toNat tm < 256 ^ 16 := by
    have hport := port.toNat_lt
    rw [mangle_eq hport htm]
    omega
  have htake : (bytes.take (16 - padding bytes.reverse)).length = 16 - padding bytes.reverse := by
    rw [List.length_take, hlen]
    omega
  have hfill : bytes.take (16 - padding bytes.reverse) ++
      List.replicate (padding bytes.reverse) 0 = bytes := by
    have := pad_take bytes
    rwa [hlen] at this
  rw [decode_of_le (by omega), htake, Nat.sub_sub_self hpad, hfill, hbytes, leValue_leBytes hlt,
    unmangle_mangle hip port.toNat_lt htm]
  have hback := leBytes_leValue ip.octets.toList
  rw [Vector.length_toList] at hback
  rw [hback, ofBytes_octets, UInt16.ofNat_toNat]

lemma decode_encode_v6 (ip : Ipv6Addr) (port : UInt16) :
    decode (ip.octets.toList ++ leBytes 2 port.toNat) = some (.v6 ip port 0 0) := by
  have hlen : (ip.octets.toList ++ leBytes 2 port.toNat).length = 18 := by simp
  have hport : slice (ip.octets.toList ++ leBytes 2 port.toNat) 16 18 =
      some (leBytes 2 port.toNat) := by
    rw [slice, if_pos ⟨by decide, hlen.ge⟩, List.drop_left' (by simp),
      List.take_of_length_le (by simp)]
  have hip : slice (ip.octets.toList ++ leBytes 2 port.toNat) 0 16 = some ip.octets.toList := by
    rw [slice, if_pos ⟨by decide, by omega⟩, List.drop_zero, List.take_left' (by simp)]
  have hvalue : leValue (leBytes 2 port.toNat) = port.toNat := leValue_leBytes port.toNat_lt
  rw [decode, hlen, if_pos (by decide), if_neg (by decide)]
  simp only [hport, hip, Option.bind_eq_bind, Option.bind_some, Option.pure_def, hvalue,
    UInt16.ofNat_toNat, ofFn_octets]

/-- Mangling loses nothing: whatever the clock shows, an address is decoded as it was, IPv4 in
IPv6 as IPv4, up to flow info and scope id. -/
theorem decode_encode (addr : SocketAddr) (micros : ℕ) :
    decode (encode addr micros) = some (tryIntoV4 addr).plain := by
  rw [encode]
  cases tryIntoV4 addr with
  | v4 ip port => exact decode_encode_v4 ip port (Nat.mod_lt _ (by decide)) rfl
  | v6 ip port flowinfo scopeId => exact decode_encode_v6 ip port

/-! ### Bytes from the wire -/

lemma leValue_append_zeros (bytes : Bytes) (k : ℕ) :
    leValue (bytes ++ List.replicate k 0) = leValue bytes := by
  rw [leValue, List.map_append, List.map_replicate, UInt8.toNat_zero,
    Nat.ofDigits_append_replicate_zero, leValue]

/-- The bytes are as long as an IPv6 address or longer, or the time in them is at most the
address field it is taken from, and its low half at most the port field unless one of the seven
time bits behind the port field is set. -/
def Unmangles (bytes : Bytes) : Prop :=
  16 < bytes.length ∨
    timeField (leValue bytes) ≤ addrField (leValue bytes) ∧
      (timeField (leValue bytes) % 2 ^ 16 ≤ portField (leValue bytes) ∨
        timeField (leValue bytes) % 2 ^ 7 ≠ 0)

lemma isSome_checkedSub (a b : ℕ) : (checkedSub a b).isSome ↔ b ≤ a := by
  rw [checkedSub]
  split_ifs with h <;> simp [h]

lemma isSome_unmangle (number : ℕ) :
    (unmangle number).isSome ↔ timeField number ≤ addrField number ∧
      timeField number % 2 ^ 16 ≤ number % 2 ^ 24 := by
  rw [unmangle_eq, ← isSome_checkedSub, ← isSome_checkedSub]
  cases checkedSub (addrField number) (timeField number) with
  | none => simp
  | some ip => simp

/-- The low 24 bits are the port field and seven bits of the time. -/
lemma low_le_iff (number : ℕ) :
    timeField number % 2 ^ 16 ≤ number % 2 ^ 24 ↔
      timeField number % 2 ^ 16 ≤ portField number ∨ timeField number % 2 ^ 7 ≠ 0 := by
  have hlow : number % 2 ^ 24 = portField number + 2 ^ 17 * (timeField number % 2 ^ 7) := by
    rw [portField, timeField]
    omega
  have hlt : timeField number % 2 ^ 16 < 2 ^ 17 :=
    (Nat.mod_lt _ (by decide)).trans (by decide)
  rw [hlow]
  omega

/-- `decode` gets through exactly on these bytes. -/
theorem decode_safe_iff (bytes : Bytes) : (decode bytes).isSome ↔ Unmangles bytes := by
  rw [Unmangles]
  by_cases hlong : 16 < bytes.length
  · refine iff_of_true ?_ (.inl hlong)
    rw [decode, if_pos hlong]
    split_ifs with hlen
    · rfl
    · have hport : (slice bytes 16 bytes.length).isSome := by
        rw [slice, if_pos ⟨hlong.le, le_rfl⟩]
        rfl
      have hip : (slice bytes 0 16).isSome := by
        rw [slice, if_pos ⟨by decide, hlong.le⟩]
        rfl
      obtain ⟨port, hport⟩ := Option.isSome_iff_exists.mp hport
      obtain ⟨ip, hip⟩ := Option.isSome_iff_exists.mp hip
      rw [hport, hip]
      rfl
  · rw [decode_of_le (by omega), leValue_append_zeros, isSome_unmangle, low_le_iff]
    simp only [hlong, false_or]

theorem decode_underflows : ¬∀ bytes : Bytes, (decode bytes).isSome := by
  intro h
  exact absurd (h [0, 0, 2]) (by decide)

end AddrMangle

end RustDesk
