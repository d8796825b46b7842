import RustDesk.Net.Io

/-!
# Socket addresses

The addresses of `std::net`, their parser and their text form. A `str` is the list of its UTF-8
bytes; the parser and everything the code does to an address text look at ASCII bytes only, and
these never occur inside a longer UTF-8 sequence.

Each reader returns `none` where the parser of `std` returns `None` and puts its position back,
so a caller that goes on after a failure goes on from the text it had.
-/

namespace RustDesk

structure Ipv4Addr where
  octets : Vector UInt8 4
  deriving DecidableEq

structure Ipv6Addr where
  octets : Vector UInt8 16
  deriving DecidableEq

inductive IpAddr where
  | v4 (ip : Ipv4Addr)
  | v6 (ip : Ipv6Addr)
  deriving DecidableEq

inductive SocketAddr where
  | v4 (ip : Ipv4Addr) (port : UInt16)
  | v6 (ip : Ipv6Addr) (port : UInt16) (flowinfo scopeId : UInt32)
  deriving DecidableEq

def SocketAddr.ip : SocketAddr → IpAddr
  | v4 ip _ => .v4 ip
  | v6 ip _ _ _ => .v6 ip

def SocketAddr.port : SocketAddr → UInt16
  | v4 _ port => port
  | v6 _ port _ _ => port

/-- `u16::to_be_bytes`. -/
def toBeBytes (n : UInt16) : Bytes := [(n >>> 8).toUInt8, n.toUInt8]

/-- `u16::from_be_bytes`. -/
def fromBeBytes (hi lo : UInt8) : UInt16 := hi.toUInt16 <<< 8 ||| lo.toUInt16

lemma fromBeBytes_toBeBytes (n : UInt16) :
    fromBeBytes (n >>> 8).toUInt8 n.toUInt8 = n := by
  apply UInt16.toNat_inj.mp
  have hlt := n.toNat_lt
  have hlow : n.toNat % 2 ^ 8 < 2 ^ 8 := Nat.mod_lt _ (by decide)
  have hor := Nat.shiftLeft_add_eq_or_of_lt hlow (n.toNat / 2 ^ 8)
  have hhigh : n.toNat / 2 ^ 8 % 2 ^ 8 = n.toNat / 2 ^ 8 := Nat.mod_eq_of_lt (by omega)
  have hshift : (n.toNat / 2 ^ 8) <<< 8 = n.toNat / 2 ^ 8 * 2 ^ 8 := Nat.shiftLeft_eq _ _
  simp only [fromBeBytes, UInt16.toNat_or, UInt16.toNat_shiftLeft, UInt8.toNat_toUInt16,
    UInt16.toNat_toUInt8, UInt16.toNat_shiftRight, Nat.shiftRight_eq_div_pow]
  rw [show UInt16.toNat 8 % 16 = 8 from rfl, hhigh, Nat.mod_eq_of_lt (by omega), ← hor, hshift]
  omega

def Ipv4Addr.new (a b c d : UInt8) : Ipv4Addr := ⟨#v[a, b, c, d]⟩

/-- `Ipv6Addr::from([u16; 8])`; a missing group is zero. -/
def Ipv6Addr.ofSegments (groups : List UInt16) : Ipv6Addr :=
  ⟨.ofFn fun i => (groups.flatMap toBeBytes).getD i 0⟩

def Ipv6Addr.segments (ip : Ipv6Addr) : List UInt16 :=
  (List.range 8).map fun i => fromBeBytes (ip.octets.toList.getD (2 * i) 0)
    (ip.octets.toList.getD (2 * i + 1) 0)

/-! ### Reading -/

def ascii (c : Char) : UInt8 := UInt8.ofNat c.toNat

/-- `char::to_digit`, for a radix of at most 16. -/
def toDigit (radix : ℕ) (b : UInt8) : Option ℕ :=
  let n := b.toNat
  let digit? :=
    if 48 ≤ n ∧ n ≤ 57 then some (n - 48)
    else if 97 ≤ n ∧ n ≤ 102 then some (n - 97 + 10)
    else if 65 ≤ n ∧ n ≤ 70 then some (n - 65 + 10)
    else none
  digit?.filter (· < radix)

namespace Parser

def readGivenChar (target : Char) : Bytes → Option Bytes
  | [] => none
  | b :: rest => if b = ascii target then some rest else none

/-- The digit loop of `read_number`: it gives up on more digits than allowed and on a number
beyond the type's largest value. -/
def readDigits (radix : ℕ) (maxDigits : Option ℕ) (largest : ℕ) :
    ℕ → ℕ → Bytes → Option (ℕ × ℕ × Bytes)
  | result, digitCount, [] => some (result, digitCount, [])
  | result, digitCount, b :: rest =>
    match toDigit radix b with
    | none => some (result, digitCount, b :: rest)
    | some digit =>
      let result := result * radix + digit
      let digitCount := digitCount + 1
      if maxDigits.any (· < digitCount) ∨ largest < result then none
      else readDigits radix maxDigits largest result digitCount rest

def readNumber (radix : ℕ) (maxDigits : Option ℕ) (allowZeroPrefix : Bool) (largest : ℕ)
    (text : Bytes) : Option (ℕ × Bytes) := do
  let hasLeadingZero := text.head? = some (ascii '0')
  let (result, digitCount, rest) ← readDigits radix maxDigits largest 0 0 text
  if digitCount = 0 then none
  else if !allowZeroPrefix ∧ hasLeadingZero ∧ digitCount > 1 then none
  else some (result, rest)

/-- `inner`, behind the separator unless this is the first element. -/
def readSeparator {α : Type} (sep : Char) (index : ℕ) (inner : Bytes → Option (α × Bytes))
    (text : Bytes) : Option (α × Bytes) :=
  if index > 0 then (readGivenChar sep text).bind inner else inner text

/-- An octet in decimal, octal forms not allowed. -/
def readOctet (text : Bytes) : Option (UInt8 × Bytes) := do
  let (n, rest) ← readNumber 10 (some 3) false 255 text
  return (UInt8.ofNat n, rest)

def readIpv4Addr (text : Bytes) : Option (Ipv4Addr × Bytes) := do
  let (a, text) ← readSeparator '.' 0 readOctet text
  let (b, text) ← readSeparator '.' 1 readOctet text
  let (c, text) ← readSeparator '.' 2 readOctet text
  let (d, text) ← readSeparator '.' 3 readOctet text
  return (.new a b c d, text)

def readGroup (text : Bytes) : Option (UInt16 × Bytes) := do
  let (n, rest) ← readNumber 16 (some 4) true 65535 text
  return (UInt16.ofNat n, rest)

/-- The groups of an IPv6 address from group `index` on, `left` of them at most, and whether
they end in an embedded IPv4 address. -/
def readGroups (index : ℕ) : (left : ℕ) → Bytes → List UInt16 × Bool × Bytes
  | 0, text => ([], false, text)
  | left + 1, text =>
    -- an IPv4 address takes two groups
    let ipv4 := if left > 0 then readSeparator ':' index readIpv4Addr text else none
    match ipv4 with
    | some (ip, rest) =>
      let o := ip.octets
      ([fromBeBytes o[0] o[1], fromBeBytes o[2] o[3]], true, rest)
    | none =>
      match readSeparator ':' index readGroup text with
      | none => ([], false, text)
      | some (group, rest) =>
        let (groups, ipv4, rest) := readGroups (index + 1) left rest
        (group :: groups, ipv4, rest)

def readIpv6Addr (text : Bytes) : Option (Ipv6Addr × Bytes) :=
  let (head, headIpv4, text) := readGroups 0 8 text
  if head.length = 8 then
    some (.ofSegments head, text)
  else if headIpv4 then
    none
  else do
    let text ← readGivenChar ':' text
    let text ← readGivenChar ':' text
    let (tail, _, text) := readGroups 0 (8 - (head.length + 1)) text
    let zeros := List.replicate (8 - head.length - tail.length) 0
    return (.ofSegments (head ++ zeros ++ tail), text)

def readIpAddr (text : Bytes) : Option (IpAddr × Bytes) :=
  match readIpv4Addr text with
  | some (ip, rest) => some (.v4 ip, rest)
  | none => (readIpv6Addr text).map fun (ip, rest) => (.v6 ip, rest)

def readPort (text : Bytes) : Option (UInt16 × Bytes) := do
  let text ← readGivenChar ':' text
  let (n, rest) ← readNumber 10 none true 65535 text
  return (UInt16.ofNat n, rest)

def readScopeId (text : Bytes) : Option (UInt32 × Bytes) := do
  let text ← readGivenChar '%' text
  let (n, rest) ← readNumber 10 none true (2 ^ 32 - 1) text
  return (UInt32.ofNat n, rest)

def readSocketAddrV4 (text : Bytes) : Option (SocketAddr × Bytes) := do
  let (ip, text) ← readIpv4Addr text
  let (port, text) ← readPort text
  return (.v4 ip port, text)

def readSocketAddrV6 (text : Bytes) : Option (SocketAddr × Bytes) := do
  let text ← readGivenChar '[' text
  let (ip, text) ← readIpv6Addr text
  let (scopeId, text) := (readScopeId text).getD (0, text)
  let text ← readGivenChar ']' text
  let (port, text) ← readPort text
  return (.v6 ip port 0 scopeId, text)

def readSocketAddr (text : Bytes) : Option (SocketAddr × Bytes) :=
  readSocketAddrV4 text <|> readSocketAddrV6 text

/-- `parse_with`: the whole text has to be read. -/
def parseWith {α : Type} (inner : Bytes → Option (α × Bytes)) (text : Bytes) : Option α :=
  match inner text with
  | some (a, []) => some a
  | _ => none

end Parser

/-- `str::parse::<IpAddr>`. -/
def IpAddr.parse : Bytes → Option IpAddr := Parser.parseWith Parser.readIpAddr

/-- `str::parse::<SocketAddr>`. -/
def SocketAddr.parse : Bytes → Option SocketAddr := Parser.parseWith Parser.readSocketAddr

/-! ### Writing -/

def digits (radix n : ℕ) : Bytes := (Nat.toDigits radix n).map ascii

def Ipv4Addr.toText (ip : Ipv4Addr) : Bytes :=
  [ascii '.'].intercalate (ip.octets.toList.map fun o => digits 10 o.toNat)

/-- `to_ipv4_mapped`: the address embedded in `::ffff:0:0/96`. -/
def Ipv6Addr.toIpv4Mapped (ip : Ipv6Addr) : Option Ipv4Addr :=
  match ip.octets.toList with
  | [0, 0, 0, 0, 0, 0, 0, 0, 0, 0, 0xff, 0xff, a, b, c, d] => some (.new a b c d)
  | _ => none

/-- A run of zero groups. -/
structure Span where
  start : ℕ
  len : ℕ
  deriving DecidableEq

/-- The first of the longest runs of zero groups, from group `i` on. -/
def longestZeros : (i : ℕ) → (longest current : Span) → List UInt16 → Span
  | _, longest, _, [] => longest
  | i, longest, current, segment :: rest =>
    if segment = 0 then
      let current : Span := ⟨if current.len = 0 then i else current.start, current.len + 1⟩
      let longest := if current.len > longest.len then current else longest
      longestZeros (i + 1) longest current rest
    else
      longestZeros (i + 1) longest ⟨0, 0⟩ rest

/-- Groups in hexadecimal, a colon between each two. -/
def fmtSubslice (chunk : List UInt16) : Bytes :=
  [ascii ':'].intercalate (chunk.map fun segment => digits 16 segment.toNat)

def Ipv6Addr.toText (ip : Ipv6Addr) : Bytes :=
  match ip.toIpv4Mapped with
  | some ipv4 => "::ffff:".toList.map ascii ++ ipv4.toText
  | none =>
    let zeroes := longestZeros 0 ⟨0, 0⟩ ⟨0, 0⟩ ip.segments
    if zeroes.len > 1 then
      fmtSubslice (ip.segments.take zeroes.start) ++ [ascii ':', ascii ':'] ++
        fmtSubslice (ip.segments.drop (zeroes.start + zeroes.len))
    else
      fmtSubslice ip.segments

/-- `IpAddr::to_string`. -/
def IpAddr.toText : IpAddr → Bytes
  | v4 ip => ip.toText
  | v6 ip => ip.toText

end RustDesk
