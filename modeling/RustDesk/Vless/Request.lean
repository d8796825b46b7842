import Mathlib.Data.List.GetD
import RustDesk.Net.Addr

/-!
# The VLESS request header

The client writes one header in front of the tunnelled bytes (`connect`), the server reads it
field by field (`read_request`). The header is a version byte, the 16 bytes of the credential,
the length of the addons (none), the command, the port and the address in one of three forms.

`connect` is modelled from `split_target` to the bytes it writes; the TCP and TLS connections
before them and `Uuid::parse_str` on the configured text are not.
-/

namespace RustDesk.Vless

structure Uuid where
  bytes : Vector UInt8 16
  deriving DecidableEq

/-- `std::num::IntErrorKind`, as parsing an unsigned number reports it. -/
inductive ParseIntError where
  | empty
  | invalidDigit
  | posOverflow
  deriving DecidableEq

inductive Error where
  | message (text : String)
  | parseInt (e : ParseIntError)
  | io (e : IoError)
  deriving DecidableEq

/-! ### The client -/

/-- `str::rsplit_once`: the text before and after the last `sep`. -/
def rsplitOnce (sep : UInt8) : Bytes → Option (Bytes × Bytes)
  | [] => none
  | b :: rest =>
    match rsplitOnce sep rest with
    | some (before, after) => some (b :: before, after)
    | none => if b = sep then some ([], rest) else none

/-- `str::trim_matches` with a set of characters. -/
def trimMatches (chars : List UInt8) (text : Bytes) : Bytes :=
  ((text.dropWhile (· ∈ chars)).reverse.dropWhile (· ∈ chars)).reverse

/-- The digit loop of `u16::from_str`. -/
def parseDigits : ℕ → Bytes → Except ParseIntError ℕ
  | result, [] => .ok result
  | result, b :: rest =>
    match toDigit 10 b with
    | none => .error .invalidDigit
    | some digit =>
      let result := result * 10 + digit
      if 65535 < result then .error .posOverflow else parseDigits result rest

/-- `str::parse::<u16>`: a leading plus sign is accepted, a sign alone is not. -/
def parseU16 : Bytes → Except ParseIntError UInt16
  | [] => .error .empty
  | [b] => UInt16.ofNat <$> parseDigits 0 [b]
  | b :: rest =>
    UInt16.ofNat <$> if b = ascii '+' then parseDigits 0 rest else parseDigits 0 (b :: rest)

def splitTarget (target : Bytes) : Except Error (Bytes × UInt16) :=
  match SocketAddr.parse target with
  | some address => .ok (address.ip.toText, address.port)
  | none =>
    match rsplitOnce (ascii ':') target with
    | none => .error (.message "VLESS target must include a port")
    | some (host, port) =>
      match parseU16 port with
      | .error e => .error (.parseInt e)
      | .ok port => .ok (trimMatches [ascii '[', ascii ']'] host, port)

/-- The address of the request: its type and its bytes. -/
def requestAddress (host : Bytes) : Except Error Bytes :=
  match IpAddr.parse host with
  | some (.v4 address) => .ok (1 :: address.octets.toList)
  | some (.v6 address) => .ok (3 :: address.octets.toList)
  | none =>
    if host.length > 255 then
      .error (.message "VLESS target hostname is too long")
    else
      .ok (2 :: UInt8.ofNat host.length :: host)

/-- The bytes `connect` writes before it hands the stream on. -/
def request (uuid : Uuid) (target : Bytes) : Except Error Bytes := do
  let (host, port) ← splitTarget target
  let address ← requestAddress host
  return [0] ++ uuid.bytes.toList ++ [0] ++ [1] ++ toBeBytes port ++ address

/-! ### The server -/

/-- `read_exact` with its error as the server passes it on. -/
def readExact (n : ℕ) (s : Incoming) : Except Error (Bytes × Incoming) :=
  (s.readExact n).mapError .io

/-- The length of the address that follows its type. -/
def readAddressLen (addressType : UInt8) (s : Incoming) : Except Error (ℕ × Incoming) :=
  match addressType with
  | 1 => .ok (4, s)
  | 2 => do
    let (len, s) ← readExact 1 s
    return ((len.getD 0 0).toNat, s)
  | 3 => .ok (16, s)
  | _ => .error (.message "Unsupported VLESS address type")

/-- The requested port, and the stream behind the header. -/
def readRequest (expected : Uuid) (s : Incoming) : Except Error (UInt16 × Incoming) := do
  let (header, s) ← readExact 18 s
  if header.getD 0 0 ≠ 0 ∨ (header.drop 1).take 16 ≠ expected.bytes.toList then
    throw (.message "Invalid VLESS credential")
  let (_, s) ← readExact (header.getD 17 0).toNat s
  let (command, s) ← readExact 3 s
  if command.getD 0 0 ≠ 1 then
    throw (.message "Only VLESS TCP requests are supported")
  let (addressType, s) ← readExact 1 s
  let (addressLen, s) ← readAddressLen (addressType.getD 0 0) s
  let (_, s) ← readExact addressLen s
  return (fromBeBytes (command.getD 1 0) (command.getD 2 0), s)

/-! ### Agreement -/

section Agreement

variable {s : Incoming} {host addr more body : Bytes} {port : UInt16} {u v : Uuid} {ty : UInt8}

lemma readExact_append {n : ℕ} {a : Bytes} (hs : s.Healthy) (hn : a.length = n)
    (h : s.bytes = a ++ more) :
    ∃ s', readExact n s = .ok (a, s') ∧ s'.bytes = more ∧ s'.Healthy := by
  obtain ⟨s', hread, hs'⟩ := Incoming.readExact_append hs h
  refine ⟨s', ?_, hs'⟩
  rw [readExact, ← hn, hread]
  rfl

/-- In each of its three forms the server reads the address exactly to its end. -/
lemma readAddress (haddr : requestAddress host = .ok (ty :: body)) (hs : s.Healthy)
    (h : s.bytes = body ++ more) :
    ∃ n s₁ skipped s₂, readAddressLen ty s = .ok (n, s₁) ∧ readExact n s₁ = .ok (skipped, s₂) ∧
      s₂.bytes = more := by
  simp only [requestAddress] at haddr
  split at haddr
  case h_1 address _ =>
    obtain ⟨rfl, rfl⟩ := List.cons.inj (Except.ok.inj haddr)
    obtain ⟨s₂, hread, hmore, -⟩ := readExact_append hs (n := 4) (by simp) h
    exact ⟨4, s, _, s₂, rfl, hread, hmore⟩
  case h_2 address _ =>
    obtain ⟨rfl, rfl⟩ := List.cons.inj (Except.ok.inj haddr)
    obtain ⟨s₂, hread, hmore, -⟩ := readExact_append hs (n := 16) (by simp) h
    exact ⟨16, s, _, s₂, rfl, hread, hmore⟩
  case h_3 =>
    split_ifs at haddr with hlong
    obtain ⟨rfl, rfl⟩ := List.cons.inj (Except.ok.inj haddr)
    -- the length byte holds the length of a host name of at most 255 bytes
    have hlen : (UInt8.ofNat host.length).toNat = host.length := by
      rw [UInt8.toNat_ofNat']
      omega
    obtain ⟨s₁, hread₁, hmore₁, hs₁⟩ :=
      readExact_append hs (a := [UInt8.ofNat host.length]) (n := 1) rfl h
    obtain ⟨s₂, hread₂, hmore₂, -⟩ := readExact_append hs₁ hlen.symm hmore₁
    refine ⟨_, s₁, host, s₂, ?_, hread₂, hmore₂⟩
    simp only [readAddressLen, hread₁]
    rfl

lemma Uuid.bytes_ne (hne : u ≠ v) : u.bytes.toList ≠ v.bytes.toList := by
  intro heq
  apply hne
  cases u
  cases v
  rw [Uuid.mk.injEq]
  exact Vector.toList_inj.mp heq

lemma header_credential (u : Uuid) :
    (([0] ++ u.bytes.toList ++ [0]).drop 1).take 16 = u.bytes.toList := by
  simp

lemma header_addons (u : Uuid) : ([0] ++ u.bytes.toList ++ [0]).getD 17 0 = 0 := by
  rw [List.getD_append_right _ _ _ _ (by simp)]
  simp

/-- A wrong credential is reported once the first 18 bytes are there. -/
lemma readRequest_of_ne (hne : u ≠ v) (hs : s.Healthy)
    (h : s.bytes = [0] ++ u.bytes.toList ++ [0] ++ more) :
    readRequest v s = .error (.message "Invalid VLESS credential") := by
  obtain ⟨s₁, hread, -, -⟩ := readExact_append hs (n := 18) (by simp) h
  simp only [readRequest, hread, bind, Except.bind]
  rw [header_credential, if_pos (.inr (Uuid.bytes_ne hne))]
  rfl

/-- The right credential: the server returns the port and stops behind the address. -/
lemma readRequest_of_eq (haddr : requestAddress host = .ok (ty :: body)) (hs : s.Healthy) (h :
      s.bytes =
        [0] ++ u.bytes.toList ++ [0] ++ ([1] ++ toBeBytes port ++ ([ty] ++ (body ++ more)))) :
    ∃ s', readRequest u s = .ok (port, s') ∧ s'.bytes = more := by
  obtain ⟨s₁, hread₁, h₁, hs₁⟩ := readExact_append hs (n := 18) (by simp) h
  obtain ⟨s₂, hread₂, h₂, hs₂⟩ :=
    readExact_append hs₁ (a := []) (n := 0) rfl (h₁.trans (List.nil_append _).symm)
  obtain ⟨s₃, hread₃, h₃, hs₃⟩ := readExact_append hs₂ (n := 3) rfl h₂
  obtain ⟨s₄, hread₄, h₄, hs₄⟩ := readExact_append hs₃ (n := 1) rfl h₃
  obtain ⟨n, s₅, skipped, s₆, hlen, hread₆, hmore⟩ := readAddress haddr hs₄ h₄
  refine ⟨s₆, ?_, hmore⟩
  have hok : ¬(([0] ++ u.bytes.toList ++ [0]).getD 0 0 ≠ 0 ∨
      (([0] ++ u.bytes.toList ++ [0]).drop 1).take 16 ≠ u.bytes.toList) := by
    rw [header_credential]
    simp
  simp only [readRequest, hread₁, bind, Except.bind]
  rw [if_neg hok, header_addons]
  simp only [UInt8.toNat_zero, hread₂, hread₃, pure, Except.pure]
  rw [if_neg (by simp)]
  simp only [hread₄, List.getD_cons_zero, hlen, hread₆]
  exact congrArg (fun p => Except.ok (p, s₆)) (fromBeBytes_toBeBytes port)

end Agreement

/-- The two ends agree on the request header: for every target the client accepts, however the
stream is cut, the server with the same credential returns the target's port and leaves unread
exactly what follows the header, and a server with another one reports the credential. -/
theorem request_agrees (target host : Bytes) (port : UInt16) (u v : Uuid) (more : Bytes)
    (htarget : splitTarget target = .ok (host, port))
    (hdomain : IpAddr.parse host = none → host.length ≤ 255) :
    ∃ header, request u target = .ok header ∧
      ∀ s : Incoming, s.Healthy → s.bytes = header ++ more →
        (u = v → ∃ s', readRequest v s = .ok (port, s') ∧ s'.bytes = more) ∧
        (u ≠ v → readRequest v s = .error (.message "Invalid VLESS credential")) := by
  obtain ⟨ty, body, haddr⟩ : ∃ ty body, requestAddress host = .ok (ty :: body) := by
    simp only [requestAddress]
    split
    · exact ⟨_, _, rfl⟩
    · exact ⟨_, _, rfl⟩
    · rename_i hnone
      rw [if_neg (by have := hdomain hnone; omega)]
      exact ⟨_, _, rfl⟩
  refine ⟨_, by simp only [request, htarget, haddr, bind, Except.bind, pure, Except.pure]; rfl, ?_⟩
  intro s hs h
  constructor
  · rintro rfl
    exact readRequest_of_eq haddr hs (by simpa using h)
  · intro hne
    exact readRequest_of_ne hne hs (by simpa using h)

theorem request_agrees_domain :
    ∃ header, request ⟨.replicate 16 7⟩ ("a:443".toList.map ascii) = .ok header ∧
      ∀ s : Incoming, s.Healthy → s.bytes = header ++ [5] →
        ∃ s', readRequest ⟨.replicate 16 7⟩ s = .ok (443, s') ∧ s'.bytes = [5] := by
  obtain ⟨header, hheader, hread⟩ := request_agrees ("a:443".toList.map ascii) [ascii 'a'] 443
    ⟨.replicate 16 7⟩ ⟨.replicate 16 7⟩ [5] (by decide) (fun _ => by decide)
  exact ⟨header, hheader, fun s hs h => (hread s hs h).1 rfl⟩

end RustDesk.Vless
