import RustDesk.Secure.Encrypt

/-!
# The key exchange

A host signs its id, an ephemeral key and the newest version it speaks; the controller checks the
signature, seals a fresh session key to the ephemeral key and picks a version; both key their
streams from what they saw. Controllers and hosts run any number of sessions of their own, and the
attacker carries every message between them.

The primitives are ideal. The attacker shows a signature only on what a host signed. It opens no
box, and seals a session key only under an ephemeral key of its own and only if it knows the key:
it chose it, or hashed it from one it chose. It seals frames only under keys it knows.

The controller's check of the peer's long-term key comes before: `sign_pk` is the key of the host
here. A stream that was not keyed goes on in the clear (`plain`).
-/

namespace RustDesk.Secure

variable {key : Key} {isInitiator : Bool} {t : KxTranscript} {e : Encrypt} {p : Endpoint}

inductive Transport where
  | tcp
  | webSocket
  | webrtc
  deriving DecidableEq

/-- What the host signs. -/
structure IdPk where
  id : String
  pk : WirePk
  dtlsFingerprint : String
  kxVersion : UInt32
  deriving DecidableEq

/-- The signed bytes: with the host's signature, or without a valid one. -/
inductive SignedBlob where
  | signed (idPk : IdPk)
  | invalid
  deriving DecidableEq

/-- `box_::seal` under the shared secret of two ephemeral keys; `none` is a plaintext that has not
the length of a key. -/
inductive KeyBox where
  | sealed (ours theirs : PubKey) (content : Option Key)
  | invalid
  deriving DecidableEq

/-- The messages of the handshake; `other` has another type or none. -/
inductive Msg where
  | signedId (id : SignedBlob)
  | publicKey (asymmetricValue : WirePk) (symmetricValue : KeyBox) (kxVersion : UInt32)
  | other
  | malformed
  deriving DecidableEq

/-- Where a session is: not begun, waiting for the peer's message, given up with an error, going on
without a key, or keyed. -/
inductive Phase where
  | idle
  | waiting
  | failed (error : String)
  | plain
  | secured (key : Key) (isInitiator : Bool) (t : KxTranscript)
  deriving DecidableEq

/-- The version a host advertises: a WebRTC stream takes no stream key of its own. -/
def advertised (transport : Transport) : UInt32 :=
  if transport = .webrtc then 0 else kxVersionLatest

/-- `decode_id_pk_dtls`. -/
def decodeIdPkDtls : SignedBlob → Except String (String × PubKey × String × UInt32)
  | .invalid => .error "Signature mismatch"
  | .signed idPk =>
    match idPk.pk with
    | .key pk => .ok (idPk.id, pk, idPk.dtlsFingerprint, idPk.kxVersion)
    | .other _ _ => .error "Wrong their public length"

def dtlsFingerprintBound (signedFp actualFp : String) : Bool :=
  !signedFp.isEmpty && signedFp = actualFp

/-- `Encrypt::decode`: the key in a box sealed between their key and ours. -/
def decodeKey (symmetricData : KeyBox) (theirPk ourPk : PubKey) : Except String Key :=
  match symmetricData with
  | .sealed a b content =>
    if a = theirPk ∧ b = ourPk ∨ a = ourPk ∧ b = theirPk then
      match content with
      | some key => .ok key
      | none => .error "Handshake failed: invalid secret key length from peer"
    else
      .error "Handshake failed: box decryption failure"
  | .invalid => .error "Handshake failed: box decryption failure"

/-- The stream key for the version in `t.picked`; a WebRTC stream only notes that it is secured. -/
def setNegotiatedKey (transport : Transport) (key : Key) (isInitiator : Bool) (t : KxTranscript) :
    Except String (Option Encrypt) :=
  if t.picked = 0 then
    .ok (if transport = .webrtc then none else some (Encrypt.new key))
  else if t.picked = 1 then
    if transport = .webrtc then
      .error "key exchange version 1 does not apply to WebRTC"
    else
      some <$> Encrypt.newSplit key isInitiator t
  else
    .error ("unsupported key exchange version " ++ toString t.picked)

/-- The controllers and the host's sessions. -/
inductive Party where
  | controller (i : ℕ)
  | host (j : ℕ)
  deriving DecidableEq

/-- One end of a session. `name` is the peer id a controller asked for, the own id of a host;
`fingerprint` is the one of the DTLS channel, empty when there is none. `frames` are the boxes this
end has sealed, `accepted` the frames of more than one byte its `dec` has accepted. -/
structure Endpoint where
  transport : Transport
  name : String
  fingerprint : String
  phase : Phase
  encrypt : Option Encrypt
  frames : List Frame
  accepted : List Frame

def Endpoint.idle : Endpoint where
  transport := .tcp
  name := ""
  fingerprint := ""
  phase := .idle
  encrypt := none
  frames := []
  accepted := []

/-- `bail!`. -/
def Endpoint.bail (e : Endpoint) (message : String) : Endpoint :=
  { e with phase := .failed message }

/-- `set_negotiated_key` at the end of a handshake. -/
def Endpoint.keyed (e : Endpoint) (key : Key) (isInitiator : Bool) (t : KxTranscript) : Endpoint :=
  match setNegotiatedKey e.transport key isInitiator t with
  | .ok encrypt => { e with phase := .secured key isInitiator t, encrypt := encrypt }
  | .error message => e.bail message

/-- The controller's side, from the peer's first message on: what becomes of the session, and the
box it sealed. What it sends besides the box is the attacker's to make up anyway. -/
def secureConnection (i : ℕ) (e : Endpoint) : Option Msg → Endpoint × Option KeyBox
  | some (.signedId si) =>
    match decodeIdPkDtls si with
    | .ok (id, theirPk, signedFp, kxVersion) =>
      if id = e.name then
        if e.transport = .webrtc ∧ e.fingerprint.isEmpty then
          (e.bail "WebRTC DTLS fingerprint unavailable", none)
        else if e.transport = .webrtc ∧ !dtlsFingerprintBound signedFp e.fingerprint then
          (e.bail "WebRTC DTLS fingerprint not bound to peer identity (possible MITM)", none)
        else
          let picked := if e.transport = .webrtc then 0 else kxVersionFor kxVersion
          (e.keyed (.generated i) true ⟨.key (.controller i), .key theirPk, kxVersion, picked⟩,
            some (.sealed (.controller i) theirPk (some (.generated i))))
      else if e.transport = .webrtc then
        (e.bail "WebRTC handshake id mismatch (possible MITM)", none)
      else
        ({ e with phase := .plain }, none)
    | .error _ =>
      if e.transport = .webrtc then
        (e.bail "WebRTC peer identity could not be verified (refusing unbound channel)", none)
      else
        ({ e with phase := .plain }, none)
  | some .malformed =>
    if e.transport = .webrtc then
      (e.bail "WebRTC handshake received a malformed message", none)
    else
      ({ e with phase := .plain }, none)
  | some _ =>
    if e.transport = .webrtc then
      (e.bail "WebRTC handshake received an unexpected message type", none)
    else
      ({ e with phase := .plain }, none)
  | none => (e.bail "Reset by the peer", none)

/-- The first half of `identity_handshake`: the signed id goes out. -/
def signIdentity (j : ℕ) (e : Endpoint) : Endpoint × Option IdPk :=
  if e.transport = .webrtc ∧ e.fingerprint.isEmpty then
    (e.bail "WebRTC local DTLS fingerprint unavailable", none)
  else
    ({ e with phase := .waiting },
      some ⟨e.name, .key (.host j), if e.transport = .webrtc then e.fingerprint else "",
        advertised e.transport⟩)

/-- The second half: the controller's reply keys the stream. -/
def identityReply (j : ℕ) (e : Endpoint) : Option Msg → Endpoint
  | some (.publicKey (.key pk) symmetricValue kxVersion) =>
    match decodeKey symmetricValue pk (.host j) with
    | .ok key =>
      if kxVersion > advertised e.transport then
        e.bail ("Handshake failed: key exchange version " ++ toString kxVersion ++
          " not offered, " ++ toString (advertised e.transport) ++ " was")
      else
        e.keyed key false ⟨.key pk, .key (.host j), advertised e.transport, kxVersion⟩
    | .error message => e.bail message
  | some (.publicKey (.other len _) _ _) =>
    if len = 0 then { e with phase := .plain }
    else e.bail "Handshake failed: invalid public sign key length from peer"
  | some .malformed => e.bail "Handshake failed: invalid message format"
  | some _ => { e with phase := .plain }
  | none => e.bail "Failed to receive public key"

/-! ### The network -/

/-- The keys the attacker knows: it chose them, or hashed them from such. -/
def Key.known : Key → Bool
  | .generated _ => false
  | .chosen _ => true
  | .hashed key _ => key.known

def PubKey.isAttacker : PubKey → Bool
  | .attacker _ => true
  | _ => false

/-- Every session there is, and what their ends have signed and sealed so far. -/
structure World where
  ends : Party → Endpoint
  signed : List IdPk
  keyBoxes : List KeyBox
  frames : List Frame

inductive Act where
  | start (p : Party) (transport : Transport) (name fingerprint : String)
  | handshake (p : Party) (msg : Option Msg)
  | sealFrame (p : Party) (data : Bytes)
  | deliver (p : Party) (f : Frame)

namespace World

def new : World where
  ends := fun _ => .idle
  signed := []
  keyBoxes := []
  frames := []

def setEnd (w : World) (p : Party) (e : Endpoint) : World :=
  { w with ends := Function.update w.ends p e }

/-- The box was sealed by a controller, or the attacker has one of the two secret keys and knows
what it put in. -/
def canBox (w : World) : KeyBox → Bool
  | .invalid => true
  | .sealed a b content =>
    .sealed a b content ∈ w.keyBoxes ∨ (a.isAttacker || b.isAttacker) ∧ content.all Key.known

def canSend (w : World) : Option Msg → Bool
  | some (.signedId (.signed idPk)) => idPk ∈ w.signed
  | some (.publicKey _ symmetricValue _) => w.canBox symmetricValue
  | _ => true

def canDeliver (w : World) : Frame → Bool
  | .raw _ => true
  | .sealed k n msg => .sealed k n msg ∈ w.frames ∨ k.known

/-- A session begins; a host sends its signed id at once. -/
def start (w : World) (p : Party) (e : Endpoint) : World :=
  match p with
  | .controller _ => w.setEnd p { e with phase := .waiting }
  | .host j =>
    let (e, idPk) := signIdentity j e
    { w.setEnd p e with signed := w.signed ++ idPk.toList }

/-- The message an end waits for. -/
def reply (w : World) (p : Party) (msg : Option Msg) : World :=
  match p with
  | .controller i =>
    let (e, box) := secureConnection i (w.ends p) msg
    { w.setEnd p e with keyBoxes := w.keyBoxes ++ box.toList }
  | .host j => w.setEnd p (identityReply j (w.ends p) msg)

def step (w : World) : Act → Option World
  | .start p transport name fingerprint =>
    if (w.ends p).phase = .idle then
      some (w.start p { Endpoint.idle with
        transport := transport, name := name, fingerprint := fingerprint })
    else
      none
  | .handshake p msg =>
    if (w.ends p).phase = .waiting ∧ w.canSend msg then some (w.reply p msg) else none
  | .sealFrame p data =>
    match (w.ends p).encrypt with
    | none => none
    | some e =>
      let (f, e) := e.enc data
      some { w.setEnd p { w.ends p with encrypt := some e, frames := (w.ends p).frames ++ [f] } with
        frames := w.frames ++ [f] }
  | .deliver p f =>
    match (w.ends p).encrypt with
    | none => none
    | some e =>
      if w.canDeliver f then
        let (result, e) := e.dec f
        let accepted := if f.length > 1 ∧ result.isOk then [f] else []
        some (w.setEnd p { w.ends p with
          encrypt := some e, accepted := (w.ends p).accepted ++ accepted })
      else
        none

def lts : LTS World Act where
  init := (· = new)
  step := step

end World

/-! ### What a keyed end runs -/

/-- The direction an end sends in. -/
def direction (isInitiator : Bool) : UInt8 :=
  if isInitiator then kxSplitInitiator else kxSplitResponder

/-- The encryption that goes with a negotiated key: the one key for both directions, or the split
scheme. -/
inductive Runs (key : Key) (isInitiator : Bool) (t : KxTranscript) (e : Encrypt) : Prop where
  | shared (hpicked : t.picked = 0) (hkey : e.key = key) (hrecv : e.recvKey = none)
  | split {i r : PubKey} (hpicked : t.picked = 1) (hi : t.initiatorPk = .key i)
      (hr : t.responderPk = .key r)
      (hkey : e.key = Encrypt.subkey key (direction isInitiator) i r t)
      (hrecv : e.recvKey = some (Encrypt.subkey key (direction (!isInitiator)) i r t))

lemma Runs.congr {e' : Encrypt} (h : Runs key isInitiator t e) (hkey : e'.key = e.key)
    (hrecv : e'.recvKey = e.recvKey) : Runs key isInitiator t e' := by
  cases h with
  | shared hpicked hk hr => exact .shared hpicked (hkey.trans hk) (hrecv.trans hr)
  | split hpicked hi hr hk hrk => exact .split hpicked hi hr (hkey.trans hk) (hrecv.trans hrk)

lemma runs_of_setNegotiatedKey {transport : Transport}
    (h : setNegotiatedKey transport key isInitiator t = .ok (some e)) :
    transport ≠ .webrtc ∧ Runs key isInitiator t e ∧ e.sent = 0 := by
  simp only [setNegotiatedKey] at h
  split_ifs at h with h0 hrtc h1 hrtc
  · cases h
  · cases h
    exact ⟨hrtc, .shared h0 rfl rfl, rfl⟩
  · refine ⟨hrtc, ?_⟩
    cases hsplit : Encrypt.newSplit key isInitiator t with
    | error message =>
      rw [hsplit] at h
      cases h
    | ok e' =>
      rw [hsplit] at h
      cases h
      obtain ⟨i, r, hi, hr, rfl⟩ := Encrypt.newSplit_eq_ok hsplit
      cases isInitiator with
      | true | false => exact ⟨.split h1 hi hr rfl rfl, rfl⟩

/-- What an end has sealed and accepted goes with the key it runs. -/
structure Endpoint.Consistent (p : Endpoint) : Prop where
  unkeyed : p.encrypt = none → p.frames = [] ∧ p.accepted = []
  runs : ∀ e, p.encrypt = some e → ∃ key isInitiator t,
    p.phase = .secured key isInitiator t ∧ p.transport ≠ .webrtc ∧ Runs key isInitiator t e
  counted : ∀ e, p.encrypt = some e → e.sent = UInt64.ofNat p.frames.length
  frames : ∀ e, p.encrypt = some e → ∀ k f, p.frames[k]? = some f →
    ∃ msg, f = Frame.sealed e.key (getNonce (UInt64.ofNat (k + 1))) msg
  accepted : ∀ e, p.encrypt = some e →
    ∀ f ∈ p.accepted, ∃ n msg, f = Frame.sealed e.openingKey n msg

lemma Endpoint.consistent_of_unkeyed
    (h : p.encrypt = none ∧ p.frames = [] ∧ p.accepted = []) : p.Consistent where
  unkeyed _ := h.2
  runs e he := by rw [h.1] at he; cases he
  counted e he := by rw [h.1] at he; cases he
  frames e he := by rw [h.1] at he; cases he
  accepted e he := by rw [h.1] at he; cases he

/-- An end that still waits has no key. -/
lemma Endpoint.Consistent.unkeyed_of_waiting (h : p.Consistent) (hphase : p.phase = .waiting) :
    p.encrypt = none ∧ p.frames = [] ∧ p.accepted = [] := by
  cases he : p.encrypt with
  | none => exact ⟨rfl, h.unkeyed he⟩
  | some e =>
    obtain ⟨key, isInitiator, t, hsecured, -⟩ := h.runs e he
    rw [hphase] at hsecured
    cases hsecured

/-- The phases a handshake ends in without a key. -/
def Phase.Ended : Phase → Prop
  | .failed _ => True
  | .plain => True
  | _ => False

section

variable (p key isInitiator t)

lemma Endpoint.keyed_cases :
    (∃ encrypt, setNegotiatedKey p.transport key isInitiator t = .ok encrypt ∧
      p.keyed key isInitiator t =
        { p with phase := .secured key isInitiator t, encrypt := encrypt }) ∨
    ∃ message, p.keyed key isInitiator t = p.bail message := by
  rw [Endpoint.keyed]
  cases h : setNegotiatedKey p.transport key isInitiator t with
  | ok encrypt => exact .inl ⟨encrypt, rfl, rfl⟩
  | error message => exact .inr ⟨message, rfl⟩

lemma Endpoint.transport_keyed : (p.keyed key isInitiator t).transport = p.transport := by
  rcases p.keyed_cases key isInitiator t with ⟨encrypt, -, heq⟩ | ⟨message, heq⟩
  · rw [heq]
  · rw [heq, Endpoint.bail]

lemma Endpoint.phase_keyed :
    (p.keyed key isInitiator t).phase = .secured key isInitiator t ∨
      ∃ message, (p.keyed key isInitiator t).phase = .failed message := by
  rcases p.keyed_cases key isInitiator t with ⟨encrypt, -, heq⟩ | ⟨message, heq⟩ <;> rw [heq]
  · exact .inl rfl
  · exact .inr ⟨message, rfl⟩

lemma Endpoint.phase_keyed_ne :
    (p.keyed key isInitiator t).phase ≠ .idle ∧ (p.keyed key isInitiator t).phase ≠ .waiting := by
  rcases p.phase_keyed key isInitiator t with h | ⟨message, h⟩ <;> rw [h] <;> exact ⟨nofun, nofun⟩

end

lemma Endpoint.eq_of_phase_keyed {key' : Key} {isInitiator' : Bool} {t' : KxTranscript}
    (h : (p.keyed key isInitiator t).phase = .secured key' isInitiator' t') :
    key' = key ∧ isInitiator' = isInitiator ∧ t' = t := by
  rcases p.phase_keyed key isInitiator t with heq | ⟨message, heq⟩ <;> rw [heq] at h <;> cases h
  exact ⟨rfl, rfl, rfl⟩

lemma Endpoint.Consistent.keyed (h : p.Consistent) (hphase : p.phase = .waiting) :
    (p.keyed key isInitiator t).Consistent := by
  obtain ⟨hnone, hframes, haccepted⟩ := h.unkeyed_of_waiting hphase
  rcases p.keyed_cases key isInitiator t with ⟨encrypt, hset, heq⟩ | ⟨message, heq⟩ <;> rw [heq]
  · cases encrypt with
    | none => exact consistent_of_unkeyed ⟨rfl, hframes, haccepted⟩
    | some e =>
      obtain ⟨hrtc, hruns, hsent⟩ := runs_of_setNegotiatedKey hset
      refine ⟨nofun, ?_, ?_, ?_, ?_⟩ <;> rintro e' ⟨⟩
      · exact ⟨key, isInitiator, t, rfl, hrtc, hruns⟩
      · simp only [hsent, hframes]
        rfl
      · simp [hframes]
      · simp [haccepted]
  · exact consistent_of_unkeyed ⟨hnone, hframes, haccepted⟩

lemma Endpoint.Consistent.ended (h : p.Consistent) (hphase : p.phase = .waiting) (phase : Phase) :
    Endpoint.Consistent { p with phase := phase } :=
  consistent_of_unkeyed (h.unkeyed_of_waiting hphase)

/-- What the controller's side of the handshake can do. -/
inductive Connects (i : ℕ) (p : Endpoint) (msg : Option Msg) : Endpoint × Option KeyBox → Prop where
  | ended {phase : Phase} (h : phase.Ended) : Connects i p msg ({ p with phase := phase }, none)
  | keyed {idPk : IdPk} {theirPk : PubKey} (hmsg : msg = some (.signedId (.signed idPk)))
      (hpk : idPk.pk = .key theirPk) :
      Connects i p msg
        (p.keyed (.generated i) true ⟨.key (.controller i), .key theirPk, idPk.kxVersion,
          if p.transport = .webrtc then 0 else kxVersionFor idPk.kxVersion⟩,
        some (.sealed (.controller i) theirPk (some (.generated i))))

lemma connects_secureConnection (i : ℕ) (p : Endpoint) (msg : Option Msg) :
    Connects i p msg (secureConnection i p msg) := by
  match msg with
  | none => exact .ended trivial
  | some .malformed | some .other | some (.publicKey _ _ _) =>
    simp only [secureConnection]
    split_ifs <;> exact .ended trivial
  | some (.signedId .invalid) | some (.signedId (.signed ⟨id, .other len hlen, fp, v⟩)) =>
    simp only [secureConnection, decodeIdPkDtls]
    split_ifs <;> exact .ended trivial
  | some (.signedId (.signed ⟨id, .key pk, fp, v⟩)) =>
    simp only [secureConnection, decodeIdPkDtls]
    by_cases hid : id = p.name
    · rw [if_pos hid]
      split
      · exact .ended trivial
      · split
        · exact .ended trivial
        · exact Connects.keyed rfl rfl
    · rw [if_neg hid]
      split_ifs <;> exact .ended trivial

/-- What the host's side can do with the reply. -/
inductive Replies (j : ℕ) (p : Endpoint) (msg : Option Msg) : Endpoint → Prop where
  | ended {phase : Phase} (h : phase.Ended) : Replies j p msg { p with phase := phase }
  | keyed {pk : PubKey} {box : KeyBox} {v : UInt32} {key : Key}
      (hmsg : msg = some (.publicKey (.key pk) box v))
      (hkey : decodeKey box pk (.host j) = .ok key) :
      Replies j p msg (p.keyed key false ⟨.key pk, .key (.host j), advertised p.transport, v⟩)

lemma replies_identityReply (j : ℕ) (p : Endpoint) (msg : Option Msg) :
    Replies j p msg (identityReply j p msg) := by
  match msg with
  | none => exact .ended trivial
  | some .malformed => exact .ended trivial
  | some .other => exact .ended trivial
  | some (.signedId _) => exact .ended trivial
  | some (.publicKey (.other len hlen) box v) =>
    simp only [identityReply]
    split_ifs <;> exact .ended trivial
  | some (.publicKey (.key pk) box v) =>
    simp only [identityReply]
    cases hkey : decodeKey box pk (.host j) with
    | error message => exact .ended trivial
    | ok key =>
      simp only
      split_ifs
      · exact .ended trivial
      · exact .keyed rfl hkey

lemma Endpoint.Consistent.sealFrame (h : p.Consistent) (he : p.encrypt = some e) (data : Bytes) :
    Endpoint.Consistent { p with
      encrypt := some (e.enc data).2, frames := p.frames ++ [(e.enc data).1] } := by
  have hsent : e.sent + 1 = UInt64.ofNat (p.frames.length + 1) := by
    rw [h.counted e he, Session.ofNat_succ]
  refine ⟨nofun, ?_, ?_, ?_, ?_⟩ <;> rintro e' ⟨⟩
  · obtain ⟨key, isInitiator, t, hphase, hrtc, hruns⟩ := h.runs e he
    exact ⟨key, isInitiator, t, hphase, hrtc, hruns.congr rfl rfl⟩
  · rw [List.length_append, List.length_singleton, ← hsent]
    rfl
  · intro k f hf
    rcases lt_or_ge k p.frames.length with hk | hk
    · rw [List.getElem?_append_left hk] at hf
      exact h.frames e he k f hf
    · rw [List.getElem?_append_right hk, List.getElem?_singleton] at hf
      split_ifs at hf with hzero
      cases hf
      obtain rfl : k = p.frames.length := by omega
      exact ⟨data, by rw [← hsent]; rfl⟩
  · exact h.accepted e he

/-- A frame of more than one byte is accepted only as a box under the opening key. -/
lemma Encrypt.eq_sealed_of_isOk {f : Frame} (hlong : f.length > 1) (hok : (e.dec f).1.isOk) :
    ∃ n msg, f = .sealed e.openingKey n msg := by
  rw [Encrypt.dec, if_neg (by omega)] at hok
  simp only at hok
  split at hok
  · next msg hopen => exact ⟨_, msg, openBox_eq_some.mp hopen⟩
  · cases hok

lemma Encrypt.dec_keys (e : Encrypt) (f : Frame) :
    (e.dec f).2.key = e.key ∧ (e.dec f).2.recvKey = e.recvKey ∧ (e.dec f).2.sent = e.sent := by
  by_cases hshort : f.length ≤ 1
  · rw [e.dec_of_short hshort]
    exact ⟨rfl, rfl, rfl⟩
  · rw [(e.dec_of_long hshort).1]
    exact ⟨rfl, rfl, rfl⟩

lemma Endpoint.Consistent.deliver (h : p.Consistent) (he : p.encrypt = some e) (f : Frame) :
    Endpoint.Consistent { p with
      encrypt := some (e.dec f).2,
      accepted := p.accepted ++ if f.length > 1 ∧ (e.dec f).1.isOk then [f] else [] } := by
  obtain ⟨hkey, hrecv, hsent⟩ := e.dec_keys f
  have hopening : (e.dec f).2.openingKey = e.openingKey := by
    rw [Encrypt.openingKey, hkey, hrecv, Encrypt.openingKey]
  refine ⟨nofun, ?_, ?_, ?_, ?_⟩ <;> rintro e' ⟨⟩
  · obtain ⟨key, isInitiator, t, hphase, hrtc, hruns⟩ := h.runs e he
    exact ⟨key, isInitiator, t, hphase, hrtc, hruns.congr hkey hrecv⟩
  · rw [hsent, h.counted e he]
  · rw [hkey]
    exact h.frames e he
  · intro g hg
    rw [hopening]
    rcases List.mem_append.mp hg with hg | hg
    · exact h.accepted e he g hg
    · split_ifs at hg with hok
      · rw [List.mem_singleton.mp hg]
        exact Encrypt.eq_sealed_of_isOk hok.1 hok.2
      · cases hg

/-! ### What holds in every state of the network -/

/-- A host that has begun put into its identity what it advertises, and the key of its session. -/
def World.Signed (w : World) (x : IdPk) : Prop :=
  ∃ j, x.pk = .key (.host j) ∧ (w.ends (.host j)).phase ≠ .idle ∧
    x.kxVersion = advertised (w.ends (.host j)).transport

/-- A session key leaves its controller in one box, for the key in its transcript. -/
def World.Boxed (w : World) (box : KeyBox) : Prop :=
  ∃ i theirPk, box = .sealed (.controller i) theirPk (some (.generated i)) ∧
    (w.ends (.controller i)).phase ≠ .idle ∧ (w.ends (.controller i)).phase ≠ .waiting ∧
    ∀ key isInitiator t, (w.ends (.controller i)).phase = .secured key isInitiator t →
      t.responderPk = .key theirPk

/-- A keyed controller: a fresh key, and the identity of a host in the transcript. -/
structure World.Connected (w : World) (i : ℕ) (key : Key) (isInitiator : Bool)
    (t : KxTranscript) : Prop where
  initiator : isInitiator = true
  key : key = .generated i
  initiatorPk : t.initiatorPk = .key (.controller i)
  host : ∃ x ∈ w.signed, t.responderPk = x.pk ∧ t.advertised = x.kxVersion
  picked : t.picked = if (w.ends (.controller i)).transport = .webrtc then 0
    else kxVersionFor t.advertised

/-- A keyed host: a key the attacker knows, or one that came in its controller's box. -/
structure World.Answered (w : World) (j : ℕ) (key : Key) (isInitiator : Bool)
    (t : KxTranscript) : Prop where
  initiator : isInitiator = false
  responderPk : t.responderPk = .key (.host j)
  advertised : t.advertised = advertised (w.ends (.host j)).transport
  key : key.known ∨ ∃ i, key = .generated i ∧ t.initiatorPk = .key (.controller i) ∧
    .sealed (.controller i) (.host j) (some (.generated i)) ∈ w.keyBoxes

structure World.Inv (w : World) : Prop where
  signed : ∀ x ∈ w.signed, w.Signed x
  boxed : ∀ box ∈ w.keyBoxes, w.Boxed box
  connected : ∀ i key isInitiator t, (w.ends (.controller i)).phase = .secured key isInitiator t →
    w.Connected i key isInitiator t
  answered : ∀ j key isInitiator t, (w.ends (.host j)).phase = .secured key isInitiator t →
    w.Answered j key isInitiator t
  consistent : ∀ p, (w.ends p).Consistent

namespace World

/-- Nothing is taken back: what was signed and boxed stays, and an end that has begun keeps its
transport, and its phase as soon as it no longer waits. -/
structure Grows (w w' : World) : Prop where
  signed : ∀ x ∈ w.signed, x ∈ w'.signed
  boxes : ∀ box ∈ w.keyBoxes, box ∈ w'.keyBoxes
  transport : ∀ p, (w.ends p).phase ≠ .idle → (w'.ends p).transport = (w.ends p).transport
  begun : ∀ p, (w.ends p).phase ≠ .idle → (w'.ends p).phase ≠ .idle
  phase : ∀ p, (w.ends p).phase ≠ .idle → (w.ends p).phase ≠ .waiting →
    (w'.ends p).phase = (w.ends p).phase

variable {w w' : World} {box : KeyBox} {i j : ℕ} {q : Party} {msg : Option Msg} {e' : Encrypt}
  {f : Frame}

section

variable (h : w.Grows w')

include h

lemma Grows.secured {p : Party} (hp : (w.ends p).phase = .secured key isInitiator t) :
    (w'.ends p).phase = .secured key isInitiator t ∧
      (w'.ends p).transport = (w.ends p).transport := by
  have hidle : (w.ends p).phase ≠ .idle := by rw [hp]; nofun
  have hwaiting : (w.ends p).phase ≠ .waiting := by rw [hp]; nofun
  exact ⟨(h.phase p hidle hwaiting).trans hp, h.transport p hidle⟩

lemma Signed.grows {x : IdPk} (hx : w.Signed x) : w'.Signed x := by
  obtain ⟨j, hpk, hbegun, hversion⟩ := hx
  refine ⟨j, hpk, h.begun _ hbegun, ?_⟩
  rw [hversion, h.transport _ hbegun]

lemma Boxed.grows (hbox : w.Boxed box) : w'.Boxed box := by
  obtain ⟨i, theirPk, rfl, hidle, hwaiting, hpk⟩ := hbox
  have hphase := h.phase _ hidle hwaiting
  refine ⟨i, theirPk, rfl, ?_, ?_, ?_⟩ <;> rw [hphase]
  · exact hidle
  · exact hwaiting
  · exact hpk

lemma Connected.grows (hc : w.Connected i key isInitiator t)
    (hphase : (w.ends (.controller i)).phase = .secured key isInitiator t) :
    w'.Connected i key isInitiator t := by
  obtain ⟨x, hx, hpk, hversion⟩ := hc.host
  refine ⟨hc.initiator, hc.key, hc.initiatorPk, ⟨x, h.signed x hx, hpk, hversion⟩, ?_⟩
  rw [(h.secured hphase).2, hc.picked]

lemma Answered.grows (ha : w.Answered j key isInitiator t)
    (hphase : (w.ends (.host j)).phase = .secured key isInitiator t) :
    w'.Answered j key isInitiator t := by
  refine ⟨ha.initiator, ha.responderPk, ?_, ?_⟩
  · rw [(h.secured hphase).2, ha.advertised]
  · rcases ha.key with hknown | ⟨i, hkey, hpk, hbox⟩
    · exact .inl hknown
    · exact .inr ⟨i, hkey, hpk, h.boxes _ hbox⟩

end

/-- What a keyed end knows of the exchange. -/
def Keyed (w : World) : Party → Key → Bool → KxTranscript → Prop
  | .controller i => w.Connected i
  | .host j => w.Answered j

lemma Inv.keyed (hinv : w.Inv) {p : Party} (hp : (w.ends p).phase = .secured key isInitiator t)
    (h : w.Grows w') : w'.Keyed p key isInitiator t := by
  cases p with
  | controller i => exact (hinv.connected i _ _ _ hp).grows h hp
  | host j => exact (hinv.answered j _ _ _ hp).grows h hp

section

variable {p : Party} {e : Endpoint} (hends : w'.ends = Function.update w.ends p e)

include hends

lemma forall_ends {P : Party → Endpoint → Prop} (he : P p e) (h : ∀ q, P q (w.ends q)) (q : Party) :
    P q (w'.ends q) := by
  rw [hends]
  exact (Function.forall_update_iff _ P).mpr ⟨he, fun q _ => h q⟩ q

variable (hp : (w.ends p).phase = .idle ∨ e.transport = (w.ends p).transport ∧
  ((w.ends p).phase = .waiting ∧ e.phase ≠ .idle ∨ e.phase = (w.ends p).phase))

include hp

/-- An end that goes on as an end may: it begins, or what it waited for arrives, or it keeps its
phase. -/
lemma grows_of_update (hsigned : ∀ x ∈ w.signed, x ∈ w'.signed)
    (hboxes : ∀ box ∈ w.keyBoxes, box ∈ w'.keyBoxes) : w.Grows w' where
  signed := hsigned
  boxes := hboxes
  transport := forall_ends hends
    (P := fun q e => (w.ends q).phase ≠ .idle → e.transport = (w.ends q).transport)
    (fun hq => (hp.resolve_left hq).1) fun _ _ => rfl
  begun := by
    refine forall_ends hends (P := fun q e => (w.ends q).phase ≠ .idle → e.phase ≠ .idle)
      (fun hq => ?_) fun _ => id
    rcases (hp.resolve_left hq).2 with ⟨-, he⟩ | he
    · exact he
    · rwa [he]
  phase := forall_ends hends
    (P := fun q e => (w.ends q).phase ≠ .idle → (w.ends q).phase ≠ .waiting →
      e.phase = (w.ends q).phase)
    (fun hq hwaiting => (hp.resolve_left hq).2.resolve_left fun h => hwaiting h.1) fun _ _ _ => rfl

/-- The invariant rule for a step of one end: only what is new is left to show. -/
lemma Inv.set (hinv : w.Inv) (he : e.Consistent)
    (hsigned : ∃ new, w'.signed = w.signed ++ new ∧ ∀ x ∈ new, w'.Signed x)
    (hboxed : ∃ new, w'.keyBoxes = w.keyBoxes ++ new ∧ ∀ box ∈ new, w'.Boxed box)
    (hkeyed : ∀ key isInitiator t, e.phase = .secured key isInitiator t →
      e.phase = (w.ends p).phase ∨ w'.Keyed p key isInitiator t) : w'.Inv := by
  obtain ⟨ids, hsigned, hids⟩ := hsigned
  obtain ⟨boxes, hboxes, hnew⟩ := hboxed
  have hgrows := grows_of_update hends hp (hsigned ▸ fun _ => List.mem_append_left _)
    (hboxes ▸ fun _ => List.mem_append_left _)
  have hsecured := forall_ends hends
    (P := fun q e => ∀ key isInitiator t, e.phase = .secured key isInitiator t →
      w'.Keyed q key isInitiator t)
    (fun _ _ _ ht => (hkeyed _ _ _ ht).elim (fun hold => hinv.keyed (hold ▸ ht) hgrows) id)
    fun q _ _ _ ht => hinv.keyed ht hgrows
  refine ⟨?_, ?_, fun i => hsecured (.controller i), fun j => hsecured (.host j),
    forall_ends hends he hinv.consistent⟩
  · rw [hsigned]
    exact List.forall_mem_append.mpr ⟨fun x hx => (hinv.signed x hx).grows hgrows, hids⟩
  · rw [hboxes]
    exact List.forall_mem_append.mpr ⟨fun box hbox => (hinv.boxed box hbox).grows hgrows, hnew⟩

end

lemma nothing_new {α : Type} {P : α → Prop} {l l' : List α} (h : l' = l) :
    ∃ new, l' = l ++ new ∧ ∀ x ∈ new, P x :=
  ⟨[], by rw [h, List.append_nil], nofun⟩

lemma Inv.update {p : Party} {e : Endpoint} (hinv : w.Inv)
    (hends : w'.ends = Function.update w.ends p e) (hsigned : w'.signed = w.signed)
    (hboxes : w'.keyBoxes = w.keyBoxes) (htransport : e.transport = (w.ends p).transport)
    (hphase : e.phase = (w.ends p).phase) (he : e.Consistent) : w'.Inv :=
  hinv.set hends (.inr ⟨htransport, .inr hphase⟩) he (nothing_new hsigned) (nothing_new hboxes)
    fun _ _ _ _ => .inl hphase

lemma inv_new : new.Inv where
  signed := nofun
  boxed := nofun
  connected := nofun
  answered := nofun
  consistent _ := Endpoint.consistent_of_unkeyed ⟨rfl, rfl, rfl⟩

lemma Inv.start_controller (hinv : w.Inv) (hidle : (w.ends (.controller i)).phase = .idle)
    {e : Endpoint} (he : e.encrypt = none ∧ e.frames = [] ∧ e.accepted = []) :
    (w.start (.controller i) e).Inv :=
  hinv.set rfl (.inl hidle) (Endpoint.consistent_of_unkeyed he) (nothing_new rfl)
    (nothing_new rfl) nofun

lemma signIdentity_cases (j : ℕ) (e : Endpoint) :
    (∃ message, signIdentity j e = (e.bail message, none)) ∨
    ∃ x, signIdentity j e = ({ e with phase := .waiting }, some x) ∧ x.pk = .key (.host j) ∧
      x.kxVersion = Secure.advertised e.transport := by
  rw [signIdentity]
  split
  · exact .inl ⟨_, rfl⟩
  · exact .inr ⟨_, rfl, rfl, rfl⟩

section

variable (hinv : w.Inv)

include hinv

/-- A new host has signed its own key and version. -/
lemma Inv.start_host (hidle : (w.ends (.host j)).phase = .idle) {e : Endpoint}
    (he : e.encrypt = none ∧ e.frames = [] ∧ e.accepted = []) : (w.start (.host j) e).Inv := by
  rw [World.start]
  rcases signIdentity_cases j e with ⟨message, heq⟩ | ⟨x, heq, hpk, hversion⟩ <;> rw [heq]
  · exact hinv.set rfl (.inl hidle) (Endpoint.consistent_of_unkeyed he) ⟨_, rfl, nofun⟩
      (nothing_new rfl) nofun
  · refine hinv.set rfl (.inl hidle) (Endpoint.consistent_of_unkeyed he) ⟨_, rfl, ?_⟩
      (nothing_new rfl) nofun
    refine List.forall_mem_singleton.mpr ⟨j, hpk, ?_, ?_⟩ <;>
      simp only [setEnd, Function.update_self]
    · nofun
    · exact hversion

lemma Inv.ended {phase : Phase} (hphase : phase.Ended)
    (hwaiting : (w.ends q).phase = .waiting) (hsigned : w'.signed = w.signed)
    (hends : w'.ends = Function.update w.ends q { w.ends q with phase := phase })
    (hboxes : w'.keyBoxes = w.keyBoxes) : w'.Inv := by
  refine hinv.set hends (.inr ⟨rfl, .inl ⟨hwaiting, ?_⟩⟩) ((hinv.consistent q).ended hwaiting _)
    (nothing_new hsigned) (nothing_new hboxes) ?_
  · rintro rfl
    exact hphase
  · rintro key isInitiator t rfl
    exact hphase.elim

lemma Inv.secured (hwaiting : (w.ends q).phase = .waiting)
    (hends : w'.ends = Function.update w.ends q ((w.ends q).keyed key isInitiator t))
    (hsigned : w'.signed = w.signed)
    (hboxed : ∃ new, w'.keyBoxes = w.keyBoxes ++ new ∧ ∀ box ∈ new, w'.Boxed box)
    (hkeyed : w'.Keyed q key isInitiator t) : w'.Inv := by
  refine hinv.set hends
    (.inr ⟨Endpoint.transport_keyed _ _ _ _, .inl ⟨hwaiting, (Endpoint.phase_keyed_ne _ _ _ _).1⟩⟩)
    ((hinv.consistent q).keyed hwaiting) (nothing_new hsigned) hboxed fun _ _ _ ht => ?_
  obtain ⟨rfl, rfl, rfl⟩ := Endpoint.eq_of_phase_keyed ht
  exact .inr hkeyed

/-- The controller's reply: its transcript names a host that signed, and its key goes into one
box for that host. -/
lemma Inv.reply_controller (hwaiting : (w.ends (.controller i)).phase = .waiting)
    (hcan : w.canSend msg) : (w.reply (.controller i) msg).Inv := by
  have hconnects := connects_secureConnection i (w.ends (.controller i)) msg
  rw [World.reply]
  generalize secureConnection i (w.ends (.controller i)) msg = out at *
  cases hconnects with
  | ended hphase => exact hinv.ended hphase hwaiting rfl rfl (List.append_nil _)
  | @keyed idPk theirPk hmsg hpk =>
    subst hmsg
    have hmem : idPk ∈ w.signed := by simpa [canSend] using hcan
    refine hinv.secured hwaiting rfl rfl ⟨_, rfl, ?_⟩
      ⟨rfl, rfl, rfl, ⟨idPk, hmem, hpk.symm, rfl⟩, ?_⟩
    · refine List.forall_mem_singleton.mpr ⟨i, theirPk, rfl, ?_⟩
      simp only [setEnd, Function.update_self, ← and_assoc]
      refine ⟨Endpoint.phase_keyed_ne _ _ _ _, fun key isInitiator t ht => ?_⟩
      rw [(Endpoint.eq_of_phase_keyed ht).2.2]
    · simp only [setEnd, Function.update_self, Endpoint.transport_keyed]

/-- What `decode` takes out of a box the network can carry: a key the attacker knows, or the key
of the controller whose ephemeral key came with it. -/
lemma Inv.decodeKey_cases {pk : PubKey} (hcan : w.canBox box)
    (h : decodeKey box pk (.host j) = .ok key) :
    key.known ∨ ∃ i, key = .generated i ∧ pk = .controller i ∧
      .sealed (.controller i) (.host j) (some (.generated i)) ∈ w.keyBoxes := by
  cases box with
  | invalid => cases h
  | «sealed» a b content =>
    simp only [decodeKey] at h
    split_ifs at h with hkeys
    cases content with
    | none => cases h
    | some k =>
      cases h
      simp only [canBox, Option.all_some, decide_eq_true_eq] at hcan
      rcases hcan with hmem | ⟨-, hknown⟩
      · obtain ⟨i, theirPk, heq, -⟩ := hinv.boxed _ hmem
        cases heq
        rcases hkeys with ⟨rfl, rfl⟩ | ⟨hhost, -⟩
        · exact .inr ⟨i, rfl, rfl, hmem⟩
        · cases hhost
      · exact .inl hknown

lemma Inv.reply_host (hwaiting : (w.ends (.host j)).phase = .waiting)
    (hcan : w.canSend msg) : (w.reply (.host j) msg).Inv := by
  have hreplies := replies_identityReply j (w.ends (.host j)) msg
  rw [World.reply]
  generalize identityReply j (w.ends (.host j)) msg = e' at *
  cases hreplies with
  | ended hphase => exact hinv.ended hphase hwaiting rfl rfl rfl
  | @keyed pk box v key hmsg hkey =>
    subst hmsg
    refine hinv.secured hwaiting rfl rfl (nothing_new rfl) ⟨rfl, rfl, ?_, ?_⟩
    · simp only [setEnd, Function.update_self, Endpoint.transport_keyed]
    · rcases hinv.decodeKey_cases hcan hkey with hknown | ⟨i, hi, rfl, hbox⟩
      · exact .inl hknown
      · exact .inr ⟨i, hi, rfl, hbox⟩

lemma Inv.step {act : Act} (h : w.step act = some w') : w'.Inv := by
  cases act <;> simp only [World.step] at h <;> split at h <;> try cases h
  case start.isTrue p transport name fingerprint hidle =>
    cases p with
    | controller i => exact hinv.start_controller hidle ⟨rfl, rfl, rfl⟩
    | host j => exact hinv.start_host hidle ⟨rfl, rfl, rfl⟩
  case handshake.isTrue p msg hready =>
    cases p with
    | controller i => exact hinv.reply_controller hready.1 hready.2
    | host j => exact hinv.reply_host hready.1 hready.2
  case h_2.refl p data _ e he =>
    exact hinv.update rfl rfl rfl rfl rfl ((hinv.consistent p).sealFrame he data)
  case h_2 p f _ e he =>
    rw [Option.ite_none_right_eq_some] at h
    cases h.2
    exact hinv.update rfl rfl rfl rfl rfl ((hinv.consistent p).deliver he f)

end

lemma inv_of_reachable (h : lts.Reachable w) : w.Inv := by
  apply h.invariant
  · rintro w rfl
    exact inv_new
  · exact fun w act w' _ hinv hstep => hinv.step hstep

/-! ### The session both ends are in -/

/-- What ties a controller and a host that open each other's boxes. -/
structure Agreed (w : World) (i j : ℕ) (key : Key) (t : KxTranscript) (e e' : Encrypt) :
    Prop where
  controller : (w.ends (.controller i)).phase = .secured key true t
  host : (w.ends (.host j)).phase = .secured key false t
  initiatorPk : t.initiatorPk = .key (.controller i)
  responderPk : t.responderPk = .key (.host j)
  picked : t.picked = 1
  encrypt : (w.ends (.controller i)).encrypt = some e
  encrypt' : (w.ends (.host j)).encrypt = some e'
  toHost : e'.recvKey = some e.key
  toController : e.recvKey = some e'.key
  apart : e.key ≠ e'.key

/-- A controller whose box is for a host with a stream key takes the version the host signed. -/
lemma Inv.picked_of_responderPk (hinv : w.Inv)
    (hphase : (w.ends (.controller i)).phase = .secured key isInitiator t)
    (hrtc : (w.ends (.controller i)).transport ≠ .webrtc)
    (hrtc' : (w.ends (.host j)).transport ≠ .webrtc) (hpk : t.responderPk = .key (.host j)) :
    t.picked = 1 := by
  have hc := hinv.connected i key isInitiator t hphase
  obtain ⟨x, hx, hxpk, hversion⟩ := hc.host
  obtain ⟨j', hj', -, hadvertised⟩ := hinv.signed x hx
  obtain rfl : j' = j := by
    have := hj'.symm.trans (hxpk.symm.trans hpk)
    simpa using this
  rw [hc.picked, if_neg hrtc, hversion, hadvertised, Secure.advertised, if_neg hrtc']
  decide

/-- The key of a box that opens names the exchange: the attacker knows no key of a controller, and
a downgrade to the shared key would need a host that advertised it. -/
lemma Inv.agreed (hinv : w.Inv) (he : (w.ends (.controller i)).encrypt = some e)
    (he' : (w.ends (.host j)).encrypt = some e')
    (hopen : e.key = e'.openingKey ∨ e'.key = e.openingKey) : ∃ key t, w.Agreed i j key t e e' := by
  obtain ⟨key, isInitiator, t, hphase, hrtc, hruns⟩ := (hinv.consistent _).runs e he
  obtain ⟨key', isInitiator', t', hphase', hrtc', hruns'⟩ := (hinv.consistent _).runs e' he'
  have hc := hinv.connected i _ _ _ hphase
  have ha := hinv.answered j _ _ _ hphase'
  obtain rfl := hc.initiator
  obtain rfl := hc.key
  obtain rfl := ha.initiator
  cases hruns with
  | shared hpicked hkey hrecv =>
    cases hruns' with
    | shared hpicked' hkey' hrecv' =>
      -- both on the shared key: the host advertised the split scheme, the controller picked it
      have heq : key' = .generated i := by
        rcases hopen with h | h <;>
          simpa [Encrypt.openingKey, hkey, hrecv, hkey', hrecv', eq_comm] using h
      subst heq
      rcases ha.key with hknown | ⟨i', hi', -, hbox⟩
      · cases hknown
      · cases hi'
        obtain ⟨i', theirPk, hsealed, -, -, hpk⟩ := hinv.boxed _ hbox
        cases hsealed
        rw [hinv.picked_of_responderPk hphase hrtc hrtc' (hpk _ _ _ hphase)] at hpicked
        cases hpicked
    | split hpicked' hi' hr' hkey' hrecv' =>
      rcases hopen with h | h <;>
        simp [Encrypt.openingKey, Encrypt.subkey, hkey, hrecv, hkey', hrecv'] at h
  | @split ci cr hpicked hi hr hkey hrecv =>
    cases hruns' with
    | shared hpicked' hkey' hrecv' =>
      have heq : key' = e.key ∨ key' = e.openingKey := by
        rcases hopen with h | h
        · exact .inl (by simpa [Encrypt.openingKey, hkey', hrecv', eq_comm] using h)
        · exact .inr (hkey'.symm.trans h)
      have hhashed : ∃ input, key' = .hashed (.generated i) input := by
        rcases heq with rfl | rfl
        · exact ⟨_, hkey⟩
        · exact ⟨_, by rw [Encrypt.openingKey, hrecv]; rfl⟩
      obtain ⟨input, rfl⟩ := hhashed
      rcases ha.key with hknown | ⟨i', hi', -⟩
      · cases hknown
      · cases hi'
    | @split ci' cr' hpicked' hi' hr' hkey' hrecv' =>
      have heq : ∃ d,
          Encrypt.subkey (.generated i) d ci cr t = Encrypt.subkey key' d ci' cr' t' := by
        rcases hopen with h | h
        · exact ⟨_, by simpa [Encrypt.openingKey, hkey, hrecv'] using h⟩
        · exact ⟨_, by simpa [Encrypt.openingKey, hrecv, hkey', eq_comm] using h⟩
      obtain ⟨d, heq⟩ := heq
      obtain ⟨rfl, hinput⟩ := Key.hashed.inj heq
      obtain ⟨-, rfl, rfl, hadvertised, hpick⟩ := Encrypt.subkeyInput_injective hinput
      obtain rfl : t = t' := by
        cases t
        cases t'
        simp_all
      exact ⟨.generated i, t, hphase, hphase', hc.initiatorPk, ha.responderPk, hpicked, he, he',
        by rw [hrecv', hkey]; rfl, by rw [hrecv, hkey']; rfl, by
          rw [hkey, hkey']
          exact Encrypt.subkey_ne (by decide)⟩

/-- The key and the nonce of a box. -/
def sealedUnder : Frame → Option (Key × Bytes)
  | .sealed key nonce _ => some (key, nonce)
  | .raw _ => none

lemma Inv.sealedUnder_getElem (hinv : w.Inv) {p : Party} (he : (w.ends p).encrypt = some e) {k : ℕ}
    (hk : k < (w.ends p).frames.length) :
    sealedUnder (w.ends p).frames[k] = some (e.key, getNonce (UInt64.ofNat (k + 1))) := by
  obtain ⟨msg, hf⟩ := (hinv.consistent p).frames e he k _ (List.getElem?_eq_getElem hk)
  rw [hf]
  rfl

/-- One end never seals twice under one nonce, until its counter has gone round. -/
lemma Inv.nodup_frames (hinv : w.Inv) {p : Party} (he : (w.ends p).encrypt = some e)
    (hlen : (w.ends p).frames.length < 2 ^ 64) : ((w.ends p).frames.map sealedUnder).Nodup := by
  rw [List.nodup_iff_injective_get]
  rintro ⟨a, ha⟩ ⟨b, hb⟩ hab
  simp only [List.get_eq_getElem, List.getElem_map] at hab
  rw [List.length_map] at ha hb
  rw [hinv.sealedUnder_getElem he ha, hinv.sealedUnder_getElem he hb] at hab
  have hnonce := getNonce_injective (Prod.mk.inj (Option.some.inj hab)).2
  have := ofNat_eq_of_lt (by omega) (by omega) hnonce
  simpa using this

lemma Inv.mem_map_sealedUnder (hinv : w.Inv) {p : Party} (he : (w.ends p).encrypt = some e)
    {x : Option (Key × Bytes)} (hx : x ∈ (w.ends p).frames.map sealedUnder) :
    ∃ nonce, x = some (e.key, nonce) := by
  obtain ⟨k, hk, rfl⟩ := List.getElem_of_mem hx
  rw [List.length_map] at hk
  rw [List.getElem_map, hinv.sealedUnder_getElem he hk]
  exact ⟨_, rfl⟩

lemma Inv.encrypt_of_mem (hinv : w.Inv) {p : Party}
    (hf : f ∈ (w.ends p).frames ∨ f ∈ (w.ends p).accepted) : ∃ e, (w.ends p).encrypt = some e := by
  rw [← Option.ne_none_iff_exists']
  intro hnone
  obtain ⟨hframes, haccepted⟩ := (hinv.consistent p).unkeyed hnone
  rw [hframes, haccepted] at hf
  rcases hf with hf | hf <;> cases hf

/-- The box of one end that another opens is under the key of both. -/
lemma Inv.key_eq_openingKey (hinv : w.Inv) {p : Party} (he : (w.ends p).encrypt = some e)
    (he' : (w.ends q).encrypt = some e') (hsealed : f ∈ (w.ends p).frames)
    (haccepted : f ∈ (w.ends q).accepted) : e.key = e'.openingKey := by
  obtain ⟨k, hk, rfl⟩ := List.getElem_of_mem hsealed
  obtain ⟨msg, hf⟩ := (hinv.consistent p).frames e he k _ (List.getElem?_eq_getElem hk)
  obtain ⟨n, msg', hf'⟩ := (hinv.consistent q).accepted e' he' _ haccepted
  rw [hf] at hf'
  exact (Frame.sealed.inj hf').1

/-- **No split and no downgraded session.** A controller and a host of which one accepts a box of
the other derived the same key from the same transcript and run the split scheme in opposite
directions; and as long as neither has sealed `2 ^ 64` boxes, no two boxes of the session share key
and nonce. -/
theorem session_agreed {w : World} (hw : lts.Reachable w) {i j : ℕ} {f : Frame}
    (h : f ∈ (w.ends (.controller i)).frames ∧ f ∈ (w.ends (.host j)).accepted ∨
      f ∈ (w.ends (.host j)).frames ∧ f ∈ (w.ends (.controller i)).accepted) :
    ∃ key t e e', w.Agreed i j key t e e' ∧
      ((w.ends (.controller i)).frames.length < 2 ^ 64 →
        (w.ends (.host j)).frames.length < 2 ^ 64 →
        (((w.ends (.controller i)).frames ++
          (w.ends (.host j)).frames).map sealedUnder).Nodup) := by
  have hinv := inv_of_reachable hw
  obtain ⟨e, he⟩ := hinv.encrypt_of_mem (p := .controller i) (h.imp And.left And.right)
  obtain ⟨e', he'⟩ := hinv.encrypt_of_mem (p := .host j) (h.symm.imp And.left And.right)
  have hopen := h.imp (fun h => hinv.key_eq_openingKey he he' h.1 h.2)
    fun h => hinv.key_eq_openingKey he' he h.1 h.2
  obtain ⟨key, t, hagreed⟩ := hinv.agreed he he' hopen
  refine ⟨key, t, e, e', hagreed, fun hlen hlen' => ?_⟩
  rw [List.map_append, List.nodup_append]
  refine ⟨hinv.nodup_frames he hlen, hinv.nodup_frames he' hlen', ?_⟩
  rintro x hx y hy rfl
  obtain ⟨n, rfl⟩ := hinv.mem_map_sealedUnder he hx
  obtain ⟨n', heq⟩ := hinv.mem_map_sealedUnder he' hy
  exact hagreed.apart (Prod.mk.inj (Option.some.inj heq)).1

/-- An exchange over TCP nobody meddles with, and one byte from the controller. -/
def exchange : List Act :=
  [.start (.host 0) .tcp "id" "", .start (.controller 0) .tcp "id" "",
    .handshake (.controller 0) (some (.signedId (.signed ⟨"id", .key (.host 0), "", 1⟩))),
    .handshake (.host 0) (some (.publicKey (.key (.controller 0))
      (.sealed (.controller 0) (.host 0) (some (.generated 0))) 1)),
    .sealFrame (.controller 0) [7],
    .deliver (.host 0) (.sealed
      (Encrypt.subkey (.generated 0) kxSplitInitiator (.controller 0) (.host 0)
        ⟨.key (.controller 0), .key (.host 0), 1, 1⟩) (getNonce 1) [7])]

lemma exists_exchange : ∃ w f, lts.Reachable w ∧ f ∈ (w.ends (.controller 0)).frames ∧
    f ∈ (w.ends (.host 0)).accepted := by
  have hrun : ∃ w ∈ lts.run new exchange, ∃ f ∈ (w.ends (.controller 0)).frames,
      f ∈ (w.ends (.host 0)).accepted := by decide
  obtain ⟨w, hw, f, hsealed, haccepted⟩ := hrun
  exact ⟨w, f, LTS.Reachable.run (.init rfl) hw, hsealed, haccepted⟩

theorem session_agreed_exchange : ∃ w key t e e', lts.Reachable w ∧ w.Agreed 0 0 key t e e' := by
  obtain ⟨w, f, hw, hsealed, haccepted⟩ := exists_exchange
  obtain ⟨key, t, e, e', hagreed, -⟩ := session_agreed hw (.inl ⟨hsealed, haccepted⟩)
  exact ⟨w, key, t, e, e', hw, hagreed⟩

lemma exists_sealed {p : Party} (hne : q ≠ p) (hw : lts.Reachable w) (hp : f ∈ (w.ends p).frames)
    (hq : f ∈ (w.ends q).accepted) (n : ℕ) :
    ∃ w', lts.Reachable w' ∧ f ∈ (w'.ends p).frames ∧ f ∈ (w'.ends q).accepted ∧
      n < (w'.ends p).frames.length := by
  induction n with
  | zero => exact ⟨w, hw, hp, hq, List.length_pos_of_mem hp⟩
  | succ n ih =>
    obtain ⟨w', hw', hp', hq', hn⟩ := ih
    obtain ⟨e, he⟩ := (inv_of_reachable hw').encrypt_of_mem (.inl hp')
    have hstep : lts.step w' (.sealFrame p []) = some
        { w'.setEnd p { w'.ends p with
            encrypt := some (e.enc []).2, frames := (w'.ends p).frames ++ [(e.enc []).1] } with
          frames := w'.frames ++ [(e.enc []).1] } := by
      simp only [lts, step, he]
    refine ⟨_, hw'.step hstep, ?_, ?_, ?_⟩ <;> simp only [setEnd]
    · rw [Function.update_self]
      exact List.mem_append_left _ hp'
    · rwa [Function.update_of_ne hne]
    · rw [Function.update_self, List.length_append, List.length_singleton]
      omega

/-- After `2 ^ 64` boxes the counter of a controller has gone round, and the next one has the key
and the nonce of the first. -/
theorem nonce_reused : ∃ w f, lts.Reachable w ∧ f ∈ (w.ends (.controller 0)).frames ∧
    f ∈ (w.ends (.host 0)).accepted ∧
    ¬(((w.ends (.controller 0)).frames ++ (w.ends (.host 0)).frames).map sealedUnder).Nodup := by
  obtain ⟨w, f, hw, hsealed, haccepted⟩ := exists_exchange
  obtain ⟨w', hw', hsealed', haccepted', hlen⟩ :=
    exists_sealed (by nofun) hw hsealed haccepted (2 ^ 64)
  have hinv := inv_of_reachable hw'
  obtain ⟨e, he⟩ := hinv.encrypt_of_mem (.inl hsealed')
  refine ⟨w', f, hw', hsealed', haccepted', fun hnodup => ?_⟩
  rw [List.map_append, List.nodup_append] at hnodup
  have hinj := List.nodup_iff_injective_get.mp hnodup.1
  have hfirst := hinv.sealedUnder_getElem he (List.length_pos_of_mem hsealed')
  have hlast := hinv.sealedUnder_getElem he hlen
  have hwrap : UInt64.ofNat (2 ^ 64 + 1) = UInt64.ofNat (0 + 1) := rfl
  have heq := @hinj ⟨0, by simpa using List.length_pos_of_mem hsealed'⟩
    ⟨2 ^ 64, by simpa using hlen⟩
    (by simp only [List.get_eq_getElem, List.getElem_map, hfirst, hlast, hwrap])
  cases heq

end World

end RustDesk.Secure
