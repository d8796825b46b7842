import RustDesk.Lib.LittleEndian
import RustDesk.Lib.Transition
import RustDesk.Net.Addr

/-!
# The encrypted stream

`Encrypt` seals what one side sends and opens what it receives, with a counter in each direction
as the nonce. In the split scheme each direction has a key of its own, hashed from the exchanged
key and the transcript of the handshake.

The primitives are ideal. A key is a term: one that a controller generated, one that the attacker
chose, or the keyed hash of a key and an input, so that a hash determines its key and input. A
sealed box is the term of its key, nonce and message, and `open` takes it apart only with that key
and that nonce.
-/

namespace RustDesk.Secure

/-- Ephemeral public keys, by who generated them. -/
inductive PubKey where
  | controller (i : ℕ)
  | host (j : ℕ)
  | attacker (a : ℕ)
  deriving DecidableEq

/-- A public key as it stands in a message: 32 bytes, or bytes of another length. -/
inductive WirePk where
  | key (pk : PubKey)
  | other (len : ℕ) (h : len ≠ 32)
  deriving DecidableEq

/-- What goes into the keyed hash, piece by piece. -/
inductive Part where
  | bytes (b : Bytes)
  | pk (p : PubKey)
  deriving DecidableEq

inductive Key where
  | generated (i : ℕ)
  | chosen (a : ℕ)
  | hashed (key : Key) (input : List Part)
  deriving DecidableEq

/-- What both sides saw during the key exchange, each from its own side of the wire. -/
structure KxTranscript where
  initiatorPk : WirePk
  responderPk : WirePk
  advertised : UInt32
  picked : UInt32
  deriving DecidableEq

def kxVersionLatest : UInt32 := 1

/-- The version to run against a peer that advertised `advertised`. -/
def kxVersionFor (advertised : UInt32) : UInt32 := min advertised kxVersionLatest

def kxSplitContext : Bytes := "rdkx-spl".toList.map ascii

def kxSplitInitiator : UInt8 := 1

def kxSplitResponder : UInt8 := 2

def nonceBytes : ℕ := 24

def macBytes : ℕ := 16

/-- The counter in the first eight bytes, zeros behind. -/
def getNonce (seqnum : UInt64) : Bytes :=
  leBytes 8 seqnum.toNat ++ List.replicate (nonceBytes - 8) 0

/-- What travels between the two ends: a box, or any other bytes. -/
inductive Frame where
  | sealed (key : Key) (nonce : Bytes) (msg : Bytes)
  | raw (bytes : Bytes)
  deriving DecidableEq

namespace Frame

def length : Frame → ℕ
  | sealed _ _ msg => msg.length + macBytes
  | raw bytes => bytes.length

/-- `secretbox::open`. -/
def openBox (nonce : Bytes) (key : Key) : Frame → Option Bytes
  | sealed k n msg => if k = key ∧ n = nonce then some msg else none
  | raw _ => none

end Frame

/-- The sending key, the send and receive counters, and the receiving key where it differs. -/
structure Encrypt where
  key : Key
  sent : UInt64
  received : UInt64
  recvKey : Option Key
  deriving DecidableEq

namespace Encrypt

def new (key : Key) : Encrypt where
  key := key
  sent := 0
  received := 0
  recvKey := none

/-- The input of the hash, in the order in which it is updated. -/
def subkeyInput (direction : UInt8) (initiatorPk responderPk : PubKey)
    (advertised picked : UInt32) : List Part :=
  [.bytes kxSplitContext, .bytes [direction], .bytes (leBytes 4 advertised.toNat),
    .bytes (leBytes 4 picked.toNat), .pk initiatorPk, .pk responderPk]

def deriveSubkey (key : Key) (direction : UInt8) (t : KxTranscript) : Except String Key :=
  match t.initiatorPk, t.responderPk with
  | .key initiatorPk, .key responderPk =>
    .ok (.hashed key (subkeyInput direction initiatorPk responderPk t.advertised t.picked))
  | _, _ => .error "key exchange transcript has a public key of the wrong length"

/-- The initiator sends under one subkey and receives under the other, the responder the
reverse. -/
def newSplit (key : Key) (isInitiator : Bool) (t : KxTranscript) : Except String Encrypt := do
  let initiator ← deriveSubkey key kxSplitInitiator t
  let responder ← deriveSubkey key kxSplitResponder t
  return if isInitiator then ⟨initiator, 0, 0, some responder⟩
    else ⟨responder, 0, 0, some initiator⟩

/-- The key `dec` opens with. -/
def openingKey (e : Encrypt) : Key := e.recvKey.getD e.key

/-- A frame of at most one byte is passed on as it is; any other advances the counter, whether it
opens or not. -/
def dec (e : Encrypt) (f : Frame) : Except IoError Frame × Encrypt :=
  if f.length ≤ 1 then
    (.ok f, e)
  else
    let e := { e with received := e.received + 1 }
    match f.openBox (getNonce e.received) e.openingKey with
    | some msg => (.ok (.raw msg), e)
    | none => (.error ⟨.other 0, "decryption error"⟩, e)

def enc (e : Encrypt) (data : Bytes) : Frame × Encrypt :=
  let e := { e with sent := e.sent + 1 }
  (.sealed e.key (getNonce e.sent) data, e)

end Encrypt

/-! ### Nonces and keys -/

lemma getNonce_injective {m n : UInt64} (h : getNonce m = getNonce n) : m = n := by
  have hle := List.append_inj_left h (by simp)
  have hvalue := congrArg leValue hle
  rw [leValue_leBytes m.toNat_lt, leValue_leBytes n.toNat_lt] at hvalue
  exact UInt64.toNat_inj.mp hvalue

/-- Counters below `2 ^ 64` give different nonces. -/
lemma ofNat_eq_of_lt {m n : ℕ} (hm : m < 2 ^ 64) (hn : n < 2 ^ 64)
    (h : UInt64.ofNat m = UInt64.ofNat n) : m = n := by
  have := congrArg UInt64.toNat h
  rwa [UInt64.toNat_ofNat', UInt64.toNat_ofNat', Nat.mod_eq_of_lt hm, Nat.mod_eq_of_lt hn] at this

lemma openBox_eq_some {f : Frame} {nonce msg : Bytes} {key : Key} :
    f.openBox nonce key = some msg ↔ f = .sealed key nonce msg := by
  cases f with
  | raw bytes => simp [Frame.openBox]
  | sealed k n m =>
    simp only [Frame.openBox, Frame.sealed.injEq]
    split_ifs with h
    · simp [h]
    · simp only [false_iff]
      rintro ⟨rfl, rfl, -⟩
      exact h ⟨rfl, rfl⟩

namespace Encrypt

variable {d d' : UInt8} {i i' r r' : PubKey} {key : Key} {isInitiator : Bool} {t : KxTranscript}
  {f : Frame}

lemma subkeyInput_injective {v v' p p' : UInt32}
    (h : subkeyInput d i r v p = subkeyInput d' i' r' v' p') :
    d = d' ∧ i = i' ∧ r = r' ∧ v = v' ∧ p = p' := by
  simp only [subkeyInput, List.cons.injEq, Part.bytes.injEq, Part.pk.injEq, true_and,
    and_true] at h
  obtain ⟨hd, hv, hp, hi, hr⟩ := h
  have hle : ∀ {m n : UInt32}, leBytes 4 m.toNat = leBytes 4 n.toNat → m = n := by
    intro m n hmn
    have hvalue := congrArg leValue hmn
    rw [leValue_leBytes m.toNat_lt, leValue_leBytes n.toNat_lt] at hvalue
    exact UInt32.toNat_inj.mp hvalue
  exact ⟨hd, hi, hr, hle hv, hle hp⟩

/-- The key of a direction, for a transcript with keys of the right length. -/
def subkey (key : Key) (direction : UInt8) (i r : PubKey) (t : KxTranscript) : Key :=
  .hashed key (subkeyInput direction i r t.advertised t.picked)

lemma newSplit_eq_ok {e : Encrypt} (h : newSplit key isInitiator t = .ok e) :
    ∃ i r, t.initiatorPk = .key i ∧ t.responderPk = .key r ∧
      e = if isInitiator then
          ⟨subkey key kxSplitInitiator i r t, 0, 0, some (subkey key kxSplitResponder i r t)⟩
        else
          ⟨subkey key kxSplitResponder i r t, 0, 0, some (subkey key kxSplitInitiator i r t)⟩ := by
  simp only [newSplit, deriveSubkey] at h
  split at h
  · rename_i i r hi hr
    exact ⟨i, r, hi, hr, (Except.ok.inj h).symm⟩
  · cases h

lemma subkey_ne {key' : Key} {t' : KxTranscript} (h : d ≠ d') :
    subkey key d i r t ≠ subkey key' d' i' r' t' := by
  intro heq
  exact h (subkeyInput_injective (Key.hashed.inj heq).2).1

lemma dec_of_short (e : Encrypt) (h : f.length ≤ 1) : e.dec f = (.ok f, e) := by
  rw [dec, if_pos h]

/-- Any longer frame moves the counter, and is accepted only as the box of that counter. -/
lemma dec_of_long (e : Encrypt) (h : ¬f.length ≤ 1) :
    (e.dec f).2 = { e with received := e.received + 1 } ∧
      ∀ msg, (e.dec f).1 = .ok (.raw msg) ↔
        f = .sealed e.openingKey (getNonce (e.received + 1)) msg := by
  rw [dec, if_neg h]
  simp only
  rw [show Encrypt.openingKey { e with received := e.received + 1 } = e.openingKey from rfl]
  cases hopen : f.openBox (getNonce (e.received + 1)) e.openingKey with
  | none =>
    refine ⟨rfl, fun msg => ⟨nofun, fun h => ?_⟩⟩
    rw [openBox_eq_some.mpr h] at hopen
    cases hopen
  | some m =>
    refine ⟨rfl, fun msg => ⟨fun h => ?_, fun h => ?_⟩⟩
    · cases h
      exact openBox_eq_some.mp hopen
    · rw [openBox_eq_some.mpr h] at hopen
      cases hopen
      rfl

/-- The two ends of a split session: each opens what the other seals, and they seal under
different keys. -/
lemma newSplit_pair {a b : Encrypt} (ha : newSplit key isInitiator t = .ok a)
    (hb : newSplit key (!isInitiator) t = .ok b) :
    b.openingKey = a.key ∧ b.key ≠ a.key ∧ a.sent = 0 ∧ b.received = 0 := by
  obtain ⟨i, r, hi, hr, rfl⟩ := newSplit_eq_ok ha
  obtain ⟨i', r', hi', hr', rfl⟩ := newSplit_eq_ok hb
  obtain rfl : i = i' := WirePk.key.inj (hi.symm.trans hi')
  obtain rfl : r = r' := WirePk.key.inj (hr.symm.trans hr')
  cases isInitiator with
  | true | false => exact ⟨rfl, subkey_ne (by decide), rfl, rfl⟩

end Encrypt

/-! ### One direction of a session -/

/-- Two ends in the split scheme and the attacker between them. `boxes` are all the boxes either
end has sealed; `delivered` are the frames of more than one byte that reached `b`, and `results`
what `dec` made of each, `none` for a decryption error. -/
structure Session where
  a : Encrypt
  b : Encrypt
  boxes : List Frame
  sent : List Bytes
  delivered : List Frame
  results : List (Option Bytes)

inductive SessionAct where
  | sealA (data : Bytes)
  | sealB (data : Bytes)
  | deliver (f : Frame)

namespace Session

variable {msg : Bytes} {s : Session}

/-- The attacker delivers what it likes, but makes no box under a key of the session. -/
def canDeliver (s : Session) : Frame → Bool
  | .raw _ => true
  | .sealed k n msg => .sealed k n msg ∈ s.boxes ∨ k ≠ s.a.key ∧ k ≠ s.b.key

def plain : Except IoError Frame → Option Bytes
  | .ok (.raw msg) => some msg
  | _ => none

def step (s : Session) : SessionAct → Option Session
  | .sealA data =>
    let (f, a) := s.a.enc data
    some { s with a := a, boxes := s.boxes ++ [f], sent := s.sent ++ [data] }
  | .sealB data =>
    let (f, b) := s.b.enc data
    some { s with b := b, boxes := s.boxes ++ [f] }
  | .deliver f =>
    if s.canDeliver f then
      let (result, b) := s.b.dec f
      if f.length ≤ 1 then
        some { s with b := b }
      else
        some { s with
          b := b, delivered := s.delivered ++ [f], results := s.results ++ [plain result] }
    else
      none

def Starts (s : Session) : Prop :=
  ∃ key isInitiator t, Encrypt.newSplit key isInitiator t = .ok s.a ∧
    Encrypt.newSplit key (!isInitiator) t = .ok s.b ∧
    s.boxes = [] ∧ s.sent = [] ∧ s.delivered = [] ∧ s.results = []

def lts : LTS Session SessionAct where
  init := Starts
  step := step

/-- What was accepted before the first decryption error. -/
def accepted : List (Option Bytes) → List Bytes
  | some msg :: rest => msg :: accepted rest
  | _ => []

/-- The `i`-th box of `a`, counted from zero. -/
def genuine (s : Session) (i : ℕ) (msg : Bytes) : Frame :=
  .sealed s.a.key (getNonce (UInt64.ofNat (i + 1))) msg

/-- The two counters count what was sent and what was delivered, and a result is an opened box of
`a` whose number is, in 64 bits, the number of the delivery. -/
structure Lockstep (s : Session) : Prop where
  opening : s.b.openingKey = s.a.key
  apart : s.b.key ≠ s.a.key
  counted : s.a.sent = UInt64.ofNat s.sent.length
  received : s.b.received = UInt64.ofNat s.delivered.length
  length : s.results.length = s.delivered.length
  boxes : ∀ n msg, .sealed s.a.key n msg ∈ s.boxes →
    ∃ i, s.sent[i]? = some msg ∧ n = getNonce (UInt64.ofNat (i + 1))
  opened : ∀ j msg, s.results[j]? = some (some msg) →
    s.delivered[j]? = some (s.genuine j msg) ∧
      ∃ i, s.sent[i]? = some msg ∧ UInt64.ofNat (i + 1) = UInt64.ofNat (j + 1)

lemma ofNat_succ (n : ℕ) : UInt64.ofNat n + 1 = UInt64.ofNat (n + 1) := by
  rw [UInt64.ofNat_add]
  rfl

lemma plain_eq_some {r : Except IoError Frame} : plain r = some msg ↔ r = .ok (.raw msg) := by
  match r with
  | .error e => simp [plain]
  | .ok (.sealed k n m) => simp [plain]
  | .ok (.raw m) => simp [plain]

lemma Starts.lockstep (h : s.Starts) : s.Lockstep := by
  obtain ⟨key, isInitiator, t, ha, hb, hboxes, hsent, hdelivered, hresults⟩ := h
  obtain ⟨hopening, hapart, hcount, hreceived⟩ := Encrypt.newSplit_pair ha hb
  refine ⟨hopening, hapart, ?_, ?_, ?_, ?_, ?_⟩
  · rw [hcount, hsent]
    rfl
  · rw [hreceived, hdelivered]
    rfl
  · rw [hresults, hdelivered]
    rfl
  · simp [hboxes]
  · simp [hresults]

/-- A delivered box that opens is one of `a`, with the number of the delivery. -/
lemma Lockstep.genuine_of_open (h : s.Lockstep) {f : Frame} (hcan : s.canDeliver f)
    (hf : f = .sealed s.b.openingKey (getNonce (s.b.received + 1)) msg) :
    f = s.genuine s.delivered.length msg ∧
      ∃ i, s.sent[i]? = some msg ∧
        UInt64.ofNat (i + 1) = UInt64.ofNat (s.delivered.length + 1) := by
  rw [h.opening, h.received, ofNat_succ] at hf
  subst hf
  refine ⟨rfl, ?_⟩
  simp only [canDeliver, decide_eq_true_eq] at hcan
  rcases hcan with hmem | ⟨hne, -⟩
  · obtain ⟨i, hi, hn⟩ := h.boxes _ _ hmem
    exact ⟨i, hi, (getNonce_injective hn).symm⟩
  · exact absurd rfl hne

lemma Lockstep.step {s' : Session} {act : SessionAct} (h : s.Lockstep)
    (hstep : s.step act = some s') : s'.Lockstep := by
  cases act with
  | sealA data =>
    simp only [Session.step, Option.some.injEq] at hstep
    subst hstep
    have hkeep : ∀ {i : ℕ} {msg : Bytes}, s.sent[i]? = some msg →
        (s.sent ++ [data])[i]? = some msg := fun hi => by
      rw [List.getElem?_append_left (List.getElem?_eq_some_iff.mp hi).1, hi]
    refine ⟨h.opening, h.apart, ?_, h.received, h.length, fun n msg hmem => ?_,
      fun j msg hj => ?_⟩
    · simp only [Encrypt.enc, h.counted, ofNat_succ, List.length_append, List.length_singleton]
    · rcases List.mem_append.mp hmem with hmem | hmem
      · obtain ⟨i, hi, hn⟩ := h.boxes n msg hmem
        exact ⟨i, hkeep hi, hn⟩
      · simp only [Encrypt.enc, h.counted, ofNat_succ, List.mem_singleton,
          Frame.sealed.injEq] at hmem
        exact ⟨s.sent.length, by simp [hmem.2.2], hmem.2.1⟩
    · obtain ⟨hdel, i, hi, hn⟩ := h.opened j msg hj
      exact ⟨hdel, i, hkeep hi, hn⟩
  | sealB data =>
    simp only [Session.step, Option.some.injEq] at hstep
    subst hstep
    refine ⟨h.opening, h.apart, h.counted, h.received, h.length, fun n msg hmem => ?_, h.opened⟩
    rcases List.mem_append.mp hmem with hmem | hmem
    · exact h.boxes n msg hmem
    · -- a box of the other direction is under the other key
      simp only [Encrypt.enc, List.mem_singleton, Frame.sealed.injEq] at hmem
      exact absurd hmem.1.symm h.apart
  | deliver f =>
    simp only [Session.step] at hstep
    split_ifs at hstep with hcan hshort
    · rw [Encrypt.dec_of_short _ hshort, Option.some.injEq] at hstep
      rwa [← hstep]
    · obtain ⟨hb, hresult⟩ := s.b.dec_of_long hshort
      rw [Option.some.injEq] at hstep
      subst hstep
      simp only [hb]
      refine ⟨h.opening, h.apart, h.counted, ?_, ?_, h.boxes, fun j msg hj => ?_⟩
      · simp only [h.received, ofNat_succ, List.length_append, List.length_singleton]
      · simp only [List.length_append, h.length, List.length_singleton]
      · by_cases hlt : j < s.results.length
        · rw [List.getElem?_append_left hlt] at hj
          rw [List.getElem?_append_left (h.length ▸ hlt)]
          exact h.opened j msg hj
        · obtain rfl : j = s.delivered.length := by
            have := (List.getElem?_eq_some_iff.mp hj).1
            simp only [List.length_append, List.length_singleton, h.length] at this hlt
            omega
          rw [← h.length, List.getElem?_concat_length, Option.some.injEq, plain_eq_some,
            hresult] at hj
          obtain ⟨hf, hi⟩ := h.genuine_of_open hcan hj
          exact ⟨by rw [List.getElem?_concat_length, hf]; rfl, hi⟩

lemma reachable_lockstep (h : lts.Reachable s) : s.Lockstep :=
  h.invariant (P := Lockstep) (fun _ hs => Starts.lockstep hs)
    fun _ _ _ _ hs hstep => hs.step hstep

lemma getElem?_accepted {results : List (Option Bytes)} {j : ℕ}
    (hj : j < (accepted results).length) :
    results[j]? = some (accepted results)[j]? := by
  induction results generalizing j with
  | nil => simp [accepted] at hj
  | cons r results ih =>
    cases r with
    | none => simp [accepted] at hj
    | some msg =>
      cases j with
      | zero => rfl
      | succ j => simpa [accepted] using ih (by simpa [accepted] using hj)

/-- The stream keeps its order: while neither counter has come round, what is accepted before the
first error is a prefix of what was sent, every frame that is ever accepted is the genuine one for
its place, and frames of at most one byte change nothing. -/
theorem stream_in_order (s : Session) (h : lts.Reachable s) (hsent : s.sent.length < 2 ^ 64)
    (hdelivered : s.delivered.length < 2 ^ 64) :
    accepted s.results <+: s.sent ∧
      (∀ j msg, s.results[j]? = some (some msg) →
        s.sent[j]? = some msg ∧ s.delivered[j]? = some (s.genuine j msg)) ∧
      ∀ f s', f.length ≤ 1 → s.step (.deliver f) = some s' → s' = s := by
  have hlock := reachable_lockstep h
  have hplace : ∀ j msg, s.results[j]? = some (some msg) →
      s.sent[j]? = some msg ∧ s.delivered[j]? = some (s.genuine j msg) := by
    intro j msg hj
    obtain ⟨hdel, i, hi, hn⟩ := hlock.opened j msg hj
    have hi' := (List.getElem?_eq_some_iff.mp hi).1
    have hj' := (List.getElem?_eq_some_iff.mp hj).1
    rw [hlock.length] at hj'
    obtain rfl : i = j := by
      have := ofNat_eq_of_lt (by omega) (by omega) hn
      omega
    exact ⟨hi, hdel⟩
  refine ⟨?_, hplace, fun f s' hf hstep => ?_⟩
  · rw [List.prefix_iff_getElem?]
    intro j hj
    have hres := getElem?_accepted hj
    rw [List.getElem?_eq_getElem hj] at hres
    rw [(hplace j _ hres).1]
  · simp only [Session.step, s.b.dec_of_short hf, if_pos hf] at hstep
    split_ifs at hstep
    exact (Option.some.inj hstep).symm

/-- A session at its start; the controller is the initiator. -/
def started : Session where
  a := ⟨.hashed (.generated 0) (Encrypt.subkeyInput 1 (.controller 0) (.host 0) 1 1), 0, 0,
    some (.hashed (.generated 0) (Encrypt.subkeyInput 2 (.controller 0) (.host 0) 1 1))⟩
  b := ⟨.hashed (.generated 0) (Encrypt.subkeyInput 2 (.controller 0) (.host 0) 1 1), 0, 0,
    some (.hashed (.generated 0) (Encrypt.subkeyInput 1 (.controller 0) (.host 0) 1 1))⟩
  boxes := []
  sent := []
  delivered := []
  results := []

lemma starts_started : started.Starts :=
  ⟨.generated 0, true, ⟨.key (.controller 0), .key (.host 0), 1, 1⟩, rfl, rfl, rfl, rfl, rfl, rfl⟩

def oneFrame : List SessionAct := [.sealA [7], .deliver (started.genuine 0 [7])]

theorem stream_in_order_one_frame :
    ∃ s, lts.Reachable s ∧ s.results = [some [7]] ∧ accepted s.results <+: s.sent := by
  have hrun : ∃ s ∈ lts.run started oneFrame,
      s.results = [some [7]] ∧ s.sent.length < 2 ^ 64 ∧ s.delivered.length < 2 ^ 64 := by
    decide
  obtain ⟨s, hs, hresults, hsent, hdelivered⟩ := hrun
  have hreach : lts.Reachable s := (LTS.Reachable.init starts_started).run hs
  exact ⟨s, hreach, hresults, (stream_in_order s hreach hsent hdelivered).1⟩

/-! ### A counter that comes round -/

/-- After `n` frames, each sealed and delivered. -/
def rounds (n : ℕ) : Session where
  a := { started.a with sent := UInt64.ofNat n }
  b := { started.b with received := UInt64.ofNat n }
  boxes := (List.range n).map fun i => started.genuine i [7]
  sent := List.replicate n [7]
  delivered := (List.range n).map fun i => started.genuine i [7]
  results := List.replicate n (some [7])

lemma dec_genuine (n i : ℕ) (h : UInt64.ofNat (i + 1) = UInt64.ofNat (n + 1)) :
    (rounds n).b.dec (started.genuine i [7]) = (.ok (.raw [7]), (rounds (n + 1)).b) := by
  have hlong : ¬(started.genuine i [7]).length ≤ 1 := by
    simp [genuine, Frame.length, macBytes]
  obtain ⟨hb, hresult⟩ := (rounds n).b.dec_of_long hlong
  have hreceived : (rounds n).b.received + 1 = UInt64.ofNat (n + 1) := ofNat_succ n
  refine Prod.ext ((hresult [7]).mpr ?_) ?_
  · rw [hreceived, ← h]
    rfl
  · rw [hb, hreceived]
    rfl

lemma reachable_rounds (n : ℕ) : lts.Reachable (rounds n) := by
  induction n with
  | zero => exact .init starts_started
  | succ n ih =>
    -- the frame is sealed, then delivered
    let s : Session := { rounds n with
      a := (rounds (n + 1)).a, boxes := (rounds (n + 1)).boxes, sent := (rounds (n + 1)).sent }
    have hseal : lts.step (rounds n) (.sealA [7]) = some s := by
      simp only [lts, step, s, rounds, Encrypt.enc, ofNat_succ, List.range_succ, List.map_append,
        List.replicate_succ']
      rfl
    have hcan : s.canDeliver (started.genuine n [7]) := by
      have hmem : started.genuine n [7] ∈ s.boxes :=
        List.mem_map.mpr ⟨n, List.mem_range.mpr (Nat.lt_succ_self n), rfl⟩
      simp only [genuine] at hmem ⊢
      simp only [canDeliver, hmem, true_or, decide_true]
    refine (ih.step hseal).step (a := .deliver (started.genuine n [7])) ?_
    simp only [lts, step, hcan, if_true]
    rw [show s.b = (rounds n).b from rfl, dec_genuine n n rfl, if_neg (by
      simp [genuine, Frame.length, macBytes])]
    simp only [s, rounds, List.range_succ, List.map_append, List.replicate_succ']
    rfl

lemma accepted_replicate (n : ℕ) (msg : Bytes) :
    accepted (List.replicate n (some msg)) = List.replicate n msg := by
  induction n with
  | zero => rfl
  | succ n ih => rw [List.replicate_succ, List.replicate_succ, accepted, ih]

/-- The first frame once more, when the counter has come round. -/
lemma replay {n : ℕ} (hpos : 0 < n) (hround : UInt64.ofNat n = 0) :
    ∃ s, lts.Reachable s ∧ s.sent.length = n ∧ (accepted s.results).length = n + 1 := by
  have hcan : (rounds n).canDeliver (started.genuine 0 [7]) := by
    have hmem : started.genuine 0 [7] ∈ (rounds n).boxes :=
      List.mem_map.mpr ⟨0, List.mem_range.mpr hpos, rfl⟩
    simp only [genuine] at hmem ⊢
    simp only [canDeliver, hmem, true_or, decide_true]
  have hnonce : UInt64.ofNat (0 + 1) = UInt64.ofNat (n + 1) := by
    rw [← ofNat_succ n, hround]
    rfl
  have hstep : lts.step (rounds n) (.deliver (started.genuine 0 [7])) =
      some { rounds n with
        b := (rounds (n + 1)).b
        delivered := (rounds n).delivered ++ [started.genuine 0 [7]]
        results := (rounds n).results ++ [some [7]] } := by
    simp only [lts, step, hcan, if_true]
    rw [dec_genuine n 0 hnonce, if_neg (by simp [genuine, Frame.length, macBytes])]
    rfl
  refine ⟨_, (reachable_rounds n).step hstep, List.length_replicate, ?_⟩
  rw [show (rounds n).results = List.replicate n (some [7]) from rfl, ← List.replicate_succ',
    accepted_replicate, List.length_replicate]

theorem stream_replayed :
    ¬∀ s, lts.Reachable s → accepted s.results <+: s.sent := by
  intro h
  obtain ⟨s, hs, hsent, haccepted⟩ := replay (n := 2 ^ 64) (by decide) rfl
  have hle := (h s hs).length_le
  omega

end Session

end RustDesk.Secure
