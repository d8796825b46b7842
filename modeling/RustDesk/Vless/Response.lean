import Mathlib.Data.List.GetD
import RustDesk.Net.Io

/-!
# The VLESS response header

`VlessResponseStream` takes the response header off the stream: two bytes, the version and the
length of the addons, then the addons. It does so inside `poll_read`, which may be left at any
inner poll that is pending, so how far it got is kept in the stream.

The proofs see the stream at one of three stages: in the header, in the addons (or behind them,
with none left), or failed. `Stage.payload` is what is still to be delivered at a stage and
`Stage.Accepts` says that the rest of the header is still to come in full.
-/

namespace RustDesk.Vless

structure ResponseStream where
  inner : Incoming
  header : Bytes
  headerRead : ℕ
  addonsRemaining : ℕ
  headerDone : Bool
  failed : Option ErrorKind

namespace ResponseStream

variable {st : Stage} {inner : Incoming} {cap : ℕ} {caps : List ℕ}

def new (inner : Incoming) : ResponseStream where
  inner := inner
  header := [0, 0]
  headerRead := 0
  addonsRemaining := 0
  headerDone := false
  failed := none

def reject (s : ResponseStream) (e : IoError) : Option Poll × ResponseStream :=
  (some (.ready (.error e)), { s with failed := some e.kind })

/-- The header buffer after a read into its unread part. -/
def fill (s : ResponseStream) (bs : Bytes) : Bytes :=
  s.header.take s.headerRead ++ bs ++ s.header.drop (s.headerRead + bs.length)

/-- The first loop of `poll_read`: what the poll returns from it, `none` when the header is
complete. -/
def readHeader (s : ResponseStream) : Option Poll × ResponseStream :=
  if s.headerRead < 2 then
    match s.inner.pollRead (2 - s.headerRead) with
    | (.pending, inner) => (some .pending, { s with inner := inner })
    | (.ready (.error e), inner) => { s with inner := inner }.reject e
    | (.ready (.ok bs), inner) =>
      let s' := { s with inner := inner, header := s.fill bs }
      if bs.length = 0 then
        s'.reject ⟨.unexpectedEof, "Truncated VLESS response header"⟩
      else
        let s' := { s' with headerRead := s.headerRead + bs.length }
        if s'.header.getD 0 0 ≠ 0 then
          s'.reject ⟨.invalidData, "Unsupported VLESS response version"⟩
        else
          readHeader s'
  else
    (none, s)
termination_by 2 - s.headerRead

/-- The second loop: the addons are read and dropped. -/
def skipAddons (s : ResponseStream) : Option Poll × ResponseStream :=
  if s.addonsRemaining > 0 then
    match s.inner.pollRead s.addonsRemaining with
    | (.pending, inner) => (some .pending, { s with inner := inner })
    | (.ready (.error e), inner) => { s with inner := inner }.reject e
    | (.ready (.ok bs), inner) =>
      if bs.length = 0 then
        { s with inner := inner }.reject ⟨.unexpectedEof, "Truncated VLESS response addons"⟩
      else
        skipAddons { s with inner := inner, addonsRemaining := s.addonsRemaining - bs.length }
  else
    (none, s)
termination_by s.addonsRemaining

/-- The header, and what it says about the addons. -/
def ensureHeader (s : ResponseStream) : Option Poll × ResponseStream :=
  if s.headerDone then
    (none, s)
  else
    match s.readHeader with
    | (some result, s) => (some result, s)
    | (none, s) =>
      (none, { s with addonsRemaining := (s.header.getD 1 0).toNat, headerDone := true })

/-- `poll_read` with room for `cap` bytes. -/
def pollRead (s : ResponseStream) (cap : ℕ) : Poll × ResponseStream :=
  if cap = 0 then
    (.ready (.ok []), s)
  else
    match s.failed with
    | some kind => (.ready (.error ⟨kind, "Invalid VLESS response"⟩), s)
    | none =>
      match s.ensureHeader with
      | (some result, s) => (result, s)
      | (none, s) =>
        match s.skipAddons with
        | (some result, s) => (result, s)
        | (none, s) =>
          let (result, inner) := s.inner.pollRead cap
          (result, { s with inner := inner })

/-- A caller that polls with one buffer after the other. -/
def pollAll (s : ResponseStream) : List ℕ → List Poll × ResponseStream
  | [] => ([], s)
  | cap :: caps =>
    let (result, s) := s.pollRead cap
    let (results, s) := s.pollAll caps
    (result :: results, s)

/-! ### The stages of the stream -/

inductive Stage where
  | header (seen : Bytes)
  | addons (left : ℕ)
  | failed

/-- How long the header at the front of a stream is. -/
def headerLen (bytes : Bytes) : ℕ := 2 + (bytes.getD 1 0).toNat

/-- The stream is at a stage. -/
inductive At (s : ResponseStream) : Stage → Prop where
  | header {seen : Bytes} (hfailed : s.failed = none) (hdone : s.headerDone = false)
      (hlen : s.header.length = 2) (hread : s.headerRead = seen.length)
      (htake : s.header.take s.headerRead = seen) (hle : seen.length ≤ 2)
      (hversion : ∀ b ∈ seen.head?, b = 0) : At s (.header seen)
  | addons {left : ℕ} (hfailed : s.failed = none) (hdone : s.headerDone = true)
      (hleft : s.addonsRemaining = left) : At s (.addons left)
  | failed {kind : ErrorKind} (hfailed : s.failed = some kind) : At s .failed

/-- What a stage still delivers of the bytes to come. -/
def Stage.payload : Stage → Incoming → Bytes
  | .header seen, inner => (seen ++ inner.bytes).drop (headerLen (seen ++ inner.bytes))
  | .addons left, inner => inner.bytes.drop left
  | .failed, _ => []

/-- The version is the accepted one, and the header is complete before the first transport
error. -/
def Stage.Accepts : Stage → Incoming → Prop
  | .header seen, inner => (seen ++ inner.bytes).head? = some 0 ∧
      headerLen (seen ++ inner.bytes) ≤ (seen ++ inner.clean).length
  | .addons left, inner => left ≤ inner.clean.length
  | .failed, _ => False

lemma at_new (inner : Incoming) : At (new inner) (.header []) :=
  .header rfl rfl rfl rfl rfl (by simp) (by simp)

/-- Two stages that come to the same. -/
structure Same (st : Stage) (inner : Incoming) (st' : Stage) (inner' : Incoming) : Prop where
  payload : st'.payload inner' = st.payload inner
  accepts : st'.Accepts inner' ↔ st.Accepts inner

lemma Same.trans {st₁ st₂ : Stage} {inner₁ inner₂ : Incoming} (h : Same st inner st₁ inner₁)
    (h' : Same st₁ inner₁ st₂ inner₂) : Same st inner st₂ inner₂ :=
  ⟨h'.payload.trans h.payload, h'.accepts.trans h.accepts⟩

lemma same_header {seen seen' : Bytes} {inner' : Incoming}
    (hbytes : seen' ++ inner'.bytes = seen ++ inner.bytes)
    (hclean : seen' ++ inner'.clean = seen ++ inner.clean) :
    Same (.header seen) inner (.header seen') inner' := by
  constructor
  · rw [Stage.payload, Stage.payload, hbytes]
  · rw [Stage.Accepts, Stage.Accepts, hbytes, hclean]

/-! ### One poll -/

/-- What a part of `poll_read` can do from a stage: get to its goal, return because an inner poll
is pending, or reject a response that is not to be accepted. -/
inductive Advances (s : ResponseStream) (st : Stage) (goal : Stage → Prop) :
    Option Poll × ResponseStream → Prop where
  | done {s' : ResponseStream} {st' : Stage} (hat : At s' st') (hgoal : goal st')
      (hsame : Same st s.inner st' s'.inner) (hweight : s'.inner.weight ≤ s.inner.weight) :
      Advances s st goal (none, s')
  | pending {s' : ResponseStream} {st' : Stage} (hat : At s' st')
      (hsame : Same st s.inner st' s'.inner) (hweight : s'.inner.weight < s.inner.weight) :
      Advances s st goal (some .pending, s')
  | failed {s' : ResponseStream} (e : IoError) (hat : At s' .failed)
      (hreject : ¬st.Accepts s.inner) : Advances s st goal (some (.ready (.error e)), s')

lemma Advances.of_same {s s₁ : ResponseStream} {st₁ : Stage} {goal : Stage → Prop}
    {r : Option Poll × ResponseStream} (hsame : Same st s.inner st₁ s₁.inner)
    (hweight : s₁.inner.weight ≤ s.inner.weight) (h : Advances s₁ st₁ goal r) :
    Advances s st goal r := by
  cases h with
  | done hat hgoal hsame' hweight' =>
    exact .done hat hgoal (hsame.trans hsame') (hweight'.trans hweight)
  | pending hat hsame' hweight' =>
    exact .pending hat (hsame.trans hsame') (hweight'.trans_le hweight)
  | failed e hat hreject => exact .failed e hat (fun h => hreject (hsame.accepts.mpr h))

/-- The header buffer holds what has been read, however it came. -/
lemma At.fill {s : ResponseStream} {seen bs : Bytes} (h : At s (.header seen))
    (hbs : bs.length ≤ 2 - s.headerRead) :
    (s.fill bs).length = 2 ∧ (s.fill bs).take (s.headerRead + bs.length) = seen ++ bs := by
  cases h with
  | header hfailed hdone hlen hread htake hle hversion =>
    constructor
    · simp only [ResponseStream.fill, List.length_append, List.length_drop, htake, hlen]
      omega
    · rw [ResponseStream.fill, htake]
      exact List.take_left' (by rw [List.length_append, hread])

/-- Before its second byte a header is not complete. -/
lemma not_accepts_of_short {seen : Bytes} (hlen : seen.length < 2) (hclean : inner.clean = []) :
    ¬(Stage.header seen).Accepts inner := by
  rintro ⟨-, hle⟩
  rw [hclean, List.append_nil, headerLen] at hle
  omega

lemma advances_readHeader {s : ResponseStream} {seen : Bytes} (h : At s (.header seen)) :
    Advances s (.header seen) (fun st => ∃ b, st = .header [0, b]) s.readHeader := by
  have hat := h
  obtain ⟨hfailed, hdone, hlen, hread, htake, hle, hversion⟩ := h
  rw [readHeader]
  by_cases hlt : s.headerRead < 2
  · have hpoll := s.inner.polls_pollRead (Nat.sub_pos_of_lt hlt)
    rw [if_pos hlt]
    revert hpoll
    generalize s.inner.pollRead (2 - s.headerRead) = polled
    obtain ⟨result, inner⟩ := polled
    intro hpoll
    cases hpoll with
    | pending hbytes hclean hweight =>
      exact .pending (.header hfailed hdone hlen hread htake hle hversion)
        (same_header (congrArg (seen ++ ·) hbytes) (congrArg (seen ++ ·) hclean)) hweight
    | error e hbytes hclean hhealthy hweight =>
      exact .failed e (.failed rfl) (not_accepts_of_short (by omega) hclean)
    | eof hnil =>
      simp only [List.length_nil, if_true]
      exact .failed _ (.failed rfl) (not_accepts_of_short (by omega) (by rw [hnil]; rfl))
    | data bs hne hcap hbytes hclean hweight =>
      have hpos : 0 < bs.length := List.length_pos_iff.mpr hne
      obtain ⟨hfill, htake'⟩ := hat.fill hcap
      simp only [hpos.ne', if_false]
      -- the first byte of the buffer is the first byte of the stream
      have hfirst : (seen ++ bs).head? = some ((s.fill bs).getD 0 0) := by
        rw [← htake', List.head?_take, if_neg (by omega), List.head?_eq_getElem?,
          List.getD_eq_getElem?_getD, List.getElem?_eq_getElem (by omega)]
        rfl
      split_ifs with hver
      · refine .failed _ (.failed rfl) ?_
        rintro ⟨hhead, -⟩
        rw [hbytes, ← List.append_assoc, List.head?_append, hfirst] at hhead
        exact hver (by simpa using hhead)
      · have hat' : At { s with
            inner := inner, header := s.fill bs, headerRead := s.headerRead + bs.length }
            (.header (seen ++ bs)) := by
          refine .header hfailed hdone hfill (by simp [hread]) htake' (by simp; omega) ?_
          intro b hb
          rw [hfirst] at hb
          have : (s.fill bs).getD 0 0 = b := by simpa using hb
          exact this ▸ not_not.mp hver
        have hsame : Same (.header seen) s.inner (.header (seen ++ bs)) inner :=
          same_header (by rw [hbytes, List.append_assoc]) (by rw [hclean, List.append_assoc])
        exact .of_same hsame hweight.le (advances_readHeader hat')
  · rw [if_neg hlt]
    obtain ⟨a, b, rfl⟩ := List.length_eq_two.mp (show seen.length = 2 by omega)
    obtain rfl := hversion a rfl
    exact .done hat ⟨b, rfl⟩ (same_header rfl rfl) le_rfl
termination_by 2 - s.headerRead

lemma same_addons {left : ℕ} {bs : Bytes} {inner' : Incoming} (hle : bs.length ≤ left)
    (hbytes : inner.bytes = bs ++ inner'.bytes) (hclean : inner.clean = bs ++ inner'.clean) :
    Same (.addons left) inner (.addons (left - bs.length)) inner' := by
  constructor
  · rw [Stage.payload, Stage.payload, hbytes, List.drop_append, List.drop_of_length_le hle,
      List.nil_append]
  · rw [Stage.Accepts, Stage.Accepts, hclean, List.length_append]
    omega

lemma advances_skipAddons {s : ResponseStream} {left : ℕ} (h : At s (.addons left)) :
    Advances s (.addons left) (fun st => st = .addons 0) s.skipAddons := by
  have hat := h
  obtain - | ⟨hfailed, hdone, hleft⟩ := h
  rw [skipAddons]
  by_cases hpos : s.addonsRemaining > 0
  · have hpoll := s.inner.polls_pollRead hpos
    rw [if_pos hpos]
    revert hpoll
    generalize s.inner.pollRead s.addonsRemaining = polled
    obtain ⟨result, inner⟩ := polled
    intro hpoll
    have hreject : s.inner.clean = [] → ¬(Stage.addons left).Accepts s.inner := by
      intro hclean hle
      rw [Stage.Accepts, hclean, List.length_nil] at hle
      omega
    cases hpoll with
    | pending hbytes hclean hweight =>
      have hsame : Same (.addons left) s.inner (.addons (left - List.length [])) inner :=
        same_addons (Nat.zero_le _) hbytes.symm hclean.symm
      exact .pending (.addons hfailed hdone hleft) hsame hweight
    | error e hbytes hclean hhealthy hweight => exact .failed e (.failed rfl) (hreject hclean)
    | eof hnil =>
      simp only [List.length_nil, if_true]
      exact .failed _ (.failed rfl) (hreject (by rw [hnil]; rfl))
    | data bs hne hcap hbytes hclean hweight =>
      have hbs : 0 < bs.length := List.length_pos_iff.mpr hne
      simp only [hbs.ne', if_false]
      have hsame := same_addons (hleft ▸ hcap) hbytes hclean
      exact .of_same hsame hweight.le
        (advances_skipAddons (.addons hfailed hdone (congrArg (· - bs.length) hleft)))
  · rw [if_neg hpos]
    obtain rfl : left = 0 := by omega
    exact .done hat rfl ⟨rfl, Iff.rfl⟩ le_rfl
termination_by s.addonsRemaining

/-- The second header byte is the length of the addons. -/
lemma same_addons_of_header (b : UInt8) (inner : Incoming) :
    Same (.header [0, b]) inner (.addons b.toNat) inner := by
  constructor
  · simp only [Stage.payload, headerLen, List.cons_append, List.nil_append,
      List.getD_cons_succ, List.getD_cons_zero]
    rw [add_comm, List.drop_succ_cons, List.drop_succ_cons]
  · simp only [Stage.Accepts, headerLen, List.cons_append, List.nil_append, List.head?_cons,
      List.getD_cons_succ, List.getD_cons_zero, List.length_cons, true_and]
    omega

lemma advances_ensureHeader {s : ResponseStream} (h : At s st) (hst : st ≠ .failed) :
    Advances s st (fun st => ∃ left, st = .addons left) s.ensureHeader := by
  cases h with
  | failed => exact absurd rfl hst
  | addons hfailed hdone hleft =>
    rw [ensureHeader, if_pos hdone]
    exact .done (.addons hfailed hdone hleft) ⟨_, rfl⟩ ⟨rfl, Iff.rfl⟩ le_rfl
  | header hfailed hdone hlen hread htake hle hversion =>
    have hhead := advances_readHeader (.header hfailed hdone hlen hread htake hle hversion)
    rw [ensureHeader, if_neg (by simp [hdone])]
    revert hhead
    generalize s.readHeader = r
    intro hhead
    cases hhead with
    | pending hat hsame hweight => exact .pending hat hsame hweight
    | failed e hat hreject => exact .failed e hat hreject
    | done hat hgoal hsame hweight =>
      rename_i s' st'
      obtain ⟨b, rfl⟩ := hgoal
      obtain ⟨hfailed', hdone', hlen', hread', htake', hle', hversion'⟩ := hat
      -- both bytes are there, so the buffer is the header
      have hbuf : s'.header = [0, b] := by
        rw [← htake', hread', List.take_of_length_le (by rw [hlen']; rfl)]
      refine .done (.addons hfailed' rfl ?_) ⟨b.toNat, rfl⟩
        (hsame.trans (same_addons_of_header b _)) hweight
      simp [hbuf]

/-- What one poll can do. A poll that fails before the payload leaves the stream failed; one that
fails in the payload passes on what the inner stream said. -/
inductive Polled (s : ResponseStream) (st : Stage) : Poll × ResponseStream → Prop where
  | pending {s' : ResponseStream} {st' : Stage} (hat : At s' st')
      (hsame : Same st s.inner st' s'.inner) (hweight : s'.inner.weight < s.inner.weight) :
      Polled s st (.pending, s')
  | failed {s' : ResponseStream} (e : IoError) (hat : At s' .failed)
      (hreject : ¬st.Accepts s.inner) : Polled s st (.ready (.error e), s')
  | error {s' : ResponseStream} (e : IoError) (hat : At s' (.addons 0))
      (hsame : Same st s.inner (.addons 0) s'.inner)
      (hweight : s'.inner.weight < s.inner.weight) : Polled s st (.ready (.error e), s')
  | data {s' : ResponseStream} (bs : Bytes) (hat : At s' (.addons 0))
      (haccepts : st.Accepts s.inner) (hpayload : st.payload s.inner = bs ++ s'.inner.bytes)
      (hweight : s'.inner.weight < s.inner.weight) (hne : bs ≠ []) :
      Polled s st (.ready (.ok bs), s')
  | eof {s' : ResponseStream} (hat : At s' (.addons 0)) (haccepts : st.Accepts s.inner)
      (hpayload : st.payload s.inner = []) (hinner : s'.inner = []) :
      Polled s st (.ready (.ok []), s')

/-- Behind the header the inner stream is passed on as it is. -/
lemma polled_inner {s s₁ : ResponseStream} (hcap : 0 < cap) (hat : At s₁ (.addons 0))
    (hsame : Same st s.inner (.addons 0) s₁.inner) (hweight : s₁.inner.weight ≤ s.inner.weight) :
    Polled s st ((s₁.inner.pollRead cap).1, { s₁ with inner := (s₁.inner.pollRead cap).2 }) := by
  obtain - | ⟨hfailed, hdone, hleft⟩ := hat
  have hpayload : st.payload s.inner = s₁.inner.bytes := hsame.payload.symm
  have haccepts : st.Accepts s.inner := hsame.accepts.mp (Nat.zero_le _)
  have hpoll := s₁.inner.polls_pollRead hcap
  revert hpoll
  generalize s₁.inner.pollRead cap = polled
  obtain ⟨result, inner⟩ := polled
  intro hpoll
  have hat' : At { s₁ with inner := inner } (.addons 0) := .addons hfailed hdone hleft
  cases hpoll with
  | pending hbytes hclean hw =>
    refine .pending hat' ?_ (hw.trans_le hweight)
    exact ⟨hbytes.trans hpayload.symm, iff_of_true (Nat.zero_le _) haccepts⟩
  | error e hbytes hclean hhealthy hw =>
    refine .error e hat' ?_ (hw.trans_le hweight)
    exact ⟨hbytes.trans hpayload.symm, iff_of_true (Nat.zero_le _) haccepts⟩
  | data bs hne hlen hbytes hclean hw =>
    exact .data bs hat' haccepts (hpayload.trans hbytes) (hw.trans_le hweight) hne
  | eof hnil => exact .eof hat' haccepts (by rw [hpayload, hnil]; rfl) hnil

lemma Polled.of_same {s s₁ : ResponseStream} {st₁ : Stage} {r : Poll × ResponseStream}
    (hsame : Same st s.inner st₁ s₁.inner) (hweight : s₁.inner.weight ≤ s.inner.weight)
    (h : Polled s₁ st₁ r) : Polled s st r := by
  cases h with
  | pending hat hsame' hw => exact .pending hat (hsame.trans hsame') (hw.trans_le hweight)
  | failed e hat hreject => exact .failed e hat fun h => hreject (hsame.accepts.mpr h)
  | error e hat hsame' hw => exact .error e hat (hsame.trans hsame') (hw.trans_le hweight)
  | data bs hat haccepts hpayload hw hne =>
    exact .data bs hat (hsame.accepts.mp haccepts) (hsame.payload.symm.trans hpayload)
      (hw.trans_le hweight) hne
  | eof hat haccepts hpayload hinner =>
    exact .eof hat (hsame.accepts.mp haccepts) (hsame.payload.symm.trans hpayload) hinner

lemma polled_pollRead {s : ResponseStream} (hcap : 0 < cap) (h : At s st) :
    Polled s st (s.pollRead cap) := by
  rw [pollRead, if_neg hcap.ne']
  by_cases hst : st = .failed
  · subst hst
    obtain - | - | ⟨hfailed⟩ := h
    simp only [hfailed]
    exact .failed _ (.failed hfailed) id
  · have hfailed : s.failed = none := by
      cases h with
      | header hfailed => exact hfailed
      | addons hfailed => exact hfailed
      | failed => exact absurd rfl hst
    have hensure := advances_ensureHeader h hst
    simp only [hfailed]
    revert hensure
    generalize s.ensureHeader = r
    intro hensure
    cases hensure with
    | pending hat hsame hweight => exact .pending hat hsame hweight
    | failed e hat hreject => exact .failed e hat hreject
    | done hat hgoal hsame hweight =>
      rename_i s₁ st₁
      obtain ⟨left, rfl⟩ := hgoal
      have hskip := advances_skipAddons hat
      refine .of_same hsame hweight ?_
      simp only
      revert hskip
      generalize s₁.skipAddons = r
      intro hskip
      cases hskip with
      | pending hat hsame hweight => exact .pending hat hsame hweight
      | failed e hat hreject => exact .failed e hat hreject
      | done hat hgoal hsame hweight =>
        subst hgoal
        exact polled_inner hcap hat hsame hweight

/-! ### Whole runs -/

/-- Everything a list of polls handed over. -/
def delivered (polls : List Poll) : Bytes := polls.flatMap Poll.bytes

lemma pollAll_cons (s : ResponseStream) (cap : ℕ) (caps : List ℕ) :
    (s.pollAll (cap :: caps)).1 =
      (s.pollRead cap).1 :: ((s.pollRead cap).2.pollAll caps).1 := rfl

section

variable (hcaps : ∀ cap ∈ caps, 0 < cap)

include hcaps

/-- Polls of a stream that is to be accepted hand over its payload from the front, and all of it
once one of them has reported the end. -/
lemma delivered_of_accepts {s : ResponseStream} (h : At s st) (haccepts : st.Accepts s.inner) :
    delivered (s.pollAll caps).1 <+: st.payload s.inner ∧
      (.ready (.ok []) ∈ (s.pollAll caps).1 →
        delivered (s.pollAll caps).1 = st.payload s.inner) ∧
      (s.inner.weight < caps.length → .ready (.ok []) ∈ (s.pollAll caps).1) := by
  induction caps generalizing s st with
  | nil => exact ⟨List.nil_prefix, by simp [pollAll], by simp⟩
  | cons cap caps ih =>
    have hpolled := polled_pollRead (hcaps cap List.mem_cons_self) h
    have hcaps' : ∀ cap ∈ caps, 0 < cap := fun c hc => hcaps c (List.mem_cons_of_mem _ hc)
    rw [pollAll_cons]
    revert hpolled
    generalize s.pollRead cap = r
    obtain ⟨result, s'⟩ := r
    intro hpolled
    simp only [delivered, List.flatMap_cons, List.mem_cons, List.length_cons] at ih ⊢
    cases hpolled with
    | failed e hat hreject => exact absurd haccepts hreject
    | pending hat hsame hweight | error _ hat hsame hweight =>
      obtain ⟨hpre, heof, hend⟩ := ih hcaps' hat (hsame.accepts.mpr haccepts)
      rw [hsame.payload] at hpre heof
      refine ⟨hpre, ?_, fun hlen => .inr (hend (by omega))⟩
      rintro (hp | hp)
      · cases hp
      · exact heof hp
    | data bs hat _ hpayload hweight hne =>
      obtain ⟨hpre, heof, hend⟩ := ih hcaps' hat (Nat.zero_le _)
      rw [hpayload]
      refine ⟨(List.prefix_append_right_inj _).mpr hpre, ?_, fun hlen => .inr (hend (by omega))⟩
      rintro (hp | hp)
      · cases hp
        exact absurd rfl hne
      · exact congrArg (bs ++ ·) (heof hp)
    | eof hat _ hpayload hinner =>
      obtain ⟨hpre, -, -⟩ := ih hcaps' hat (Nat.zero_le _)
      have hnil : (s'.pollAll caps).1.flatMap Poll.bytes = [] := by
        rw [hinner] at hpre
        exact List.prefix_nil.mp hpre
      rw [hpayload, hnil]
      exact ⟨List.prefix_rfl, fun _ => rfl, fun _ => .inl rfl⟩

lemma isError_of_failed {s : ResponseStream} (h : At s .failed) :
    ∀ p ∈ (s.pollAll caps).1, p.isError := by
  induction caps generalizing s with
  | nil => simp [pollAll]
  | cons cap caps ih =>
    have hcap := hcaps cap List.mem_cons_self
    obtain - | - | @⟨kind, hfailed⟩ := h
    have hpoll : s.pollRead cap = (.ready (.error ⟨kind, "Invalid VLESS response"⟩), s) := by
      rw [pollRead, if_neg hcap.ne', hfailed]
    rw [pollAll_cons, hpoll]
    intro p hp
    rcases List.mem_cons.mp hp with rfl | hp
    · rfl
    · exact ih (fun c hc => hcaps c (List.mem_cons_of_mem _ hc)) (.failed hfailed) p hp

/-- Polls of a stream that is not to be accepted are pending or fail, and fail from the first
failure on. -/
lemma isError_of_rejects {s : ResponseStream} (h : At s st) (hreject : ¬st.Accepts s.inner) :
    (∀ bs, .ready (.ok bs) ∉ (s.pollAll caps).1) ∧
      (s.pollAll caps).1.Pairwise (fun p q => p.isError → q.isError) ∧
      (s.inner.weight < caps.length → ∃ p ∈ (s.pollAll caps).1, p.isError) := by
  induction caps generalizing s st with
  | nil => exact ⟨by simp [pollAll], .nil, by simp⟩
  | cons cap caps ih =>
    have hpolled := polled_pollRead (hcaps cap List.mem_cons_self) h
    have hcaps' : ∀ cap ∈ caps, 0 < cap := fun c hc => hcaps c (List.mem_cons_of_mem _ hc)
    rw [pollAll_cons]
    revert hpolled
    generalize s.pollRead cap = r
    obtain ⟨result, s'⟩ := r
    intro hpolled
    simp only [List.length_cons, List.mem_cons, not_or] at ih ⊢
    cases hpolled with
    | data bs hat haccepts => exact absurd haccepts hreject
    | eof hat haccepts => exact absurd haccepts hreject
    | error e hat hsame => exact absurd (hsame.accepts.mp (Nat.zero_le _)) hreject
    | pending hat hsame hweight =>
      obtain ⟨hok, hpair, hend⟩ := ih hcaps' hat fun ha => hreject (hsame.accepts.mp ha)
      refine ⟨fun bs => ⟨nofun, hok bs⟩, List.pairwise_cons.mpr ⟨fun q _ => nofun, hpair⟩, ?_⟩
      intro hlen
      obtain ⟨p, hp, herr⟩ := hend (by omega)
      exact ⟨p, .inr hp, herr⟩
    | failed e hat _ =>
      obtain ⟨hok, hpair, -⟩ := ih hcaps' hat id
      refine ⟨fun bs => ⟨nofun, hok bs⟩, List.pairwise_cons.mpr ⟨fun q hq _ => ?_, hpair⟩, ?_⟩
      · exact isError_of_failed hcaps' hat q hq
      · exact fun _ => ⟨_, .inl rfl, rfl⟩

end

lemma delivered_eq_nil {polls : List Poll} (h : ∀ bs, .ready (.ok bs) ∉ polls) :
    delivered polls = [] := by
  rw [delivered, List.flatMap_eq_nil_iff]
  intro p hp
  match p with
  | .pending => rfl
  | .ready (.error e) => rfl
  | .ready (.ok bs) => exact absurd hp (h bs)

/-- The response stream is transparent behind its header. Behind an accepted version what the
polls deliver is the beginning of what follows header and addons, all of it once the end has been
reported, and the end of a stream without errors is reported. When the version is wrong, or
header and addons are not complete before the stream ends or fails, nothing is delivered, some
poll fails, and so does every later one. -/
theorem response_transparent (inner : Incoming) (caps : List ℕ) (hcaps : ∀ cap ∈ caps, 1 ≤ cap) :
    (inner.bytes.head? = some 0 →
      delivered ((new inner).pollAll caps).1 <+: inner.bytes.drop (headerLen inner.bytes) ∧
      (.ready (.ok []) ∈ ((new inner).pollAll caps).1 →
        delivered ((new inner).pollAll caps).1 = inner.bytes.drop (headerLen inner.bytes)) ∧
      (inner.Healthy → inner.weight < caps.length →
        delivered ((new inner).pollAll caps).1 = inner.bytes.drop (headerLen inner.bytes))) ∧
    (inner.bytes.head? ≠ some 0 ∨ inner.clean.length < headerLen inner.bytes →
      delivered ((new inner).pollAll caps).1 = [] ∧
      ((new inner).pollAll caps).1.Pairwise (fun p q => p.isError → q.isError) ∧
      (inner.weight < caps.length → ∃ p ∈ ((new inner).pollAll caps).1, p.isError)) := by
  have hat := at_new inner
  constructor
  · intro hversion
    by_cases hlen : headerLen inner.bytes ≤ inner.clean.length
    · obtain ⟨hpre, heof, hend⟩ :=
        delivered_of_accepts hcaps hat ⟨hversion, hlen⟩
      exact ⟨hpre, heof, fun _ hpolls => heof (hend hpolls)⟩
    · -- nothing is delivered, and a stream without errors has nothing behind its header
      obtain ⟨hok, -, -⟩ := isError_of_rejects hcaps hat fun h => hlen h.2
      rw [delivered_eq_nil hok]
      refine ⟨List.nil_prefix, fun hp => absurd hp (hok []), fun hhealthy _ => ?_⟩
      rw [hhealthy.clean_eq] at hlen
      exact (List.drop_eq_nil_of_le (by omega)).symm
  · intro hbad
    have hreject : ¬(Stage.header []).Accepts (new inner).inner := by
      rintro ⟨hversion, hlen⟩
      rcases hbad with hbad | hbad
      · exact hbad hversion
      · exact hbad.not_ge hlen
    obtain ⟨hok, hpair, hend⟩ := isError_of_rejects hcaps hat hreject
    exact ⟨delivered_eq_nil hok, hpair, hend⟩

theorem response_transparent_one_byte :
    delivered ((new [.data 0 [1], .pending, .data 9 [5]]).pollAll [1, 1, 1, 1, 1, 1, 1, 1]).1 =
      [5] := by
  have h := response_transparent [.data 0 [1], .pending, .data 9 [5]] [1, 1, 1, 1, 1, 1, 1, 1]
    (by decide)
  exact (h.1 rfl).2.2 (by simp [Incoming.Healthy, Event.isError]) (by decide)

end ResponseStream

end RustDesk.Vless
