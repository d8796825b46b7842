import Mathlib.Tactic

/-!
# Sockets as the code reads them

`std::io` errors and the reading half of a stream: what the peer sends arrives in pieces, with
polls that find nothing yet and with transport errors in between. `pollRead` is one
`AsyncRead::poll_read`; `readExact` is the future of `AsyncReadExt::read_exact`, which polls
until its buffer is full.
-/

namespace RustDesk

abbrev Bytes := List UInt8

/-- Kinds of `std::io::ErrorKind` the code names; the further ones are numbered, `Other` first. -/
inductive ErrorKind where
  | unexpectedEof
  | invalidData
  | invalidInput
  | other (code : ℕ)
  deriving DecidableEq

structure IoError where
  kind : ErrorKind
  message : String
  deriving DecidableEq

/-- What one poll of a socket can meet. A piece of data is never empty: a read of no bytes is
the end of the stream. -/
inductive Event where
  | pending
  | data (b : UInt8) (bs : Bytes)
  | error (e : IoError)
  deriving DecidableEq

/-- What is still to come from a socket, in order; after the last event the stream has ended. -/
abbrev Incoming := List Event

/-- The outcome of `poll_read`: `ready (.ok [])` is the end of the stream. -/
inductive Poll where
  | pending
  | ready (result : Except IoError Bytes)

/-- The data a poll hands over; none while it is pending or fails. -/
def Poll.bytes : Poll → Bytes
  | .ready (.ok bs) => bs
  | _ => []

def Poll.isError : Poll → Bool
  | .ready (.error _) => true
  | _ => false

def Event.bytes : Event → Bytes
  | .data b bs => b :: bs
  | _ => []

def Event.isError : Event → Bool
  | .error _ => true
  | _ => false

namespace Incoming

variable {s : Incoming}

/-- Every byte that is still to come. -/
def bytes (s : Incoming) : Bytes := s.flatMap Event.bytes

@[simp] lemma bytes_pending (s : Incoming) : bytes (.pending :: s) = bytes s := rfl

@[simp] lemma bytes_error (e : IoError) (s : Incoming) : bytes (.error e :: s) = bytes s := rfl

@[simp] lemma bytes_data (b : UInt8) (bs : Bytes) (s : Incoming) :
    bytes (.data b bs :: s) = b :: bs ++ bytes s := rfl

/-- A piece of data put back in front; nothing if it has been read to its end. -/
def unread : Bytes → Incoming → Incoming
  | [], s => s
  | b :: bs, s => .data b bs :: s

@[simp] lemma bytes_unread (bs : Bytes) (s : Incoming) : bytes (unread bs s) = bs ++ bytes s := by
  cases bs <;> rfl

/-- `poll_read` with room for `cap` bytes. -/
def pollRead (cap : ℕ) : Incoming → Poll × Incoming
  | [] => (.ready (.ok []), [])
  | .pending :: s => (.pending, s)
  | .error e :: s => (.ready (.error e), s)
  | .data b bs :: s => (.ready (.ok ((b :: bs).take cap)), unread ((b :: bs).drop cap) s)

/-- `read_exact` into a buffer of `n` bytes, awaited to its end. -/
def readExact : ℕ → Incoming → Except IoError (Bytes × Incoming)
  | 0, s => .ok ([], s)
  | _ + 1, [] => .error ⟨.unexpectedEof, "early eof"⟩
  | n + 1, .pending :: s => readExact (n + 1) s
  | _ + 1, .error e :: _ => .error e
  | n + 1, .data b bs :: s =>
    if n + 1 ≤ bs.length + 1 then
      .ok ((b :: bs).take (n + 1), unread ((b :: bs).drop (n + 1)) s)
    else do
      let (rest, s) ← readExact (n - bs.length) s
      return (b :: bs ++ rest, s)

/-- No transport error is still to come. -/
def Healthy (s : Incoming) : Prop := ∀ e ∈ s, e.isError = false

lemma Healthy.tail {e : Event} (h : Healthy (e :: s)) : Healthy s :=
  fun d hd => h d (List.mem_cons_of_mem _ hd)

lemma Healthy.unread (h : Healthy s) (bs : Bytes) : Healthy (unread bs s) := by
  cases bs with
  | nil => exact h
  | cons b bs =>
    intro e he
    rcases List.mem_cons.mp he with rfl | he
    · rfl
    · exact h e he

/-- However the stream is cut into pieces, `read_exact` takes the next `n` bytes. -/
lemma readExact_append (hs : s.Healthy) {a rest : Bytes} (h : s.bytes = a ++ rest) :
    ∃ s', s.readExact a.length = .ok (a, s') ∧ s'.bytes = rest ∧ Healthy s' := by
  induction s generalizing a with
  | nil =>
    obtain ⟨rfl, rfl⟩ := List.append_eq_nil_iff.mp h.symm
    exact ⟨[], rfl, rfl, hs⟩
  | cons e s ih =>
    cases a with
    | nil => exact ⟨e :: s, rfl, h, hs⟩
    | cons c a =>
      cases e with
      | pending => exact ih hs.tail h
      | error e => exact absurd (hs (.error e) List.mem_cons_self) (by simp [Event.isError])
      | data b bs =>
        simp only [List.length_cons, readExact]
        rw [bytes_data] at h
        have hpre : c :: a <+: b :: bs ++ bytes s := h ▸ List.prefix_append _ _
        split_ifs with hle
        · -- the piece holds all that is asked for
          obtain ⟨t, ht⟩ : c :: a <+: b :: bs :=
            List.prefix_of_prefix_length_le hpre (List.prefix_append _ _) hle
          have hrest : t ++ bytes s = rest := by
            rw [← ht, List.append_assoc] at h
            exact List.append_cancel_left h
          refine ⟨unread t s, ?_, by rw [bytes_unread, hrest], hs.tail.unread t⟩
          rw [← ht, List.take_left' (by simp), List.drop_left' (by simp)]
        · obtain ⟨t, ht⟩ : b :: bs <+: c :: a :=
            List.prefix_of_prefix_length_le (List.prefix_append _ _) hpre (by simp; omega)
          have hrest : bytes s = t ++ rest := by
            rw [← ht, List.append_assoc] at h
            exact List.append_cancel_left h
          have hlen : t.length = a.length - bs.length := by
            have := congrArg List.length ht
            simp only [List.length_cons, List.length_append] at this
            omega
          obtain ⟨s', hread, hbytes, hs'⟩ := ih hs.tail hrest
          refine ⟨s', ?_, hbytes, hs'⟩
          rw [← hlen, hread, ← ht]
          rfl

/-- The bytes that come before the first transport error. -/
def clean : Incoming → Bytes
  | [] => []
  | .pending :: s => clean s
  | .data b bs :: s => b :: bs ++ clean s
  | .error _ :: _ => []

lemma Healthy.clean_eq (h : s.Healthy) : s.clean = s.bytes := by
  induction s with
  | nil => rfl
  | cons e s ih =>
    cases e with
    | pending => exact ih h.tail
    | error e => exact absurd (h (.error e) List.mem_cons_self) (by simp [Event.isError])
    | data b bs => exact congrArg (b :: bs ++ ·) (ih h.tail)

/-- Bounds the polls that are left before the end of the stream. -/
def weight (s : Incoming) : ℕ := s.length + s.bytes.length

/-- What a poll with room for `cap` bytes, at least one, can do. -/
inductive Polls (cap : ℕ) (s : Incoming) : Poll → Incoming → Prop where
  | pending {s' : Incoming} (hbytes : s'.bytes = s.bytes) (hclean : s'.clean = s.clean)
      (hweight : s'.weight < s.weight) : Polls cap s .pending s'
  | error {s' : Incoming} (e : IoError) (hbytes : s'.bytes = s.bytes) (hclean : s.clean = [])
      (hhealthy : ¬s.Healthy) (hweight : s'.weight < s.weight) :
      Polls cap s (.ready (.error e)) s'
  | data {s' : Incoming} (bs : Bytes) (hne : bs ≠ []) (hlen : bs.length ≤ cap)
      (hbytes : s.bytes = bs ++ s'.bytes) (hclean : s.clean = bs ++ s'.clean)
      (hweight : s'.weight < s.weight) : Polls cap s (.ready (.ok bs)) s'
  | eof (hs : s = []) : Polls cap s (.ready (.ok [])) s

lemma clean_unread (bs : Bytes) (s : Incoming) : clean (unread bs s) = bs ++ clean s := by
  cases bs <;> rfl

lemma polls_pollRead {cap : ℕ} (hcap : 0 < cap) (s : Incoming) :
    s.Polls cap (s.pollRead cap).1 (s.pollRead cap).2 := by
  cases s with
  | nil => exact .eof rfl
  | cons e s =>
    cases e with
    | pending => exact .pending rfl rfl (by simp [weight, pollRead])
    | error e =>
      refine .error e rfl rfl (fun h => ?_) (by simp [weight, pollRead])
      have := h (.error e) List.mem_cons_self
      simp [Event.isError] at this
    | data b bs =>
      obtain ⟨cap, rfl⟩ : ∃ k, cap = k + 1 := ⟨cap - 1, by omega⟩
      refine .data _ (by simp) (List.length_take_le _ _) ?_ ?_ ?_
      · simp only [pollRead, bytes_unread, bytes_data, ← List.append_assoc,
          List.take_append_drop]
      · simp only [pollRead, clean_unread, clean, ← List.append_assoc, List.take_append_drop]
      · have hlen : (unread ((b :: bs).drop (cap + 1)) s).length ≤ s.length + 1 := by
          cases (b :: bs).drop (cap + 1) <;> simp [unread]
        simp only [pollRead, weight, bytes_unread, bytes_data, List.length_append,
          List.length_drop, List.length_cons] at hlen ⊢
        omega

end Incoming

end RustDesk
