import Mathlib.Tactic

/-!
# Framed streams that arrive in pieces

The messages of a stream are encoded one after the other (`wire`). Of the stream some bytes have
arrived; `Cut` splits these into the messages that are complete and the beginning of the next
one. A decoder that is right about one piece of the stream is right about every segmentation of
it (`feedAll_cut`), and the messages it has given out are the ones whose last byte has arrived
(`Cut.le_length_iff`).
-/

namespace Framing

variable {α β σ ε : Type*} (enc : α → List β)

/-- The encodings of a list of messages, one after the other. -/
def wire (ps : List α) : List β := ps.flatMap enc

@[simp] lemma wire_nil : wire enc [] = [] := rfl

@[simp] lemma wire_cons (p : α) (ps : List α) : wire enc (p :: ps) = enc p ++ wire enc ps :=
  List.flatMap_cons

@[simp] lemma wire_append (ps qs : List α) :
    wire enc (ps ++ qs) = wire enc ps ++ wire enc qs := List.flatMap_append

/-- `part` is the beginning of the stream of `ps` and does not reach the end of its first
message. -/
structure Unfinished (ps : List α) (part : List β) : Prop where
  begun : part <+: wire enc ps
  short : ∀ p ∈ ps.head?, part.length < (enc p).length

/-- What has arrived of the stream of `ps` is the messages `done` and a beginning `part` of the
messages `todo`. -/
structure Cut (ps : List α) (w : List β) (done todo : List α) (part : List β) : Prop where
  messages : ps = done ++ todo
  arrived : w = wire enc done ++ part
  unfinished : Unfinished enc todo part

variable {enc} {ps done todo done' todo' : List α} {w part part' chunk : List β}

lemma Unfinished.cut (h : Unfinished enc ps part) : Cut enc ps part [] ps part :=
  ⟨rfl, rfl, h⟩

/-- One more message in front. -/
lemma Cut.cons (p : α) (h : Cut enc ps w done todo part) :
    Cut enc (p :: ps) (enc p ++ w) (p :: done) todo part where
  messages := by rw [h.messages, List.cons_append]
  arrived := by rw [h.arrived, wire_cons, List.append_assoc]
  unfinished := h.unfinished

lemma Cut.trans (h : Cut enc ps w done todo part)
    (h' : Cut enc todo (part ++ chunk) done' todo' part') :
    Cut enc ps (w ++ chunk) (done ++ done') todo' part' where
  messages := by rw [h.messages, h'.messages, List.append_assoc]
  arrived := by
    rw [h.arrived, List.append_assoc, h'.arrived, wire_append, List.append_assoc]
  unfinished := h'.unfinished

/-- When the whole stream is there, every message is complete. -/
lemma Cut.eq_of_wire (h : Cut enc ps (wire enc ps) done todo part) :
    done = ps ∧ todo = [] ∧ part = [] := by
  have hpart : part = wire enc todo := by
    have := h.arrived
    rw [h.messages, wire_append] at this
    exact (List.append_cancel_left this).symm
  cases todo with
  | nil => exact ⟨by rw [h.messages, List.append_nil], rfl, hpart⟩
  | cons p todo =>
    have hlt := h.unfinished.short p rfl
    rw [hpart, wire_cons, List.length_append] at hlt
    omega

/-- The first `k` messages are complete exactly when all their bytes have arrived. -/
lemma Cut.le_length_iff (h : Cut enc ps w done todo part) {k : ℕ} (hk : k ≤ ps.length) :
    k ≤ done.length ↔ (wire enc (ps.take k)).length ≤ w.length := by
  have hw : w.length = (wire enc done).length + part.length := by
    rw [h.arrived, List.length_append]
  constructor
  · intro hle
    have hsplit := congrArg (fun l => (wire enc l).length) (List.take_append_drop k done)
    simp only [wire_append, List.length_append] at hsplit
    rw [h.messages, List.take_append_of_le_length hle]
    omega
  · intro hle
    by_contra hlt
    cases todo with
    | nil =>
      rw [h.messages, List.append_nil] at hk
      exact hlt hk
    | cons p todo =>
      -- the next message is among the first `k`, and it is not complete
      have hshort := h.unfinished.short p rfl
      obtain ⟨j, hj⟩ : ∃ j, k = done.length + (j + 1) := ⟨k - done.length - 1, by omega⟩
      rw [h.messages, hj, List.take_length_add_append, List.take_succ_cons, wire_append,
        wire_cons, List.length_append, List.length_append] at hle
      omega

/-! ### Decoders -/

/-- Feed the pieces of a stream one by one and collect what each gives. -/
def feedAll (feed : σ → List β → Except ε (List α × σ)) :
    σ → List (List β) → Except ε (List α × σ)
  | s, [] => .ok ([], s)
  | s, chunk :: chunks => do
    let (ps, s) ← feed s chunk
    let (qs, s) ← feedAll feed s chunks
    return (ps ++ qs, s)

/-- The segmentation rule: `Holds s part` says that the decoder in state `s` has taken in the
beginning `part` of a message. If one piece takes it from each such state to another, with the
messages the piece completes, so does any list of pieces. -/
lemma feedAll_cut {feed : σ → List β → Except ε (List α × σ)} (Holds : σ → List β → Prop)
    {ok : α → Prop}
    (hfeed : ∀ s part ps chunk, Holds s part → (∀ p ∈ ps, ok p) → Unfinished enc ps part →
      part ++ chunk <+: wire enc ps → ∃ done todo part' s',
        feed s chunk = .ok (done, s') ∧ Cut enc ps (part ++ chunk) done todo part' ∧
          Holds s' part')
    {chunks : List (List β)} {s : σ} (hs : Holds s part) (hok : ∀ p ∈ ps, ok p)
    (hpart : Unfinished enc ps part) (hw : part ++ chunks.flatten <+: wire enc ps) :
    ∃ done todo part' s', feedAll feed s chunks = .ok (done, s') ∧
      Cut enc ps (part ++ chunks.flatten) done todo part' ∧ Holds s' part' := by
  induction chunks generalizing s part ps with
  | nil =>
    rw [List.flatten_nil, List.append_nil]
    exact ⟨[], ps, part, s, rfl, hpart.cut, hs⟩
  | cons chunk chunks ih =>
    rw [List.flatten_cons, ← List.append_assoc] at hw ⊢
    obtain ⟨done, todo, part₁, s₁, h₁, hcut₁, hs₁⟩ :=
      hfeed s part ps chunk hs hok hpart ((List.prefix_append _ _).trans hw)
    have htodo : ∀ p ∈ todo, ok p := fun p hp =>
      hok p (by rw [hcut₁.messages]; exact List.mem_append_right _ hp)
    have hw₁ : part₁ ++ chunks.flatten <+: wire enc todo := by
      rw [hcut₁.arrived, hcut₁.messages, wire_append, List.append_assoc] at hw
      exact (List.prefix_append_right_inj _).mp hw
    obtain ⟨done₂, todo₂, part₂, s₂, h₂, hcut₂, hs₂⟩ := ih hs₁ htodo hcut₁.unfinished hw₁
    refine ⟨done ++ done₂, todo₂, part₂, s₂, ?_, hcut₁.trans hcut₂, hs₂⟩
    rw [feedAll, h₁]
    change (feedAll feed s₁ chunks >>= _) = _
    rw [h₂]
    rfl

end Framing
