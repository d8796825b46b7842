import RustDesk.Lib.Glob
import Mathlib.Data.List.DropRight

/-!
# The ID whitelist

A controller is let in when an entry of the whitelist matches its id, or the part of it before the
first `@`. The matcher walks over pattern and text with one position in each; it remembers the last
star, and when it is stuck it gives that star one more character of the text. Earlier stars are
forgotten: what they could still take, the last one can take as well.
-/

namespace RustDesk.Login

variable {c : Char}

open Glob

abbrev Text := List Char

/-- The characters with the property `White_Space`. -/
def isWhitespace (c : Char) : Bool :=
  let n := c.toNat
  0x9 ≤ n && n ≤ 0xd || n == 0x20 || n == 0x85 || n == 0xa0 || n == 0x1680 ||
    0x2000 ≤ n && n ≤ 0x200a || n == 0x2028 || n == 0x2029 || n == 0x202f || n == 0x205f ||
    n == 0x3000

def trim (s : Text) : Text := (s.dropWhile isWhitespace).rdropWhile isWhitespace

/-- The positions in pattern and text. For the last star there is the position in the pattern after
it, and the one in the text up to which the star takes. -/
structure Scan where
  pi : ℕ
  ti : ℕ
  star : Option (ℕ × ℕ)
  le : ∀ s ∈ star, s.2 ≤ ti

namespace Scan

def start : Scan := ⟨0, 0, none, fun _ h => by cases h⟩

/-- The loop's body; `none` is `return false`. -/
def next (p t : Text) (s : Scan) : Option Scan :=
  if p[s.pi]? = some '*' then
    some ⟨s.pi + 1, s.ti, some (s.pi + 1, s.ti), fun _ h => by cases h; exact le_rfl⟩
  else if p[s.pi]? = some '?' ∨ p[s.pi]? = t[s.ti]? then
    some ⟨s.pi + 1, s.ti + 1, s.star, fun x h => (s.le x h).trans (Nat.le_succ _)⟩
  else
    s.star.map fun x => ⟨x.1, x.2 + 1, some (x.1, x.2 + 1), fun _ h => by cases h; exact le_rfl⟩

/-- The text that the last star has not taken, the text and the pattern that are left. -/
def rank (p t : Text) (s : Scan) : ℕ ×ₗ ℕ ×ₗ ℕ :=
  toLex ((s.star.map fun x => t.length - x.2).getD (t.length + 1),
    toLex (t.length - s.ti, p.length - s.pi))

/-- What a pass of the loop does. -/
inductive Next (p t : Text) (s : Scan) : Scan → Prop where
  | star {h} (hp : p[s.pi]? = some '*') :
    Next p t s ⟨s.pi + 1, s.ti, some (s.pi + 1, s.ti), h⟩
  | one {h} (hstar : p[s.pi]? ≠ some '*') (hp : p[s.pi]? = some '?' ∨ p[s.pi]? = t[s.ti]?) :
    Next p t s ⟨s.pi + 1, s.ti + 1, s.star, h⟩
  | back {sp st h} (hstar : p[s.pi]? ≠ some '*')
    (hp : ¬(p[s.pi]? = some '?' ∨ p[s.pi]? = t[s.ti]?)) (hs : s.star = some (sp, st)) :
    Next p t s ⟨sp, st + 1, some (sp, st + 1), h⟩

variable {p t : Text} {s s' : Scan}

lemma next_cases (h : s.next p t = some s') : Next p t s s' := by
  rw [next] at h
  split_ifs at h with hstar hone
  · cases h
    exact .star hstar
  · cases h
    exact .one hstar hone
  · obtain ⟨⟨sp, st⟩, hs, rfl⟩ := Option.map_eq_some_iff.mp h
    exact .back hstar hone hs

lemma next_eq_none (h : s.next p t = none) :
    p[s.pi]? ≠ some '*' ∧ ¬(p[s.pi]? = some '?' ∨ p[s.pi]? = t[s.ti]?) ∧ s.star = none := by
  rw [next] at h
  split_ifs at h with hstar hone
  exact ⟨hstar, hone, Option.map_eq_none_iff.mp h⟩

lemma rank_next (hlt : s.ti < t.length) (h : s.next p t = some s') : s'.rank p t < s.rank p t := by
  cases next_cases h with
  | star hp =>
    have hpi : s.pi < p.length := (List.getElem?_eq_some_iff.mp hp).1
    simp only [rank, Prod.Lex.toLex_lt_toLex, Option.map_some, Option.getD_some]
    cases hs : s.star with
    | none =>
      left
      simp only [Option.map_none, Option.getD_none]
      omega
    | some x =>
      have := s.le x hs
      simp only [Option.map_some, Option.getD_some, true_and, lt_self_iff_false, false_or]
      omega
  | one hstar hp =>
    simp only [rank, Prod.Lex.toLex_lt_toLex, lt_self_iff_false, true_and, false_or]
    omega
  | back hstar hp hs =>
    have := s.le _ hs
    simp only [rank, Prod.Lex.toLex_lt_toLex, hs, Option.map_some, Option.getD_some]
    omega

end Scan

/-- Both loops of `wildcard_match`, from a position on. -/
def scan (p t : Text) (s : Scan) : Bool :=
  if hlt : s.ti < t.length then
    match h : s.next p t with
    | some s' => scan p t s'
    | none => false
  else
    ((p.drop s.pi).dropWhile (· = '*')).isEmpty
termination_by s.rank p t
decreasing_by exact Scan.rank_next hlt h

/-- The tables of `to_lowercase` are those of the standard library. -/
def wildcardMatch (toLowercase : Text → Text) (pattern text : Text) : Bool :=
  scan (toLowercase (trim pattern)) (toLowercase (trim text)) .start

/-- An empty whitelist allows everyone. -/
def idWhitelistAllows (toLowercase : Text → Text) (idWhitelist : List Text) (myId : Text) : Bool :=
  if idWhitelist.isEmpty then true
  else
    let bareId := (myId.splitOn '@').head?.getD myId
    idWhitelist.any fun x => wildcardMatch toLowercase x myId || wildcardMatch toLowercase x bareId

/-! ### The language -/

def token (c : Char) : Token Char :=
  if c = '*' then .star else if c = '?' then .any else .lit c

def pattern (p : Text) : List (Token Char) := p.map token

lemma token_eq_star : token c = .star ↔ c = '*' := by
  rw [token]
  split_ifs with h h' <;> simp [h]

lemma takes_token {a : Char} (h : c ≠ '*') : (token c).Takes a ↔ c = '?' ∨ c = a := by
  rw [token, if_neg h]
  split_ifs with h'
  · exact iff_of_true trivial (.inl h')
  · exact ⟨.inr, fun hor => hor.resolve_left h'⟩

section Correctness

variable {p t : Text} {s s' : Scan} {n : ℕ}

lemma pattern_drop (h : p[n]? = some c) :
    (pattern p).drop n = token c :: (pattern p).drop (n + 1) := by
  obtain ⟨hlt, rfl⟩ := List.getElem?_eq_some_iff.mp h
  rw [List.drop_eq_getElem_cons (by simpa [pattern] using hlt)]
  simp [pattern]

lemma pattern_drop_nil (h : p[n]? = none) : (pattern p).drop n = [] := by
  apply List.drop_eq_nil_of_le
  simpa [pattern] using List.getElem?_eq_none_iff.mp h

/-- Since the last star, pattern and text have gone on side by side, and there was no other star. -/
structure Aligned (p t : Text) (s : Scan) : Prop where
  within : s.ti ≤ t.length
  segment : ∀ sp st, s.star = some (sp, st) → ∃ n, s.pi = sp + n ∧ s.ti = st + n ∧
    s.pi ≤ p.length ∧ .star ∉ ((pattern p).drop sp).take n

/-- What is left may match where it is, or with the last star taking more. -/
def Open (p t : Text) (s : Scan) : Prop :=
  Matches ((pattern p).drop s.pi) (t.drop s.ti) ∨
    ∃ sp st, s.star = some (sp, st) ∧ ∃ k, st < k ∧ k ≤ t.length ∧
      Matches ((pattern p).drop sp) (t.drop k)

/-- If the last star takes more, the segment after it ends further on. -/
lemma Aligned.advance (h : Aligned p t s) {sp st k : ℕ} (hs : s.star = some (sp, st))
    (hk : st < k) (hle : k ≤ t.length) (hm : Matches ((pattern p).drop sp) (t.drop k)) :
    ∃ n, s.ti < n ∧ n ≤ t.length ∧ Matches ((pattern p).drop s.pi) (t.drop n) := by
  obtain ⟨n, hpi, hti, hlen, hseg⟩ := h.segment sp st hs
  have hsplit : (pattern p).drop sp = ((pattern p).drop sp).take n ++ (pattern p).drop s.pi := by
    rw [hpi, ← List.drop_drop, List.take_append_drop]
  have hlength : (((pattern p).drop sp).take n).length = n := by
    simp only [pattern, List.length_take, List.length_drop, List.length_map]
    omega
  rw [hsplit] at hm
  obtain ⟨hfits, hrest⟩ := hm.drop_of_append hseg
  rw [hlength, List.length_drop] at hfits
  rw [hlength, List.drop_drop] at hrest
  exact ⟨k + n, by omega, by omega, hrest⟩

lemma Aligned.next (h : Aligned p t s) (hlt : s.ti < t.length) (hn : s.next p t = some s') :
    Aligned p t s' := by
  cases Scan.next_cases hn with
  | star hp =>
    refine ⟨h.within, fun sp st hs => ?_⟩
    cases hs
    have hpi := (List.getElem?_eq_some_iff.mp hp).1
    exact ⟨0, rfl, rfl, hpi, by simp⟩
  | one hstar hp =>
    refine ⟨hlt, fun sp st hs => ?_⟩
    obtain ⟨n, hpi, hti, hle, hseg⟩ := h.segment sp st hs
    have hsome : ∃ c, p[s.pi]? = some c := by
      rcases hp with hp | hp
      · exact ⟨_, hp⟩
      · exact ⟨_, hp.trans (List.getElem?_eq_getElem hlt)⟩
    obtain ⟨c, hc⟩ := hsome
    refine ⟨n + 1, by simp only [hpi, Nat.add_assoc], by simp only [hti, Nat.add_assoc], ?_, ?_⟩
    · exact (List.getElem?_eq_some_iff.mp hc).1
    · have hget : ((pattern p).drop sp)[n]? = some (token c) := by
        rw [List.getElem?_drop, ← hpi, pattern, List.getElem?_map, hc, Option.map_some]
      rw [List.take_add_one, hget, List.mem_append]
      rintro (hmem | hmem)
      · exact hseg hmem
      · rw [Option.toList_some, List.mem_singleton] at hmem
        rw [token_eq_star.mp hmem.symm] at hc
        exact hstar hc
  | back hstar hp hs =>
    have hle := s.le _ hs
    obtain ⟨n, hpi, hti, hlen, -⟩ := h.segment _ _ hs
    refine ⟨by simp only at hle ⊢; omega, fun sp st hs' => ?_⟩
    cases hs'
    exact ⟨0, rfl, rfl, by simp only; omega, by simp⟩

/-- Neither a star nor the next character: nothing matches here. -/
lemma not_matches_stuck (hlt : s.ti < t.length) (hstar : p[s.pi]? ≠ some '*')
    (hp : ¬(p[s.pi]? = some '?' ∨ p[s.pi]? = t[s.ti]?)) :
    ¬Matches ((pattern p).drop s.pi) (t.drop s.ti) := by
  rw [List.drop_eq_getElem_cons hlt]
  cases hc : p[s.pi]? with
  | none =>
    rw [pattern_drop_nil hc]
    exact not_matches_nil_cons
  | some c =>
    rw [hc, List.getElem?_eq_getElem hlt, Option.some_inj, Option.some_inj] at hp
    rw [hc, ne_eq, Option.some_inj] at hstar
    rw [pattern_drop hc, matches_cons_cons_iff (mt token_eq_star.mp hstar), takes_token hstar]
    exact fun h => hp h.1

/-- A pass of the loop loses no match and makes none. -/
lemma open_next (h : Aligned p t s) (hlt : s.ti < t.length) (hn : s.next p t = some s') :
    Open p t s ↔ Open p t s' := by
  cases Scan.next_cases hn with
  | star hp =>
    -- the earlier star is forgotten: this one takes what it could have taken
    have hhere : Open p t s ↔ Matches ((pattern p).drop s.pi) (t.drop s.ti) := by
      refine ⟨?_, .inl⟩
      rintro (hm | ⟨sp, st, hs, k, hk, hle, hm⟩)
      · exact hm
      · obtain ⟨n, hn, hle, hm⟩ := h.advance hs hk hle hm
        rw [pattern_drop hp, token_eq_star.mpr rfl] at hm ⊢
        refine hm.star_suffix ?_
        rw [← Nat.add_sub_cancel' hn.le, ← List.drop_drop]
        exact List.drop_suffix _ _
    rw [hhere, pattern_drop hp, token_eq_star.mpr rfl, matches_star_iff]
    constructor
    · rintro ⟨n, hle, hm⟩
      rw [List.drop_drop] at hm
      rw [List.length_drop] at hle
      cases n with
      | zero => exact .inl hm
      | succ n => exact .inr ⟨_, _, rfl, s.ti + (n + 1), by omega, by omega, hm⟩
    · rintro (hm | ⟨sp, st, hs, k, hk, hle, hm⟩)
      · exact ⟨0, Nat.zero_le _, hm⟩
      · cases hs
        refine ⟨k - s.ti, ?_, ?_⟩
        · rw [List.length_drop]
          omega
        · rwa [List.drop_drop, Nat.add_sub_cancel' hk.le]
  | one hstar hp =>
    obtain ⟨c, hc, htakes⟩ : ∃ c, p[s.pi]? = some c ∧ (c = '?' ∨ c = t[s.ti]) := by
      rw [List.getElem?_eq_getElem hlt] at hp
      rcases hp with hp | hp
      · exact ⟨_, hp, .inl rfl⟩
      · exact ⟨_, hp, .inr rfl⟩
    have hne : c ≠ '*' := fun heq => hstar (heq ▸ hc)
    refine or_congr ?_ Iff.rfl
    rw [pattern_drop hc, List.drop_eq_getElem_cons hlt,
      matches_cons_cons_iff (mt token_eq_star.mp hne), takes_token hne]
    exact and_iff_right htakes
  | @back sp st _ hstar hp hs =>
    have hle := s.le _ hs
    constructor
    · rintro (hm | ⟨sp', st', hs', k, hk, hlek, hm⟩)
      · exact absurd hm (not_matches_stuck hlt hstar hp)
      · cases hs.symm.trans hs'
        rcases Nat.lt_or_eq_of_le (Nat.succ_le_of_lt hk) with hk | rfl
        · exact .inr ⟨_, _, rfl, k, hk, hlek, hm⟩
        · exact .inl hm
    · rintro (hm | ⟨sp', st', hs', k, hk, hlek, hm⟩)
      · refine .inr ⟨sp, st, hs, st + 1, Nat.lt_succ_self _, ?_, hm⟩
        simp only at hle
        omega
      · cases hs'
        exact .inr ⟨sp, st, hs, k, Nat.lt_of_succ_lt hk, hlek, hm⟩

lemma open_end (h : Aligned p t s) (hend : ¬s.ti < t.length) :
    Open p t s ↔ ((p.drop s.pi).dropWhile (· = '*')).isEmpty := by
  have hti : s.ti = t.length := le_antisymm h.within (not_lt.mp hend)
  have hhere : Open p t s ↔ Matches ((pattern p).drop s.pi) (t.drop s.ti) := by
    refine ⟨?_, .inl⟩
    rintro (hm | ⟨sp, st, hs, k, hk, hle, hm⟩)
    · exact hm
    · obtain ⟨n, hn, hle, -⟩ := h.advance hs hk hle hm
      omega
  rw [hhere, hti, List.drop_length, matches_nil_iff, List.isEmpty_iff, List.dropWhile_eq_nil_iff,
    pattern, ← List.map_drop, List.forall_mem_map]
  simp only [token_eq_star, decide_eq_true_eq]

lemma scan_iff (h : Aligned p t s) : scan p t s ↔ Open p t s := by
  induction s using scan.induct p t with
  | case1 s hlt s' hn ih =>
    rw [scan, dif_pos hlt]
    split
    · next s'' hn' =>
      cases hn.symm.trans hn'
      rw [ih (h.next hlt hn), ← open_next h hlt hn]
    · next hn' => cases hn.symm.trans hn'
  | case2 s hlt hn =>
    rw [scan, dif_pos hlt]
    obtain ⟨hstar, hp, hs⟩ := Scan.next_eq_none hn
    split
    · next s'' hn' => cases hn.symm.trans hn'
    · refine iff_of_false Bool.false_ne_true ?_
      rintro (hm | ⟨sp, st, hs', -⟩)
      · exact not_matches_stuck hlt hstar hp hm
      · cases hs.symm.trans hs'
  | case3 s hend =>
    rw [scan, dif_neg hend, open_end h hend]

lemma aligned_start (p t : Text) : Aligned p t .start :=
  ⟨Nat.zero_le _, fun _ _ hs => by cases hs⟩

lemma open_start (p t : Text) : Open p t .start ↔ Matches (pattern p) t := by
  refine ⟨?_, .inl⟩
  rintro (hm | ⟨sp, st, hs, -⟩)
  · exact hm
  · cases hs

end Correctness

section Whitelist

variable (toLowercase : Text → Text)

/-- The pattern matches the whole text, up to case and white space around them. -/
def Admits (x text : Text) : Prop :=
  Matches (pattern (toLowercase (trim x))) (toLowercase (trim text))

lemma wildcardMatch_iff (x text : Text) :
    wildcardMatch toLowercase x text ↔ Admits toLowercase x text := by
  rw [wildcardMatch, scan_iff (aligned_start _ _), open_start, Admits]

/-- The first piece is what comes before the first `@`. -/
lemma head_splitOn (myId : Text) : (myId.splitOn '@').head? = some (myId.takeWhile (· ≠ '@')) := by
  induction myId with
  | nil => rfl
  | cons c rest ih =>
    rw [List.splitOn] at ih
    rw [List.splitOn, List.splitOnP_cons_eq_if_modifyHead]
    by_cases hc : c = '@'
    · simp [hc]
    · simp [hc, ih]

/-- The matcher decides the language of its patterns, and an id is let in exactly when the list is
empty or an entry matches it or what comes before its first `@`. -/
theorem whitelist_iff :
    (∀ x text, wildcardMatch toLowercase x text ↔ Admits toLowercase x text) ∧
      ∀ idWhitelist myId, idWhitelistAllows toLowercase idWhitelist myId ↔
        idWhitelist = [] ∨ ∃ x ∈ idWhitelist, Admits toLowercase x myId ∨
          Admits toLowercase x (myId.takeWhile (· ≠ '@')) := by
  refine ⟨wildcardMatch_iff toLowercase, fun idWhitelist myId => ?_⟩
  rw [idWhitelistAllows]
  split_ifs with hempty
  · exact iff_of_true rfl (.inl (List.isEmpty_iff.mp hempty))
  · rw [List.isEmpty_iff] at hempty
    simp only [head_splitOn, Option.getD_some, List.any_eq_true, Bool.or_eq_true,
      wildcardMatch_iff, hempty, false_or]

end Whitelist

end RustDesk.Login
