import Mathlib.Data.List.Basic
import Mathlib.Tactic

/-!
# Glob patterns

A pattern is a list of tokens: any sequence of symbols, any one symbol, or a symbol itself.
`Glob.Matches` says which texts a pattern matches as a whole. The rules below are what a matcher
with one remembered star rests on: a token that is not a star takes one symbol, so that a segment
without stars takes as many as it has tokens, and a star that matches a text matches every longer
one that ends with it.
-/

namespace Glob

inductive Token (α : Type*) where
  | star
  | any
  | lit (a : α)
  deriving DecidableEq

variable {α : Type*}

/-- The texts that a pattern matches. -/
inductive Matches : List (Token α) → List α → Prop where
  | nil : Matches [] []
  | star {p : List (Token α)} {t : List α} (u : List α) (h : Matches p t) :
    Matches (.star :: p) (u ++ t)
  | any {p : List (Token α)} {t : List α} (a : α) (h : Matches p t) : Matches (.any :: p) (a :: t)
  | lit {p : List (Token α)} {t : List α} (a : α) (h : Matches p t) :
    Matches (.lit a :: p) (a :: t)

/-- The symbols that a token takes one of. -/
def Token.Takes : Token α → α → Prop
  | .star, _ => False
  | .any, _ => True
  | .lit b, a => b = a

variable {p q : List (Token α)} {k : Token α} {t u v : List α} {a : α}

lemma matches_star_iff : Matches (.star :: p) t ↔ ∃ n ≤ t.length, Matches p (t.drop n) := by
  constructor
  · rintro (_ | ⟨u, h⟩)
    refine ⟨u.length, by simp, ?_⟩
    rwa [List.drop_left]
  · rintro ⟨n, -, h⟩
    rw [← List.take_append_drop n t]
    exact .star _ h

lemma not_matches_nil_cons : ¬Matches [] (a :: t) := by
  intro h
  cases h

/-- A token that is not a star takes one symbol. -/
lemma matches_cons_iff (hk : k ≠ .star) :
    Matches (k :: p) t ↔ ∃ a u, t = a :: u ∧ k.Takes a ∧ Matches p u := by
  constructor
  · intro h
    cases h with
    | star u h => exact absurd rfl hk
    | any a h => exact ⟨a, _, rfl, trivial, h⟩
    | lit a h => exact ⟨a, _, rfl, rfl, h⟩
  · rintro ⟨a, u, rfl, htakes, h⟩
    cases k with
    | star => exact htakes.elim
    | any => exact .any a h
    | lit b =>
      obtain rfl : b = a := htakes
      exact .lit b h

lemma matches_cons_cons_iff (hk : k ≠ .star) :
    Matches (k :: p) (a :: t) ↔ k.Takes a ∧ Matches p t := by
  rw [matches_cons_iff hk]
  constructor
  · rintro ⟨b, u, heq, htakes, h⟩
    cases heq
    exact ⟨htakes, h⟩
  · rintro ⟨htakes, h⟩
    exact ⟨a, t, rfl, htakes, h⟩

lemma matches_nil_iff : Matches p ([] : List α) ↔ ∀ k ∈ p, k = .star := by
  induction p with
  | nil => exact iff_of_true .nil fun _ hk => absurd hk List.not_mem_nil
  | cons k p ih =>
    rw [List.forall_mem_cons, ← ih]
    by_cases hk : k = .star
    · subst hk
      rw [matches_star_iff]
      constructor
      · rintro ⟨n, -, h⟩
        rw [List.drop_nil] at h
        exact ⟨rfl, h⟩
      · rintro ⟨-, h⟩
        exact ⟨0, le_rfl, h⟩
    · rw [matches_cons_iff hk]
      refine iff_of_false ?_ fun h => hk h.1
      rintro ⟨a, u, heq, -⟩
      cases heq

/-- A segment without stars takes as many symbols as it has tokens. -/
lemma Matches.drop_of_append (hp : .star ∉ p) (h : Matches (p ++ q) t) :
    p.length ≤ t.length ∧ Matches q (t.drop p.length) := by
  induction p generalizing t with
  | nil => exact ⟨Nat.zero_le _, h⟩
  | cons k p ih =>
    rw [List.mem_cons, not_or] at hp
    obtain ⟨a, u, rfl, -, h⟩ := (matches_cons_iff (Ne.symm hp.1)).mp h
    obtain ⟨hle, h⟩ := ih hp.2 h
    exact ⟨Nat.succ_le_succ hle, h⟩

/-- A star takes what comes before as well. -/
lemma Matches.star_suffix (h : Matches (.star :: p) v) (hv : v <:+ t) :
    Matches (.star :: p) t := by
  obtain ⟨u, rfl⟩ := hv
  obtain ⟨n, -, h⟩ := matches_star_iff.mp h
  rw [← List.take_append_drop n v, ← List.append_assoc]
  exact .star _ h

end Glob
