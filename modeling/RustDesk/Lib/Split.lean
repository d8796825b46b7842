import Mathlib.Tactic

/-!
# Pieces of a list

The pieces between the separators of a list have no separator in them, and what is added at the end
without a separator goes to the last piece.
-/

namespace Split

variable {α : Type*}

lemma splitOnP_append {sep : α → Bool} (xs : List α) {suffix : List α}
    (h : ∀ x ∈ suffix, sep x = false) :
    ∃ pieces last, xs.splitOnP sep = pieces ++ [last] ∧
      (xs ++ suffix).splitOnP sep = pieces ++ [last ++ suffix] := by
  induction xs with
  | nil => exact ⟨[], [], rfl, List.splitOnP_eq_singleton h⟩
  | cons x xs ih =>
    obtain ⟨pieces, last, hxs, happend⟩ := ih
    rw [List.cons_append, List.splitOnP_cons_eq_if_modifyHead, List.splitOnP_cons_eq_if_modifyHead,
      hxs, happend]
    split_ifs
    · exact ⟨[] :: pieces, last, rfl, rfl⟩
    · cases pieces with
      | nil => exact ⟨[], x :: last, rfl, rfl⟩
      | cons piece pieces => exact ⟨(x :: piece) :: pieces, last, rfl, rfl⟩

variable [BEq α] [LawfulBEq α] {sep : α}

lemma splitOn_append (xs : List α) {suffix : List α} (h : sep ∉ suffix) :
    ∃ pieces last, xs.splitOn sep = pieces ++ [last] ∧
      (xs ++ suffix).splitOn sep = pieces ++ [last ++ suffix] := by
  apply splitOnP_append
  intro x hx
  exact beq_eq_false_iff_ne.mpr fun heq => h (heq ▸ hx)

end Split
