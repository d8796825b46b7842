import Mathlib.Tactic
import Mathlib.Data.List.Basic

/-!
# Sliding windows

A queue that keeps the last `n` elements pushed into it: a full queue gives up its front element
before a new one goes in at the back.
-/

variable {α : Type*}

namespace Window

/-- `xs` with `x` pushed at the back, its front element gone if there were `n` already. -/
def slide (n : ℕ) (xs : List α) (x : α) : List α :=
  (if n ≤ xs.length then xs.tail else xs) ++ [x]

variable {n : ℕ} {xs : List α} {x y : α}

lemma length_slide_le (h : xs.length ≤ n) (hn : 0 < n) : (slide n xs x).length ≤ n := by
  unfold slide
  split_ifs <;> simp <;> omega

lemma mem_slide_self : x ∈ slide n xs x := by simp [slide]

lemma mem_of_mem_slide (h : y ∈ slide n xs x) : y ∈ xs ∨ y = x := by
  unfold slide at h
  split_ifs at h
  · rcases List.mem_append.mp h with h | h
    · exact .inl (List.mem_of_mem_tail h)
    · exact .inr (List.mem_singleton.mp h)
  · rcases List.mem_append.mp h with h | h
    · exact .inl h
    · exact .inr (List.mem_singleton.mp h)

/-- Sliding is appending and keeping the last `n`. -/
lemma slide_eq_drop (h : xs.length ≤ n) (hn : 0 < n) :
    slide n xs x = (xs ++ [x]).drop (xs.length + 1 - n) := by
  unfold slide
  split_ifs with hfull
  · have hlen : xs.length = n := le_antisymm h hfull
    obtain ⟨y, ys, rfl⟩ : ∃ y ys, xs = y :: ys := List.exists_cons_of_length_pos (by omega)
    have hone : (y :: ys).length + 1 - n = 1 := by omega
    rw [hone]
    rfl
  · have hzero : xs.length + 1 - n = 0 := by omega
    rw [hzero, List.drop_zero]

/-- What a window holds after a whole sequence: its last `n` elements. -/
lemma foldl_slide (hn : 0 < n) (ys : List α) :
    ys.foldl (slide n) [] = ys.drop (ys.length - n) := by
  induction ys using List.reverseRecOn with
  | nil => simp
  | append_singleton ys y ih =>
    have hlen : (ys.drop (ys.length - n)).length ≤ n := by simp; omega
    rw [List.foldl_append, ih, List.foldl_cons, List.foldl_nil, slide_eq_drop hlen hn,
      List.length_append, List.length_singleton]
    rcases Nat.le_total ys.length n with h | h
    · have hzero : ys.length - n = 0 := by omega
      rw [hzero, List.drop_zero]
    · rw [List.length_drop, ← List.drop_append_of_le_length (Nat.sub_le _ _), List.drop_drop]
      congr 1
      omega

/-- Once `n` equal elements have gone in, the window holds nothing else. -/
lemma foldl_slide_replicate {k : ℕ} (hn : 0 < n) (h : xs.length ≤ n) (hk : n ≤ k) :
    (List.replicate k x).foldl (slide n) xs = List.replicate n x := by
  have hxs : xs = xs.foldl (slide n) [] := by
    rw [foldl_slide hn]
    have hzero : xs.length - n = 0 := by omega
    rw [hzero, List.drop_zero]
  rw [hxs, ← List.foldl_append, foldl_slide hn, List.length_append, List.length_replicate,
    List.drop_append, List.drop_replicate]
  have hpast : xs.drop (xs.length + k - n) = [] := List.drop_eq_nil_of_le (by omega)
  rw [hpast, List.nil_append]
  congr 1
  omega

end Window
