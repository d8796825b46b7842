import Mathlib.Data.List.Basic

/-!
# Numbered slots

A system of tasks keeps them in a list: a task keeps its number, a new one takes the next. What is
under a number after a slot was written, or after one was added.
-/

namespace Slots

variable {α β : Type*} {slots : List α} {a b : α} {k k' : ℕ} {f : α → α}

lemma get_set_self {a₀ : α} (h : slots[k]? = some a₀) (a : α) : (slots.set k a)[k]? = some a :=
  List.getElem?_set_self (List.getElem?_eq_some_iff.mp h).1

lemma get_set_of_ne (h : k' ≠ k) (a : α) : (slots.set k a)[k']? = slots[k']? :=
  List.getElem?_set_ne h.symm

/-- After a write: the slot that was written, and the others. -/
lemma set_cases (h : (slots.set k a)[k']? = some b) :
    k' = k ∧ b = a ∨ k' ≠ k ∧ slots[k']? = some b := by
  by_cases hk : k' = k
  · subst hk
    have hlt : k' < slots.length := by simpa using (List.getElem?_eq_some_iff.mp h).1
    rw [List.getElem?_set_self hlt] at h
    exact .inl ⟨rfl, (Option.some.inj h).symm⟩
  · rw [get_set_of_ne hk] at h
    exact .inr ⟨hk, h⟩

lemma get_modify_self (h : slots[k]? = some a) (f : α → α) :
    (slots.modify k f)[k]? = some (f a) := by
  rw [List.getElem?_modify_eq, h, Option.map_eq_map, Option.map_some]

/-- After a slot was changed: the one before it, and what became of it. -/
lemma modify_cases (h : (slots.modify k f)[k']? = some b) :
    ∃ a, slots[k']? = some a ∧ (k' = k ∧ b = f a ∨ k' ≠ k ∧ b = a) := by
  by_cases hk : k' = k
  · subst hk
    rw [List.getElem?_modify_eq, Option.map_eq_map, Option.map_eq_some_iff] at h
    obtain ⟨a, ha, hb⟩ := h
    exact ⟨a, ha, .inl ⟨rfl, hb.symm⟩⟩
  · rw [List.getElem?_modify_ne _ _ (Ne.symm hk)] at h
    exact ⟨b, h, .inr ⟨hk, rfl⟩⟩

/-- A change that cannot be told by `g`. -/
lemma map_modify {g : α → β} (h : slots[k]? = some a) (hg : g (f a) = g a) :
    (slots.modify k f).map g = slots.map g := by
  apply List.ext_getElem?
  intro j
  rw [List.getElem?_map, List.getElem?_map]
  by_cases hj : j = k
  · subst hj
    rw [get_modify_self h, h]
    exact congrArg some hg
  · rw [List.getElem?_modify_ne _ _ (Ne.symm hj)]

lemma get_concat (h : slots[k]? = some a) (b : α) : (slots ++ [b])[k]? = some a := by
  rw [List.getElem?_append_left (List.getElem?_eq_some_iff.mp h).1, h]

/-- After one was added: the new one under the next number, and the others. -/
lemma concat_cases_length (h : (slots ++ [b])[k]? = some a) :
    k = slots.length ∧ a = b ∨ slots[k]? = some a := by
  rcases Nat.lt_or_ge k slots.length with hk | hk
  · rw [List.getElem?_append_left hk] at h
    exact .inr h
  · rw [List.getElem?_append_right hk, List.getElem?_singleton] at h
    split_ifs at h with hz
    exact .inl ⟨by omega, (Option.some.inj h).symm⟩

lemma concat_cases (h : (slots ++ [b])[k]? = some a) : a = b ∨ slots[k]? = some a :=
  (concat_cases_length h).imp_left And.right

/-- What stands at one place of two lists that are related place by place. -/
lemma forall₂_get {R : α → β → Prop} {others : List β} {b : β} (h : List.Forall₂ R slots others)
    (hb : others[k]? = some b) : ∃ a, slots[k]? = some a ∧ R a b := by
  induction h generalizing k with
  | nil => cases hb
  | cons hab _ ih =>
    cases k with
    | zero =>
      cases hb
      exact ⟨_, rfl, hab⟩
    | succ k => exact ih hb

lemma map_of_forall₂ {γ : Type*} {R : α → β → Prop} {others : List β} {f : α → γ} {g : β → γ}
    (h : List.Forall₂ R slots others) (hfg : ∀ a b, R a b → g b = f a) :
    others.map g = slots.map f := by
  induction h with
  | nil => rfl
  | cons hab _ ih => rw [List.map_cons, List.map_cons, hfg _ _ hab, ih]

end Slots
