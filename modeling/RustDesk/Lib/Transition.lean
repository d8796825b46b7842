import Mathlib.Tactic
import Mathlib.Logic.Relation

/-!
# Labelled transition systems

A system is a set of initial states and a partial step function; the label of a step carries
every choice the step makes, so a run is a list of labels. The rules below are the ones the
developments over it use: an invariant holds of every reachable state, a property that is kept
from one state on holds along every continuation, and a measure that some labels decrease and
no label increases bounds how often those labels occur in a run.
-/

variable {σ α : Type*}

/-- `step s a = none` says that action `a` is not enabled in `s`. -/
structure LTS (σ α : Type*) where
  init : σ → Prop
  step : σ → α → Option σ

namespace LTS

variable (M : LTS σ α)

inductive Reachable : σ → Prop where
  | init {s : σ} (h : M.init s) : Reachable s
  | step {s s' : σ} {a : α} (hs : Reachable s) (h : M.step s a = some s') : Reachable s'

/-- The state after a whole list of actions, if each was enabled in turn. -/
def run : σ → List α → Option σ
  | s, [] => some s
  | s, a :: as => (M.step s a).bind fun s' => run s' as

/-- The same system with every step that fails the condition removed. -/
def restrict (ok : σ → α → Bool) : LTS σ α where
  init := M.init
  step s a := if ok s a then M.step s a else none

variable {M} {s s' : σ} {a : α} {P : σ → Prop} {as : List α} {ok : σ → α → Bool}

@[simp] lemma run_nil (s : σ) : M.run s [] = some s := rfl

lemma run_cons (s : σ) (a : α) (as : List α) :
    M.run s (a :: as) = (M.step s a).bind fun s' => M.run s' as := rfl

lemma run_cons_of_step (h : M.step s a = some s') (as : List α) :
    M.run s (a :: as) = M.run s' as := by rw [run_cons, h, Option.bind_some]

lemma run_append (s : σ) (as bs : List α) :
    M.run s (as ++ bs) = (M.run s as).bind fun s' => M.run s' bs := by
  induction as generalizing s with
  | nil => rfl
  | cons a as ih =>
    simp only [List.cons_append, run_cons]
    cases M.step s a with
    | none => rfl
    | some s' => simpa using ih s'

/-- The invariant rule; the reachability of the state before the step is at hand, so an
invariant may rest on those proved before it. -/
lemma Reachable.invariant (hinit : ∀ s, M.init s → P s)
    (hstep : ∀ s a s', M.Reachable s → P s → M.step s a = some s' → P s') (h : M.Reachable s) :
    P s := by
  induction h with
  | init h => exact hinit _ h
  | step hs h ih => exact hstep _ _ _ hs ih h

/-- What every step keeps, every run keeps. -/
lemma run_invariant (hstep : ∀ s a s', P s → M.step s a = some s' → P s') (h : M.run s as = some s')
    (hs : P s) : P s' := by
  induction as generalizing s with
  | nil => cases h; exact hs
  | cons a as ih =>
    rw [run_cons] at h
    obtain ⟨t, ht, h⟩ := Option.bind_eq_some_iff.mp h
    exact ih h (hstep _ _ _ hs ht)

lemma Reachable.run (hs : M.Reachable s) (h : M.run s as = some s') : M.Reachable s' :=
  run_invariant (P := M.Reachable) (fun _ _ _ hs h => hs.step h) h hs

section

variable {Q : σ → Prop}

/-- A run that is evaluated, and what follows for the state it leads to. -/
lemma exists_run_of (h : ∃ s' ∈ M.run s as, P s') (hQ : ∀ s', M.run s as = some s' → P s' → Q s') :
    ∃ s' ∈ M.run s as, Q s' := by
  obtain ⟨s', hs', hP⟩ := h
  exact ⟨s', hs', hQ s' hs' hP⟩

lemma exists_run (h : ∃ s' ∈ M.run s as, P s') (hQ : ∀ s', M.run s as = some s' → P s' → Q s') :
    ∃ s' ∈ M.run s as, P s' ∧ Q s' :=
  exists_run_of h fun s' hs' hP => ⟨hP, hQ s' hs' hP⟩

lemma exists_reachable (hs : M.init s) (as : List α) (h : ∃ s' ∈ M.run s as, P s') :
    ∃ s', M.Reachable s' ∧ P s' := by
  obtain ⟨s', hs', hP⟩ := h
  exact ⟨s', (Reachable.init hs).run hs', hP⟩

end

/-- A measure that the actions in `p` decrease and no action increases bounds the number of
actions in `p` that a run can hold. -/
lemma run_countP_le {p : α → Bool} (μ : σ → ℕ) (hP : ∀ s a s', P s → M.step s a = some s' → P s')
    (hdec : ∀ s a s', P s → p a → M.step s a = some s' → μ s' < μ s)
    (hmono : ∀ s a s', P s → M.step s a = some s' → μ s' ≤ μ s) (h : M.run s as = some s')
    (hs : P s) : as.countP p + μ s' ≤ μ s := by
  induction as generalizing s with
  | nil => cases h; simp
  | cons a as ih =>
    rw [run_cons] at h
    obtain ⟨t, ht, h⟩ := Option.bind_eq_some_iff.mp h
    have hle := ih h (hP _ _ _ hs ht)
    by_cases hp : p a
    · have := hdec _ _ _ hs hp ht
      rw [List.countP_cons_of_pos hp]
      omega
    · have := hmono _ _ _ hs ht
      rw [List.countP_cons_of_neg hp]
      omega

lemma restrict_step_of_ok (h : ok s a) : (M.restrict ok).step s a = M.step s a := if_pos h

lemma restrict_step_of_not_ok (h : ¬ok s a) : (M.restrict ok).step s a = none := if_neg h

lemma restrict_step_some (h : (M.restrict ok).step s a = some s') :
    ok s a ∧ M.step s a = some s' := by
  by_cases hok : ok s a
  · rw [restrict_step_of_ok hok] at h
    exact ⟨hok, h⟩
  · rw [restrict_step_of_not_ok hok] at h
    cases h

/-- The invariant rule for the steps that meet the condition. -/
lemma Reachable.restrict_invariant (hinit : ∀ s, M.init s → P s)
    (hstep : ∀ s a s', P s → ok s a → M.step s a = some s' → P s')
    (h : (M.restrict ok).Reachable s) : P s := by
  induction h with
  | init h => exact hinit _ h
  | step _ h ih =>
    obtain ⟨hok, h⟩ := restrict_step_some h
    exact hstep _ _ _ ih hok h

lemma run_of_restrict (h : (M.restrict ok).run s as = some s') : M.run s as = some s' := by
  induction as generalizing s with
  | nil => exact h
  | cons a as ih =>
    rw [run_cons] at h ⊢
    obtain ⟨t, ht, h⟩ := Option.bind_eq_some_iff.mp h
    rw [(restrict_step_some ht).2, Option.bind_some]
    exact ih h

/-- A property that the steps meeting a condition keep, that every other step breaks, and that
once broken stays so, holds at the end of a run exactly when all its steps meet the condition. -/
lemma run_restrict_iff {I : σ → Prop} (hI : ∀ s a s', I s → M.step s a = some s' → I s')
    (hkeep : ∀ s a s', I s → P s → ok s a → M.step s a = some s' → P s')
    (hbreak : ∀ s a s', I s → ¬ok s a → M.step s a = some s' → ¬P s')
    (hbroken : ∀ s a s', I s → ¬P s → M.step s a = some s' → ¬P s') (h : M.run s as = some s')
    (hs : I s) (hP : P s) : P s' ↔ (M.restrict ok).run s as = some s' := by
  induction as generalizing s with
  | nil =>
    cases h
    exact iff_of_true hP rfl
  | cons a as ih =>
    rw [run_cons] at h ⊢
    obtain ⟨t, ht, h⟩ := Option.bind_eq_some_iff.mp h
    by_cases hok : ok s a
    · rw [restrict_step_of_ok hok, ht, Option.bind_some]
      exact ih h (hI _ _ _ hs ht) (hkeep _ _ _ hs hP hok ht)
    · have hend : I s' ∧ ¬P s' := run_invariant (P := fun s => I s ∧ ¬P s)
        (fun s a s' hs h => ⟨hI _ _ _ hs.1 h, hbroken _ _ _ hs.1 hs.2 h⟩) h
        ⟨hI _ _ _ hs ht, hbreak _ _ _ hs hok ht⟩
      rw [restrict_step_of_not_ok hok, Option.bind_none]
      exact iff_of_false hend.2 nofun

lemma Reachable.of_restrict (h : (M.restrict ok).Reachable s) : M.Reachable s := by
  induction h with
  | init h => exact .init h
  | step _ h ih => exact ih.step (restrict_step_some h).2

/-- What holds exactly of the runs whose steps meet a condition, for one that is evaluated. -/
lemma exists_run_iff (ok : σ → α → Bool) {Q : σ → Prop} (h : ∃ s' ∈ (M.restrict ok).run s as, P s')
    (hQ : ∀ s', M.run s as = some s' → (Q s' ↔ (M.restrict ok).run s as = some s')) :
    ∃ s' ∈ M.run s as, P s' ∧ Q s' := by
  obtain ⟨s', hs', hP⟩ := h
  exact ⟨s', run_of_restrict hs', hP, (hQ s' (run_of_restrict hs')).mpr hs'⟩

/-- What holds in every run whose steps meet a condition, for one such run that is evaluated. -/
lemma exists_run_restrict (ok : σ → α → Bool) {Q : σ → Prop} (hs : (M.restrict ok).init s)
    (h : ∃ s' ∈ (M.restrict ok).run s as, P s') (hQ : ∀ s', (M.restrict ok).Reachable s' → Q s') :
    ∃ s' ∈ M.run s as, P s' ∧ Q s' := by
  obtain ⟨s', hs', hP⟩ := h
  exact ⟨s', run_of_restrict hs', hP, hQ s' ((Reachable.init hs).run hs')⟩

end LTS
