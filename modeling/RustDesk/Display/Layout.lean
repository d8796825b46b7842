import RustDesk.Lib.Transition

/-!
# The layout the capturers were built against

`WaylandLayout` (server/display_service.rs) decides at each poll whether the live layout has
left the one the capturers were built on. Records arrive late and out of order, so a poll may
fall between a capturer's reading of the layout and its record.
-/

namespace RustDesk.Display

structure DisplayRect where
  name : String
  x : ℤ
  y : ℤ
  w : ℤ
  h : ℤ
  transform : ℤ
deriving DecidableEq

structure WaylandLayout where
  baseline : List DisplayRect := []
  live : List DisplayRect := []
  seen : List DisplayRect := []
  unseenBuild : Option ℕ := none
deriving DecidableEq

namespace WaylandLayout

variable (l : WaylandLayout)

def resetBaseline (baseline : List DisplayRect) : WaylandLayout :=
  { l with
    seen := if l.seen.isEmpty then l.baseline else l.seen
    baseline := baseline
    live := [] }

def edge (live : List DisplayRect) (snapshotMissing : Bool) (generation : ℕ) : Bool :=
  if l.unseenBuild = some generation then true
  else if !l.seen.isEmpty then l.seen != live
  else if l.baseline.isEmpty then snapshotMissing
  else l.baseline != live

def observe (live : List DisplayRect) : WaylandLayout :=
  { l with live := live, seen := live, unseenBuild := none }

def noteCapturer (builtOn : List DisplayRect) (builtGen : ℕ) : WaylandLayout :=
  if builtOn.isEmpty then l
  else if l.seen.isEmpty then { l with seen := builtOn }
  else if l.seen != builtOn then
    { l with unseenBuild := some (l.unseenBuild.elim builtGen fun g => max g builtGen) }
  else l

end WaylandLayout

/-! ### The detector among its callers -/

/-- The detector and the snapshot generation that is current. -/
structure Detector where
  layout : WaylandLayout := {}
  generation : ℕ
deriving DecidableEq

inductive Detector.Event where
  | resetBaseline (baseline : List DisplayRect)
  | noteCapturer (builtOn : List DisplayRect) (builtGen : ℕ)
  /-- `edge` and `observe`, under one lock. -/
  | poll (live : List DisplayRect) (snapshotMissing : Bool)
  /-- The generation moves on. -/
  | bump (generation : ℕ)
deriving DecidableEq

open Detector.Event in
def Detector.step (d : Detector) : Detector.Event → Option Detector
  | resetBaseline baseline => some { d with layout := d.layout.resetBaseline baseline }
  | noteCapturer builtOn builtGen =>
    if builtGen ≤ d.generation then
      some { d with layout := d.layout.noteCapturer builtOn builtGen }
    else none
  | poll live _ => some { d with layout := d.layout.observe live }
  | bump generation =>
    if d.generation ≤ generation then some { d with generation := generation } else none

/-- Every history of the detector, from any generation on. -/
def detector : LTS Detector Detector.Event where
  init d := d.layout = {}
  step := Detector.step

namespace Detector

variable {d d' : Detector} {e : Event} {es : List Event} {B L : List DisplayRect}

lemma generation_le_of_step (h : detector.step d e = some d') :
    d.generation ≤ d'.generation := by
  cases e <;> simp only [detector, step, Option.ite_none_right_eq_some, Option.some.injEq] at h
  case resetBaseline => subst h; exact le_rfl
  case noteCapturer => obtain ⟨_, rfl⟩ := h; exact le_rfl
  case poll => subst h; exact le_rfl
  case bump => obtain ⟨hle, rfl⟩ := h; exact hle

lemma flag_le (h : detector.Reachable d) : ∀ g ∈ d.layout.unseenBuild, g ≤ d.generation := by
  refine h.invariant (P := fun d => ∀ g ∈ d.layout.unseenBuild, g ≤ d.generation)
    (fun d h => ?_) ?_
  · rw [show d.layout = {} from h]
    exact nofun
  intro d e d' _ hP hstep g hg
  cases e <;> simp only [detector, step, Option.ite_none_right_eq_some, Option.some.injEq] at hstep
  case resetBaseline => subst hstep; exact hP g hg
  case poll => subst hstep; cases hg
  case bump => obtain ⟨hle, rfl⟩ := hstep; exact (hP g hg).trans hle
  case noteCapturer builtOn builtGen =>
    obtain ⟨hle, rfl⟩ := hstep
    simp only [WaylandLayout.noteCapturer] at hg ⊢
    split_ifs at hg
    · exact hP g hg
    · exact hP g hg
    · rcases hu : d.layout.unseenBuild with _ | g'
      · simp only [hu, Option.elim_none, Option.mem_some_iff] at hg
        exact hg ▸ hle
      · simp only [hu, Option.elim_some, Option.mem_some_iff] at hg
        exact hg ▸ max_le (hP g' hu) hle
    · exact hP g hg

/-- A capturer built on `B` is remembered: `B` is what the next poll compares with, or an edge
is owed to the current generation. -/
def Owed (B : List DisplayRect) (d : Detector) : Prop :=
  d.layout.seen = B ∨ d.layout.seen ≠ [] ∧ d.layout.unseenBuild = some d.generation

lemma owed_of_noteCapturer (hflag : ∀ g ∈ d.layout.unseenBuild, g ≤ d.generation) (hB : B ≠ []) :
    Owed B { d with layout := d.layout.noteCapturer B d.generation } := by
  rw [Owed, WaylandLayout.noteCapturer, if_neg (by simpa using hB)]
  split_ifs with hseen hne
  · exact .inl rfl
  · refine .inr ⟨by simpa using hseen, ?_⟩
    rcases hu : d.layout.unseenBuild with _ | g
    · rfl
    · exact congrArg some (max_eq_right (hflag g hu))
  · exact .inl (by simpa using hne)

/-- A poll without an edge has seen the very layout of the capturer. -/
lemma Owed.eq_of_quiet {missing : Bool} (hB : B ≠ []) (h : Owed B d)
    (hquiet : d.layout.edge L missing d.generation = false) : L = B := by
  rw [WaylandLayout.edge] at hquiet
  rcases h with rfl | h
  · split_ifs at hquiet with hu hseen
    · exact (bne_eq_false_iff_eq.mp hquiet).symm
    · simp [hB] at hseen
    · simp [hB] at hseen
  · simp [h.2] at hquiet

lemma Owed.step (hB : B ≠ []) (h : Owed B d) (hstep : detector.step d e = some d')
    (hgen : d'.generation = d.generation)
    (hquiet : ∀ live missing, e = .poll live missing →
      d.layout.edge live missing d.generation = false) : Owed B d' := by
  have hseen : d.layout.seen ≠ [] := h.elim (fun h => h ▸ hB) And.left
  cases e <;> simp only [detector, Detector.step, Option.ite_none_right_eq_some,
    Option.some.injEq] at hstep
  case resetBaseline =>
    subst hstep
    simpa [Owed, WaylandLayout.resetBaseline, hseen] using h
  case bump =>
    obtain ⟨_, rfl⟩ := hstep
    obtain rfl : _ = d.generation := hgen
    exact h
  case noteCapturer builtOn builtGen =>
    obtain ⟨hle, rfl⟩ := hstep
    simp only [WaylandLayout.noteCapturer, List.isEmpty_iff, if_neg hseen]
    split_ifs
    · exact h
    · exact h.imp id fun h => ⟨h.1, by simp [h.2, hle]⟩
    · exact h
  case poll live missing =>
    subst hstep
    exact .inl (h.eq_of_quiet hB (hquiet live missing rfl))

/-- A poll at generation `g` returns no edge. -/
def quiet (g : ℕ) (d : Detector) : Event → Bool
  | .poll live snapshotMissing =>
    d.generation ≠ g || !d.layout.edge live snapshotMissing d.generation
  | _ => true

/-- No capturer is left on a stale layout: after a record of a build on `B` at generation `g`, if
no poll at `g` has returned an edge, one at `g` that sees another layout does. -/
theorem edge_of_stale_build {g : ℕ} {after : List Event} {d₁ d₂ d₃ : Detector} {missing : Bool}
    (hreach : detector.Reachable d₁) (hB : B ≠ [])
    (hnote : detector.step d₁ (.noteCapturer B g) = some d₂)
    (hafter : (detector.restrict (quiet g)).run d₂ after = some d₃) (hgen : d₃.generation = g)
    (hL : L ≠ B) : d₃.layout.edge L missing g := by
  obtain ⟨hle, rfl⟩ : g ≤ d₁.generation ∧
      { d₁ with layout := d₁.layout.noteCapturer B g } = d₂ := by
    simpa [detector, step] using hnote
  have hend : g ≤ d₃.generation ∧ (d₃.generation = g → Owed B d₃) := by
    refine LTS.run_invariant (P := fun d => g ≤ d.generation ∧ (d.generation = g → Owed B d))
      ?_ hafter ⟨hle, fun h => h ▸ owed_of_noteCapturer (flag_le hreach) hB⟩
    rintro d e d' ⟨hle, howed⟩ hstep
    obtain ⟨hok, hstep⟩ := LTS.restrict_step_some hstep
    have hle' := generation_le_of_step hstep
    refine ⟨hle.trans hle', fun hg => ?_⟩
    have hd : d.generation = g := by omega
    refine (howed hd).step hB hstep (hg.trans hd.symm) ?_
    rintro live missing rfl
    simpa [quiet, hd] using hok
  by_contra hedge
  exact hL ((hend.2 hgen).eq_of_quiet hB (by simpa [hgen] using hedge))

/-- The layout turned between a capturer's build and its record. -/
theorem edge_of_stale_build_late :
    let flat : List DisplayRect := [⟨"A", 0, 0, 2, 1, 0⟩]
    let turned : List DisplayRect := [⟨"A", 0, 0, 1, 2, 1⟩]
    ∃ d₁ d₂ d₃, detector.run ⟨{}, 3⟩ [.poll turned false] = some d₁ ∧
      detector.step d₁ (.noteCapturer flat 3) = some d₂ ∧
      (detector.restrict (quiet 3)).run d₂ [.resetBaseline flat] = some d₃ ∧
      d₃.layout.edge turned false 3 := by
  intro flat turned
  have hrun : detector.run ⟨{}, 3⟩ [.poll turned false] = some _ := rfl
  have hreach := (LTS.Reachable.init (M := detector) (s := ⟨{}, 3⟩) rfl).run hrun
  exact ⟨_, _, _, hrun, rfl, rfl, edge_of_stale_build (B := flat) hreach (by decide) rfl
    (rfl : LTS.run _ _ [Event.resetBaseline flat] = _) rfl (by decide)⟩

end Detector

end RustDesk.Display
