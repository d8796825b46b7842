import RustDesk.Lib.Window

/-!
# The delay baseline

Probes share the video stream, so a reply measures the queue in front of the stream as much as the
path. `RttCalculator` keeps a baseline under the replies of the last twenty probes: it follows a
lower reply at once and a higher floor only step by step, once that floor has stopped rising.
-/

namespace RustDesk.Video

def u32Max : ℕ := 2 ^ 32 - 1

/-- `u32::saturating_add` -/
def saturatingAdd (a b : ℕ) : ℕ := min (a + b) u32Max

/-- `Ord::clamp`, for `lo ≤ hi`. -/
def clamp (x lo hi : ℕ) : ℕ := max lo (min x hi)

structure RttCalculator where
  baseline : Option ℕ := none
  /-- oldest first -/
  samples : List ℕ := []
  deriving DecidableEq

namespace RttCalculator

def windowSamples : ℕ := 20

def maxIncreaseMs : ℕ := 50

/-- How far the baseline is raised, for a window that has just taken its latest sample in. -/
def increase (samples : List ℕ) (baseline : ℕ) : ℕ :=
  if samples.length < windowSamples then 0
  else
    match (samples.take (windowSamples / 2)).min?, (samples.drop (windowSamples / 2)).min? with
    | some olderMin, some recentMin =>
      -- a rising floor can be a growing queue
      if saturatingAdd olderMin 10 < recentMin then 0
      else
        let rise := min olderMin recentMin - baseline
        if 0 < rise then clamp (rise / 2) 1 maxIncreaseMs else 0
    | _, _ => 0

def update (r : RttCalculator) (delay : ℕ) : RttCalculator :=
  let samples := Window.slide windowSamples r.samples delay
  let baseline := min (r.baseline.getD delay) delay
  { baseline := some (baseline + increase samples baseline), samples }

def getRtt (r : RttCalculator) : Option ℕ := r.baseline

/-- The calculator of a connection that has had the replies `delays`, the latest last. -/
def after (delays : List ℕ) : RttCalculator := delays.foldl update {}

/-- A full window whose newer half is not above its older half by more than the granularity of a
probe. -/
def Settled (samples : List ℕ) : Prop :=
  samples.length = windowSamples ∧
    ∃ olderMin recentMin, (samples.take (windowSamples / 2)).min? = some olderMin ∧
      (samples.drop (windowSamples / 2)).min? = some recentMin ∧ recentMin ≤ olderMin + 10

variable {r : RttCalculator} {samples : List ℕ} {baseline delay b : ℕ}

/-! ### How far the baseline rises -/

lemma halves_of_increase (h : 0 < increase samples baseline) :
    windowSamples ≤ samples.length ∧
      ∃ olderMin recentMin, (samples.take (windowSamples / 2)).min? = some olderMin ∧
        (samples.drop (windowSamples / 2)).min? = some recentMin ∧ recentMin ≤ olderMin + 10 ∧
        baseline < min olderMin recentMin ∧
        increase samples baseline = clamp ((min olderMin recentMin - baseline) / 2) 1 maxIncreaseMs
    := by
  unfold increase at h ⊢
  by_cases hfull : samples.length < windowSamples
  · rw [if_pos hfull] at h
    simp at h
  rw [if_neg hfull] at h ⊢
  refine ⟨not_lt.mp hfull, ?_⟩
  cases hold : (samples.take (windowSamples / 2)).min? with
  | none => simp [hold] at h
  | some olderMin =>
    cases hrecent : (samples.drop (windowSamples / 2)).min? with
    | none => simp [hold, hrecent] at h
    | some recentMin =>
      rw [hold, hrecent] at h
      dsimp only at h ⊢
      by_cases hrising : saturatingAdd olderMin 10 < recentMin
      · rw [if_pos hrising] at h
        simp at h
      rw [if_neg hrising] at h ⊢
      by_cases hrise : 0 < min olderMin recentMin - baseline
      · rw [if_pos hrise]
        have hle : recentMin ≤ olderMin + 10 := (not_lt.mp hrising).trans (min_le_left _ _)
        exact ⟨olderMin, recentMin, rfl, rfl, hle, Nat.lt_of_sub_pos hrise, rfl⟩
      · rw [if_neg hrise] at h
        simp at h

/-- Raising the baseline never takes it above a sample of the window. -/
lemma add_increase_le (hle : ∀ x ∈ samples, baseline ≤ x) :
    ∀ x ∈ samples, baseline + increase samples baseline ≤ x := by
  intro x hx
  rcases Nat.eq_zero_or_pos (increase samples baseline) with hzero | hpos
  · rw [hzero]
    exact hle x hx
  · obtain ⟨-, olderMin, recentMin, hold, hrecent, -, hlt, heq⟩ := halves_of_increase hpos
    have hmin : min olderMin recentMin ≤ x := by
      rw [← List.take_append_drop (windowSamples / 2) samples] at hx
      rcases List.mem_append.mp hx with hx | hx
      · exact (min_le_left _ _).trans ((List.min?_eq_some_iff.mp hold).2 x hx)
      · exact (min_le_right _ _).trans ((List.min?_eq_some_iff.mp hrecent).2 x hx)
    rw [heq, clamp]
    omega

lemma increase_le_max : increase samples baseline ≤ maxIncreaseMs := by
  rcases Nat.eq_zero_or_pos (increase samples baseline) with hzero | hpos
  · rw [hzero]
    exact Nat.zero_le _
  · obtain ⟨-, _, _, -, -, -, -, heq⟩ := halves_of_increase hpos
    rw [heq]
    exact max_le (by decide) (min_le_right _ _)

/-- A full window of one sample raises a baseline below it. -/
lemma increase_pos_of_replicate (hdelay : delay ≤ u32Max) (h : baseline < delay) :
    0 < increase (List.replicate windowSamples delay) baseline := by
  have hold : ((List.replicate windowSamples delay).take (windowSamples / 2)).min?
      = some delay := by
    rw [List.take_replicate, List.min?_replicate_of_pos (by decide)]
  have hrecent : ((List.replicate windowSamples delay).drop (windowSamples / 2)).min?
      = some delay := by
    rw [List.drop_replicate, List.min?_replicate_of_pos (by decide)]
  have hfull : ¬(List.replicate windowSamples delay).length < windowSamples := by simp
  have hsettled : ¬saturatingAdd delay 10 < delay := by
    unfold saturatingAdd
    omega
  unfold increase
  rw [if_neg hfull, hold, hrecent]
  dsimp only
  rw [if_neg hsettled, min_self, if_pos (Nat.sub_pos_of_lt h)]
  exact (le_max_left _ _ : 1 ≤ clamp _ 1 maxIncreaseMs)

/-! ### Every sequence of updates -/

/-- What holds of a calculator between updates: the window is never longer than it should be, and
the baseline is set as soon as there is a sample and is under all of them. -/
structure Wf (r : RttCalculator) : Prop where
  length : r.samples.length ≤ windowSamples
  unset : r.baseline = none → r.samples = []
  under : ∀ b, r.baseline = some b → ∀ x ∈ r.samples, b ≤ x

lemma Wf.update (h : r.Wf) (delay : ℕ) : (r.update delay).Wf where
  length := Window.length_slide_le h.length (by decide)
  unset hnone := by simp [RttCalculator.update] at hnone
  under := by
    intro b hb
    cases hb
    apply add_increase_le
    intro x hx
    rcases Window.mem_of_mem_slide hx with hx | rfl
    · cases hbase : r.baseline with
      | none => simp [h.unset hbase] at hx
      | some b => exact (min_le_left _ _).trans (h.under b hbase x hx)
    · exact min_le_right _ _

lemma Wf.foldl (h : r.Wf) (delays : List ℕ) : (delays.foldl RttCalculator.update r).Wf := by
  induction delays generalizing r with
  | nil => exact h
  | cons d delays ih => exact ih (h.update d)

lemma wf_after (delays : List ℕ) : (after delays).Wf :=
  Wf.foldl ⟨by decide, fun _ => rfl, by simp⟩ delays

@[simp] lemma samples_update : (r.update delay).samples
    = Window.slide windowSamples r.samples delay := rfl

lemma samples_foldl (delays : List ℕ) : (delays.foldl update r).samples
    = delays.foldl (Window.slide windowSamples) r.samples := by
  induction delays generalizing r with
  | nil => rfl
  | cons d delays ih => exact ih

/-- The window holds the last twenty samples. -/
lemma samples_after (delays : List ℕ) :
    (after delays).samples = delays.drop (delays.length - windowSamples) := by
  rw [after, samples_foldl]
  exact Window.foldl_slide (by decide) delays

/-- Where the baseline is set, an update moves it up by a bounded step, and only over a settled
window. -/
lemma update_of_baseline (h : r.Wf) (hb : r.baseline = some b) (delay : ℕ) :
    ∃ b', (r.update delay).baseline = some b' ∧ b' ≤ b + maxIncreaseMs ∧
      (delay < b → b' = delay) ∧ (b < b' → Settled (r.update delay).samples) := by
  refine ⟨_, rfl, ?_, ?_, ?_⟩ <;> rw [hb, Option.getD_some]
  · exact Nat.add_le_add (min_le_left _ _) increase_le_max
  · intro hlt
    rw [min_eq_right hlt.le]
    have hbelow := (h.update delay).under _ rfl delay Window.mem_slide_self
    rw [hb, Option.getD_some, min_eq_right hlt.le] at hbelow
    exact le_antisymm hbelow (Nat.le_add_right _ _)
  · intro hlt
    have hpos : 0 < increase (Window.slide windowSamples r.samples delay) (min b delay) := by
      have := min_le_left b delay
      omega
    obtain ⟨hlen, olderMin, recentMin, hold, hrecent, hle, -, -⟩ := halves_of_increase hpos
    exact ⟨le_antisymm (h.update delay).length hlen, olderMin, recentMin, hold, hrecent, hle⟩

/-- Under a window of one sample the baseline climbs by at least one with every further update of
that sample, until it is there. -/
lemma climbs (h : r.Wf) (hdelay : delay ≤ u32Max) (n : ℕ) :
    ∃ b, ((List.replicate (windowSamples + n) delay).foldl update r).baseline = some b ∧
      min delay n ≤ b ∧ b ≤ delay := by
  have hwin : ∀ k, ((List.replicate (windowSamples + k) delay).foldl update r).samples
      = List.replicate windowSamples delay := by
    intro k
    rw [samples_foldl]
    exact Window.foldl_slide_replicate (by decide) h.length (Nat.le_add_right _ _)
  have hwf : ∀ k, ((List.replicate (windowSamples + k) delay).foldl update r).Wf :=
    fun k => h.foldl _
  induction n with
  | zero =>
    cases hb : ((List.replicate (windowSamples + 0) delay).foldl update r).baseline with
    | none =>
      have hnil := (hwf 0).unset hb
      rw [hwin] at hnil
      simp [windowSamples] at hnil
    | some b =>
      refine ⟨b, rfl, by simp, (hwf 0).under b hb delay ?_⟩
      rw [hwin]
      simp [windowSamples]
  | succ n ih =>
    obtain ⟨b, hb, hlow, hhigh⟩ := ih
    have hlast : (List.replicate (windowSamples + (n + 1)) delay).foldl update r
        = ((List.replicate (windowSamples + n) delay).foldl update r).update delay := by
      rw [← Nat.add_assoc, List.replicate_succ', List.foldl_append]
      rfl
    have hwin' := hwin (n + 1)
    have hwf' := hwf (n + 1)
    rw [hlast] at hwin' hwf' ⊢
    refine ⟨_, rfl, ?_, hwf'.under _ rfl delay ?_⟩
    · rw [hb, Option.getD_some, min_eq_left hhigh]
      rw [samples_update] at hwin'
      rw [hwin']
      rcases hhigh.eq_or_lt with rfl | hlt
      · omega
      · have := increase_pos_of_replicate hdelay hlt
        omega
    · rw [hwin']
      simp [windowSamples]

/-- The same for delays as they come in. -/
def heard (delays : List UInt32) : RttCalculator := after (delays.map UInt32.toNat)

lemma heard_append (delays more : List UInt32) :
    heard (delays ++ more) = (more.map UInt32.toNat).foldl update (heard delays) := by
  rw [heard, List.map_append, after, List.foldl_append]
  rfl

/-- After every update the window holds the last twenty samples and the baseline is under all of
them; it rises by a bounded step and only over a settled window, falls to a lower sample at once,
and reaches a delay that does not change any more. -/
theorem baseline_follows_delay (delays : List UInt32) (d : UInt32) :
    (heard (delays ++ [d])).samples =
        ((delays ++ [d]).drop ((delays ++ [d]).length - 20)).map UInt32.toNat ∧
      (∃ b', (heard (delays ++ [d])).getRtt = some b' ∧
        (∀ x ∈ (heard (delays ++ [d])).samples, b' ≤ x) ∧
        ∀ b, (heard delays).getRtt = some b → b' ≤ b + 50 ∧ (d.toNat < b → b' = d.toNat) ∧
          (b < b' → Settled (heard (delays ++ [d])).samples)) ∧
      ∀ n, d.toNat + 20 ≤ n → (heard (delays ++ List.replicate n d)).getRtt = some d.toNat := by
  have hwf : (heard delays).Wf := wf_after _
  have hnow : heard (delays ++ [d]) = (heard delays).update d.toNat := heard_append delays [d]
  refine ⟨?_, ?_, ?_⟩
  · rw [heard, samples_after, List.map_drop, List.length_map]
    rfl
  · rw [hnow]
    refine ⟨_, rfl, (hwf.update d.toNat).under _ rfl, ?_⟩
    intro b hb
    obtain ⟨b', hb', hstep, hfall, hrise⟩ := update_of_baseline hwf hb d.toNat
    cases hb'
    exact ⟨hstep, hfall, hrise⟩
  · intro n hn
    have hd : d.toNat ≤ u32Max := Nat.le_pred_of_lt d.toNat_lt
    obtain ⟨b, hb, hlow, hhigh⟩ := climbs hwf hd (n - windowSamples)
    have hn' : windowSamples + (n - windowSamples) = n := by
      simp only [windowSamples]
      omega
    have heq : b = d.toNat := by
      simp only [windowSamples] at hlow
      omega
    rw [hn', heq] at hb
    rw [heard_append, List.map_replicate]
    exact hb

end RttCalculator

end RustDesk.Video
