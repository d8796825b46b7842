import RustDesk.TrustedDevices.Revocation

/-!
# A removed device is gone with its group

A legacy record and the tokens migrated from it have one id. When it is removed there is no record
of the group left, no copy of the devices of the earlier version that could bring it back, and no
token drawn later can have the id: whatever was or is presented of the group is refused.
-/

namespace RustDesk.TrustedDevices

variable {D R : Type} {setup : Setup D} {s : Host D R} {recordIds : List D}

/-! ### What is left after a removal -/

lemma Grants.remove_eq_self [DecidableEq D] {sha : Sha256 D} {g : Grants D}
    (h : (g.remove sha recordIds).records.length = g.records.length) :
    g.remove sha recordIds = g := by
  rw [Grants.remove, List.filter_eq_self.mpr (List.length_filter_eq_length_iff.mp h)]

/-- A removal leaves the other records, and is a matter of the grants only. -/
lemma wp_remove_of_none [DecidableEq D] (hlegacy : s.disk.legacy = none) :
    Prog.wp (remove setup recordIds) (fun _ s' => s'.listed = s.listed ∧ s'.disk.legacy = none ∧
      s'.disk.grants.getD (noGrants setup) =
        (s.disk.grants.getD (noGrants setup)).remove setup.sha recordIds ∧
      (s.disk.grants ≠ none → s'.disk.grants ≠ none)) (fun _ _ => True) s := by
  rw [remove, Prog.wp_bind, readGrants, Prog.wp_bind, Prog.wp_get, hlegacy]
  refine Prog.wp_whenever.mpr ⟨fun _ => ?_, fun hsame => ?_⟩
  · exact wp_write ⟨rfl, rfl, rfl, fun _ => Option.some_ne_none _⟩ trivial trivial
  · exact ⟨rfl, hlegacy, (Grants.remove_eq_self (by simpa using hsame)).symm, fun h => h⟩

lemma Host.Settled.ban {id : D} (h : s.Settled setup (fun _ => False) 0) (hid : id ∈ s.listed)
    (hlegacy : s.disk.legacy = none)
    (hgone : ∀ g ∈ s.disk.grants, ∀ r ∈ g.records, r.id setup.sha ≠ id) :
    s.Settled setup (· = id) s.accepted.length :=
  { h with
    unused := fun _ hc => by cases hc
    grants := fun g hg => { h.grants g hg with allowed := hgone g hg }
    unbanned := fun hne => absurd hlegacy hne
    banned := by
      rintro _ rfl
      exact h.named _ hid
    clean := fun e he => by
      rw [List.drop_length] at he
      cases he }

/-- No token that is drawn has the id. -/
lemma Host.Settled.not_ban {ban : D → Prop} {n : ℕ} (h : s.Settled setup ban n)
    (hhash : Function.Injective setup.sha.hash)
    (hlegacy : ∀ c hwid device name platform,
      setup.sha.hash c ≠ setup.sha.legacy hwid device name platform)
    {c : D} (hc : c ∉ s.used) : ¬ban (setup.sha.hash (setup.sha.hash c)) := by
  intro hban
  rcases h.banned _ hban with ⟨c', hc', hid⟩ | ⟨hwid, device, name, platform, hid⟩
  · obtain rfl := hhash (hhash hid)
    exact hc hc'
  · exact hlegacy c hwid device name platform (hhash hid)

/-! ### Removal -/

/-- After a listed device was removed, nothing of its group is accepted in any run, and no record
of another group was lost. -/
theorem removal_final [DecidableEq D] [DecidableEq R]
    (hscope : Function.Injective setup.scope) (hhash : Function.Injective setup.sha.hash)
    (hlegacy : ∀ c hwid device name platform,
      setup.sha.hash c ≠ setup.sha.legacy hwid device name platform)
    {s s₁ s₂ : Host D R} {env : Env D} {recordIds : List D} {id : D}
    {acts : List (Act D R × Env D)} (hs : (host setup).Reachable s) (henv : s.freshCoins env)
    (hlisted : id ∈ s.listed) (hid : id ∈ recordIds)
    (hremove : remove setup recordIds { s with env := env } = .ok () s₁)
    (hrun : (host setup).run s₁ acts = some s₂) :
    (∀ e ∈ s₂.accepted.drop s₁.accepted.length, ∀ c, e.credential = some c →
      ¬c.InGroup setup.sha s₂.enrolled id) ∧
    ∀ g ∈ s.disk.grants, ∃ g₁ ∈ s₁.disk.grants, ∀ r ∈ g.records,
      r.id setup.sha ∉ recordIds → r ∈ g₁.records := by
  have hinv := (Host.settled hscope hhash hs).inv henv fun _ _ => not_false
  have hnone : s.disk.legacy = none := hinv.listed (List.ne_nil_of_mem hlisted)
  obtain ⟨hlisted', hnone', hgrants, hsome⟩ :=
    Prog.wp_ok (wp_remove_of_none (s := { s with env := env }) hnone) hremove
  constructor
  · have hkept := Prog.wp_ok (wp_remove hinv) hremove
    have hban : s₁.Settled setup (· = id) s₁.accepted.length := by
      refine hkept.settled.ban (hlisted' ▸ hlisted) hnone' fun g hg r hr heq => ?_
      rw [hg, Option.getD_some] at hgrants
      rw [hgrants] at hr
      simpa [heq, hid] using (List.mem_filter.mp hr).2
    have hend := LTS.run_invariant
      (P := fun t : Host D R => t.Settled setup (· = id) s₁.accepted.length)
      (fun t a t' ht hstep => ht.step hscope hhash (fun _ => ht.not_ban hhash hlegacy) hstep)
      hrun hban
    exact fun e he c hc => hend.clean e he c hc id rfl
  · intro g hg
    obtain ⟨g₁, hg₁⟩ := Option.ne_none_iff_exists'.mp (hsome (by simp [Option.mem_def.mp hg]))
    refine ⟨g₁, hg₁, fun r hr hnot => ?_⟩
    rw [hg₁, show s.disk.grants = some g from hg, Option.getD_some, Option.getD_some] at hgrants
    rw [hgrants]
    exact List.mem_filter.mpr ⟨hr, by simpa using hnot⟩

/-- Two logins with one legacy credential; one of them is given a token. Another device is enrolled,
and both are listed. -/
def migrating : List (Act Digest ℕ × Env Digest) :=
  let legacy := proofOf "secret" "salt" none (some (.device [1] "1" "old" "Linux"))
  [(.login legacy, drawing [0]),
   (.login legacy, drawing []),
   (.login (proofOf "secret" "salt" none none), drawing []),
   (.trust 2 true, drawing []),
   (.finish 2 { id := "2", name := "other", platform := "Linux" }, drawing [1]),
   (.finish 0 { id := "1", name := "old", platform := "Linux" }, drawing [2]),
   (.devices, drawing [])]

/-- The other login goes on, the credentials are presented again, and so is the other token. -/
def presentedAgain : List (Act Digest ℕ × Env Digest) :=
  [(.check 0, drawing []),
   (.finish 0 { id := "1", name := "old", platform := "Linux" }, drawing [3]),
   (.login (proofOf "secret" "salt" (some 2) none), drawing []),
   (.login (proofOf "secret" "salt" none (some (.device [1] "1" "old" "Linux"))), drawing []),
   (.login (proofOf "secret" "salt" (some 1) none), drawing [])]

theorem removal_final_migrated :
    let id : Digest := .hash (.device [1] "1" "old" "Linux")
    ∃ s s₁ s₂ : Host Digest ℕ,
      (host preset).run (started (hashed "secret" "salt") "salt" (some [oldDevice])) migrating =
        some s ∧ id ∈ s.listed ∧
      remove preset [id] { s with env := drawing [] } = .ok () s₁ ∧
      (host preset).run s₁ presentedAgain = some s₂ ∧
      s₂.accepted.drop s₁.accepted.length = [⟨some (.token (.hash (.random 1))), 0, 0⟩] ∧
      (∀ e ∈ s₂.accepted.drop s₁.accepted.length, ∀ c, e.credential = some c →
        ¬c.InGroup preset.sha s₂.enrolled id) ∧
      ∀ g ∈ s.disk.grants, ∃ g₁ ∈ s₁.disk.grants, ∀ r ∈ g.records,
        r.id preset.sha ∉ [id] → r ∈ g₁.records := by
  intro id
  have hruns : ((host preset).run (started (hashed "secret" "salt") "salt" (some [oldDevice]))
      migrating).any (fun s : Host Digest ℕ => s.listed.contains id && s.freshCoins (drawing []) &&
        match remove preset [id] { s with env := drawing [] } with
        | .ok _ s₁ => ((host preset).run s₁ presentedAgain).any fun s₂ : Host Digest ℕ =>
          s₂.accepted.drop s₁.accepted.length = [⟨some (.token (.hash (.random 1))), 0, 0⟩]
        | .error _ _ => false) = true := by
    decide +kernel
  obtain ⟨s, hs, hs'⟩ := (Option.any_eq_true _ _).mp hruns
  rw [Bool.and_eq_true, Bool.and_eq_true, List.contains_iff_mem] at hs'
  obtain ⟨⟨hlisted, henv⟩, hrest⟩ := hs'
  split at hrest
  · rename_i s₁ hremove
    obtain ⟨s₂, hs₂, haccepted⟩ := (Option.any_eq_true _ _).mp hrest
    refine ⟨s, s₁, s₂, hs, hlisted, hremove, hs₂, of_decide_eq_true haccepted, ?_⟩
    exact removal_final (fun _ _ h => Digest.scope.inj h) (fun _ _ h => Digest.hash.inj h)
      (fun _ _ _ _ _ h => by cases h) (LTS.Reachable.run (.init (init_started _ _ _)) hs) henv
      hlisted (List.mem_singleton_self _) hremove hs₂
  · cases hrest

end RustDesk.TrustedDevices
