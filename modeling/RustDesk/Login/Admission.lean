import RustDesk.Lib.Transition
import RustDesk.Net.Addr

/-!
# Unauthorized connections

A connection takes a place in a list before its handshake and gives it back when it is authorized or
ends. When there is no place left, the oldest connection is told to go. Telling takes two steps
under the lock of the list, a flag and a notification; the connection that is told takes no lock: it
reads the flag and, if that is not set, waits for the notification. It waits with one future at a
time.
-/

namespace RustDesk.Login

/-- `MAX_UNAUTHORIZED_CONNS` -/
def maxUnauthorizedConns : ℕ := 64

/-- `MAX_UNAUTHORIZED_CONNS_PER_ADDR` -/
def maxUnauthorizedConnsPerAddr : ℕ := 16

/-- How far the future of `evicted` has come. -/
inductive Waits where
  | called
  | checked
  | waiting
  | notified
  | resolved
  deriving DecidableEq

/-- `UnauthorizedShared`: the flag, whether the `Notify` has a notification stored, and the future
of `evicted` if there is one. -/
structure UnauthorizedShared where
  evicted : Bool := false
  stored : Bool := false
  future : Option Waits := none
  deriving DecidableEq

namespace UnauthorizedShared

/-- A future that waits is woken, otherwise the notification is stored. -/
def notifyOne (s : UnauthorizedShared) : UnauthorizedShared :=
  if s.future = some .waiting then { s with future := some .notified }
  else { s with stored := true }

/-- `evicted` is called; nothing runs before the first poll. -/
def call (s : UnauthorizedShared) : Option UnauthorizedShared :=
  if s.future = none then some { s with future := some .called } else none

/-- The next step of the future: the flag, the stored notification, the end. -/
def poll (s : UnauthorizedShared) : Option UnauthorizedShared :=
  match s.future with
  | some .called => some { s with future := some (if s.evicted then .resolved else .checked) }
  | some .checked =>
    some (if s.stored then { s with stored := false, future := some .resolved }
      else { s with future := some .waiting })
  | some .notified => some { s with future := some .resolved }
  | _ => none

/-- The future is dropped; a notification that it has not taken yet is passed on. -/
def cancel (s : UnauthorizedShared) : Option UnauthorizedShared :=
  match s.future with
  | some .notified => some { s with stored := true, future := none }
  | some _ => some { s with future := none }
  | none => none

/-- The future resolves with its next steps, or would if there were one. -/
def heard (s : UnauthorizedShared) : Bool :=
  match s.future with
  | none | some .called => s.evicted
  | some .checked => s.stored
  | some .waiting => false
  | some .notified | some .resolved => true

end UnauthorizedShared

/-- An entry of `UNAUTHORIZED_CONNS`; `shared` is the number of its `UnauthorizedShared`. -/
structure Place where
  id : ℤ
  ip : IpAddr
  shared : ℕ
  deriving DecidableEq

/-- The list and the guards that are alive, each with the place it was given; `used` are the ids so
far. While `notifying` has a number, the lock is held between flag and notification. -/
structure Admission where
  conns : List Place := []
  guards : List Place := []
  shared : ℕ → UnauthorizedShared := fun _ => {}
  next : ℕ := 0
  used : List ℤ := []
  notifying : Option ℕ := none

namespace Admission

inductive Act where
  | arrive (id : ℤ) (ip : IpAddr)
  | notify
  | drop (id : ℤ)
  | call (id : ℤ)
  | poll (id : ℤ)
  | cancel (id : ℤ)
  deriving DecidableEq

def setShared (w : Admission) (n : ℕ) (s : UnauthorizedShared) : Admission :=
  { w with shared := Function.update w.shared n s }

/-- A new place at the end. -/
def push (w : Admission) (id : ℤ) (ip : IpAddr) : Admission :=
  { w.setShared w.next {} with
    conns := w.conns ++ [⟨id, ip, w.next⟩], guards := w.guards ++ [⟨id, ip, w.next⟩],
    next := w.next + 1 }

/-- `swap` of the flag; if it was not set, the notification is next. -/
def evict (w : Admission) (oldest : Place) : Admission :=
  if (w.shared oldest.shared).evicted then w
  else { w.setShared oldest.shared { w.shared oldest.shared with evicted := true } with
    notifying := some oldest.shared }

/-- `admit_unauthorized`, up to the notification. -/
def admitUnauthorized (w : Admission) (id : ℤ) (ip : IpAddr) : Admission :=
  if maxUnauthorizedConnsPerAddr ≤ w.conns.countP (·.ip = ip) then w
  else if maxUnauthorizedConns ≤ w.conns.length then
    match w.conns.head? with
    | some oldest => w.evict oldest
    | none => w
  else w.push id ip

/-- `Drop` of a guard. -/
def dropGuard (w : Admission) (id : ℤ) : Admission :=
  { w with conns := w.conns.filter (·.id ≠ id), guards := w.guards.filter (·.id ≠ id) }

/-- The future of a guard takes a step. -/
def onFuture (w : Admission) (id : ℤ) (f : UnauthorizedShared → Option UnauthorizedShared) :
    Option Admission :=
  (w.guards.find? (·.id = id)).bind fun g => (f (w.shared g.shared)).map (w.setShared g.shared)

/-- Ids are not used twice; a guard is not dropped while its future borrows it. -/
def step (w : Admission) : Act → Option Admission
  | .arrive id ip =>
    if w.notifying = none ∧ id ∉ w.used then
      some ({ w with used := id :: w.used }.admitUnauthorized id ip)
    else none
  | .notify =>
    w.notifying.map fun n => { w.setShared n (w.shared n).notifyOne with notifying := none }
  | .drop id =>
    (w.guards.find? (·.id = id)).bind fun g =>
      if w.notifying = none ∧ (w.shared g.shared).future = none then some (w.dropGuard id) else none
  | .call id => w.onFuture id UnauthorizedShared.call
  | .poll id => w.onFuture id UnauthorizedShared.poll
  | .cancel id => w.onFuture id UnauthorizedShared.cancel

end Admission

def admission : LTS Admission Admission.Act where
  init w := w = {}
  step := Admission.step

namespace Admission

/-- The guard was told to go. -/
def isEvicted (w : Admission) (g : Place) : Bool := (w.shared g.shared).evicted

/-- There are at most as many guards as places, and as an address may have; the oldest guard alone
may be told to go, and hears of it; a guard that is dropped gives back its own place. -/
structure Bounded (w : Admission) : Prop where
  total : w.guards.length ≤ maxUnauthorizedConns
  perAddr : ∀ ip, w.guards.countP (·.ip = ip) ≤ maxUnauthorizedConnsPerAddr
  oldest : ∀ g ∈ w.guards, w.isEvicted g → ∀ g' ∈ w.guards, g' ≠ g →
    g.shared < g'.shared ∧ ¬w.isEvicted g'
  heard : ∀ g ∈ w.guards, w.isEvicted g → w.notifying ≠ some g.shared →
    (w.shared g.shared).heard
  frees : ∀ g ∈ w.guards, ∀ w', w.step (.drop g.id) = some w' →
    ∃ before after, w.conns = before ++ g :: after ∧ w'.conns = before ++ after ∧
      w'.guards = before ++ after

/-! ### The list -/

/-- The places are those of the guards, in the order of their numbers. -/
structure Listed (w : Admission) : Prop where
  guards : w.guards = w.conns
  total : w.conns.length ≤ maxUnauthorizedConns
  perAddr : ∀ ip, w.conns.countP (·.ip = ip) ≤ maxUnauthorizedConnsPerAddr
  ids : (w.conns.map (·.id)).Nodup
  used : ∀ p ∈ w.conns, p.id ∈ w.used
  sorted : w.conns.Pairwise (·.shared < ·.shared)
  below : ∀ p ∈ w.conns, p.shared < w.next

/-- Only the first may be told to go, and it hears of it. -/
structure Told (w : Admission) : Prop where
  first : ∀ p ∈ w.conns.tail, ¬w.isEvicted p
  heard : ∀ p ∈ w.conns, w.isEvicted p → w.notifying ≠ some p.shared →
    (w.shared p.shared).heard
  flagged : ∀ n, w.notifying = some n → (w.shared n).evicted

variable {w w' : Admission} {id : ℤ} {ip : IpAddr} {n : ℕ} {s s' : UnauthorizedShared}

lemma Listed.push (h : Listed w) (hid : id ∉ w.conns.map (·.id)) (hused : id ∈ w.used)
    (haddr : ¬maxUnauthorizedConnsPerAddr ≤ w.conns.countP (·.ip = ip))
    (htotal : ¬maxUnauthorizedConns ≤ w.conns.length) : Listed (w.push id ip) where
  guards := by rw [Admission.push, h.guards]
  total := by
    show (w.conns ++ [_]).length ≤ _
    rw [List.length_append, List.length_singleton]
    omega
  perAddr ip' := by
    show (w.conns ++ [_]).countP _ ≤ _
    rw [List.countP_append, List.countP_singleton]
    by_cases hip : ip = ip'
    · subst hip
      simp only [decide_true, if_true]
      omega
    · simpa [hip] using h.perAddr ip'
  ids := by
    show ((w.conns ++ [_]).map _).Nodup
    rw [List.map_append, List.map_singleton, ← List.concat_eq_append, List.nodup_concat]
    exact ⟨hid, h.ids⟩
  used := List.forall_mem_append.mpr ⟨h.used, List.forall_mem_singleton.mpr hused⟩
  sorted := by
    refine List.pairwise_append.mpr ⟨h.sorted, List.pairwise_singleton _ _, ?_⟩
    intro p hp q hq
    rw [List.mem_singleton.mp hq]
    exact h.below p hp
  below p hp := by
    rcases List.mem_append.mp hp with hp | hp
    · exact Nat.lt_succ_of_lt (h.below p hp)
    · rw [List.mem_singleton.mp hp]
      exact Nat.lt_succ_self _

lemma Listed.dropGuard (h : Listed w) (id : ℤ) : Listed (w.dropGuard id) where
  guards := by rw [Admission.dropGuard, h.guards]
  total := (List.length_filter_le _ _).trans h.total
  perAddr ip := ((List.filter_sublist).countP_le).trans (h.perAddr ip)
  ids := h.ids.sublist ((List.filter_sublist).map _)
  used p hp := h.used p (List.mem_of_mem_filter hp)
  sorted := h.sorted.sublist List.filter_sublist
  below p hp := h.below p (List.mem_of_mem_filter hp)

lemma Listed.congr (h : Listed w) (hconns : w'.conns = w.conns) (hguards : w'.guards = w.guards)
    (hused : w.used ⊆ w'.used) (hnext : w'.next = w.next) : Listed w' := by
  refine ⟨?_, ?_, ?_, ?_, ?_, ?_, ?_⟩
  · rw [hconns, hguards]
    exact h.guards
  · rw [hconns]
    exact h.total
  · rw [hconns]
    exact h.perAddr
  · rw [hconns]
    exact h.ids
  · rw [hconns]
    exact fun p hp => hused (h.used p hp)
  · rw [hconns]
    exact h.sorted
  · rw [hconns, hnext]
    exact h.below

/-! ### The flags -/

/-- What a step of the future keeps. -/
structure Goes (s s' : UnauthorizedShared) : Prop where
  evicted : s'.evicted = s.evicted
  heard : s.evicted → s.heard → s'.heard

lemma goes_call (h : s.call = some s') : Goes s s' := by
  rw [UnauthorizedShared.call] at h
  split_ifs at h with hfuture
  cases h
  exact ⟨rfl, fun hev _ => hev⟩

lemma goes_cancel (h : s.cancel = some s') : Goes s s' := by
  rw [UnauthorizedShared.cancel] at h
  split at h <;> cases h
  · exact ⟨rfl, fun hev _ => hev⟩
  · exact ⟨rfl, fun hev _ => hev⟩

lemma goes_poll (h : s.poll = some s') : Goes s s' := by
  rw [UnauthorizedShared.poll] at h
  split at h
  · cases h
    refine ⟨rfl, fun hev _ => ?_⟩
    rw [if_pos hev]
    rfl
  · next hfuture =>
    cases h
    by_cases hstored : s.stored
    · rw [if_pos hstored]
      exact ⟨rfl, fun _ _ => rfl⟩
    · rw [if_neg hstored]
      refine ⟨rfl, fun _ hheard => ?_⟩
      rw [UnauthorizedShared.heard, hfuture] at hheard
      exact absurd hheard hstored
  · cases h
    exact ⟨rfl, fun _ _ => rfl⟩
  · cases h

/-- Whoever has seen the flag unset gets the notification. -/
lemma heard_notifyOne (h : s.evicted) : s.notifyOne.heard := by
  rw [UnauthorizedShared.notifyOne]
  split_ifs with hwaiting
  · rfl
  · rw [UnauthorizedShared.heard]
    split
    · exact h
    · exact h
    · rfl
    · next hfuture => exact absurd hfuture hwaiting
    · rfl
    · rfl

lemma evicted_notifyOne (s : UnauthorizedShared) : s.notifyOne.evicted = s.evicted := by
  rw [UnauthorizedShared.notifyOne]
  split_ifs <;> rfl

lemma shared_setShared (m : ℕ) :
    (w.setShared n s).shared m = if m = n then s else w.shared m :=
  Function.update_apply ..

lemma Told.push (h : Told w) (hl : Listed w) (hfree : w.notifying = none) :
    Told (w.push id ip) := by
  have hold : ∀ p ∈ w.conns, (w.push id ip).shared p.shared = w.shared p.shared := by
    intro p hp
    exact (shared_setShared p.shared).trans (if_neg (hl.below p hp).ne)
  have hnew : (w.push id ip).shared w.next = {} := (shared_setShared w.next).trans (if_pos rfl)
  refine ⟨fun p hp hev => ?_, fun p hp hev hn => ?_, fun n hn => ?_⟩
  · have hmem : p ∈ w.conns.tail ∨ p = (⟨id, ip, w.next⟩ : Place) := by
      have hp : p ∈ (w.conns ++ [(⟨id, ip, w.next⟩ : Place)]).tail := hp
      cases hconns : w.conns with
      | nil =>
        rw [hconns] at hp
        cases hp
      | cons q conns =>
        rw [hconns, List.cons_append, List.tail_cons, List.mem_append, List.mem_singleton] at hp
        exact hp
    rcases hmem with hmem | rfl
    · rw [isEvicted, hold p (List.mem_of_mem_tail hmem)] at hev
      exact h.first p hmem hev
    · rw [isEvicted, hnew] at hev
      cases hev
  · rcases List.mem_append.mp hp with hp | hp
    · rw [isEvicted, hold p hp] at hev
      rw [hold p hp]
      exact h.heard p hp hev hn
    · rw [List.mem_singleton.mp hp, isEvicted, hnew] at hev
      cases hev
  · cases hfree.symm.trans hn

lemma Told.evict (h : Told w) (hl : Listed w) {oldest : Place} (ho : w.conns.head? = some oldest) :
    Told (w.evict oldest) := by
  rw [Admission.evict]
  split_ifs with hev
  · exact h
  · obtain ⟨rest, hconns⟩ := List.head?_eq_some_iff.mp ho
    have hother : ∀ p ∈ rest, p.shared ≠ oldest.shared := by
      intro p hp
      have hsorted := hl.sorted
      rw [hconns, List.pairwise_cons] at hsorted
      exact (hsorted.1 p hp).ne'
    have hrest : ∀ p ∈ rest, ¬w.isEvicted p := by
      have hfirst := h.first
      rw [hconns] at hfirst
      exact hfirst
    have hkept : ∀ p ∈ rest, ∀ s, ¬(w.setShared oldest.shared s).isEvicted p := by
      intro p hp s
      rw [isEvicted, shared_setShared, if_neg (hother p hp)]
      exact hrest p hp
    refine ⟨fun p hp => ?_, fun p hp hev hn => ?_, fun n hn => ?_⟩
    · have hp : p ∈ w.conns.tail := hp
      rw [hconns] at hp
      exact hkept p hp _
    · have hp : p ∈ w.conns := hp
      rw [hconns] at hp
      rcases List.mem_cons.mp hp with rfl | hp
      · exact absurd rfl hn
      · exact absurd hev (hkept p hp _)
    · cases hn
      show ((w.setShared _ _).shared _).evicted
      rw [shared_setShared, if_pos rfl]

lemma Told.goes (h : Told w) (hs : Goes (w.shared n) s) : Told (w.setShared n s) := by
  have hflag : ∀ m, ((w.setShared n s).shared m).evicted = (w.shared m).evicted := by
    intro m
    rw [shared_setShared]
    split_ifs with hm
    · rw [hm, hs.evicted]
    · rfl
  refine ⟨fun p hp => ?_, fun p hp hev hn => ?_, fun m hm => ?_⟩
  · rw [isEvicted, hflag]
    exact h.first p hp
  · rw [isEvicted, hflag] at hev
    rw [shared_setShared]
    split_ifs with hm
    · rw [← hm] at hs
      exact hs.heard hev (h.heard p hp hev hn)
    · exact h.heard p hp hev hn
  · rw [hflag]
    exact h.flagged m hm

lemma Told.notify (h : Told w) (hn : w.notifying = some n) :
    Told { w.setShared n (w.shared n).notifyOne with notifying := none } := by
  have hflag : ∀ m, ((w.setShared n (w.shared n).notifyOne).shared m).evicted =
      (w.shared m).evicted := by
    intro m
    rw [shared_setShared]
    split_ifs with hm
    · rw [hm, evicted_notifyOne]
    · rfl
  refine ⟨fun p hp => ?_, fun p hp hev _ => ?_, fun m hm => ?_⟩
  · rw [isEvicted, hflag]
    exact h.first p hp
  · rw [isEvicted, hflag] at hev
    rw [shared_setShared]
    split_ifs with hm
    · exact heard_notifyOne (h.flagged n hn)
    · refine h.heard p hp hev fun hp => hm ?_
      exact Option.some_inj.mp (hp.symm.trans hn)
  · cases hm

lemma Told.dropGuard (h : Told w) (id : ℤ) : Told (w.dropGuard id) where
  first p hp := by
    have hp : p ∈ (w.conns.filter (·.id ≠ id)).tail := hp
    refine h.first p ?_
    cases hconns : w.conns with
    | nil =>
      rw [hconns] at hp
      cases hp
    | cons q conns =>
      rw [hconns, List.filter_cons] at hp
      split_ifs at hp with hq
      · exact List.mem_of_mem_filter hp
      · exact List.mem_of_mem_filter (List.mem_of_mem_tail hp)
  heard p hp := h.heard p (List.mem_of_mem_filter hp)
  flagged := h.flagged

/-! ### Steps -/

/-- The list and the flags together. -/
structure Kept (w : Admission) : Prop extends Listed w, Told w

lemma Kept.arrive (h : Kept w) (hfree : w.notifying = none) (hid : id ∉ w.used) :
    Kept ({ w with used := id :: w.used }.admitUnauthorized id ip) := by
  have hl : Listed { w with used := id :: w.used } :=
    h.toListed.congr rfl rfl (List.subset_cons_self _ _) rfl
  have ht : Told { w with used := id :: w.used } := ⟨h.first, h.heard, h.flagged⟩
  have hnew : id ∉ w.conns.map (·.id) := by
    intro hmem
    obtain ⟨p, hp, rfl⟩ := List.mem_map.mp hmem
    exact hid (h.used p hp)
  rw [admitUnauthorized]
  split_ifs with haddr htotal
  · exact ⟨hl, ht⟩
  · split
    · next oldest ho =>
      refine ⟨?_, ht.evict hl ho⟩
      rw [Admission.evict]
      split_ifs
      · exact hl
      · exact hl.congr rfl rfl (List.Subset.refl _) rfl
    · exact ⟨hl, ht⟩
  · exact ⟨hl.push hnew List.mem_cons_self haddr htotal, ht.push hl hfree⟩

lemma Kept.onFuture (h : Kept w) {f : UnauthorizedShared → Option UnauthorizedShared}
    (hf : ∀ s s', f s = some s' → Goes s s') (hstep : w.onFuture id f = some w') : Kept w' := by
  obtain ⟨g, -, hg⟩ := Option.bind_eq_some_iff.mp hstep
  obtain ⟨s, hs, rfl⟩ := Option.map_eq_some_iff.mp hg
  exact ⟨h.toListed.congr rfl rfl (List.Subset.refl _) rfl, h.toTold.goes (hf _ _ hs)⟩

lemma Kept.step (h : Kept w) {a : Act} (hstep : w.step a = some w') : Kept w' := by
  cases a with
  | arrive id ip =>
    obtain ⟨⟨hfree, hid⟩, heq⟩ := Option.ite_none_right_eq_some.mp hstep
    cases heq
    exact h.arrive hfree hid
  | notify =>
    obtain ⟨n, hn, rfl⟩ := Option.map_eq_some_iff.mp hstep
    exact ⟨h.toListed.congr rfl rfl (List.Subset.refl _) rfl, h.toTold.notify hn⟩
  | drop id =>
    obtain ⟨g, -, hg⟩ := Option.bind_eq_some_iff.mp hstep
    obtain ⟨-, heq⟩ := Option.ite_none_right_eq_some.mp hg
    cases heq
    exact ⟨h.toListed.dropGuard id, h.toTold.dropGuard id⟩
  | call id => exact h.onFuture (fun _ _ => goes_call) hstep
  | poll id => exact h.onFuture (fun _ _ => goes_poll) hstep
  | cancel id => exact h.onFuture (fun _ _ => goes_cancel) hstep

/-- In a list with different ids, to remove an id is to remove one place. -/
lemma filter_id_ne {before after : List Place} {g : Place}
    (h : ((before ++ g :: after).map (·.id)).Nodup) :
    (before ++ g :: after).filter (·.id ≠ g.id) = before ++ after := by
  have hne : ∀ p ∈ before ++ after, p.id ≠ g.id := by
    intro p hp heq
    rw [List.map_append, List.map_cons, List.nodup_middle, ← List.map_append] at h
    exact (List.nodup_cons.mp h).1 (heq ▸ List.mem_map_of_mem hp)
  rw [List.forall_mem_append] at hne
  rw [List.filter_append, List.filter_cons_of_neg (by simp),
    List.filter_eq_self.mpr fun p hp => decide_eq_true (hne.1 p hp),
    List.filter_eq_self.mpr fun p hp => decide_eq_true (hne.2 p hp)]

lemma Kept.bounded (h : Kept w) : Bounded w := by
  refine ⟨h.guards ▸ h.total, fun ip => h.guards ▸ h.perAddr ip, ?_, ?_, ?_⟩
  · rw [h.guards]
    intro g hg hev g' hg' hne
    obtain ⟨q, rest, hconns⟩ := List.exists_cons_of_ne_nil (List.ne_nil_of_mem hg)
    have hfirst := h.first
    have hsorted := h.sorted
    rw [hconns] at hg hg' hfirst hsorted
    -- whoever is not the first was not told
    obtain rfl : g = q := (List.mem_cons.mp hg).resolve_right fun hmem => hfirst g hmem hev
    have hmem : g' ∈ rest := (List.mem_cons.mp hg').resolve_left hne
    exact ⟨(List.pairwise_cons.mp hsorted).1 g' hmem, hfirst g' hmem⟩
  · rw [h.guards]
    exact h.heard
  · rw [h.guards]
    intro g hg w' hstep
    obtain ⟨before, after, hconns⟩ := List.append_of_mem hg
    obtain ⟨_, -, hguard⟩ := Option.bind_eq_some_iff.mp hstep
    obtain ⟨-, heq⟩ := Option.ite_none_right_eq_some.mp hguard
    cases heq
    have hfilter := filter_id_ne (hconns ▸ h.ids)
    rw [← hconns] at hfilter
    refine ⟨before, after, hconns, hfilter, ?_⟩
    show w.guards.filter _ = _
    rw [h.guards]
    exact hfilter

end Admission

/-- In every state: as many guards as there may be, the oldest alone told to go and able to hear of
it, and each with a place of its own. -/
theorem admission_bounded {w : Admission} (h : admission.Reachable w) : w.Bounded := by
  have hkept : Admission.Kept w := by
    refine h.invariant ?_ fun _ _ _ _ hw hstep => hw.step hstep
    rintro _ rfl
    exact ⟨⟨rfl, Nat.zero_le _, fun _ => Nat.zero_le _, List.nodup_nil, List.forall_mem_nil _,
      .nil, List.forall_mem_nil _⟩, List.forall_mem_nil _, List.forall_mem_nil _, nofun⟩
  exact hkept.bounded

/-- Four addresses have all their places; the first connection waits to be told. -/
def fullHouse : List Admission.Act :=
  (List.range 64).map (fun i => .arrive i (.v4 (.new 10 0 0 (UInt8.ofNat (i / 16))))) ++
    [.call 0, .poll 0]

/-- One more comes: the first is told while it goes on waiting, and hears of it. -/
theorem admission_bounded_full_house : ∃ w, admission.Reachable w ∧ w.Bounded ∧
    w.guards.length = 64 ∧ (w.shared 0).evicted ∧ (w.shared 0).future = some .notified := by
  have hrun : ∃ w ∈ admission.run {} (fullHouse ++
      [.arrive 64 (.v4 (.new 10 0 0 9)), .poll 0, .notify]),
      w.guards.length = 64 ∧ (w.shared 0).evicted ∧ (w.shared 0).future = some .notified := by
    decide +kernel
  obtain ⟨w, hw, hlength, hev, hfuture⟩ := hrun
  have hreach : admission.Reachable w := (LTS.Reachable.init rfl).run (Option.mem_def.mp hw)
  exact ⟨w, hreach, admission_bounded hreach, hlength, hev, hfuture⟩

end RustDesk.Login
