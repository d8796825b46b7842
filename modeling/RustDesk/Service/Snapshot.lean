import RustDesk.Lib.HashMap
import RustDesk.Lib.Transition

/-!
# Snapshots of a service

A connection that subscribes to a service (server/service.rs) first waits among the new
subscribers. The callback of the next snapshot sends to these alone, and when its `ServiceSwap` is
dropped they are moved to the subscribers, which get whatever the service sends. A subscriber
carries all that was sent to it, and the callback that admitted it.
-/

namespace RustDesk.Service

/-- A callback that has ended: what it sent through its `ServiceSwap`, and whether it gave `Ok`. -/
structure Callback (Msg : Type*) where
  sent : List Msg
  ok : Bool
  deriving DecidableEq

structure Subscriber (Msg : Type*) where
  received : List Msg := []
  admittedBy : Option (Callback Msg) := none
  deriving DecidableEq

structure ServiceInner (Msg : Type*) where
  subscribes : ℤ → Option (Subscriber Msg) := fun _ => none
  newSubscribes : HMap ℤ (Subscriber Msg) := .empty
  needSnapshot : Bool := true
  /-- What the callback that is running has sent. -/
  callback : Option (List Msg) := none

inductive Action (Msg : Type*) where
  | onSubscribe (id : ℤ)
  | onUnsubscribe (id : ℤ)
  | snapshot
  /-- `ServiceSwap::send`, by the callback. -/
  | swapSend (msg : Msg)
  /-- The callback returns, which drops its `ServiceSwap`. -/
  | swapDrop (ok : Bool)
  /-- `send` and `send_shared`. -/
  | sendShared (msg : Msg)
  | sendTo (msg : Msg) (id : ℤ)

variable {Msg : Type*}

def Subscriber.send (sub : Subscriber Msg) (msg : Msg) : Subscriber Msg :=
  { sub with received := sub.received ++ [msg] }

namespace ServiceInner

variable (s : ServiceInner Msg)

def sendNewSubscribes (msg : Msg) : ServiceInner Msg :=
  { s with newSubscribes := s.newSubscribes.map fun _ sub => sub.send msg }

def swapNewSubscribes (c : Callback Msg) : ServiceInner Msg :=
  { s with
    subscribes := fun id => match s.newSubscribes.get id with
      | some sub => some { sub with admittedBy := some c }
      | none => s.subscribes id
    newSubscribes := .empty }

def onSubscribe (id : ℤ) : ServiceInner Msg :=
  if (s.subscribes id).isSome then s
  else if s.needSnapshot then { s with newSubscribes := s.newSubscribes.insert id {} }
  else { s with subscribes := Function.update s.subscribes id (some {}) }

def onUnsubscribe (id : ℤ) : ServiceInner Msg :=
  if (s.subscribes id).isSome then { s with subscribes := Function.update s.subscribes id none }
  else { s with newSubscribes := s.newSubscribes.erase id }

/-- What is sent to the subscribers that `p` holds of. -/
def sendWhere (p : ℤ → Bool) (msg : Msg) : ServiceInner Msg :=
  { s with
    subscribes := fun id => (s.subscribes id).map fun sub => if p id then sub.send msg else sub }

def sendShared (msg : Msg) : ServiceInner Msg := s.sendWhere (fun _ => true) msg

def sendTo (msg : Msg) (id : ℤ) : ServiceInner Msg := s.sendWhere (· = id) msg

end ServiceInner

def step (s : ServiceInner Msg) : Action Msg → Option (ServiceInner Msg)
  | .onSubscribe id => some (s.onSubscribe id)
  | .onUnsubscribe id => some (s.onUnsubscribe id)
  | .snapshot => match s.callback with
    | some _ => none
    | none => some (if s.newSubscribes.len > 0 then { s with callback := some [] } else s)
  | .swapSend msg => s.callback.map fun sent =>
      { s.sendNewSubscribes msg with callback := some (sent ++ [msg]) }
  | .swapDrop ok => s.callback.map fun sent =>
      { s.swapNewSubscribes ⟨sent, ok⟩ with callback := none }
  | .sendShared msg => some (s.sendShared msg)
  | .sendTo msg id => some (s.sendTo msg id)

/-- A service with `need_snapshot`, its one thread and any number of connections. -/
def service (Msg : Type*) : LTS (ServiceInner Msg) (Action Msg) where
  init s := s = {}
  step := step

/-- No id is in both maps. -/
structure Separate (s : ServiceInner Msg) : Prop where
  needSnapshot : s.needSnapshot
  not_both : ∀ id, (s.subscribes id).isSome → s.newSubscribes.get id = none

/-- What a subscriber got starts with all that the callback that admitted it sent, and this returned
`Ok`. -/
def SnapshotFirst (s : ServiceInner Msg) : Prop :=
  ∀ id, ∀ sub ∈ s.subscribes id, ∃ c ∈ sub.admittedBy, c.ok ∧ c.sent <+: sub.received

/-- No id is added to the new ones after the callback has begun to send, and no callback fails. -/
def timely (s : ServiceInner Msg) : Action Msg → Bool
  | .onSubscribe id => (s.subscribes id).isSome || s.callback.all (·.isEmpty)
  | .swapDrop ok => ok
  | _ => true

/-- A new subscriber got all that the running callback has sent. -/
structure Inv (s : ServiceInner Msg) : Prop where
  first : SnapshotFirst s
  waiting : ∀ id, ∀ sub ∈ s.newSubscribes.get id, sub.received = s.callback.getD []

variable {s s' : ServiceInner Msg} {a : Action Msg}

lemma Separate.step (h : Separate s) (hs : step s a = some s') : Separate s' := by
  cases a with
  | onSubscribe id =>
    cases hs
    rw [ServiceInner.onSubscribe, if_pos h.needSnapshot]
    split_ifs with hsub
    · exact h
    refine ⟨h.needSnapshot, fun k hk => ?_⟩
    rw [HMap.get_insert_of_ne (by rintro rfl; exact hsub hk)]
    exact h.not_both k hk
  | onUnsubscribe id =>
    cases hs
    rw [ServiceInner.onUnsubscribe]
    split_ifs <;> refine ⟨h.needSnapshot, fun k hk => ?_⟩ <;> by_cases hkid : k = id
    · simp [hkid] at hk
    · exact h.not_both k (by simpa [hkid] using hk)
    · simp [hkid]
    · rw [HMap.get_erase_of_ne hkid]
      exact h.not_both k hk
  | snapshot =>
    simp only [Service.step] at hs
    split at hs <;> cases hs
    split_ifs
    · exact ⟨h.needSnapshot, h.not_both⟩
    · exact h
  | swapSend msg =>
    obtain ⟨sent, -, rfl⟩ := Option.map_eq_some_iff.mp hs
    refine ⟨h.needSnapshot, fun k hk => ?_⟩
    simp [ServiceInner.sendNewSubscribes, HMap.map, h.not_both k hk]
  | swapDrop ok =>
    obtain ⟨sent, -, rfl⟩ := Option.map_eq_some_iff.mp hs
    exact ⟨h.needSnapshot, fun _ _ => rfl⟩
  | sendShared msg | sendTo msg id =>
    cases hs
    exact ⟨h.needSnapshot, fun k hk => h.not_both k (Option.isSome_map.symm.trans hk)⟩

lemma separate (hs : (service Msg).Reachable s) : Separate s := by
  refine hs.invariant ?_ fun _ _ _ _ h => h.step
  rintro _ rfl
  exact ⟨rfl, fun _ _ => rfl⟩

lemma Inv.onSubscribe (h : Inv s) (hs : Separate s) {id : ℤ} (ht : timely s (.onSubscribe id)) :
    Inv (s.onSubscribe id) := by
  rw [ServiceInner.onSubscribe, if_pos hs.needSnapshot]
  split_ifs with hsub
  · exact h
  have hcallback : s.callback.getD [] = [] := by
    cases hc : s.callback <;> simp_all [timely]
  refine ⟨h.first, fun k sub hk => ?_⟩
  by_cases hkid : k = id
  · subst hkid
    obtain rfl : {} = sub := by simpa using hk
    exact hcallback.symm
  · rw [HMap.get_insert_of_ne hkid] at hk
    exact h.waiting k sub hk

lemma Inv.onUnsubscribe (h : Inv s) (id : ℤ) : Inv (s.onUnsubscribe id) := by
  rw [ServiceInner.onUnsubscribe]
  split_ifs with hsub
  · refine ⟨fun k sub hk => ?_, h.waiting⟩
    by_cases hkid : k = id <;> simp [hkid] at hk
    exact h.first k sub hk
  · refine ⟨h.first, fun k sub hk => ?_⟩
    by_cases hkid : k = id
    · simp [hkid] at hk
    · rw [HMap.get_erase_of_ne hkid] at hk
      exact h.waiting k sub hk

lemma Inv.sendWhere (h : Inv s) (p : ℤ → Bool) (msg : Msg) : Inv (s.sendWhere p msg) := by
  refine ⟨fun k sub hk => ?_, h.waiting⟩
  obtain ⟨old, hold, rfl⟩ := Option.map_eq_some_iff.mp hk
  obtain ⟨c, hc, hok, hsent⟩ := h.first k old hold
  split_ifs
  · exact ⟨c, hc, hok, hsent.trans (List.prefix_append _ _)⟩
  · exact ⟨c, hc, hok, hsent⟩

lemma Inv.swapSend (h : Inv s) {sent : List Msg} (hsent : s.callback = some sent) (msg : Msg) :
    Inv { s.sendNewSubscribes msg with callback := some (sent ++ [msg]) } := by
  refine ⟨h.first, fun k sub hk => ?_⟩
  obtain ⟨old, hold, rfl⟩ := Option.map_eq_some_iff.mp hk
  simp [Subscriber.send, h.waiting k old hold, hsent]

lemma Inv.swapDrop (h : Inv s) {sent : List Msg} (hsent : s.callback = some sent) :
    Inv { s.swapNewSubscribes ⟨sent, true⟩ with callback := none } := by
  refine ⟨fun k sub hk => ?_, fun _ _ hk => by cases hk⟩
  dsimp only [ServiceInner.swapNewSubscribes] at hk
  split at hk
  next new hnew =>
    obtain rfl := Option.some.inj hk
    refine ⟨_, rfl, rfl, ?_⟩
    rw [h.waiting k new hnew, hsent]
    exact List.prefix_rfl
  · exact h.first k sub hk

lemma Inv.step (h : Inv s) (hsep : Separate s) (ht : timely s a) (hs : step s a = some s') :
    Inv s' := by
  cases a with
  | onSubscribe id =>
    cases hs
    exact h.onSubscribe hsep ht
  | onUnsubscribe id =>
    cases hs
    exact h.onUnsubscribe id
  | snapshot =>
    simp only [Service.step] at hs
    split at hs
    · cases hs
    next hnone =>
      cases hs
      split_ifs
      · exact ⟨h.first, by simpa [hnone] using h.waiting⟩
      · exact h
  | swapSend msg =>
    obtain ⟨sent, hsent, rfl⟩ := Option.map_eq_some_iff.mp hs
    exact h.swapSend hsent msg
  | swapDrop ok =>
    obtain ⟨sent, hsent, rfl⟩ := Option.map_eq_some_iff.mp hs
    obtain rfl : ok = true := ht
    exact h.swapDrop hsent
  | sendShared msg | sendTo msg id =>
    cases hs
    exact h.sendWhere _ msg

/-- No id is ever in both maps; and every subscriber gets the snapshot first, while nobody
subscribes to a callback that has begun to send and no callback fails. -/
theorem snapshot_first (hs : (service Msg).Reachable s) :
    (∀ id, (s.subscribes id).isSome → s.newSubscribes.get id = none) ∧
    (((service Msg).restrict timely).Reachable s → SnapshotFirst s) := by
  refine ⟨(separate hs).not_both, fun hs => ?_⟩
  have hinv : Inv s := by
    refine hs.invariant ?_ fun s a s' hs h hstep => ?_
    · rintro _ rfl
      exact ⟨by simp [SnapshotFirst], by simp [HMap.empty]⟩
    · obtain ⟨ht, hstep⟩ := LTS.restrict_step_some hstep
      exact h.step (separate hs.of_restrict) ht hstep
  exact hinv.first

theorem snapshot_first_then_sent : ∃ s, ((service ℕ).restrict timely).Reachable s ∧
    s.subscribes 1 = some ⟨[7, 8], some ⟨[7], true⟩⟩ ∧ SnapshotFirst s := by
  obtain ⟨s, hs, hsub⟩ := LTS.exists_reachable (M := (service ℕ).restrict timely) rfl
    [.onSubscribe 1, .snapshot, .swapSend 7, .swapDrop true, .sendShared 8]
    (P := fun s => s.subscribes 1 = some ⟨[7, 8], some ⟨[7], true⟩⟩) (by decide)
  exact ⟨s, hs, hsub, (snapshot_first hs.of_restrict).2 hs⟩

/-- One that subscribes after the callback has sent is admitted without the snapshot. -/
theorem admitted_without_snapshot : ∃ s, (service ℕ).Reachable s ∧
    s.subscribes 2 = some ⟨[8], some ⟨[7], true⟩⟩ ∧ ¬SnapshotFirst s := by
  obtain ⟨s, hs, hsub⟩ := LTS.exists_reachable (M := service ℕ) rfl
    [.onSubscribe 1, .snapshot, .swapSend 7, .onSubscribe 2, .swapDrop true, .sendShared 8]
    (P := fun s => s.subscribes 2 = some ⟨[8], some ⟨[7], true⟩⟩) (by decide)
  refine ⟨s, hs, hsub, fun h => ?_⟩
  obtain ⟨c, hc, -, hsent⟩ := h 2 _ hsub
  obtain rfl := Option.some.inj hc
  revert hsent
  decide

end RustDesk.Service
