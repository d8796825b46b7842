import RustDesk.Relay.Pairing

/-!
# The two ends of a relay

Two calls of `make_pair_` carry a uuid that no other call carries. The first that looks the uuid up
finds nothing and waits, the second finds the first, unless it looks between the two times that the
first takes the lock of `PEERS`, or after the first has slept to the end.
-/

namespace RustDesk.Relay

namespace Task

variable {uuid : String} {t : Task}

/-- The request of the call has the uuid. -/
def carries (uuid : String) : Task → Bool
  | looking _ v => v = uuid
  | missed _ v => v = uuid
  | waiting _ v _ => v = uuid
  | relaying _ v _ _ => v = uuid
  | closed _ v _ => v = uuid
  | expired _ v => v = uuid
  | _ => false

def waits (uuid : String) : Task → Bool
  | waiting _ v _ => v = uuid
  | _ => false

/-- The call relays, or has relayed, with the stream of another. -/
def mates (uuid : String) (peer : ℕ) : Task → Bool
  | relaying _ v q _ => v = uuid && q = peer
  | closed _ v q => v = uuid && q = peer
  | _ => false

/-- The call has found nothing and is not in `PEERS`: not yet, or no longer. -/
def misses (uuid : String) : Task → Bool
  | missed _ v => v = uuid
  | expired _ v => v = uuid
  | _ => false

/-- The call has put its stream into `PEERS`. -/
def inserted (uuid : String) : Task → Bool
  | waiting _ v _ => v = uuid
  | expired _ v => v = uuid
  | _ => false

/-- The call has found nothing under the uuid. -/
def single (uuid : String) (t : Task) : Bool :=
  t.misses uuid || t.waits uuid

/-- The call has looked the uuid up. -/
def looked (uuid : String) : Task → Bool
  | looking _ _ => false
  | t => t.carries uuid

/-- The call has done what it does about the uuid, but for sleeping and relaying. -/
def settled (uuid : String) : Task → Bool
  | looking _ _ => false
  | missed _ _ => false
  | t => t.carries uuid

lemma carries_of_misses (h : t.misses uuid) : t.carries uuid := by
  cases t with
  | missed | expired => exact h
  | _ => cases h

lemma carries_of_inserted (h : t.inserted uuid) : t.carries uuid := by
  cases t with
  | waiting | expired => exact h
  | _ => cases h

lemma inserted_of_waits (h : t.waits uuid) : t.inserted uuid := by
  cases t with
  | waiting => exact h
  | _ => cases h

lemma carries_of_waits (h : t.waits uuid) : t.carries uuid :=
  carries_of_inserted (inserted_of_waits h)

lemma carries_of_mates {peer : ℕ} (h : t.mates uuid peer) : t.carries uuid := by
  cases t with
  | relaying | closed => exact (Bool.and_eq_true_iff.mp h).1
  | _ => cases h

lemma carries_of_single (h : t.single uuid) : t.carries uuid := by
  rcases Bool.or_eq_true_iff.mp h with h | h
  · exact carries_of_misses h
  · exact carries_of_waits h

lemma carries_of_settled (h : t.settled uuid) : t.carries uuid := by
  cases t with
  | looking | missed => cases h
  | _ => exact h

lemma carries_of_looked (h : t.looked uuid) : t.carries uuid := by
  cases t with
  | looking => cases h
  | _ => exact h

end Task

namespace World

variable {w w' : World} {act : Act} {uuid : String} {a b k k' j peer : ℕ} {t t' : Task}
  {p : Task → Bool} {conn : Conn} {acts : List Act}

def At (w : World) (k : ℕ) (p : Task → Bool) : Prop :=
  ∃ t, w.tasks[k]? = some t ∧ p t

/-- Only the calls `a` and `b` send a request with the uuid. -/
def only (uuid : String) (a b : ℕ) (_ : World) : Act → Bool
  | .receive k (some rf) => rf.uuid ≠ uuid || k = a || k = b
  | _ => true

/-- The uuid is not looked up while a call that carries it has found nothing and is not in
`PEERS`. -/
def apart (uuid : String) (w : World) : Act → Bool
  | .look k =>
    match w.tasks[k]? with
    | some (.looking _ v) => v ≠ uuid || w.tasks.all fun t => !t.misses uuid
    | _ => true
  | _ => true

/-- Nothing is in `PEERS` under the uuid, and no call but `a` and `b` carries it; these have not
looked it up yet. -/
structure Awaits (w : World) (uuid : String) (a b : ℕ) : Prop where
  free : w.peers uuid = none
  calls : ∀ {k : ℕ} {t : Task}, w.tasks[k]? = some t → t.carries uuid →
    (k = a ∨ k = b) ∧ ∃ conn, t = .looking conn uuid

/-- One of the calls has the streams of both and relays between them, and none is left. -/
def Paired (w : World) (uuid : String) (a b : ℕ) : Prop :=
  w.peers uuid = none ∧ (w.At a (Task.mates uuid b) ∨ w.At b (Task.mates uuid a))

/-! ### What a step does about one uuid -/

lemma at_iff (ht : w.tasks[k]? = some t) : w.At k p ↔ p t := by
  simp [At, ht]

lemma at_setTask_self (ht : w.tasks[k]? = some t) : (w.setTask k t').At k p ↔ p t' := by
  simp [At, setTask, Slots.get_set_self ht]

lemma at_setTask_of_ne (t : Task) (hne : k' ≠ k) : (w.setTask k t).At k' p ↔ w.At k' p := by
  simp [At, setTask, Slots.get_set_of_ne hne]

/-- The step is not about the uuid. -/
structure Same (uuid : String) (w w' : World) : Prop where
  peers : w'.peers uuid = w.peers uuid
  tasks : ∀ {k : ℕ} {p : Task → Bool}, (∀ t, p t → t.carries uuid) → (w'.At k p ↔ w.At k p)

/-- The steps about one uuid. -/
inductive Touches (uuid : String) (w : World) : Act → World → Prop where
  | request {k : ℕ} {conn : Conn} {since : Instant} {rf : RequestRelay}
      (ht : w.tasks[k]? = some (.receiving conn since)) (huuid : rf.uuid = uuid) :
      Touches uuid w (.receive k (some rf)) (w.setTask k (.looking conn uuid))
  | pair {k : ℕ} {conn : Conn} {peer : ℕ} (raw : Bool)
      (ht : w.tasks[k]? = some (.looking conn uuid)) (hpeer : w.peers uuid = some peer) :
      Touches uuid w (.look k)
        ({ w with peers := Function.update w.peers uuid none }.setTask k
          (.relaying conn uuid peer raw))
  | miss {k : ℕ} {conn : Conn} (ht : w.tasks[k]? = some (.looking conn uuid))
      (hpeer : w.peers uuid = none) :
      Touches uuid w (.look k) (w.setTask k (.missed conn uuid))
  | insert {k : ℕ} {conn : Conn} (ht : w.tasks[k]? = some (.missed conn uuid)) :
      Touches uuid w (.insert k)
        ({ w with peers := Function.update w.peers uuid (some k) }.setTask k
          (.waiting conn uuid w.now))
  | wake {k : ℕ} {conn : Conn} {since : Instant}
      (ht : w.tasks[k]? = some (.waiting conn uuid since)) :
      Touches uuid w (.wake k)
        ({ w with peers := Function.update w.peers uuid none }.setTask k (.expired conn uuid))
  | close {k : ℕ} {conn : Conn} {peer : ℕ} {raw : Bool}
      (ht : w.tasks[k]? = some (.relaying conn uuid peer raw)) :
      Touches uuid w (.close k) (w.setTask k (.closed conn uuid peer))

lemma same_of_tasks_eq (hpeers : w'.peers uuid = w.peers uuid) (htasks : w'.tasks = w.tasks) :
    Same uuid w w' := by
  refine ⟨hpeers, fun _ => ?_⟩
  rw [At, At, htasks]

lemma Same.setTask (h : Same uuid w w') (ht : w'.tasks[k]? = some t) (hold : t.carries uuid = false)
    (hnew : t'.carries uuid = false) : Same uuid w (w'.setTask k t') := by
  refine ⟨h.peers, fun {k'} {p} hp => ?_⟩
  by_cases hne : k' = k
  · subst hne
    rw [at_setTask_self ht, ← h.tasks hp, at_iff ht]
    exact iff_of_false (fun hpt => by simp [hp t' hpt] at hnew)
      fun hpt => by simp [hp t hpt] at hold
  · rw [at_setTask_of_ne t' hne]
    exact h.tasks hp

lemma same_accept (w : World) (uuid : String) (conn : Conn) :
    Same uuid w { w with tasks := w.tasks ++ [.receiving conn w.now] } := by
  refine ⟨rfl, fun {k} {p} hp => ⟨?_, ?_⟩⟩
  · rintro ⟨t, ht, hpt⟩
    rcases Slots.concat_cases ht with rfl | ht
    · cases hp _ hpt
    · exact ⟨t, ht, hpt⟩
  · rintro ⟨t, ht, hpt⟩
    exact ⟨t, Slots.get_concat ht _, hpt⟩

lemma receive_cases (w : World) (conn : Conn) (msg : Option RequestRelay) :
    w.receive conn msg = .rejected conn ∨
      ∃ rf, msg = some rf ∧ w.receive conn msg = .looking conn rf.uuid := by
  cases msg with
  | none => exact .inl rfl
  | some rf =>
    rw [receive]
    split_ifs
    · exact .inl rfl
    · exact .inl rfl
    · exact .inr ⟨rf, rfl, rfl⟩

/-- Each step is about the uuid in one of six ways, or leaves what is about it alone. -/
lemma same_or_touches (uuid : String) (h : w.step act = some w') :
    Same uuid w w' ∨ w.Touches uuid act w' := by
  have hself : Same uuid w w := same_of_tasks_eq rfl rfl
  have hupdate : ∀ {v}, v ≠ uuid → ∀ entry,
      Same uuid w { w with peers := Function.update w.peers v entry } := fun hv entry =>
    same_of_tasks_eq (Function.update_of_ne hv.symm entry w.peers) rfl
  cases steps_of_step h with
  | tick d => exact .inl (same_of_tasks_eq rfl rfl)
  | accept conn => exact .inl (same_accept w uuid conn)
  | timeout ht => exact .inl (hself.setTask ht rfl rfl)
  | @receive k conn since msg ht =>
    rcases receive_cases w conn msg with heq | ⟨rf, rfl, heq⟩
    · rw [heq]
      exact .inl (hself.setTask ht rfl rfl)
    · rw [heq]
      by_cases hv : rf.uuid = uuid
      · rw [hv]
        exact .inr (.request ht hv)
      · exact .inl (hself.setTask ht rfl (decide_eq_false hv))
  | @pair _ _ v _ _ ht | @miss _ _ v ht | @insert _ _ v ht | @wake _ _ v _ ht
  | @close _ _ v _ _ ht =>
    by_cases hv : v = uuid
    · subst hv
      exact .inr (by constructor <;> assumption)
    · have hother : decide (v = uuid) = false := decide_eq_false hv
      first
        | exact .inl (hself.setTask ht hother hother)
        | exact .inl ((hupdate hv _).setTask ht hother hother)

lemma At.imp {q : Task → Bool} (h : w.At k p) (hpq : ∀ t, p t → q t) : w.At k q := by
  obtain ⟨t, ht, hp⟩ := h
  exact ⟨t, ht, hpq t hp⟩

lemma At.setTask (h : w.At k' p) (ht : w.tasks[k]? = some t) (hkeep : p t → p t') :
    (w.setTask k t').At k' p := by
  by_cases hk : k' = k
  · subst hk
    exact (at_setTask_self ht).mpr (hkeep ((at_iff ht).mp h))
  · exact (at_setTask_of_ne t' hk).mpr h

/-- What holds of a call only after it has looked the uuid up, and is kept when it inserts its
stream, wakes and closes, is kept by every step. -/
lemma At.step (h : w.At k p) (hstep : w.step act = some w') (hcarries : ∀ t, p t → t.carries uuid)
    (hlook : ∀ conn, p (.looking conn uuid) = false)
    (hinsert : ∀ conn since, p (.missed conn uuid) → p (.waiting conn uuid since))
    (hwake : ∀ conn since, p (.waiting conn uuid since) → p (.expired conn uuid))
    (hclose : ∀ conn peer raw, p (.relaying conn uuid peer raw) → p (.closed conn uuid peer)) :
    w'.At k p := by
  have hlooking : ∀ {conn t}, p (.looking conn uuid) → p t := by
    intro conn t hp
    rw [hlook] at hp
    cases hp
  rcases same_or_touches uuid hstep with hsame | htouch
  · exact (hsame.tasks hcarries).mpr h
  · cases htouch with
    | request ht => exact h.setTask ht fun hp => nomatch hcarries _ hp
    | pair raw ht | miss ht => exact h.setTask ht hlooking
    | insert ht => exact h.setTask ht (hinsert _ _)
    | wake ht => exact h.setTask ht (hwake _ _)
    | close ht => exact h.setTask ht (hclose _ _ _)

/-! ### The two calls in every interleaving -/

/-- No call but `a` and `b` carries the uuid. What is in `PEERS` is the stream of one that waits; it
stays there until the other has looked, and one that relays has the stream of the other. -/
structure Ends (uuid : String) (a b : ℕ) (w : World) : Prop where
  calls : ∀ {k : ℕ}, w.At k (Task.carries uuid) → k = a ∨ k = b
  entry : ∀ {k : ℕ}, w.peers uuid = some k → w.At k (Task.waits uuid)
  held : ∀ {k : ℕ}, w.At k (Task.waits uuid) →
    w.peers uuid = some k ∨ ∃ k', k' ≠ k ∧ w.At k' (Task.looked uuid)
  mate : ∀ {k peer : ℕ}, w.At k (Task.mates uuid peer) →
    peer ≠ k ∧ w.peers uuid = none ∧ w.At peer (Task.inserted uuid)

lemma Awaits.ends (h : w.Awaits uuid a b) : Ends uuid a b w where
  calls := by
    rintro k ⟨t, ht, hcarries⟩
    exact (h.calls ht hcarries).1
  entry hpeer := by
    rw [h.free] at hpeer
    cases hpeer
  held := by
    rintro k ⟨t, ht, hwaits⟩
    obtain ⟨conn, rfl⟩ := (h.calls ht (Task.carries_of_waits hwaits)).2
    cases hwaits
  mate := by
    rintro k peer ⟨t, ht, hmates⟩
    obtain ⟨conn, rfl⟩ := (h.calls ht (Task.carries_of_mates hmates)).2
    cases hmates

lemma Ends.of_same (h : Ends uuid a b w) (hsame : Same uuid w w') : Ends uuid a b w' where
  calls hk := h.calls ((hsame.tasks fun _ => id).mp hk)
  entry hpeer := by
    rw [hsame.peers] at hpeer
    exact (hsame.tasks fun _ => Task.carries_of_waits).mpr (h.entry hpeer)
  held hwaits := by
    rw [hsame.peers]
    rcases h.held ((hsame.tasks fun _ => Task.carries_of_waits).mp hwaits) with
      hpeer | ⟨k', hne, hlooked⟩
    · exact .inl hpeer
    · exact .inr ⟨k', hne, (hsame.tasks fun _ => Task.carries_of_looked).mpr hlooked⟩
  mate hmates := by
    rw [hsame.peers, hsame.tasks fun _ => Task.carries_of_inserted]
    exact h.mate ((hsame.tasks fun _ => Task.carries_of_mates).mp hmates)

lemma Ends.two (h : Ends uuid a b w) {i : ℕ} (hi : w.At i (Task.carries uuid))
    (hj : w.At j (Task.carries uuid)) (hk : w.At k (Task.carries uuid)) (hij : i ≠ j)
    (hik : i ≠ k) : j = k := by
  rcases h.calls hi with rfl | rfl <;> rcases h.calls hj with rfl | rfl <;>
    rcases h.calls hk with rfl | rfl <;> first | rfl | contradiction

lemma At.looked_step (h : w.At k (Task.looked uuid)) (hstep : w.step act = some w') :
    w'.At k (Task.looked uuid) :=
  h.step hstep (fun _ => Task.carries_of_looked) (fun _ => rfl) (fun _ _ => id) (fun _ _ => id)
    fun _ _ _ => id

lemma At.inserted_step (h : w.At k (Task.inserted uuid)) (hstep : w.step act = some w') :
    w'.At k (Task.inserted uuid) :=
  h.step hstep (fun _ => Task.carries_of_inserted) (fun _ => rfl) nofun (fun _ _ => id) nofun

lemma At.single_step (h : w.At k (Task.single uuid)) (hstep : w.step act = some w') :
    w'.At k (Task.single uuid) :=
  h.step hstep (fun _ => Task.carries_of_single) (fun _ => rfl) (by simp [Task.single, Task.misses,
    Task.waits]) (by simp [Task.single, Task.misses, Task.waits]) nofun

/-- After a step the moved call is there as the step left it, and every other as it was. -/
lemma at_setTask_cases (ht : w.tasks[k]? = some t) (h : (w.setTask k t').At k' p) :
    k' = k ∧ p t' ∨ k' ≠ k ∧ w.At k' p := by
  by_cases hk : k' = k
  · subst hk
    exact .inl ⟨rfl, (at_setTask_self ht).mp h⟩
  · exact .inr ⟨hk, (at_setTask_of_ne t' hk).mp h⟩

/-- What the move cannot have brought about was there before it. -/
lemma At.of_setTask (h : (w.setTask k t').At k' p) (ht : w.tasks[k]? = some t)
    (hback : p t' → p t) : w.At k' p := by
  rcases at_setTask_cases ht h with ⟨rfl, hp⟩ | ⟨-, hold⟩
  · exact (at_iff ht).mpr (hback hp)
  · exact hold

/-- But for a request, what moves is a call that carries the uuid. It has looked it up then, and if
it has come to wait it is in `PEERS`. -/
lemma Touches.moved (h : w.Touches uuid act w') :
    (∃ k conn since rf, act = .receive k (some rf) ∧ rf.uuid = uuid ∧
      w.tasks[k]? = some (.receiving conn since) ∧ w' = w.setTask k (.looking conn uuid)) ∨
    ∃ k t t', w.tasks[k]? = some t ∧ w'.tasks = (w.setTask k t').tasks ∧ t.carries uuid ∧
      t'.looked uuid ∧ (t'.waits uuid → w'.peers uuid = some k) := by
  have hself : decide (uuid = uuid) := decide_eq_true rfl
  cases h with
  | request ht huuid => exact .inl ⟨_, _, _, _, rfl, huuid, ht, rfl⟩
  | insert ht => exact .inr ⟨_, _, _, ht, rfl, hself, hself, fun _ => Function.update_self ..⟩
  | pair raw ht | miss ht | wake ht | close ht =>
    exact .inr ⟨_, _, _, ht, rfl, hself, hself, nofun⟩

section

variable (h : Ends uuid a b w)

include h

section

variable (htouch : w.Touches uuid act w')

include htouch

lemma Ends.calls_step (honly : only uuid a b w act)
    (hk : w'.At k (Task.carries uuid)) : k = a ∨ k = b := by
  rcases htouch.moved with
    ⟨k₁, conn, since, rf, rfl, huuid, ht, rfl⟩ | ⟨k₁, t, t', ht, heq, hold, -⟩
  · rcases at_setTask_cases ht hk with ⟨rfl, -⟩ | ⟨-, hsame⟩
    · simpa [only, huuid] using honly
    · exact h.calls hsame
  · rw [At, heq] at hk
    exact h.calls (At.of_setTask hk ht fun _ => hold)

lemma Ends.entry_step (hpeer : w'.peers uuid = some k) : w'.At k (Task.waits uuid) := by
  cases htouch with
  | request ht | miss ht | close ht => exact (h.entry hpeer).setTask ht nofun
  | pair raw ht | wake ht => simp at hpeer
  | insert ht =>
    obtain rfl : _ = k := by simpa using hpeer
    exact (at_setTask_self ht).mpr (decide_eq_true rfl)

lemma Ends.held_step (hstep : w.step act = some w') (hwaits : w'.At k (Task.waits uuid)) :
    w'.peers uuid = some k ∨ ∃ k', k' ≠ k ∧ w'.At k' (Task.looked uuid) := by
  rcases htouch.moved with
    ⟨k₁, conn, since, rf, rfl, huuid, ht, rfl⟩ | ⟨k₁, t, t', ht, heq, -, hlooked, hinserted⟩
  · rcases h.held (hwaits.of_setTask ht nofun) with hpeer | ⟨k', hne, hlooked⟩
    · exact .inl hpeer
    · exact .inr ⟨k', hne, hlooked.looked_step hstep⟩
  · rw [At, heq] at hwaits
    rcases at_setTask_cases ht hwaits with ⟨rfl, hp⟩ | ⟨hne, -⟩
    · exact .inl (hinserted hp)
    · refine .inr ⟨k₁, hne.symm, ?_⟩
      rw [At, heq]
      exact (at_setTask_self ht).mpr hlooked

lemma Ends.mate_step (hstep : w.step act = some w') (hmates : w'.At k (Task.mates uuid peer)) :
    peer ≠ k ∧ w'.peers uuid = none ∧ w'.At peer (Task.inserted uuid) := by
  have hkeep : w.At k (Task.mates uuid peer) → w'.peers uuid = none →
      peer ≠ k ∧ w'.peers uuid = none ∧ w'.At peer (Task.inserted uuid) := by
    intro hold hnone
    obtain ⟨hne, -, hinserted⟩ := h.mate hold
    exact ⟨hne, hnone, hinserted.inserted_step hstep⟩
  cases htouch with
  | request ht | miss ht =>
    have hold := hmates.of_setTask ht nofun
    exact hkeep hold (h.mate hold).2.1
  | @pair k₁ conn p raw ht hpeer =>
    rcases at_setTask_cases ht hmates with ⟨rfl, hp⟩ | ⟨-, hold⟩
    · obtain rfl : p = peer := by simpa [Task.mates] using hp
      have hwaits := h.entry hpeer
      refine ⟨?_, Function.update_self .., ?_⟩
      · rintro rfl
        cases (at_iff ht).mp hwaits
      · exact (hwaits.imp fun _ => Task.inserted_of_waits).inserted_step hstep
    · rw [(h.mate hold).2.1] at hpeer
      cases hpeer
  | @insert k₁ conn ht =>
    rcases at_setTask_cases ht hmates with ⟨rfl, hp⟩ | ⟨hk, hold⟩
    · cases hp
    · -- the call that relays and the one that it relays with are the two there are
      obtain ⟨hne, -, hinserted⟩ := h.mate hold
      have heq : peer = k₁ := h.two (hold.imp fun _ => Task.carries_of_mates)
        (hinserted.imp fun _ => Task.carries_of_inserted) ((at_iff ht).mpr (decide_eq_true rfl))
        hne.symm hk
      subst heq
      cases (at_iff ht).mp hinserted
  | wake ht => exact hkeep (hmates.of_setTask ht nofun) (Function.update_self ..)
  | close ht =>
    have hold := hmates.of_setTask ht id
    exact hkeep hold (h.mate hold).2.1

end

lemma Ends.step (honly : only uuid a b w act) (hstep : w.step act = some w') :
    Ends uuid a b w' := by
  rcases same_or_touches uuid hstep with hsame | htouch
  · exact h.of_same hsame
  · exact ⟨h.calls_step htouch honly, h.entry_step htouch, h.held_step htouch hstep,
      h.mate_step htouch hstep⟩

end

/-- Both calls have found nothing under the uuid. -/
def Lost (uuid : String) (a b : ℕ) (w : World) : Prop :=
  w.At a (Task.single uuid) ∧ w.At b (Task.single uuid)

lemma Awaits.not_lost (h : w.Awaits uuid a b) : ¬Lost uuid a b w := by
  rintro ⟨⟨t, ht, hsingle⟩, -⟩
  obtain ⟨conn, rfl⟩ := (h.calls ht (Task.carries_of_single hsingle)).2
  cases hsingle

lemma not_single_of_mates (h : w.At k (Task.mates uuid peer)) : ¬w.At k (Task.single uuid) := by
  obtain ⟨t, ht, hmates⟩ := h
  rw [at_iff ht]
  cases t with
  | relaying | closed => nofun
  | _ => cases hmates

lemma mates_of_settled (h : w.At k (Task.settled uuid)) (hnot : ¬w.At k (Task.single uuid)) :
    ∃ peer, w.At k (Task.mates uuid peer) := by
  obtain ⟨t, ht, hsettled⟩ := h
  rw [at_iff ht] at hnot
  cases t with
  | relaying conn v peer raw | closed conn v peer =>
    exact ⟨peer, _, ht, Bool.and_eq_true_iff.mpr ⟨hsettled, decide_eq_true rfl⟩⟩
  | waiting => exact absurd (Bool.or_eq_true_iff.mpr (.inr hsettled)) hnot
  | expired => exact absurd (Bool.or_eq_true_iff.mpr (.inl hsettled)) hnot
  | _ => cases hsettled

/-- A call comes to have found nothing only by looking the uuid up. -/
lemma single_or_looks (hstep : w.step act = some w') (h : w'.At k (Task.single uuid)) :
    w.At k (Task.single uuid) ∨
      act = .look k ∧ (∃ conn, w.tasks[k]? = some (.looking conn uuid)) ∧ w.peers uuid = none := by
  rcases same_or_touches uuid hstep with hsame | htouch
  · exact .inl ((hsame.tasks fun _ => Task.carries_of_single).mp h)
  · cases htouch with
    | @miss k₁ conn ht hpeer =>
      rcases at_setTask_cases ht h with ⟨rfl, -⟩ | ⟨-, hold⟩
      · exact .inr ⟨rfl, ⟨conn, ht⟩, hpeer⟩
      · exact .inl hold
    | request ht | pair raw ht | close ht => exact .inl (h.of_setTask ht nofun)
    | insert ht | wake ht =>
      exact .inl (h.of_setTask ht fun _ => by simp [Task.single, Task.misses, Task.waits])

/-- Where one call has found nothing and the other looks apart from it, the other finds it. -/
lemma Ends.peer_of_apart (h : Ends uuid a b w) (hok : apart uuid w (.look k))
    (ht : w.tasks[k]? = some (.looking conn uuid)) (hj : w.At j (Task.single uuid)) (hjk : j ≠ k) :
    w.peers uuid = some j := by
  obtain ⟨t, htj, hsingle⟩ := hj
  have hmisses : t.misses uuid = false := by
    simp only [apart, ht, ne_eq, not_true_eq_false, decide_false, Bool.false_or,
      List.all_eq_true, Bool.not_eq_true'] at hok
    exact hok t (List.mem_of_getElem? htj)
  have hwaits : t.waits uuid := by
    rwa [Task.single, hmisses, Bool.false_or] at hsingle
  rcases h.held ⟨t, htj, hwaits⟩ with hpeer | ⟨i, hij, hlooked⟩
  · exact hpeer
  · obtain rfl : i = k := h.two ⟨t, htj, Task.carries_of_waits hwaits⟩
      (hlooked.imp fun _ => Task.carries_of_looked) ((at_iff ht).mpr (decide_eq_true rfl))
      hij.symm hjk
    cases (at_iff ht).mp hlooked

lemma Ends.not_lost_step (h : Ends uuid a b w) (hab : a ≠ b) (hlost : ¬Lost uuid a b w)
    (hok : apart uuid w act) (hstep : w.step act = some w') : ¬Lost uuid a b w' := by
  rintro ⟨ha, hb⟩
  rcases single_or_looks hstep ha with ha | ⟨rfl, ⟨conn, hta⟩, hnone⟩
  · rcases single_or_looks hstep hb with hb | ⟨rfl, ⟨conn, htb⟩, hnone⟩
    · exact hlost ⟨ha, hb⟩
    · cases (h.peer_of_apart hok htb ha hab).symm.trans hnone
  · rcases single_or_looks hstep hb with hb | ⟨hact, -⟩
    · cases (h.peer_of_apart hok hta hb hab.symm).symm.trans hnone
    · cases hact
      exact hab rfl

lemma not_apart_cases (h : ¬apart uuid w act) :
    ∃ k conn j, act = .look k ∧ w.tasks[k]? = some (.looking conn uuid) ∧
      w.At j (Task.misses uuid) := by
  cases act with
  | look k =>
    simp only [apart] at h
    split at h
    · next conn v ht =>
      simp only [ne_eq, Bool.or_eq_true, decide_eq_true_eq, not_or, not_not, List.all_eq_true,
        Bool.not_eq_true', not_forall, Bool.not_eq_false] at h
      obtain ⟨rfl, t, hmem, hmisses⟩ := h
      obtain ⟨j, htj⟩ := List.getElem?_of_mem hmem
      exact ⟨k, conn, j, rfl, ht, t, htj, hmisses⟩
    · exact absurd rfl h
  | _ => exact absurd rfl h

/-- The other call is not in `PEERS`, so that this one finds nothing. -/
lemma Ends.lost_of_not_apart (h : Ends uuid a b w) (hok : ¬apart uuid w act)
    (hstep : w.step act = some w') : Lost uuid a b w' := by
  obtain ⟨k, conn, j, rfl, ht, hmisses⟩ := not_apart_cases hok
  have hk : w.At k (Task.carries uuid) := (at_iff ht).mpr (decide_eq_true rfl)
  have hj : w.At j (Task.carries uuid) := hmisses.imp fun _ => Task.carries_of_misses
  have hjk : j ≠ k := by
    rintro rfl
    cases (at_iff ht).mp hmisses
  have hnone : w.peers uuid = none := by
    by_contra hpeer
    obtain ⟨i, hi⟩ := Option.ne_none_iff_exists'.mp hpeer
    have hwaits := h.entry hi
    have hik : k ≠ i := by
      rintro rfl
      cases (at_iff ht).mp hwaits
    obtain rfl : j = i :=
      h.two hk hj (hwaits.imp fun _ => Task.carries_of_waits) hjk.symm hik
    obtain ⟨t, htj, hm⟩ := hmisses
    cases t <;> first | cases hm | cases (at_iff htj).mp hwaits
  have hw' : w' = w.setTask k (.missed conn uuid) := by
    simp only [World.step, ht, look, hnone, Option.some.injEq] at hstep
    exact hstep.symm
  have hlostk : w'.At k (Task.single uuid) := by
    rw [hw', at_setTask_self ht]
    simp [Task.single, Task.misses]
  have hlostj : w'.At j (Task.single uuid) :=
    (hmisses.imp fun _ hm => by simp [Task.single, hm]).single_step hstep
  rcases h.calls hk with rfl | rfl <;> rcases h.calls hj with rfl | rfl
  · exact absurd rfl hjk
  · exact ⟨hlostk, hlostj⟩
  · exact ⟨hlostj, hlostk⟩
  · exact absurd rfl hjk

/-- Two calls that have settled are paired unless both have found nothing. -/
lemma Ends.paired_iff_not_lost (h : Ends uuid a b w) (hab : a ≠ b)
    (ha : w.At a (Task.settled uuid)) (hb : w.At b (Task.settled uuid)) :
    w.Paired uuid a b ↔ ¬Lost uuid a b w := by
  have hmate : ∀ {j k : ℕ}, w.At j (Task.settled uuid) → w.At k (Task.settled uuid) → j ≠ k →
      ¬w.At j (Task.single uuid) → w.peers uuid = none ∧ w.At j (Task.mates uuid k) := by
    intro j k hj hk hjk hnot
    obtain ⟨peer, hpeer⟩ := mates_of_settled hj hnot
    obtain ⟨hne, hnone, hinserted⟩ := h.mate hpeer
    obtain rfl : peer = k := h.two (hj.imp fun _ => Task.carries_of_settled)
      (hinserted.imp fun _ => Task.carries_of_inserted) (hk.imp fun _ => Task.carries_of_settled)
      hne.symm hjk
    exact ⟨hnone, hpeer⟩
  constructor
  · rintro ⟨-, hmates | hmates⟩ ⟨hsa, hsb⟩
    · exact not_single_of_mates hmates hsa
    · exact not_single_of_mates hmates hsb
  · intro hlost
    by_cases hsa : w.At a (Task.single uuid)
    · obtain ⟨hnone, hmates⟩ := hmate hb ha hab.symm fun hsb => hlost ⟨hsa, hsb⟩
      exact ⟨hnone, .inr hmates⟩
    · obtain ⟨hnone, hmates⟩ := hmate ha hb hab hsa
      exact ⟨hnone, .inl hmates⟩

/-- **The two ends of a relay.** Let a uuid be carried by two calls and by no others. Once both have
settled, in whatever order their steps came, one of them relays between the two streams exactly
when neither looked the uuid up while the other had found nothing and was not in `PEERS`. -/
theorem paired_iff {w₀ : World} {acts : List Act} (hab : a ≠ b) (hstart : w₀.Awaits uuid a b)
    (hrun : (lts.restrict (only uuid a b)).run w₀ acts = some w)
    (ha : w.At a (Task.settled uuid)) (hb : w.At b (Task.settled uuid)) :
    w.Paired uuid a b ↔
      ((lts.restrict (only uuid a b)).restrict (apart uuid)).run w₀ acts = some w := by
  have hends : ∀ w act w', Ends uuid a b w → (lts.restrict (only uuid a b)).step w act = some w' →
      Ends uuid a b w' := by
    intro w act w' h hstep
    obtain ⟨honly, hstep⟩ := LTS.restrict_step_some hstep
    exact h.step honly hstep
  have hend : Ends uuid a b w := LTS.run_invariant hends hrun hstart.ends
  rw [hend.paired_iff_not_lost hab ha hb]
  apply LTS.run_restrict_iff hends _ _ _ hrun hstart.ends hstart.not_lost
  · intro w act w' h hlost hok hstep
    exact h.not_lost_step hab hlost hok (LTS.restrict_step_some hstep).2
  · intro w act w' h hok hstep
    exact not_not_intro (h.lost_of_not_apart hok (LTS.restrict_step_some hstep).2)
  · intro w act w' _ hlost hstep
    obtain ⟨ha, hb⟩ := not_not.mp hlost
    have hstep := (LTS.restrict_step_some hstep).2
    exact not_not_intro ⟨ha.single_step hstep, hb.single_step hstep⟩

/-- The second end looks the uuid up after the first has inserted its stream. -/
theorem paired_iff_in_turn : ∃ w, (lts.restrict (only "a uuid" 0 1)).run started
    [.accept caller, .accept caller, .receive 0 (some request), .receive 1 (some request),
      .look 0, .insert 0, .look 1] = some w ∧ w.Paired "a uuid" 0 1 := by
  refine LTS.exists_run_of (P := fun w =>
    w.tasks = [.waiting caller "a uuid" 0, .relaying caller "a uuid" 0 true]) (by decide) ?_
  intro w hw htasks
  have hstart : started.Awaits "a uuid" 0 1 := ⟨rfl, nofun⟩
  have ha : w.At 0 (Task.settled "a uuid") := ⟨_, by rw [htasks]; rfl, by decide⟩
  have hb : w.At 1 (Task.settled "a uuid") := ⟨_, by rw [htasks]; rfl, by decide⟩
  refine (paired_iff (by decide) hstart hw ha hb).mpr ?_
  rw [← hw]
  rfl

/-- Both ends look the uuid up before either has inserted its stream: the second to insert drops the
stream of the first, and waits for nobody. -/
theorem looked_up_together : ∃ w, (lts.restrict (only "a uuid" 0 1)).run started
    [.accept caller, .accept caller, .receive 0 (some request), .receive 1 (some request),
      .look 0, .look 1, .insert 0, .insert 1] = some w ∧
    w.At 0 (Task.settled "a uuid") ∧ w.At 1 (Task.settled "a uuid") ∧
    w.peers "a uuid" = some 1 ∧ ¬w.Paired "a uuid" 0 1 := by
  refine LTS.exists_run_of (P := fun w =>
    w.tasks = [.waiting caller "a uuid" 0, .waiting caller "a uuid" 0] ∧
      w.peers "a uuid" = some 1) (by decide) ?_
  rintro w - ⟨htasks, hpeer⟩
  refine ⟨⟨_, by rw [htasks]; rfl, by decide⟩, ⟨_, by rw [htasks]; rfl, by decide⟩, hpeer,
    fun hpaired => ?_⟩
  cases hpaired.1.symm.trans hpeer

end World

end RustDesk.Relay
