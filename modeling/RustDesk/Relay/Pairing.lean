import RustDesk.Lib.Slots
import RustDesk.Lib.Transition
import RustDesk.Net.Addr

/-!
# Pairing streams at the relay

`make_pair_` runs once for each connection. It waits for the first message, takes the stream that
waits under the uuid of the request out of `PEERS` and relays between the two; if none waits it
puts its own stream there, sleeps for 30 seconds, and then removes what `PEERS` has under the uuid.
Looking up, inserting and removing each take the lock of `PEERS` by themselves.

A stream is named by the number of the task whose connection it is. What `relay` does with the
bytes of a pair is not modelled here.
-/

namespace RustDesk.Relay

abbrev Instant := ℕ

structure Conn where
  addr : SocketAddr
  ws : Bool
  vlessAuthenticated : Bool
  deriving DecidableEq

/-- What `make_pair_` reads of the message. -/
structure RequestRelay where
  uuid : String
  licenceKey : String
  deriving DecidableEq

def relayKeyIsValid (key licenceKey : String) (vlessAuthenticated : Bool) : Bool :=
  key.isEmpty || licenceKey = key || vlessAuthenticated

/-- Where a `make_pair_` is. A task that has a request keeps its uuid: it is about to look it up,
has found nothing, sleeps with its stream in `PEERS`, relays with another stream, has done so, or
has slept to the end. `raw` says that the framing was taken off both streams. -/
inductive Task where
  | receiving (conn : Conn) (since : Instant)
  | rejected (conn : Conn)
  | looking (conn : Conn) (uuid : String)
  | missed (conn : Conn) (uuid : String)
  | waiting (conn : Conn) (uuid : String) (since : Instant)
  | relaying (conn : Conn) (uuid : String) (peer : ℕ) (raw : Bool)
  | closed (conn : Conn) (uuid : String) (peer : ℕ)
  | expired (conn : Conn) (uuid : String)
  deriving DecidableEq

def Task.conn : Task → Conn
  | receiving conn _ => conn
  | rejected conn => conn
  | looking conn _ => conn
  | missed conn _ => conn
  | waiting conn _ _ => conn
  | relaying conn _ _ _ => conn
  | closed conn _ _ => conn
  | expired conn _ => conn

/-- The call has found nothing under the uuid, and has not slept to the end. -/
def Task.holds (uuid : String) : Task → Bool
  | missed _ v => v = uuid
  | waiting _ v _ => v = uuid
  | _ => false

structure World where
  key : String
  now : Instant
  peers : String → Option ℕ
  tasks : List Task

inductive Act where
  | accept (conn : Conn)
  | receive (k : ℕ) (msg : Option RequestRelay)
  | timeout (k : ℕ)
  | look (k : ℕ)
  | insert (k : ℕ)
  | wake (k : ℕ)
  | close (k : ℕ)
  | tick (d : ℕ)
  deriving DecidableEq

namespace World

variable {k : ℕ} {t : Task}

def setTask (w : World) (k : ℕ) (t : Task) : World :=
  { w with tasks := w.tasks.set k t }

@[simp] lemma peers_setTask (w : World) (k : ℕ) (t : Task) : (w.setTask k t).peers = w.peers := rfl

/-- The first message, `none` for anything but a `RequestRelay`. -/
def receive (w : World) (conn : Conn) : Option RequestRelay → Task
  | none => .rejected conn
  | some rf =>
    if !relayKeyIsValid w.key rf.licenceKey conn.vlessAuthenticated then
      .rejected conn
    else if rf.uuid.isEmpty then
      .rejected conn
    else
      .looking conn rf.uuid

/-- `PEERS.lock().await.remove(&rf.uuid)`: with the stream there was, or without. -/
def look (w : World) (k : ℕ) (conn : Conn) (uuid : String) : World :=
  match w.peers uuid with
  | some peer =>
    let raw := !conn.ws && (w.tasks[peer]?.map fun t => !t.conn.ws).getD false
    { w with peers := Function.update w.peers uuid none }.setTask k (.relaying conn uuid peer raw)
  | none => w.setTask k (.missed conn uuid)

/-- An entry that is there already is replaced. -/
def insert (w : World) (k : ℕ) (conn : Conn) (uuid : String) : World :=
  { w with peers := Function.update w.peers uuid (some k) }.setTask k (.waiting conn uuid w.now)

/-- After the sleep: whatever entry there is goes. -/
def wake (w : World) (k : ℕ) (conn : Conn) (uuid : String) : World :=
  { w with peers := Function.update w.peers uuid none }.setTask k (.expired conn uuid)

def step (w : World) : Act → Option World
  | .accept conn => some { w with tasks := w.tasks ++ [.receiving conn w.now] }
  | .receive k msg =>
    match w.tasks[k]? with
    | some (.receiving conn since) =>
      if w.now ≤ since + 30000 then some (w.setTask k (w.receive conn msg)) else none
    | _ => none
  | .timeout k =>
    match w.tasks[k]? with
    | some (.receiving conn since) =>
      if since + 30000 ≤ w.now then some (w.setTask k (.rejected conn)) else none
    | _ => none
  | .look k =>
    match w.tasks[k]? with
    | some (.looking conn uuid) => some (w.look k conn uuid)
    | _ => none
  | .insert k =>
    match w.tasks[k]? with
    | some (.missed conn uuid) => some (w.insert k conn uuid)
    | _ => none
  | .wake k =>
    match w.tasks[k]? with
    | some (.waiting conn uuid since) =>
      if since + 30000 ≤ w.now then some (w.wake k conn uuid) else none
    | _ => none
  | .close k =>
    match w.tasks[k]? with
    | some (.relaying conn uuid peer _) => some (w.setTask k (.closed conn uuid peer))
    | _ => none
  | .tick d => some { w with now := w.now + d }

def Starts (w : World) : Prop :=
  w.peers = (fun _ => none) ∧ w.tasks = []

def lts : LTS World Act where
  init := Starts
  step := step

/-! ### What a step can do -/

variable {w w' : World} {act : Act}

/-- The steps of a world, one rule for each. -/
inductive Steps (w : World) : Act → World → Prop where
  | accept (conn : Conn) :
      Steps w (.accept conn) { w with tasks := w.tasks ++ [.receiving conn w.now] }
  | receive {k : ℕ} {conn : Conn} {since : Instant} (msg : Option RequestRelay)
      (ht : w.tasks[k]? = some (.receiving conn since)) :
      Steps w (.receive k msg) (w.setTask k (w.receive conn msg))
  | timeout {k : ℕ} {conn : Conn} {since : Instant}
      (ht : w.tasks[k]? = some (.receiving conn since)) :
      Steps w (.timeout k) (w.setTask k (.rejected conn))
  | pair {k : ℕ} {conn : Conn} {uuid : String} {peer : ℕ} (raw : Bool)
      (ht : w.tasks[k]? = some (.looking conn uuid)) (hpeer : w.peers uuid = some peer) :
      Steps w (.look k)
        ({ w with peers := Function.update w.peers uuid none }.setTask k
          (.relaying conn uuid peer raw))
  | miss {k : ℕ} {conn : Conn} {uuid : String} (ht : w.tasks[k]? = some (.looking conn uuid))
      (hpeer : w.peers uuid = none) : Steps w (.look k) (w.setTask k (.missed conn uuid))
  | insert {k : ℕ} {conn : Conn} {uuid : String} (ht : w.tasks[k]? = some (.missed conn uuid)) :
      Steps w (.insert k)
        ({ w with peers := Function.update w.peers uuid (some k) }.setTask k
          (.waiting conn uuid w.now))
  | wake {k : ℕ} {conn : Conn} {uuid : String} {since : Instant}
      (ht : w.tasks[k]? = some (.waiting conn uuid since)) (hdue : since + 30000 ≤ w.now) :
      Steps w (.wake k)
        ({ w with peers := Function.update w.peers uuid none }.setTask k (.expired conn uuid))
  | close {k : ℕ} {conn : Conn} {uuid : String} {peer : ℕ} {raw : Bool}
      (ht : w.tasks[k]? = some (.relaying conn uuid peer raw)) :
      Steps w (.close k) (w.setTask k (.closed conn uuid peer))
  | tick (d : ℕ) : Steps w (.tick d) { w with now := w.now + d }

lemma steps_of_step (h : w.step act = some w') : w.Steps act w' := by
  cases act <;> simp only [step] at h
  case accept conn =>
    cases h
    exact .accept conn
  case tick d =>
    cases h
    exact .tick d
  all_goals split at h <;> try cases h
  · rw [Option.ite_none_right_eq_some] at h
    cases h.2
    exact .receive _ ‹_›
  · rw [Option.ite_none_right_eq_some] at h
    cases h.2
    exact .timeout ‹_›
  · next conn uuid ht =>
    rw [look]
    cases hpeer : w.peers uuid with
    | some peer => exact .pair _ ht hpeer
    | none => exact .miss ht hpeer
  · exact .insert ‹_›
  · rw [Option.ite_none_right_eq_some] at h
    cases h.2
    exact .wake ‹_› h.1
  · exact .close ‹_›

/-! ### How a stream leaves `PEERS` -/

/-- A call that finds nothing under its uuid looks it up only after every other call that found
nothing under it has slept to the end. -/
def lone (w : World) : Act → Bool
  | .look k =>
    match w.tasks[k]? with
    | some (.looking _ uuid) => (w.peers uuid).isSome || w.tasks.all fun t => !t.holds uuid
    | _ => true
  | _ => true

/-- Under each uuid at most one call waits, and what `PEERS` has is its stream. -/
structure Lone (w : World) : Prop where
  owner : ∀ {uuid k}, w.peers uuid = some k →
    ∃ conn since, w.tasks[k]? = some (.waiting conn uuid since)
  single : ∀ {uuid : String} {k k' : ℕ} {t t' : Task}, w.tasks[k]? = some t →
    w.tasks[k']? = some t' → t.holds uuid → t'.holds uuid → k = k'

lemma Starts.lone (h : w.Starts) : w.Lone where
  owner hpeer := by
    rw [h.1] at hpeer
    cases hpeer
  single ht := by
    rw [h.2] at ht
    cases ht

/-- A task that does not sleep has no stream in `PEERS`. -/
lemma Lone.free (h : w.Lone) (ht : w.tasks[k]? = some t)
    (hnot : ∀ conn uuid since, t ≠ .waiting conn uuid since) (uuid : String) :
    w.peers uuid ≠ some k := by
  intro hpeer
  obtain ⟨conn, since, hwaiting⟩ := h.owner hpeer
  exact hnot conn uuid since (Option.some.inj (ht.symm.trans hwaiting))

lemma Lone.erase (h : w.Lone) (uuid : String) :
    Lone { w with peers := Function.update w.peers uuid none } where
  owner hpeer := by
    simp only [Function.update_apply] at hpeer
    split_ifs at hpeer
    exact h.owner hpeer
  single := h.single

/-- A task may come to hold what it held before, and what no task holds. -/
lemma Lone.setTask (h : w.Lone) {t' : Task} (ht : w.tasks[k]? = some t)
    (hfree : ∀ uuid, w.peers uuid ≠ some k)
    (hholds : ∀ uuid, t'.holds uuid = true →
      t.holds uuid = true ∨ ∀ t₁ ∈ w.tasks, t₁.holds uuid = false) :
    (w.setTask k t').Lone := by
  have hself : ∀ {uuid : String} {k₁ : ℕ} {t₁ : Task}, w.tasks[k₁]? = some t₁ → t₁.holds uuid →
      t'.holds uuid → k₁ = k := by
    intro uuid k₁ t₁ ht₁ h₁ h'
    rcases hholds uuid h' with hold | hnone
    · exact h.single ht₁ ht h₁ hold
    · rw [hnone t₁ (List.mem_of_getElem? ht₁)] at h₁
      cases h₁
  constructor
  · intro uuid k' hpeer
    obtain ⟨conn, since, hwaiting⟩ := h.owner hpeer
    have hne : k' ≠ k := by
      rintro rfl
      exact hfree uuid hpeer
    exact ⟨conn, since, (Slots.get_set_of_ne hne t').trans hwaiting⟩
  · intro uuid k₁ k₂ t₁ t₂ ht₁ ht₂ h₁ h₂
    rcases Slots.set_cases ht₁ with ⟨hk₁, rfl⟩ | ⟨-, hold₁⟩
    · rcases Slots.set_cases ht₂ with ⟨hk₂, -⟩ | ⟨-, hold₂⟩
      · exact hk₁.trans hk₂.symm
      · exact hk₁.trans (hself hold₂ h₂ h₁).symm
    · rcases Slots.set_cases ht₂ with ⟨hk₂, rfl⟩ | ⟨-, hold₂⟩
      · exact (hself hold₁ h₁ h₂).trans hk₂.symm
      · exact h.single hold₁ hold₂ h₁ h₂

lemma Lone.accept (h : w.Lone) (conn : Conn) :
    Lone { w with tasks := w.tasks ++ [.receiving conn w.now] } where
  owner hpeer := by
    obtain ⟨conn', since, hwaiting⟩ := h.owner hpeer
    exact ⟨conn', since, Slots.get_concat hwaiting _⟩
  single ht ht' hholds hholds' := by
    rcases Slots.concat_cases ht with rfl | ht
    · cases hholds
    · rcases Slots.concat_cases ht' with rfl | ht'
      · cases hholds'
      · exact h.single ht ht' hholds hholds'

/-- The stream goes in when no other call holds the uuid. -/
lemma Lone.insert (h : w.Lone) {conn : Conn} {uuid : String}
    (ht : w.tasks[k]? = some (.missed conn uuid)) : (w.insert k conn uuid).Lone := by
  have hset : (w.setTask k (.waiting conn uuid w.now)).Lone :=
    h.setTask ht (h.free ht nofun) fun _ hholds => .inl hholds
  constructor
  · intro v k' hpeer
    simp only [World.insert, World.setTask, Function.update_apply] at hpeer
    split_ifs at hpeer with heq
    · cases hpeer
      subst heq
      exact ⟨conn, w.now, Slots.get_set_self ht _⟩
    · exact hset.owner hpeer
  · exact hset.single

lemma holds_receive (w : World) (conn : Conn) (msg : Option RequestRelay) (uuid : String) :
    (w.receive conn msg).holds uuid = false := by
  cases msg with
  | none => rfl
  | some rf =>
    rw [receive]
    split_ifs <;> rfl

lemma Lone.step (h : w.Lone) (hok : w.lone act) (hstep : w.step act = some w') : w'.Lone := by
  cases steps_of_step hstep with
  | tick d => exact ⟨h.owner, h.single⟩
  | accept conn => exact h.accept conn
  | receive msg ht =>
    apply h.setTask ht (h.free ht nofun)
    intro uuid hholds
    rw [holds_receive] at hholds
    cases hholds
  | timeout ht | close ht => exact h.setTask ht (h.free ht nofun) nofun
  | pair raw ht _ => exact (h.erase _).setTask ht ((h.erase _).free ht nofun) nofun
  | @miss k conn uuid ht hpeer =>
    apply h.setTask ht (h.free ht nofun)
    intro v hholds
    obtain rfl : uuid = v := by simpa [Task.holds] using hholds
    simp only [World.lone, ht, hpeer, Option.isSome_none, Bool.false_or, List.all_eq_true,
      Bool.not_eq_true'] at hok
    exact .inr hok
  | insert ht => exact h.insert ht
  | @wake k conn uuid since ht _ =>
    refine (h.erase uuid).setTask ht ?_ nofun
    intro v hpeer
    obtain ⟨conn', since', hwaiting⟩ := (h.erase uuid).owner hpeer
    cases ht.symm.trans hwaiting
    simp at hpeer

lemma lone_of_reachable (h : (lts.restrict World.lone).Reachable w) : w.Lone := by
  exact h.restrict_invariant (fun w hw => Starts.lone hw) fun _ _ _ hw => hw.step

/-- A relay that has just started. -/
def started : World where
  key := ""
  now := 0
  peers := fun _ => none
  tasks := []

/-- A connection, and the request that it sends. -/
def caller : Conn where
  addr := .v4 (.new 10 0 0 1) 5000
  ws := false
  vlessAuthenticated := false

def request : RequestRelay where
  uuid := "a uuid"
  licenceKey := ""

/-- **How a stream leaves `PEERS`.** In every run in which no call finds nothing under a uuid while
another call that found nothing under it has not slept to the end, a stream is removed only by a
call with the same uuid that relays with it, or by its own timer, 30 seconds after it was
inserted. -/
theorem leaves_paired_or_timed_out (hw : (lts.restrict World.lone).Reachable w)
    (hstep : lts.step w act = some w') {uuid : String} {k : ℕ} (hpeer : w.peers uuid = some k)
    (hgone : w'.peers uuid ≠ some k) :
    (∃ b conn raw, act = .look b ∧ w.tasks[b]? = some (.looking conn uuid) ∧
      w'.tasks[b]? = some (.relaying conn uuid k raw)) ∨
    ∃ conn since, act = .wake k ∧ w.tasks[k]? = some (.waiting conn uuid since) ∧
      since + 30000 ≤ w.now := by
  have hlone := lone_of_reachable hw
  obtain ⟨conn₀, since₀, hwaiting⟩ := hlone.owner hpeer
  have hholds : (Task.waiting conn₀ uuid since₀).holds uuid := by simp [Task.holds]
  -- only the entry that is written can be gone
  have hsame : ∀ {v peer}, Function.update w.peers v peer uuid ≠ some k → uuid = v := by
    intro v peer hne
    by_contra hv
    exact hne ((Function.update_of_ne hv ..).trans hpeer)
  cases steps_of_step hstep with
  | tick | accept | receive | timeout | close | miss => exact absurd hpeer hgone
  | @pair b conn v peer raw ht hv =>
    obtain rfl := hsame hgone
    rw [hpeer] at hv
    cases hv
    exact .inl ⟨b, conn, raw, rfl, ht, Slots.get_set_self ht _⟩
  | @insert b conn v ht =>
    obtain rfl := hsame hgone
    obtain rfl := hlone.single ht hwaiting (by simp [Task.holds]) hholds
    exact absurd (Function.update_self ..) hgone
  | @wake b conn v since ht hdue =>
    obtain rfl := hsame hgone
    obtain rfl := hlone.single ht hwaiting (by simp [Task.holds]) hholds
    exact .inr ⟨conn, since, rfl, ht, hdue⟩

/-- A stream waits, and its timer takes it out; the next call with the uuid waits anew, and pairs
with the one after it. -/
theorem leaves_paired_or_timed_out_reused : ∃ w w', (lts.restrict World.lone).Reachable w ∧
    lts.step w (.look 2) = some w' ∧ w.peers "a uuid" = some 1 ∧ w'.peers "a uuid" ≠ some 1 ∧
    ∃ conn raw, w'.tasks[2]? = some (.relaying conn "a uuid" 1 raw) := by
  have hrun : ∃ w ∈ (lts.restrict World.lone).run started
      [.accept caller, .receive 0 (some request), .look 0, .insert 0, .tick 30000, .wake 0,
        .accept caller, .receive 1 (some request), .look 1, .insert 1,
        .accept caller, .receive 2 (some request)],
      w.peers "a uuid" = some 1 ∧ ∃ w' ∈ lts.step w (.look 2), w'.peers "a uuid" ≠ some 1 := by
    decide
  obtain ⟨w, hw, hpeer, w', hstep, hgone⟩ := hrun
  have hreach : (lts.restrict World.lone).Reachable w := LTS.Reachable.run (.init ⟨rfl, rfl⟩) hw
  refine ⟨w, w', hreach, hstep, hpeer, hgone, ?_⟩
  rcases leaves_paired_or_timed_out hreach hstep hpeer hgone with
    ⟨b, conn, raw, heq, -, hb⟩ | ⟨conn, since, heq, -⟩
  · cases heq
    exact ⟨conn, raw, hb⟩
  · cases heq

/-- The first two streams with a uuid are paired; a third comes ten seconds later, and the timer of
the first takes it out of `PEERS` after twenty. -/
theorem evicted_by_another_timer : ∃ w w', lts.Reachable w ∧ lts.step w (.wake 0) = some w' ∧
    w.now = 30000 ∧ w.tasks[2]? = some (.waiting caller "a uuid" 10000) ∧
    w.peers "a uuid" = some 2 ∧ w'.peers "a uuid" = none := by
  have hrun : ∃ w ∈ lts.run started
      [.accept caller, .accept caller, .accept caller, .receive 0 (some request), .look 0,
        .insert 0, .receive 1 (some request), .look 1, .tick 10000, .receive 2 (some request),
        .look 2, .insert 2, .tick 20000],
      ∃ w' ∈ lts.step w (.wake 0), w.now = 30000 ∧
        w.tasks[2]? = some (.waiting caller "a uuid" 10000) ∧ w.peers "a uuid" = some 2 ∧
        w'.peers "a uuid" = none := by decide
  obtain ⟨w, hw, w', hstep, hend⟩ := hrun
  exact ⟨w, w', LTS.Reachable.run (.init ⟨rfl, rfl⟩) hw, hstep, hend⟩

end World

end RustDesk.Relay
