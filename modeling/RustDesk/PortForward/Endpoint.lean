import RustDesk.Lib.Transition
import RustDesk.PortForward.Channel

/-!
# The two endpoints of a tunnel

`TunnelHandle` is the controller's end with its `tunnel_loop`, `PortForwardMux` the controlled
end with the connection that owns it. Both keep every channel they ever created; the `channels`
map of the source is the part of that list whose entry is still there (`rx.txLive`), looked up by
id with `findEntry`. `HashMap` keeps at most one entry per id, and so does the list:
`insert` and `on_open` add a channel only under an id that has none.

`handleLts` and `muxLts` are the endpoints against an arbitrary peer: any frame at any time, any
schedule of the tasks.
-/

namespace RustDesk.PortForward

variable {chans : List Channel} {i : ℕ} {c : Channel} {h : TunnelHandle} {a : HandleAct}
  {taken : ChannelId → Bool} {t : String} {m : PortForwardMux} {P : Channel → Prop}

/-! ### The map of channels -/

/-- `channels.get(&id)`, as the index of the channel. -/
def findEntry (chans : List Channel) (id : ChannelId) : Option ℕ :=
  chans.findIdx? fun c => c.rx.txLive && c.id == id

/-- Applies `f` to the channel whose entry is found under `id`. -/
def withEntry (chans : List Channel) (id : ChannelId) (f : Channel → Channel) : List Channel :=
  match findEntry chans id with
  | some i => chans.modify i f
  | none => chans

/-- `channels.len()`. -/
def liveEntries (chans : List Channel) : ℕ := chans.countP fun c => c.rx.txLive

lemma findEntry_eq_some {id : ChannelId} (h : findEntry chans id = some i) :
    ∃ c, chans[i]? = some c ∧ c.rx.txLive = true ∧ c.id = id := by
  obtain ⟨hi, hp, _⟩ := List.findIdx?_eq_some_iff_getElem.mp h
  simp only [Bool.and_eq_true, beq_iff_eq] at hp
  exact ⟨chans[i], List.getElem?_eq_getElem hi, hp.1, hp.2⟩

lemma findEntry_eq_none {id : ChannelId} (h : findEntry chans id = none) :
    ∀ c ∈ chans, c.rx.txLive = true → c.id ≠ id := by
  intro c hc ht hid
  have := List.findIdx?_eq_none_iff.mp h c hc
  simp [ht, hid] at this

lemma getElem?_withEntry (chans : List Channel) (id : ChannelId) (f : Channel → Channel) (i : ℕ) :
    (withEntry chans id f)[i]? =
      if findEntry chans id = some i then chans[i]?.map f else chans[i]? := by
  unfold withEntry
  cases h : findEntry chans id with
  | none => simp
  | some j =>
    rw [List.getElem?_modify]
    by_cases hij : j = i <;> simp [hij]

lemma findEntry_of_dead {id : ChannelId} (h : ∀ c ∈ chans, c.id = id → c.rx.txLive = false) :
    findEntry chans id = none := by
  refine List.findIdx?_eq_none_iff.mpr fun c hc => ?_
  by_cases hid : c.id = id
  · simp [h c hc hid]
  · simp [hid]

lemma liveEntries_of_dead (h : ∀ c ∈ chans, c.rx.txLive = false) : liveEntries chans = 0 := by
  simp only [liveEntries, List.countP_eq_zero]
  intro c hc
  simp [h c hc]

/-- The last channel is found when it has the only entry of its id. -/
lemma findEntry_append_last (h : ∀ d ∈ chans, d.id = c.id → d.rx.txLive = false)
    (hlive : c.rx.txLive = true) : findEntry (chans ++ [c]) c.id = some chans.length := by
  have hnone : findEntry chans c.id = none := findEntry_of_dead h
  unfold findEntry at hnone ⊢
  rw [List.findIdx?_append, hnone]
  simp [hlive]

lemma withEntry_append_last (f : Channel → Channel)
    (h : ∀ d ∈ chans, d.id = c.id → d.rx.txLive = false) (hlive : c.rx.txLive = true) :
    withEntry (chans ++ [c]) c.id f = chans ++ [f c] := by
  rw [withEntry, findEntry_append_last h hlive]
  dsimp only
  rw [List.modify_eq_set_getElem?]
  simp

@[simp] lemma length_withEntry (chans : List Channel) (id : ChannelId) (f : Channel → Channel) :
    (withEntry chans id f).length = chans.length := by
  unfold withEntry
  split <;> simp

/-- `close_all` clears the map, raises `teardown`, and then the loop's end drops the receivers of
the frame queues; each is a step of its own, between which tasks may run. -/
inductive LoopPhase where
  | running
  | cleared
  | signalled
  | dropped
  deriving DecidableEq

def LoopPhase.teardown : LoopPhase → Bool
  | signalled | dropped => true
  | _ => false

/-- A frame on its way, with the index of the channel whose task emitted it (`none` for a reply of
`on_open`); no code reads the index. -/
structure Sent where
  task : Option ℕ
  frame : Frame
  deriving DecidableEq

/-- The frames of a queue that the task of channel `i` emitted. -/
def framesOf (i : ℕ) (q : List Sent) : List Frame :=
  (q.filter fun x => x.task = some i).map Sent.frame

@[simp] lemma framesOf_nil (i : ℕ) : framesOf i [] = [] := rfl

@[simp] lemma framesOf_append (i : ℕ) (p q : List Sent) :
    framesOf i (p ++ q) = framesOf i p ++ framesOf i q := by simp [framesOf]

lemma framesOf_cons_self (i : ℕ) (f : Frame) (q : List Sent) :
    framesOf i (⟨some i, f⟩ :: q) = f :: framesOf i q := by simp [framesOf]

lemma framesOf_cons_of_ne {x : Sent} (h : x.task ≠ some i) (q : List Sent) :
    framesOf i (x :: q) = framesOf i q := by simp [framesOf, h]

/-! ### The controller -/

/-- A call of `TunnelHandle::open` that has passed its `is_closed` check. -/
structure OpenCall where
  host : String
  port : ℤ
  prebuf : Bytes
  deriving DecidableEq

structure TunnelHandle where
  chans : List Channel
  nextId : ChannelId
  calls : List OpenCall
  data : List Sent
  control : List Sent
  loop : LoopPhase
  deriving DecidableEq

inductive HandleAct where
  | beginOpen (call : OpenCall)
  | insert
  | task (i : ℕ) (a : Act)
  | finishAdd (i : ℕ)
  | frame (f : Frame)
  | writeControl
  | writeData
  | teardown
  deriving DecidableEq

/-- The loop of `open` that skips ids still in the map; `fetch_add` wraps. Returns the id and the
counter after it. Fewer than `fuel` ids being taken, the last line is reached on a free id only
(`allocId_free`). -/
def allocId (taken : ChannelId → Bool) : ℕ → ChannelId → ChannelId × ChannelId
  | 0, id => (id, id + 1)
  | fuel + 1, id => if taken id then allocId taken fuel (id + 1) else (id, id + 1)

namespace TunnelHandle

def new : TunnelHandle := ⟨[], 1, [], [], [], .running⟩

def env (h : TunnelHandle) : Env :=
  ⟨h.loop = .dropped, dataQueueFrames ≤ h.data.length, h.loop.teardown⟩

/-- The rest of `open`, under the lock of the map. -/
def insert (h : TunnelHandle) (call : OpenCall) : TunnelHandle :=
  if maxChannels ≤ liveEntries h.chans then h
  else
    let (id, next) := allocId (fun id => (findEntry h.chans id).isSome) maxChannels h.nextId
    { h with
      chans := h.chans ++ [Channel.controller id call.host call.port call.prebuf]
      nextId := next }

def onFrame (h : TunnelHandle) : Frame → TunnelHandle
  | .openedMsg id success _ window =>
    { h with chans := withEntry h.chans id fun c => c.onOpened success window }
  | .dataMsg id b => { h with chans := withEntry h.chans id fun c => c.onData b }
  | .closeMsg id => { h with chans := withEntry h.chans id Channel.onClose }
  | .windowUpdateMsg id add =>
    { h with chans := withEntry h.chans id fun c => c.onWindowUpdate add }
  | .openMsg _ _ _ _ => h

/-- A frame of channel `i` goes to the queue of its kind. -/
def enqueue (h : TunnelHandle) (i : ℕ) : Option Frame → TunnelHandle
  | none => h
  | some f => if f.isControl then { h with control := h.control ++ [⟨some i, f⟩] }
    else { h with data := h.data ++ [⟨some i, f⟩] }

/-- One step of a channel's task; the task's last one takes its id out of the map. -/
def taskStep (h : TunnelHandle) (i : ℕ) (a : Act) : Option TunnelHandle := do
  let c ← h.chans[i]?
  let (c', e) ← c.step h.env a
  let chans := h.chans.set i c'
  pure ({ h with
    chans := if a = Act.remove then withEntry chans c.id Channel.dropEntry else chans }.enqueue i e)

/-- One step, with the frame it puts on the stream, if any. -/
def step (h : TunnelHandle) : HandleAct → Option (TunnelHandle × Option Sent)
  | .beginOpen call =>
    if h.loop = .dropped then none else some ({ h with calls := h.calls ++ [call] }, none)
  | .insert =>
    match h.calls with
    | call :: rest => some ({ h with calls := rest }.insert call, none)
    | [] => none
  | .task i a => (h.taskStep i a).map fun h' => (h', none)
  | .finishAdd i => do
    let c ← h.chans[i]?
    let c' ← c.finishAdd
    pure ({ h with chans := h.chans.set i c' }, none)
  | .frame f => if h.loop = .running then some (h.onFrame f, none) else none
  | .writeControl =>
    match h.loop, h.control with
    | .running, x :: rest => some ({ h with control := rest }, some x)
    | _, _ => none
  | .writeData =>
    match h.loop, h.data with
    | .running, x :: rest => some ({ h with data := rest }, some x)
    | _, _ => none
  | .teardown =>
    match h.loop with
    | .running => some ({ h with chans := h.chans.map Channel.dropEntry, loop := .cleared }, none)
    | .cleared => some ({ h with loop := .signalled }, none)
    | .signalled => some ({ h with loop := .dropped, data := [], control := [] }, none)
    | .dropped => none

end TunnelHandle

/-! ### What a step does to the channels -/

/-- What a channel goes through at an endpoint. -/
def Channel.Evolves : Channel → Channel → Prop :=
  Relation.ReflTransGen fun c c' => ∃ env e, Channel.Moves env c c' e

namespace Channel.Evolves

lemma refl (c : Channel) : c.Evolves c := Relation.ReflTransGen.refl

lemma of_moves (env : Env) {c' : Channel} {e : Option Frame} (h : Channel.Moves env c c' e) :
    c.Evolves c' := Relation.ReflTransGen.single ⟨env, e, h⟩

lemma invariant (hP : ∀ env c c' e, P c → Channel.Moves env c c' e → P c') {c' : Channel}
    (h : c.Evolves c') (hc : P c) : P c' := by
  induction h with
  | refl => exact hc
  | tail _ h ih =>
    obtain ⟨env, e, h⟩ := h
    exact hP _ _ _ _ ih h

lemma id_eq {c' : Channel} (h : c.Evolves c') : c'.id = c.id ∧ c'.side = c.side := by
  refine h.invariant (P := fun d => d.id = c.id ∧ d.side = c.side) ?_ ⟨rfl, rfl⟩
  rintro env d d' e ⟨hid, hside⟩ hm
  rcases hm.task_or_same with hr | ⟨hs, _⟩
  · exact ⟨hr.sameEntry.id.trans hid, hr.sameEntry.side.trans hside⟩
  · exact ⟨hs.id.trans hid, hs.side.trans hside⟩

end Channel.Evolves

/-- Every channel of the first list goes on as the one at its place in the second, and what the
second holds beyond that is new and satisfies `P`. -/
def Grows (P : Channel → Prop) (l l' : List Channel) : Prop :=
  l.length ≤ l'.length ∧ ∀ (i : ℕ) (c' : Channel), l'[i]? = some c' →
    (∃ c : Channel, l[i]? = some c ∧ c.Evolves c') ∨ (l[i]? = none ∧ P c')

namespace Grows

variable {l l' l'' : List Channel} {f : Channel → Channel}

lemma refl (l : List Channel) : Grows P l l := ⟨le_rfl, fun _ c' h => Or.inl ⟨c', h, .refl c'⟩⟩

/-- A change that adds nothing, followed by one that may. -/
lemma trans (h : Grows (fun _ => False) l l') (h' : Grows P l' l'') : Grows P l l'' := by
  refine ⟨h.1.trans h'.1, ?_⟩
  intro i c'' hc''
  rcases h'.2 i c'' hc'' with ⟨c', hc', hev'⟩ | ⟨hnone, hP⟩
  · rcases h.2 i c' hc' with ⟨c, hc, hev⟩ | ⟨_, hf⟩
    · exact Or.inl ⟨c, hc, hev.trans hev'⟩
    · exact hf.elim
  · have hle := h.1
    rw [List.getElem?_eq_none_iff] at hnone
    exact Or.inr ⟨List.getElem?_eq_none (hle.trans hnone), hP⟩

lemma set {j : ℕ} {c' : Channel} (hc : l[j]? = some c) (h : c.Evolves c') :
    Grows P l (l.set j c') := by
  refine ⟨by simp, ?_⟩
  intro i d hd
  rw [List.getElem?_set] at hd
  split_ifs at hd with hji hlt
  · cases hd
    subst hji
    exact Or.inl ⟨c, hc, h⟩
  · exact Or.inl ⟨d, hd, .refl d⟩

lemma append (hc : P c) : Grows P l (l ++ [c]) := by
  refine ⟨by simp, ?_⟩
  intro i d hd
  rcases lt_or_ge i l.length with hi | hi
  · rw [List.getElem?_append_left hi] at hd
    exact Or.inl ⟨d, hd, .refl d⟩
  · rw [List.getElem?_append_right hi] at hd
    obtain ⟨_, hd⟩ := List.getElem?_eq_some_iff.mp hd
    refine Or.inr ⟨List.getElem?_eq_none hi, ?_⟩
    simp only [List.getElem_singleton] at hd
    exact hd ▸ hc

lemma map (hf : ∀ c : Channel, c.Evolves (f c)) : Grows P l (l.map f) := by
  refine ⟨by simp, ?_⟩
  intro i d hd
  rw [List.getElem?_map] at hd
  obtain ⟨c, hc, rfl⟩ := Option.map_eq_some_iff.mp hd
  exact Or.inl ⟨c, hc, hf c⟩

lemma getElem? (h : Grows P l l') (hc : l[i]? = some c) :
    ∃ c', l'[i]? = some c' ∧ c.Evolves c' := by
  have hlt : i < l'.length :=
    lt_of_lt_of_le (List.getElem?_eq_some_iff.mp hc).1 h.1
  refine ⟨l'[i], List.getElem?_eq_getElem hlt, ?_⟩
  rcases h.2 i l'[i] (List.getElem?_eq_getElem hlt) with ⟨d, hd, hev⟩ | ⟨hnone, _⟩
  · rw [hc] at hd
    cases hd
    exact hev
  · rw [hc] at hnone
    cases hnone

/-- A handler changes the channel whose entry it finds and leaves the others. -/
lemma withEntry {id : ChannelId} (hf : ∀ c : Channel, c.rx.txLive = true → c.Evolves (f c)) :
    Grows P l (PortForward.withEntry l id f) := by
  unfold PortForward.withEntry
  split
  · rename_i j hj
    obtain ⟨c, hc, ht, _⟩ := findEntry_eq_some hj
    have heq : l.modify j f = l.set j (f c) := by
      rw [List.modify_eq_set_getElem?, hc]
      rfl
    rw [heq]
    exact set hc (hf c ht)
  · exact refl l

end Grows

namespace TunnelHandle

variable {out : Option Sent}

@[simp] lemma enqueue_chans (h : TunnelHandle) (i : ℕ) (e : Option Frame) :
    (h.enqueue i e).chans = h.chans := by
  cases e with
  | none => rfl
  | some f => simp only [enqueue]; split_ifs <;> rfl

@[simp] lemma enqueue_nextId (h : TunnelHandle) (i : ℕ) (e : Option Frame) :
    (h.enqueue i e).nextId = h.nextId := by
  cases e with
  | none => rfl
  | some f => simp only [enqueue]; split_ifs <;> rfl

@[simp] lemma enqueue_loop (h : TunnelHandle) (i : ℕ) (e : Option Frame) :
    (h.enqueue i e).loop = h.loop := by
  cases e with
  | none => rfl
  | some f => simp only [enqueue]; split_ifs <;> rfl

@[simp] lemma insert_loop (h : TunnelHandle) (call : OpenCall) : (h.insert call).loop = h.loop := by
  unfold insert
  split_ifs <;> rfl

@[simp] lemma onFrame_loop (h : TunnelHandle) (f : Frame) : (h.onFrame f).loop = h.loop := by
  cases f <;> rfl

/-- What `open` puts into the list. -/
def IsNew (c : Channel) : Prop := ∃ id host port prebuf, c = Channel.controller id host port prebuf

lemma grows_onFrame (h : TunnelHandle) (f : Frame) : Grows IsNew h.chans (h.onFrame f).chans := by
  cases f with
  | openMsg id host port window => exact .refl _
  | openedMsg id success message window =>
    exact .withEntry fun _ ht => .of_moves h.env (.opened success window ht)
  | dataMsg id b => exact .withEntry fun _ ht => .of_moves h.env (.data b ht)
  | closeMsg id => exact .withEntry fun _ ht => .of_moves h.env (.close ht)
  | windowUpdateMsg id n => exact .withEntry fun _ ht => .of_moves h.env (.windowUpdate n ht)

/-- Everything a step of the controller's end can do. -/
inductive Rule (h : TunnelHandle) : HandleAct → TunnelHandle → Option Sent → Prop where
  | beginOpen {call : OpenCall} (hl : h.loop ≠ .dropped) :
      Rule h (.beginOpen call) { h with calls := h.calls ++ [call] } none
  | insert {call : OpenCall} {rest : List OpenCall} (hc : h.calls = call :: rest) :
      Rule h .insert ({ h with calls := rest }.insert call) none
  | task {i : ℕ} {a : Act} {c c' : Channel} {e : Option Frame} (hc : h.chans[i]? = some c)
      (hr : Channel.Rule h.env c c' e) :
      Rule h (.task i a) ({ h with chans := h.chans.set i c' }.enqueue i e) none
  /-- the last step of a task takes its id out of the map -/
  | remove {i : ℕ} {c : Channel} (hc : h.chans[i]? = some c) (hp : c.phase = .removing) :
      Rule h (.task i .remove)
        { h with chans := PortForward.withEntry (h.chans.set i c.finish) c.id Channel.dropEntry }
        none
  | finishAdd {i : ℕ} {c c' : Channel} (hc : h.chans[i]? = some c) (hf : c.finishAdd = some c') :
      Rule h (.finishAdd i) { h with chans := h.chans.set i c' } none
  | frame {f : Frame} (hl : h.loop = .running) : Rule h (.frame f) (h.onFrame f) none
  | writeControl {x : Sent} {rest : List Sent} (hl : h.loop = .running)
      (hq : h.control = x :: rest) : Rule h .writeControl { h with control := rest } (some x)
  | writeData {x : Sent} {rest : List Sent} (hl : h.loop = .running)
      (hq : h.data = x :: rest) : Rule h .writeData { h with data := rest } (some x)
  | clear (hl : h.loop = .running) :
      Rule h .teardown { h with chans := h.chans.map Channel.dropEntry, loop := .cleared } none
  | signal (hl : h.loop = .cleared) : Rule h .teardown { h with loop := .signalled } none
  | drop (hl : h.loop = .signalled) :
      Rule h .teardown { h with loop := .dropped, data := [], control := [] } none

lemma Rule.of_step {h' : TunnelHandle} (hs : h.step a = some (h', out)) : Rule h a h' out := by
  cases a <;> simp only [step, taskStep, Option.map_eq_some_iff, Option.bind_eq_bind,
    Option.bind_eq_some_iff, Option.pure_def] at hs
  case task i a =>
    obtain ⟨_, ⟨c, hc, ⟨c', e⟩, hst, ⟨⟩⟩, ⟨⟩⟩ := hs
    split_ifs with ha
    · subst ha
      obtain ⟨hp, rfl, rfl⟩ := Channel.step_remove hst
      exact .remove hc hp
    · exact .task hc (Channel.Rule.of_step hst)
  case finishAdd i =>
    obtain ⟨c, hc, c', hst, ⟨⟩⟩ := hs
    exact .finishAdd hc hst
  all_goals split at hs <;> cases hs
  · exact .beginOpen ‹_›
  · exact .insert ‹_›
  · exact .frame ‹_›
  · exact .writeControl ‹_› ‹_›
  · exact .writeData ‹_› ‹_›
  · exact .clear ‹_›
  · exact .signal ‹_›
  · exact .drop ‹_›

lemma Rule.grows {h' : TunnelHandle} (hr : Rule h a h' out) : Grows IsNew h.chans h'.chans := by
  cases hr with
  | insert hc =>
    rename_i call rest
    unfold TunnelHandle.insert
    split_ifs
    · exact .refl _
    · exact .append ⟨_, call.host, call.port, call.prebuf, rfl⟩
  | task hc hr =>
    rw [enqueue_chans]
    exact .set hc (.of_moves h.env (.task hr))
  | remove hc hp =>
    exact (Grows.set hc (.of_moves h.env (.task (.remove hp)))).trans
      (.withEntry fun _ _ => .of_moves h.env .drop)
  | finishAdd hc hf => exact .set hc (.of_moves h.env (.finishAdd hf))
  | frame hl => exact h.grows_onFrame _
  | clear hl => exact .map fun _ => .of_moves h.env .drop
  | _ => exact .refl _

end TunnelHandle

/-- The controller's end against an arbitrary peer. -/
def handleLts : LTS TunnelHandle HandleAct where
  init h := h = TunnelHandle.new
  step h a := (h.step a).map Prod.fst

lemma handleLts_rule {h' : TunnelHandle} (hs : handleLts.step h a = some h') :
    ∃ out, TunnelHandle.Rule h a h' out := by
  obtain ⟨⟨_, out⟩, hst, rfl⟩ := Option.map_eq_some_iff.mp hs
  exact ⟨out, .of_step hst⟩

/-! ### Channel ids -/

lemma allocId_of_free {fuel : ℕ} {id : ChannelId} (h : taken id = false) :
    allocId taken fuel id = (id, id + 1) := by
  cases fuel with
  | zero => rfl
  | succ fuel => simp [allocId, h]

/-- The loop passes taken ids only, so one that ends on a taken id has passed `fuel` others. -/
lemma allocId_taken {fuel : ℕ} {id : ChannelId} (h : taken (allocId taken fuel id).1 = true) :
    ∀ k ≤ fuel, taken (id + BitVec.ofNat 32 k) = true := by
  induction fuel generalizing id with
  | zero =>
    intro k hk
    obtain rfl := Nat.le_zero.mp hk
    simpa [allocId] using h
  | succ fuel ih =>
    by_cases ht : taken id
    · simp only [allocId, ht, if_true] at h
      intro k hk
      cases k with
      | zero => simpa using ht
      | succ k =>
        have := ih h k (by omega)
        rwa [BitVec.add_assoc, show (1 : ChannelId) + BitVec.ofNat 32 k = BitVec.ofNat 32 (k + 1) by
          rw [Nat.add_comm, BitVec.ofNat_add]
          rfl] at this
    · simp only [allocId, ht] at h
      exact (ht h).elim

/-- As long as no more entries are live than the loop has rounds, it ends on a free id: the bound
on its rounds is never what ends it. -/
lemma allocId_free {fuel : ℕ} (hfuel : fuel < 2 ^ 32) (hlive : liveEntries chans ≤ fuel)
    (id : ChannelId) :
    findEntry chans (allocId (fun id => (findEntry chans id).isSome) fuel id).1 = none := by
  by_contra hne
  have htaken : ∀ k ≤ fuel, (findEntry chans (id + BitVec.ofNat 32 k)).isSome = true :=
    @allocId_taken (fun id => (findEntry chans id).isSome) fuel id
      (Option.isSome_iff_ne_none.mpr hne)
  -- the ids passed are distinct ids of live entries, one more than there are entries
  let ids := ((chans.filter fun c => c.rx.txLive).map Channel.id).toFinset
  have hmaps : ∀ k ∈ Finset.range (fuel + 1), id + BitVec.ofNat 32 k ∈ ids := by
    intro k hk
    obtain ⟨i, hi⟩ := Option.isSome_iff_exists.mp (htaken k (by simpa [Nat.lt_succ_iff] using hk))
    obtain ⟨c, hc, ht, hid⟩ := findEntry_eq_some hi
    simp only [ids, List.mem_toFinset, List.mem_map, List.mem_filter]
    exact ⟨c, ⟨List.mem_of_getElem? hc, ht⟩, hid⟩
  have hinj : Set.InjOn (fun k => id + BitVec.ofNat 32 k) (Finset.range (fuel + 1)) := by
    intro a ha b hb hab
    have ha : a < fuel + 1 := by simpa using ha
    have hb : b < fuel + 1 := by simpa using hb
    have := congrArg BitVec.toNat ((BitVec.add_right_inj id).mp hab)
    simp only [BitVec.toNat_ofNat] at this
    rwa [Nat.mod_eq_of_lt (by omega), Nat.mod_eq_of_lt (by omega)] at this
  have hcard := Finset.card_le_card_of_injOn _ hmaps hinj
  have hids : ids.card ≤ liveEntries chans := by
    refine (List.toFinset_card_le _).trans ?_
    rw [List.length_map, liveEntries, List.countP_eq_length_filter]
  rw [Finset.card_range] at hcard
  omega

/-- `insert` refuses the call or adds a channel under the id it finds. -/
lemma TunnelHandle.insert_cases (h : TunnelHandle) (call : OpenCall) :
    h.insert call = h ∨ (liveEntries h.chans < maxChannels ∧
      ∃ id next,
        allocId (fun id => (findEntry h.chans id).isSome) maxChannels h.nextId = (id, next) ∧
      h.insert call = { h with
        chans := h.chans ++ [Channel.controller id call.host call.port call.prebuf]
        nextId := next }) := by
  unfold insert
  split_ifs with hcap
  · exact Or.inl rfl
  · exact Or.inr ⟨by omega, _, _, rfl, rfl⟩

/-- Every step but `insert` leaves the counter and the number of channels alone. -/
lemma TunnelHandle.Rule.length_eq {h' : TunnelHandle} {out : Option Sent} (hr : Rule h a h' out) :
    (h'.chans.length = h.chans.length ∧ h'.nextId = h.nextId) ∨
    (out = none ∧ ∃ call rest, h' = ({ h with calls := rest } : TunnelHandle).insert call) := by
  cases hr with
  | insert hc => exact Or.inr ⟨rfl, _, _, rfl⟩
  | @frame f hl => cases f <;> exact Or.inl ⟨by simp [onFrame], rfl⟩
  | task hc hr => exact Or.inl ⟨by simp, by simp⟩
  | remove | finishAdd | clear => exact Or.inl ⟨by simp, rfl⟩
  | _ => exact Or.inl ⟨rfl, rfl⟩

/-! ### The controlled side -/

structure PortForwardMux where
  chans : List Channel
  tx : List Sent
  loginTarget : String
  loop : LoopPhase
  deriving DecidableEq

inductive MuxAct where
  | task (i : ℕ) (a : Act)
  | finishAdd (i : ℕ)
  /-- `permitted` is what `tunnel_permitted` answers to an `open` -/
  | frame (f : Frame) (permitted : Bool)
  | write
  | teardown
  deriving DecidableEq

/-- `Connection::normalize_port_forward_target`: the address, and whether it is RDP. -/
def normalizePortForwardTarget (host : String) (port : ℤ) : String × Bool :=
  let isRdp := host = "RDP" ∧ port = 0
  let host := if isRdp then "localhost" else host
  let port := if isRdp then 3389 else port
  let host := if host = "" then "localhost" else host
  (host ++ ":" ++ toString port, isRdp)

def unreachableMessage (addr : String) (isRdp : Bool) : String :=
  "Failed to access remote " ++ (if isRdp then "RDP" else addr) ++
    ". Please make sure it is reachable/open."

namespace PortForwardMux

variable {out : Option Sent}

def new (loginTarget : String) : PortForwardMux := ⟨[], [], loginTarget, .running⟩

def env (m : PortForwardMux) : Env := ⟨m.loop = .dropped, false, m.loop.teardown⟩

def reply (m : PortForwardMux) (f : Frame) : PortForwardMux := { m with tx := m.tx ++ [⟨none, f⟩] }

/-- `channels.retain(|_, e| !e.inbound.is_closed())`. -/
def retainOpen (chans : List Channel) : List Channel :=
  chans.map fun c => if c.rx.rxLive then c else c.dropEntry

def onOpen (m : PortForwardMux) (id : ChannelId) (host : String) (port : ℤ) (window : ℕ)
    (permitted : Bool) : PortForwardMux :=
  let m := { m with chans := retainOpen m.chans }
  if ¬permitted then m.reply (.openedMsg id false "No permission of IP tunneling" 0)
  else if maxChannels ≤ liveEntries m.chans then
    m.reply (.openedMsg id false "Too many port forward channels" 0)
  else if (findEntry m.chans id).isSome then m
  else
    let (addr, isRdp) := normalizePortForwardTarget host port
    if addr ≠ m.loginTarget then
      m.reply (.openedMsg id false "Port forward target not authorized" 0)
    else
      { m with chans :=
        m.chans ++ [Channel.controlled id window (unreachableMessage addr isRdp)] }

def handle (m : PortForwardMux) (permitted : Bool) : Frame → PortForwardMux
  | .openMsg id host port window => m.onOpen id host port window permitted
  | .dataMsg id b => { m with chans := withEntry m.chans id fun c => c.onData b }
  | .closeMsg id => { m with chans := withEntry m.chans id Channel.onClose }
  | .windowUpdateMsg id add =>
    { m with chans := withEntry m.chans id fun c => c.onWindowUpdate add }
  | .openedMsg _ _ _ _ => m

def enqueue (m : PortForwardMux) (i : ℕ) : Option Frame → PortForwardMux
  | none => m
  | some f => { m with tx := m.tx ++ [⟨some i, f⟩] }

def taskStep (m : PortForwardMux) (i : ℕ) (a : Act) : Option PortForwardMux := do
  let c ← m.chans[i]?
  let (c', e) ← c.step m.env a
  pure ({ m with chans := m.chans.set i c' }.enqueue i e)

def step (m : PortForwardMux) : MuxAct → Option (PortForwardMux × Option Sent)
  | .task i a => (m.taskStep i a).map fun m' => (m', none)
  | .finishAdd i => do
    let c ← m.chans[i]?
    let c' ← c.finishAdd
    pure ({ m with chans := m.chans.set i c' }, none)
  | .frame f permitted =>
    if m.loop = .running then some (m.handle permitted f, none) else none
  | .write =>
    match m.loop, m.tx with
    | .running, x :: rest => some ({ m with tx := rest }, some x)
    | _, _ => none
  | .teardown =>
    match m.loop with
    | .running => some ({ m with chans := m.chans.map Channel.dropEntry, loop := .cleared }, none)
    | .cleared => some ({ m with loop := .signalled }, none)
    | .signalled => some ({ m with loop := .dropped, tx := [] }, none)
    | .dropped => none

@[simp] lemma enqueue_chans (m : PortForwardMux) (i : ℕ) (e : Option Frame) :
    (m.enqueue i e).chans = m.chans := by
  cases e <;> rfl

@[simp] lemma enqueue_loop (m : PortForwardMux) (i : ℕ) (e : Option Frame) :
    (m.enqueue i e).loop = m.loop := by
  cases e <;> rfl

@[simp] lemma handle_loop (m : PortForwardMux) (permitted : Bool) (f : Frame) :
    (m.handle permitted f).loop = m.loop := by
  cases f with
  | openMsg id host port window =>
    unfold handle onOpen
    dsimp only
    split_ifs <;> rfl
  | _ => rfl

/-- What `on_open` puts into the list. -/
def IsNew (c : Channel) : Prop := ∃ id window u, c = Channel.controlled id window u

lemma grows_retainOpen (l : List Channel) : Grows P l (retainOpen l) := by
  refine .map fun c => ?_
  split_ifs
  · exact .refl c
  · exact .of_moves ⟨false, false, false⟩ .drop

/-- An `open` is refused with a reply, ignored because its id is live, or starts a channel. -/
lemma onOpen_cases (m : PortForwardMux) (id : ChannelId) (host : String) (port : ℤ) (window : ℕ)
    (permitted : Bool) :
    (∃ message, m.onOpen id host port window permitted = { m with
      chans := retainOpen m.chans
      tx := m.tx ++ [⟨none, .openedMsg id false message 0⟩] }) ∨
    ((findEntry (retainOpen m.chans) id).isSome = true ∧
      m.onOpen id host port window permitted = { m with chans := retainOpen m.chans }) ∨
    (liveEntries (retainOpen m.chans) < maxChannels ∧
      findEntry (retainOpen m.chans) id = none ∧ ∃ u,
      m.onOpen id host port window permitted =
        { m with chans := retainOpen m.chans ++ [Channel.controlled id window u] }) := by
  unfold onOpen
  dsimp only
  split
  · exact Or.inl ⟨_, rfl⟩
  · split
    · exact Or.inl ⟨_, rfl⟩
    · rename_i hcap
      split
      · rename_i hlive
        exact Or.inr (Or.inl ⟨hlive, rfl⟩)
      · rename_i hlive
        split
        · exact Or.inl ⟨_, rfl⟩
        · exact Or.inr (Or.inr ⟨by omega, by simpa using hlive, _, rfl⟩)

/-- A frame changes the channels it finds, and an `open` may add one while there is room. -/
lemma grows_handle (m : PortForwardMux) (permitted : Bool) (f : Frame) :
    Grows (fun _ => False) m.chans (m.handle permitted f).chans ∨
    (liveEntries (retainOpen m.chans) < maxChannels ∧ ∃ id window u,
      findEntry (retainOpen m.chans) id = none ∧
      (m.handle permitted f).chans = retainOpen m.chans ++ [Channel.controlled id window u]) := by
  cases f with
  | openMsg id host port window =>
    rcases m.onOpen_cases id host port window permitted with
      ⟨_, heq⟩ | ⟨_, heq⟩ | ⟨hcap, hfree, u, heq⟩ <;> simp only [handle, heq]
    · exact Or.inl (grows_retainOpen _)
    · exact Or.inl (grows_retainOpen _)
    · exact Or.inr ⟨hcap, id, window, u, hfree, rfl⟩
  | openedMsg id success message window => exact Or.inl (.refl _)
  | dataMsg id b => exact Or.inl (.withEntry fun _ ht => .of_moves m.env (.data b ht))
  | closeMsg id => exact Or.inl (.withEntry fun _ ht => .of_moves m.env (.close ht))
  | windowUpdateMsg id n =>
    exact Or.inl (.withEntry fun _ ht => .of_moves m.env (.windowUpdate n ht))

/-- Everything a step of the controlled end can do. -/
inductive Rule (m : PortForwardMux) : MuxAct → PortForwardMux → Option Sent → Prop where
  | task {i : ℕ} {a : Act} {c c' : Channel} {e : Option Frame} (hc : m.chans[i]? = some c)
      (hr : Channel.Rule m.env c c' e) :
      Rule m (.task i a) ({ m with chans := m.chans.set i c' }.enqueue i e) none
  | finishAdd {i : ℕ} {c c' : Channel} (hc : m.chans[i]? = some c) (hf : c.finishAdd = some c') :
      Rule m (.finishAdd i) { m with chans := m.chans.set i c' } none
  | frame {f : Frame} {permitted : Bool} (hl : m.loop = .running) :
      Rule m (.frame f permitted) (m.handle permitted f) none
  | write {x : Sent} {rest : List Sent} (hl : m.loop = .running) (hq : m.tx = x :: rest) :
      Rule m .write { m with tx := rest } (some x)
  | clear (hl : m.loop = .running) :
      Rule m .teardown { m with chans := m.chans.map Channel.dropEntry, loop := .cleared } none
  | signal (hl : m.loop = .cleared) : Rule m .teardown { m with loop := .signalled } none
  | drop (hl : m.loop = .signalled) : Rule m .teardown { m with loop := .dropped, tx := [] } none

lemma Rule.of_step {m' : PortForwardMux} {a : MuxAct} (hs : m.step a = some (m', out)) :
    Rule m a m' out := by
  cases a <;> simp only [step, taskStep, Option.map_eq_some_iff, Option.bind_eq_bind,
    Option.bind_eq_some_iff, Option.pure_def] at hs
  case task i a =>
    obtain ⟨_, ⟨c, hc, ⟨c', e⟩, hst, ⟨⟩⟩, ⟨⟩⟩ := hs
    exact .task hc (Channel.Rule.of_step hst)
  case finishAdd i =>
    obtain ⟨c, hc, c', hst, ⟨⟩⟩ := hs
    exact .finishAdd hc hst
  all_goals split at hs <;> cases hs
  · exact .frame ‹_›
  · exact .write ‹_› ‹_›
  · exact .clear ‹_›
  · exact .signal ‹_›
  · exact .drop ‹_›

/-- A step adds a channel only while there is room, and under an id that has no entry. -/
lemma Rule.grows_or_new {m' : PortForwardMux} {a : MuxAct} (hr : Rule m a m' out) :
    Grows (fun _ => False) m.chans m'.chans ∨
    (liveEntries (retainOpen m.chans) < maxChannels ∧ ∃ id window u,
      findEntry (retainOpen m.chans) id = none ∧
      m'.chans = retainOpen m.chans ++ [Channel.controlled id window u]) := by
  cases hr with
  | task hc hr =>
    rw [enqueue_chans]
    exact Or.inl (.set hc (.of_moves m.env (.task hr)))
  | finishAdd hc hf => exact Or.inl (.set hc (.of_moves m.env (.finishAdd hf)))
  | frame hl => exact m.grows_handle _ _
  | clear hl => exact Or.inl (.map fun _ => .of_moves m.env .drop)
  | _ => exact Or.inl (.refl _)

lemma Rule.grows {m' : PortForwardMux} {a : MuxAct} (hr : Rule m a m' out) :
    Grows IsNew m.chans m'.chans := by
  rcases hr.grows_or_new with hg | ⟨_, id, window, u, _, heq⟩
  · exact hg.trans (.refl _)
  · rw [heq]
    exact (grows_retainOpen _).trans (.append ⟨id, window, u, rfl⟩)

end PortForwardMux

/-- The controlled end against an arbitrary peer. -/
def muxLts (loginTarget : String) : LTS PortForwardMux MuxAct where
  init m := m = PortForwardMux.new loginTarget
  step m a := (m.step a).map Prod.fst

lemma muxLts_rule {m' : PortForwardMux} {a : MuxAct} (hs : (muxLts t).step m a = some m') :
    ∃ out, PortForwardMux.Rule m a m' out := by
  obtain ⟨⟨_, out⟩, hst, rfl⟩ := Option.map_eq_some_iff.mp hs
  exact ⟨out, .of_step hst⟩

/-! ### Invariants of all the channels of an endpoint -/

lemma handleLts_grows (h : TunnelHandle) (a : HandleAct) (h' : TunnelHandle)
    (hs : handleLts.step h a = some h') : Grows TunnelHandle.IsNew h.chans h'.chans := by
  obtain ⟨out, hr⟩ := handleLts_rule hs
  exact hr.grows

lemma muxLts_grows (t : String) (m : PortForwardMux) (a : MuxAct) (m' : PortForwardMux)
    (hs : (muxLts t).step m a = some m') : Grows PortForwardMux.IsNew m.chans m'.chans := by
  obtain ⟨out, hr⟩ := muxLts_rule hs
  exact hr.grows

/-- The ids of the controller's channels count up from one, as long as the counter has not come
round. -/
structure TunnelHandle.Numbered (h : TunnelHandle) : Prop where
  next : h.nextId = BitVec.ofNat 32 (h.chans.length + 1)
  ids : ∀ (i : ℕ) (c : Channel), h.chans[i]? = some c → c.id = BitVec.ofNat 32 (i + 1)

lemma ofNat_succ_inj {j : ℕ} (hi : i < 2 ^ 32) (hj : j < 2 ^ 32)
    (h : BitVec.ofNat 32 (i + 1) = BitVec.ofNat 32 (j + 1)) : i = j := by
  have := congrArg BitVec.toNat h
  simp only [BitVec.toNat_ofNat] at this
  omega

namespace TunnelHandle.Numbered

variable {h' : TunnelHandle}

lemma free (hn : h.Numbered) (hlen : h.chans.length < 2 ^ 32) :
    findEntry h.chans h.nextId = none := by
  by_contra hne
  obtain ⟨i, hi⟩ := Option.ne_none_iff_exists'.mp hne
  obtain ⟨c, hc, _, hid⟩ := findEntry_eq_some hi
  have hlt := (List.getElem?_eq_some_iff.mp hc).1
  rw [hn.ids i c hc, hn.next] at hid
  have := ofNat_succ_inj (by omega) hlen hid
  omega

lemma step (hn : h.Numbered) (hs : handleLts.step h a = some h') (hlen : h'.chans.length ≤ 2 ^ 32) :
    h'.Numbered := by
  have hg := handleLts_grows h a h' hs
  obtain ⟨out, hr⟩ := handleLts_rule hs
  rcases hr.length_eq with ⟨hl, hnext⟩ | ⟨_, call, rest, rfl⟩
  · refine ⟨by rw [hnext, hl, hn.next], ?_⟩
    intro i c' hc'
    rcases hg.2 i c' hc' with ⟨c, hc, hev⟩ | ⟨hnone, _⟩
    · rw [hev.id_eq.1, hn.ids i c hc]
    · have := List.getElem?_eq_none_iff.mp hnone
      have := (List.getElem?_eq_some_iff.mp hc').1
      omega
  · have hk : ({ h with calls := rest } : TunnelHandle).Numbered := ⟨hn.next, hn.ids⟩
    rcases insert_cases { h with calls := rest } call with heq | ⟨_, id, next, halloc, heq⟩
    · rw [heq]
      exact hk
    · rw [heq] at hlen ⊢
      simp only [List.length_append, List.length_singleton] at hlen
      rw [allocId_of_free (by simp [hk.free (by dsimp only; omega)])] at halloc
      cases halloc
      refine ⟨?_, ?_⟩
      · simp only [hn.next, List.length_append, List.length_singleton]
        rw [BitVec.ofNat_add (h.chans.length + 1) 1]
        rfl
      · intro i c hc
        rcases Nat.lt_or_ge i h.chans.length with hi | hi
        · exact hn.ids i c (by rwa [List.getElem?_append_left hi] at hc)
        · rw [List.getElem?_append_right hi] at hc
          obtain ⟨hi', rfl⟩ := List.getElem?_eq_some_iff.mp hc
          have : i = h.chans.length := by simp at hi'; omega
          simp [Channel.controller, hn.next, this]

end TunnelHandle.Numbered

lemma handleLts_numbered (hr : handleLts.Reachable h) (hlen : h.chans.length ≤ 2 ^ 32) :
    h.Numbered := by
  refine hr.invariant (P := fun h => h.chans.length ≤ 2 ^ 32 → h.Numbered) ?_ ?_ hlen
  · rintro _ rfl _
    exact ⟨rfl, by simp [TunnelHandle.new]⟩
  · intro h a h' _ ih hs hlen
    exact (ih ((handleLts_grows h a h' hs).1.trans hlen)).step hs hlen

/-- Channels of the controller are told apart by their ids as long as no id is reused. -/
lemma handleLts_id_inj {i j : ℕ} {c d : Channel} (hr : handleLts.Reachable h)
    (hlen : h.chans.length ≤ 2 ^ 32) (hc : h.chans[i]? = some c) (hd : h.chans[j]? = some d)
    (hid : c.id = d.id) : i = j := by
  have hn := handleLts_numbered hr hlen
  have hi := (List.getElem?_eq_some_iff.mp hc).1
  have hj := (List.getElem?_eq_some_iff.mp hd).1
  rw [hn.ids i c hc, hn.ids j d hd] at hid
  exact ofNat_succ_inj (by omega) (by omega) hid

section

variable (hP : ∀ env c c' e, P c → Channel.Moves env c c' e → P c')

include hP

lemma Grows.forall {N : Channel → Prop} {l l' : List Channel} (hg : Grows N l l')
    (hnew : ∀ c, N c → P c) (hl : ∀ c ∈ l, P c) : ∀ c ∈ l', P c := by
  intro c' hc'
  obtain ⟨i, hi⟩ := List.mem_iff_getElem?.mp hc'
  rcases hg.2 i c' hi with ⟨c, hc, hev⟩ | ⟨_, hN⟩
  · exact hev.invariant hP (hl c (List.mem_of_getElem? hc))
  · exact hnew c' hN

/-- What a new channel of the controller has and every move keeps, all its channels have. -/
lemma handleLts_forall (hnew : ∀ id host port prebuf, P (Channel.controller id host port prebuf))
    (hr : handleLts.Reachable h) : ∀ c ∈ h.chans, P c := by
  refine hr.invariant (P := fun h => ∀ c ∈ h.chans, P c) ?_ ?_
  · rintro _ rfl
    simp [TunnelHandle.new]
  · intro h a h' _ ih hs
    refine (handleLts_grows h a h' hs).forall hP ?_ ih
    rintro _ ⟨id, host, port, prebuf, rfl⟩
    exact hnew _ _ _ _

lemma muxLts_forall (hnew : ∀ id window u, P (Channel.controlled id window u))
    (hr : (muxLts t).Reachable m) : ∀ c ∈ m.chans, P c := by
  refine hr.invariant (P := fun m => ∀ c ∈ m.chans, P c) ?_ ?_
  · rintro _ rfl
    simp [PortForwardMux.new]
  · intro m a m' _ ih hs
    refine (muxLts_grows t m a m' hs).forall hP ?_ ih
    rintro _ ⟨id, window, u, rfl⟩
    exact hnew _ _ _

end

lemma Channel.Moves.side_eq {env : Env} {c' : Channel} {e : Option Frame}
    (h : Channel.Moves env c c' e) : c'.side = c.side := (Channel.Evolves.of_moves env h).id_eq.2

lemma handleLts_side (hr : handleLts.Reachable h) : ∀ c ∈ h.chans, c.side = .controller :=
  handleLts_forall (fun _ _ _ _ hc hm => hm.side_eq.trans hc) (fun _ _ _ _ => rfl) hr

lemma muxLts_side (hr : (muxLts t).Reachable m) : ∀ c ∈ m.chans, c.side = .controlled :=
  muxLts_forall (fun _ _ _ _ hc hm => hm.side_eq.trans hc) (fun _ _ _ => rfl) hr

end RustDesk.PortForward
