import RustDesk.PortForward.Relay

/-!
# One channel at one endpoint

A `Channel` is the task that serves a channel together with what it shares with the frame
handler: the credit, the window and the inbound queue. Its task is the one `TunnelHandle::open`
spawns on the controller, or `run_controlled_channel` on the controlled side; both end in
`run_channel`, whose two relays are the `Sender` and the `Receiver`.

`Channel.step` is one step of that task, `onData`, `onClose`, `onWindowUpdate` and `onOpened` are
what the frame handler does to a channel whose entry it has found, and `finishAdd` is the end of
an `add` the handler has begun. `log` records the frames the task has handed to its sink.
-/

namespace RustDesk.PortForward

inductive Side where
  | controller
  | controlled
  deriving DecidableEq

/-- Where a channel's task is. `opening` and `removing` belong to the controller's task, those
from `connecting` to `announcing` to the controlled side's, the others to `run_channel`. -/
inductive Phase where
  | opening (host : String) (port : ℤ)
  /-- the biased `select!`: `polled` says that the queue was found empty on this poll -/
  | connecting (polled : Bool) (unreachable : String)
  | aborting
  | refusing (message : String)
  | granting
  | announcing
  | selecting
  | joining
  | closing
  | removing
  | finished
  deriving DecidableEq

/-- The phases before `run_channel` has started the relays. -/
def Phase.early : Phase → Bool
  | opening _ _ | connecting _ _ | aborting | refusing _ | granting | announcing => true
  | _ => false

/-- The phases of `run_controlled_channel` up to the `grant`. -/
def Phase.beforeGrant : Phase → Bool
  | connecting _ _ | aborting | refusing _ | granting => true
  | _ => false

/-- The phases in which the relays run. -/
def Phase.relaying : Phase → Bool
  | selecting | joining => true
  | _ => false

structure Channel where
  side : Side
  id : ChannelId
  phase : Phase
  /-- the `opened` flag of the controller's entry -/
  opened : Bool
  /-- the value of `run_channel`'s `cancel` watch -/
  cancel : Bool
  tx : Sender
  rx : Receiver
  log : List Frame
  deriving DecidableEq

/-- What a task sees of its endpoint. -/
structure Env where
  closed : Bool
  full : Bool
  teardown : Bool
  deriving DecidableEq

inductive Act where
  | sendOpen
  | recvCmd
  | connectPending
  | connected (ok : Bool)
  | abort
  | refuse
  | grant
  | announce
  | sender (a : SenderAct)
  | receiver (a : ReceiverAct)
  | selectSender
  | selectReceiver
  | selectTeardown
  | join
  | close
  | remove
  deriving DecidableEq

/-- Before `opened` the controller may only have used `initialWindow`; `charged` is the running
total of the charges, a `usize`. -/
def pendingFits (charged addLen : ℕ) : Bool :=
  min (charged + charge addLen) (2 ^ 64 - 1) ≤ initialWindow

/-- `run_channel`'s verdict on how its relays ended: the peer's own `close` is never echoed. -/
def sendsClose (first second : RelayEnd) : Bool :=
  let peerClosed := first = .peerClosed ∨ second = .peerClosed
  let tunnelGone := first = .tunnelGone ∨ second = .tunnelGone
  let localReason := (first = .localEof ∨ first = .violation) ∨
    (second = .localEof ∨ second = .violation)
  ¬peerClosed ∧ ¬tunnelGone ∧ localReason

namespace Channel

variable {env : Env} {c c' : Channel} {e : Option Frame}

/-- The channel `TunnelHandle::open` creates. -/
def controller (id : ChannelId) (host : String) (port : ℤ) (prebuf : Bytes) : Channel where
  side := .controller
  id := id
  phase := .opening host port
  opened := false
  cancel := false
  tx := Sender.new initialWindow prebuf
  rx := Receiver.new channelWindow
  log := []

/-- The channel `on_open` creates; `unreachable` is the text of its refusal. -/
def controlled (id : ChannelId) (window : ℕ) (unreachable : String) : Channel where
  side := .controlled
  id := id
  phase := .connecting false unreachable
  opened := false
  cancel := false
  tx := Sender.new (effectiveWindow window) []
  rx := Receiver.new initialWindow
  log := []

def emit (c : Channel) (f : Frame) : Channel × Option Frame :=
  ({ c with log := c.log ++ [f] }, some f)

/-- `run_channel` spawns its two relays. -/
def start (c : Channel) : Channel :=
  { c with
    phase := .selecting
    tx := { c.tx with pc := .check }
    rx := { c.rx with pc := .next } }

/-- The task returns: the queue's receiver goes with it. -/
def finish (c : Channel) : Channel := { c with phase := .finished, rx := c.rx.close }

/-- What follows `run_channel`: the controller's task still removes its entry. -/
def afterRun (c : Channel) : Channel :=
  match c.side with
  | .controller => { c with phase := .removing }
  | .controlled => c.finish

def relayEnv (c : Channel) (env : Env) : RelayEnv := ⟨env.closed, env.full, c.cancel⟩

def step (env : Env) (a : Act) (c : Channel) : Option (Channel × Option Frame) :=
  match a, c.phase with
  | .sendOpen, .opening host port =>
    if env.closed then some ({ c with phase := .removing }, none)
    else if env.full then none
    else some (c.start.emit (.openMsg c.id host port channelWindow))
  | .recvCmd, .connecting false unreachable =>
    match c.rx.inbound with
    | .data b :: rest =>
      if pendingFits c.rx.pendingLen b.length then
        some ({ c with rx := { c.rx with
          inbound := rest
          pending := c.rx.pending ++ [b]
          pendingLen := c.rx.pendingLen + charge b.length } }, none)
      else
        some ({ c with phase := .aborting, rx := { c.rx with inbound := rest } }, none)
    | .close :: _ => some (c.finish, none)
    | .violation :: rest =>
      some ({ c with phase := .aborting, rx := { c.rx with inbound := rest } }, none)
    | [] =>
      if c.rx.txLive then some ({ c with phase := .connecting true unreachable }, none)
      else some (c.finish, none)
  | .connectPending, .connecting true unreachable =>
    some ({ c with phase := .connecting false unreachable }, none)
  | .connected ok, .connecting true unreachable =>
    some ({ c with phase := if ok then .granting else .refusing unreachable }, none)
  | .abort, .aborting =>
    if env.closed then some (c.finish, none) else some (c.finish.emit (.closeMsg c.id))
  | .refuse, .refusing message =>
    if env.closed then some (c.finish, none)
    else some (c.finish.emit (.openedMsg c.id false message 0))
  | .grant, .granting =>
    some ({ c with phase := .announcing, rx := c.rx.grant (channelWindow - initialWindow) }, none)
  | .announce, .announcing =>
    if env.closed then some (c.finish, none)
    else some (c.start.emit (.openedMsg c.id true "" channelWindow))
  | .sender a, .selecting | .sender a, .joining =>
    (c.tx.step (c.relayEnv env) c.id a).map fun (tx, e) =>
      ({ c with tx := tx, log := c.log ++ e.toList }, e)
  | .receiver a, .selecting | .receiver a, .joining =>
    (c.rx.step (c.relayEnv env) c.id a).map fun (rx, e) =>
      ({ c with rx := rx, log := c.log ++ e.toList }, e)
  | .selectSender, .selecting =>
    match c.tx.pc with
    | .ended _ => some ({ c with phase := .joining, cancel := true }, none)
    | _ => none
  | .selectReceiver, .selecting =>
    match c.rx.pc with
    | .ended _ => some ({ c with phase := .joining, cancel := true }, none)
    | _ => none
  | .selectTeardown, .selecting =>
    if env.teardown then some ({ c with phase := .joining, cancel := true }, none) else none
  | .join, .joining =>
    match c.tx.pc, c.rx.pc with
    | .ended first, .ended second =>
      some (if sendsClose first second then { c with phase := .closing } else c.afterRun, none)
    | _, _ => none
  | .close, .closing =>
    if env.closed then some (c.afterRun, none)
    else if env.full then none
    else some (c.afterRun.emit (.closeMsg c.id))
  | .remove, .removing => some (c.finish, none)
  | _, _ => none

/-! ### What a step of the task can do -/

/-- Everything a step of a channel's task can do. -/
inductive Rule (env : Env) : Channel → Channel → Option Frame → Prop where
  | openGone {c : Channel} {host : String} {port : ℤ} (hp : c.phase = .opening host port)
      (hc : env.closed = true) : Rule env c { c with phase := .removing } none
  | sendOpen {c : Channel} {host : String} {port : ℤ} (hp : c.phase = .opening host port)
      (hc : env.closed = false) :
      Rule env c { c.start with log := c.log ++ [.openMsg c.id host port channelWindow] }
        (some (.openMsg c.id host port channelWindow))
  | buffer {c : Channel} {u : String} {b : Bytes} {rest : List Inbound}
      (hp : c.phase = .connecting false u) (hq : c.rx.inbound = .data b :: rest)
      (hf : pendingFits c.rx.pendingLen b.length = true) :
      Rule env c { c with rx := { c.rx with
        inbound := rest
        pending := c.rx.pending ++ [b]
        pendingLen := c.rx.pendingLen + charge b.length } } none
  | overflow {c : Channel} {u : String} {b : Bytes} {rest : List Inbound}
      (hp : c.phase = .connecting false u) (hq : c.rx.inbound = .data b :: rest)
      (hf : pendingFits c.rx.pendingLen b.length = false) :
      Rule env c { c with phase := .aborting, rx := { c.rx with inbound := rest } } none
  | cmdClose {c : Channel} {u : String} {rest : List Inbound}
      (hp : c.phase = .connecting false u) (hq : c.rx.inbound = .close :: rest) :
      Rule env c c.finish none
  | cmdViolation {c : Channel} {u : String} {rest : List Inbound}
      (hp : c.phase = .connecting false u) (hq : c.rx.inbound = .violation :: rest) :
      Rule env c { c with phase := .aborting, rx := { c.rx with inbound := rest } } none
  | cmdNone {c : Channel} {u : String} (hp : c.phase = .connecting false u)
      (hq : c.rx.inbound = []) (ht : c.rx.txLive = true) :
      Rule env c { c with phase := .connecting true u } none
  | cmdGone {c : Channel} {u : String} (hp : c.phase = .connecting false u)
      (hq : c.rx.inbound = []) (ht : c.rx.txLive = false) : Rule env c c.finish none
  | connectPending {c : Channel} {u : String} (hp : c.phase = .connecting true u) :
      Rule env c { c with phase := .connecting false u } none
  | connected {c : Channel} {u : String} (hp : c.phase = .connecting true u) :
      Rule env c { c with phase := .granting } none
  | connectFailed {c : Channel} {u : String} (hp : c.phase = .connecting true u) :
      Rule env c { c with phase := .refusing u } none
  | abort {c : Channel} (hp : c.phase = .aborting) (hc : env.closed = false) :
      Rule env c { c.finish with log := c.log ++ [.closeMsg c.id] } (some (.closeMsg c.id))
  | refuse {c : Channel} {m : String} (hp : c.phase = .refusing m) (hc : env.closed = false) :
      Rule env c { c.finish with log := c.log ++ [.openedMsg c.id false m 0] }
        (some (.openedMsg c.id false m 0))
  | grant {c : Channel} (hp : c.phase = .granting) :
      Rule env c
        { c with phase := .announcing, rx := c.rx.grant (channelWindow - initialWindow) } none
  | announce {c : Channel} (hp : c.phase = .announcing) (hc : env.closed = false) :
      Rule env c { c.start with log := c.log ++ [.openedMsg c.id true "" channelWindow] }
        (some (.openedMsg c.id true "" channelWindow))
  /-- the sink is gone before the controlled side's task has started its relays -/
  | sinkGone {c : Channel} (hp : c.phase = .aborting ∨ (∃ m, c.phase = .refusing m) ∨
      c.phase = .announcing) (hc : env.closed = true) : Rule env c c.finish none
  | sender {c : Channel} {tx : Sender} {e : Option Frame}
      (hp : c.phase = .selecting ∨ c.phase = .joining)
      (h : Sender.Rule (c.relayEnv env) c.id c.tx tx e) :
      Rule env c { c with tx := tx, log := c.log ++ e.toList } e
  | receiver {c : Channel} {rx : Receiver} {e : Option Frame}
      (hp : c.phase = .selecting ∨ c.phase = .joining)
      (h : Receiver.Rule (c.relayEnv env) c.id c.rx rx e) :
      Rule env c { c with rx := rx, log := c.log ++ e.toList } e
  | select {c : Channel} (hp : c.phase = .selecting)
      (hs : (∃ e, c.tx.pc = .ended e) ∨ (∃ e, c.rx.pc = .ended e) ∨ env.teardown = true) :
      Rule env c { c with phase := .joining, cancel := true } none
  | joinClose {c : Channel} {first second : RelayEnd} (hp : c.phase = .joining)
      (ht : c.tx.pc = .ended first) (hr : c.rx.pc = .ended second)
      (hs : sendsClose first second = true) : Rule env c { c with phase := .closing } none
  | join {c : Channel} {first second : RelayEnd} (hp : c.phase = .joining)
      (ht : c.tx.pc = .ended first) (hr : c.rx.pc = .ended second)
      (hs : sendsClose first second = false) : Rule env c c.afterRun none
  | close {c : Channel} (hp : c.phase = .closing) (hc : env.closed = false) :
      Rule env c { c.afterRun with log := c.log ++ [.closeMsg c.id] } (some (.closeMsg c.id))
  | closeGone {c : Channel} (hp : c.phase = .closing) (hc : env.closed = true) :
      Rule env c c.afterRun none
  | remove {c : Channel} (hp : c.phase = .removing) : Rule env c c.finish none

@[simp] lemma afterRun_log (c : Channel) : c.afterRun.log = c.log := by
  unfold afterRun
  cases c.side <;> rfl

lemma afterRun_with_log (c : Channel) (log : List Frame) :
    { c.afterRun with log := log } = ({ c with log := log } : Channel).afterRun := by
  obtain ⟨side, id, phase, opened, cancel, tx, rx, log'⟩ := c
  cases side <;> rfl

/-- What a channel's task leaves to the frame handler. -/
structure SameEntry (c c' : Channel) : Prop where
  id : c'.id = c.id
  side : c'.side = c.side
  opened : c'.opened = c.opened
  txLive : c'.rx.txLive = c.rx.txLive
  delivered : c'.rx.delivered = c.rx.delivered

lemma afterRun_sameEntry (c : Channel) : c.SameEntry c.afterRun := by
  unfold afterRun
  split <;> exact ⟨rfl, rfl, rfl, rfl, rfl⟩

lemma Rule.sameEntry (h : Rule env c c' e) : c.SameEntry c' := by
  cases h with
  | receiver hp hs => exact ⟨rfl, rfl, rfl, hs.delivered_eq.2, hs.delivered_eq.1⟩
  | grant => exact ⟨rfl, rfl, rfl, Receiver.grant_txLive _ _, Receiver.grant_delivered _ _⟩
  | join | closeGone => exact c.afterRun_sameEntry
  | close =>
    obtain ⟨hid, hside, hopened, hlive, hdel⟩ := c.afterRun_sameEntry
    exact ⟨hid, hside, hopened, hlive, hdel⟩
  | _ => exact ⟨rfl, rfl, rfl, rfl, rfl⟩

lemma Rule.log_eq (h : Rule env c c' e) : c'.log = c.log ++ e.toList := by
  cases h with
  | join | closeGone => simp
  | sender | receiver => rfl
  | _ => simp [finish]

/-- What a step of the task does to the sending half: nothing, the start of the relays, or a step
of `relay_socket_to_tunnel`. -/
lemma Rule.tx_cases (h : Rule env c c' e) :
    (c'.tx = c.tx ∧ payloads e.toList = [] ∧ (c'.phase.early = true → c.phase.early = true)) ∨
    (c'.tx = { c.tx with pc := .check } ∧ payloads e.toList = [] ∧ c.phase.early = true ∧
      c'.phase = .selecting) ∨
    (Sender.Rule (c.relayEnv env) c.id c.tx c'.tx e ∧ c.phase.relaying = true ∧
      c'.phase = c.phase) := by
  cases h with
  | sendOpen hp | announce hp =>
    exact Or.inr (Or.inl ⟨rfl, rfl, by simp [hp, Phase.early], rfl⟩)
  | sender hp hs =>
    refine Or.inr (Or.inr ⟨hs, ?_, rfl⟩)
    rcases hp with hp | hp <;> simp [hp, Phase.relaying]
  | receiver hp hs =>
    refine Or.inl ⟨rfl, ?_, fun he => he⟩
    rcases hs.emits with rfl | ⟨n, _, rfl⟩ <;> rfl
  | join | closeGone | close =>
    refine Or.inl ⟨?_, rfl, ?_⟩ <;> unfold afterRun <;> cases c.side <;>
      simp [finish, Phase.early]
  | buffer hp => exact Or.inl ⟨rfl, rfl, fun he => he⟩
  | overflow hp | cmdViolation hp | cmdNone hp | connectPending hp | connected hp
  | connectFailed hp | grant hp =>
    exact Or.inl ⟨rfl, rfl, fun _ => by simp [hp, Phase.early]⟩
  | _ => exact Or.inl ⟨rfl, rfl, by simp [finish, Phase.early]⟩

lemma Rule.of_step {a : Act} (h : c.step env a = some (c', e)) : Rule env c c' e := by
  unfold step at h
  split at h <;> rename_i hp
  · split_ifs at h with hc hf <;> cases h
    · exact .openGone hp hc
    · exact .sendOpen hp (by simpa using hc)
  · split at h <;> rename_i hq
    · split_ifs at h with hf <;> cases h
      · exact .buffer hp hq hf
      · exact .overflow hp hq (by simpa using hf)
    · cases h
      exact .cmdClose hp hq
    · cases h
      exact .cmdViolation hp hq
    · split_ifs at h with ht <;> cases h
      · exact .cmdNone hp hq ht
      · exact .cmdGone hp hq (by simpa using ht)
  · cases h
    exact .connectPending hp
  · rename_i ok u
    cases ok <;> cases h
    · exact .connectFailed hp
    · exact .connected hp
  · split_ifs at h with hc <;> cases h
    · exact .sinkGone (Or.inl hp) hc
    · exact .abort hp (by simpa using hc)
  · split_ifs at h with hc <;> cases h
    · exact .sinkGone (Or.inr (Or.inl ⟨_, hp⟩)) hc
    · exact .refuse hp (by simpa using hc)
  · cases h
    exact .grant hp
  · split_ifs at h with hc <;> cases h
    · exact .sinkGone (Or.inr (Or.inr hp)) hc
    · exact .announce hp (by simpa using hc)
  iterate 4
    obtain ⟨⟨t, e'⟩, ht, ⟨⟩⟩ := Option.map_eq_some_iff.mp h
    first
    | exact .sender (by simp [hp]) (Sender.Rule.of_step ht)
    | exact .receiver (by simp [hp]) (Receiver.Rule.of_step ht)
  · split at h <;> cases h
    exact .select hp (Or.inl ⟨_, ‹_›⟩)
  · split at h <;> cases h
    exact .select hp (Or.inr (Or.inl ⟨_, ‹_›⟩))
  · split_ifs at h with ht
    cases h
    exact .select hp (Or.inr (Or.inr ht))
  · split at h <;> cases h
    rename_i ht hr
    split_ifs with hs
    · exact .joinClose hp ht hr hs
    · exact .join hp ht hr (by simpa using hs)
  · split_ifs at h with hc hf <;> cases h
    · exact .closeGone hp hc
    · have h : Rule env c _ _ := Rule.close hp (by simpa using hc)
      simpa using h
  · cases h
    exact .remove hp
  · cases h

lemma step_remove (h : c.step env .remove = some (c', e)) :
    c.phase = .removing ∧ c' = c.finish ∧ e = none := by
  cases hp : c.phase <;> simp_all [step]

/-! ### What the frame handler does to a channel -/

def dropEntry (c : Channel) : Channel := { c with rx := c.rx.dropEntry }

/-- A data frame: charged to the window first, then queued. A frame over the window, or one
whose queue is gone, costs the channel its entry. -/
def onData (c : Channel) (b : Bytes) : Channel :=
  if (c.rx.window.accept b.length).2 then
    let rx := { c.rx with window := (c.rx.window.accept b.length).1 }
    if (rx.push (.data b)).2 then
      { c with rx := { (rx.push (.data b)).1 with delivered := rx.delivered ++ [b] } }
    else
      { c with rx := rx.dropEntry }
  else
    { c with rx := (c.rx.dropEntry.push .violation).1 }

def onClose (c : Channel) : Channel := { c with rx := (c.rx.dropEntry.push .close).1 }

def onWindowUpdate (c : Channel) (add : ℕ) : Channel :=
  { c with tx := { c.tx with credit := c.tx.credit.add add } }

/-- `opened` on the controller; a repeated one must not raise the credit again. -/
def onOpened (c : Channel) (success : Bool) (window : ℕ) : Channel :=
  if success then
    if c.opened then c
    else { c with
      opened := true
      tx := { c.tx with credit := c.tx.credit.raiseInitial window } }
  else c.onClose

def finishAdd (c : Channel) : Option Channel :=
  c.tx.credit.finishAdd.map fun credit => { c with tx := { c.tx with credit := credit } }

/-- Everything that can happen to a channel at its endpoint: a step of its task, a frame for a
live entry, the loss of the entry, or the end of an `add`. -/
inductive Moves (env : Env) : Channel → Channel → Option Frame → Prop where
  | task {c c' : Channel} {e : Option Frame} (h : Rule env c c' e) : Moves env c c' e
  | data {c : Channel} (b : Bytes) (ht : c.rx.txLive = true) : Moves env c (c.onData b) none
  | close {c : Channel} (ht : c.rx.txLive = true) : Moves env c c.onClose none
  | windowUpdate {c : Channel} (n : ℕ) (ht : c.rx.txLive = true) :
      Moves env c (c.onWindowUpdate n) none
  | opened {c : Channel} (success : Bool) (window : ℕ) (ht : c.rx.txLive = true) :
      Moves env c (c.onOpened success window) none
  | drop {c : Channel} : Moves env c c.dropEntry none
  | finishAdd {c c' : Channel} (h : c.finishAdd = some c') : Moves env c c' none

/-- A data frame is queued, finds the queue's receiver gone, or overruns the window. -/
lemma onData_cases (c : Channel) (b : Bytes) :
    (charge b.length ≤ c.rx.window.remaining ∧ c.rx.rxLive = true ∧
      c.onData b = { c with rx := { c.rx with
        window := ⟨c.rx.window.remaining - charge b.length, c.rx.window.drainedSinceUpdate⟩
        inbound := c.rx.inbound ++ [.data b]
        delivered := c.rx.delivered ++ [b] } }) ∨
    (charge b.length ≤ c.rx.window.remaining ∧ c.rx.rxLive = false ∧
      c.onData b = { c with rx := { c.rx with
        window := ⟨c.rx.window.remaining - charge b.length, c.rx.window.drainedSinceUpdate⟩
        txLive := false } }) ∨
    (c.rx.window.remaining < charge b.length ∧
      c.onData b = { c with rx := (c.rx.dropEntry.push .violation).1 }) := by
  rcases le_or_gt (charge b.length) c.rx.window.remaining with h | h
  · cases hlive : c.rx.rxLive with
    | true =>
      refine Or.inl ⟨h, rfl, ?_⟩
      simp [onData, RecvWindow.accept_of_le h, Receiver.push, hlive]
    | false =>
      refine Or.inr (Or.inl ⟨h, rfl, ?_⟩)
      simp [onData, RecvWindow.accept_of_le h, Receiver.push, Receiver.dropEntry, hlive]
  · refine Or.inr (Or.inr ⟨h, ?_⟩)
    simp [onData, RecvWindow.accept_of_lt h]

lemma finishAdd_eq_some (h : c.finishAdd = some c') :
    c.tx.credit.adding ≠ 0 ∧ c' = { c with tx := { c.tx with credit :=
      { c.tx.credit with
        notify := c.tx.credit.notify.notifyOne, adding := c.tx.credit.adding - 1 } } } := by
  obtain ⟨credit, hcr, rfl⟩ := Option.map_eq_some_iff.mp h
  unfold SendCredit.finishAdd at hcr
  split_ifs at hcr with ha
  cases hcr
  exact ⟨ha, rfl⟩

@[simp] lemma onData_tx (c : Channel) (b : Bytes) : (c.onData b).tx = c.tx := by
  rcases c.onData_cases b with ⟨_, _, heq⟩ | ⟨_, _, heq⟩ | ⟨_, heq⟩ <;> rw [heq]

/-- What the frame handler leaves to a channel's task. -/
structure SameTask (c c' : Channel) : Prop where
  id : c'.id = c.id
  side : c'.side = c.side
  phase : c'.phase = c.phase
  cancel : c'.cancel = c.cancel
  log : c'.log = c.log
  tx : ∃ credit, c'.tx = { c.tx with credit := credit }
  pc : c'.rx.pc = c.rx.pc
  pending : c'.rx.pending = c.rx.pending
  rxLive : c'.rx.rxLive = c.rx.rxLive
  granted : c'.rx.granted = c.rx.granted
  written : c'.rx.written = c.rx.written
  drained : c'.rx.drained = c.rx.drained

lemma sameTask_push (c : Channel) (m : Inbound) :
    c.SameTask { c with rx := (c.rx.dropEntry.push m).1 } := by
  unfold Receiver.push
  split_ifs <;> exact ⟨rfl, rfl, rfl, rfl, rfl, ⟨_, rfl⟩, rfl, rfl, rfl, rfl, rfl, rfl⟩

lemma sameTask_onData (c : Channel) (b : Bytes) : c.SameTask (c.onData b) := by
  rcases c.onData_cases b with ⟨_, _, heq⟩ | ⟨_, _, heq⟩ | ⟨_, heq⟩ <;> rw [heq]
  · exact ⟨rfl, rfl, rfl, rfl, rfl, ⟨_, rfl⟩, rfl, rfl, rfl, rfl, rfl, rfl⟩
  · exact ⟨rfl, rfl, rfl, rfl, rfl, ⟨_, rfl⟩, rfl, rfl, rfl, rfl, rfl, rfl⟩
  · exact c.sameTask_push _

/-- A new credit, and perhaps the `opened` flag, is all that `add` and `raise_initial` change. -/
lemma sameTask_credit (c : Channel) (credit : SendCredit) (opened : Bool) :
    c.SameTask { c with opened := opened, tx := { c.tx with credit := credit } } :=
  ⟨rfl, rfl, rfl, rfl, rfl, ⟨_, rfl⟩, rfl, rfl, rfl, rfl, rfl, rfl⟩

lemma sameTask_onOpened (c : Channel) (success : Bool) (window : ℕ) :
    c.SameTask (c.onOpened success window) := by
  unfold onOpened
  split_ifs
  · exact ⟨rfl, rfl, rfl, rfl, rfl, ⟨_, rfl⟩, rfl, rfl, rfl, rfl, rfl, rfl⟩
  · exact c.sameTask_credit _ _
  · exact c.sameTask_push _

/-- A move is a step of the task, or it leaves the task where it is and emits nothing. -/
lemma Moves.task_or_same (h : Moves env c c' e) : Rule env c c' e ∨ (c.SameTask c' ∧ e = none) := by
  cases h with
  | task h => exact Or.inl h
  | data b ht => exact Or.inr ⟨c.sameTask_onData b, rfl⟩
  | close ht => exact Or.inr ⟨c.sameTask_push _, rfl⟩
  | windowUpdate n ht => exact Or.inr ⟨c.sameTask_credit _ _, rfl⟩
  | opened success window ht => exact Or.inr ⟨c.sameTask_onOpened success window, rfl⟩
  | drop => exact Or.inr ⟨⟨rfl, rfl, rfl, rfl, rfl, ⟨_, rfl⟩, rfl, rfl, rfl, rfl, rfl, rfl⟩, rfl⟩
  | finishAdd h =>
    obtain ⟨_, rfl⟩ := finishAdd_eq_some h
    exact Or.inr ⟨c.sameTask_credit _ _, rfl⟩

end Channel

end RustDesk.PortForward
