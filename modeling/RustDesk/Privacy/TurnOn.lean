import RustDesk.Lib.Transition

/-!
# Turning privacy mode on and off

`PRIVACY_MODE` (privacy_mode.rs) holds the implementation in use, and with it the connection that
owns privacy mode, behind one lock. A step is one section under the lock or one without it; the
workers of `turn_on_privacy_async`, its timeout and the other connections (server/connection.rs)
come between any two.
-/

namespace RustDesk.Privacy

abbrev ConnId := ℤ

/-- The types that implement `PrivacyMode`. -/
inductive Kind where
  | topmostWindow
  | virtualDisplay
  | macos
deriving DecidableEq

/-- What the calls of an implementation to the system come to. -/
structure Os where
  macSetPrivacyMode : Bool := true
  iddSupported : Bool := true
  /-- From `set_displays` to the registry. -/
  displays : Except String Unit := .ok ()
  /-- False where `WindowInjection.dll` is missing. -/
  windows : Except String Bool := .ok true
  unhook : Except String Unit := .ok ()
  findPrivacyHwnds : Except String Unit := .ok ()
  hide : Except String Unit := .ok ()

/-- The calls of `turn_on_privacy` before it sets `conn_id`. -/
def Os.cover (os : Os) : Kind → Except String Bool
  | .topmostWindow => os.windows
  | .virtualDisplay => os.displays.map fun _ => true
  | .macos => if os.macSetPrivacyMode then .ok true else .error "Failed to turn on privacy mode"

/-- The calls of `turn_off_privacy` before it resets `conn_id`. -/
def Os.uncover (os : Os) : Kind → Except String Unit
  | .topmostWindow => os.unhook.bind fun _ => os.findPrivacyHwnds
  | .virtualDisplay => os.unhook
  | .macos => if os.macSetPrivacyMode then .ok () else .error "Failed to turn off privacy mode"

structure Impl where
  kind : Kind
  key : String
  connId : ConnId := 0

namespace Impl

variable (m : Impl) (c : ConnId) (os : Os)

def checkOnConnId : Except String Bool :=
  if m.connId = c then .ok true
  else if m.connId ≠ 0 then .error "Privacy occupied by another one."
  else .ok false

def checkOffConnId : Except String Unit :=
  if m.connId ≠ 0 ∧ c ≠ 0 ∧ m.connId ≠ c then
    .error "Failed to turn off privacy mode that belongs to someone else."
  else .ok ()

def turnOnPrivacy : Impl × Except String Bool :=
  if m.kind = .virtualDisplay ∧ !os.iddSupported then
    (m, .error "idd_not_support_under_win10_2004_tip")
  else
    match m.checkOnConnId c with
    | .ok false =>
      match os.cover m.kind with
      | .ok true => ({ m with connId := c }, .ok true)
      -- what `TurnOnGuard` turns off has no owner
      | res => (m, res)
    | res => (m, res)

def turnOffPrivacy : Impl × Except String Unit :=
  match m.checkOffConnId c, os.uncover m.kind with
  | .error e, _ | .ok _, .error e => (m, .error e)
  | .ok _, .ok _ =>
    ({ m with connId := 0 }, if m.kind = .topmostWindow then os.hide else .ok ())

end Impl

/-- What a call of `turn_on_privacy_sync` finds. -/
structure Env where
  supported : List String
  option : String
  default : String
  creator : String → Option Kind
  os : Os

def Env.getSupportedImpl (env : Env) (key : String) : String :=
  if key ∈ env.supported then key
  else if env.option ∈ env.supported then env.option
  else env.default

section

variable (mode : Option Impl) (key : String) (c : ConnId) (env : Env)

def turnOn : Option Impl × Option (Except String Bool) :=
  let r := mode.map fun m => m.turnOnPrivacy c env.os
  (r.map Prod.fst, r.map Prod.snd)

def turnOnPrivacySync : Option Impl × Option (Except String Bool) :=
  let key := env.getSupportedImpl key
  match mode.elim (.ok false) fun m => m.checkOnConnId c with
  | .error e => (mode, some (.error e))
  | .ok same =>
    if mode.elim "" Impl.key = key then
      if same then (mode, some (.ok true)) else turnOn mode c env
    else
      match env.creator key with
      -- the implementation before it is cleared and dropped
      | some kind => turnOn (some { kind := kind, key := key }) c env
      | none => (mode, some (.error ("Unsupported privacy mode: " ++ key)))

def turnOffPrivacy (os : Os) : Option Impl × Option (Except String Unit) :=
  let r := mode.map fun m => m.turnOffPrivacy c os
  (r.map Prod.fst, r.map Prod.snd)

def owner : ConnId := mode.elim 0 Impl.connId

end

/-! ### The connections and their workers -/

inductive Reply where
  | onSucceeded
  | onFailed (details : String)
  | onFailedDenied
  | offSucceeded
  | offFailed (details : String)
  | notSupported
deriving DecidableEq

def turnOffPrivacyResultToMsg : Option (Except String Unit) → Reply
  | some (.ok _) => .offSucceeded
  | some (.error e) => .offFailed e
  | none => .offFailed "Not supported"

/-- Where a connection stands; the answer is that to its latest request. -/
inductive Pc where
  | idle (answer : Option Reply)
  /-- `turn_on_privacy_sync` has yet to take the lock, for the connection or for its worker. -/
  | calling (key : String) (worker : Bool)
  | checking
  | failed (e : String)
  | undoing (e : String)
  | closing (answer : Option Reply)
  | closed

def afterTurnOn : Option (Except String Bool) → Pc
  | some (.ok true) => .checking
  | some (.ok false) => .idle (some (.onFailed ""))
  | some (.error e) => .failed e
  | none => .idle (some (.offFailed "Not supported"))

/-- What a connection does next. -/
inductive Own where
  | turnOn (key : String) (permitted supported amyuniIdd : Bool)
  | call (env : Env)
  | look
  | check (err : String)
  | undo (os : Os)
  | turnOff (supported : Bool) (os : Os)
  | close

def ownStep (mode : Option Impl) (c : ConnId) : Pc → Own → Option (Option Impl × Pc)
  | .idle _, .turnOn key permitted supported amyuniIdd =>
    some (mode,
      if !permitted then .idle (some .onFailedDenied)
      else if !supported then .idle (some .notSupported)
      else .calling key (amyuniIdd && mode.any (·.kind = .virtualDisplay)))
  | .calling key _, .call env =>
    let r := turnOnPrivacySync mode key c env
    some (r.1, afterTurnOn r.2)
  | .failed e, .look =>
    some (mode, if owner mode ≠ 0 then .undoing e else .idle (some (.onFailed e)))
  | .checking, .check err =>
    some (mode, if err = "" then .idle (some .onSucceeded) else .undoing err)
  | .undoing e, .undo os => some ((turnOffPrivacy mode c os).1, .idle (some (.onFailed e)))
  | .closing _, .undo os => some ((turnOffPrivacy mode c os).1, .closed)
  | .idle _, .turnOff supported os =>
    let r := turnOffPrivacy mode c os
    if supported then some (r.1, .idle (some (turnOffPrivacyResultToMsg r.2)))
    else some (mode, .idle (some .notSupported))
  | .idle answer, .close =>
    some (mode, if mode.map Impl.connId = some c then .closing answer else .closed)
  | _, _ => none

structure System where
  mode : Option Impl
  /-- The workers that were given up, which have yet to take the lock. -/
  late : List (ConnId × String) := []
  conns : ConnId → Pc := fun _ => .idle none

/-- A timeout may come at any moment: where it overtakes the result of a worker, that worker is as
good as late. -/
inductive Act where
  | own (c : ConnId) (a : Own)
  | timeout (c : ConnId)
  | late (i : ℕ) (env : Env)

namespace System

def step (s : System) : Act → Option System
  | .own c a => (ownStep s.mode c (s.conns c) a).map fun r =>
    { s with mode := r.1, conns := Function.update s.conns c r.2 }
  | .timeout c =>
    match s.conns c with
    | .calling key true => some { s with
        late := (c, key) :: s.late
        conns := Function.update s.conns c (.failed "deadline has elapsed") }
    | _ => none
  | .late i env => s.late[i]?.map fun w =>
    { s with mode := (turnOnPrivacySync s.mode w.2 w.1 env).1, late := s.late.eraseIdx i }

/-- A failed request is looked after when its worker has had the lock, and what the owner turns off
then is turned off. -/
def prompt (s : System) : Act → Bool
  | .own c .look => s.late.all (·.1 ≠ c)
  | .own c (.undo os) => s.mode.all fun m => m.connId ≠ c || (os.uncover m.kind).isOk
  | _ => true

end System

def system : LTS System Act where
  init s := owner s.mode = 0 ∧ s.late = [] ∧ s.conns = fun _ => .idle none
  step := System.step

/-! ### What a call does to the owner -/

section

variable {mode : Option Impl} {c d o o' : ConnId}

/-- A call for `c` leaves the owner there was, or none, or `c` where there was none. -/
def Passes (c o o' : ConnId) : Prop := o' = o ∨ o' = 0 ∨ o = 0 ∧ o' = c

lemma Passes.of_ne (h : Passes c o o') (hd : d ≠ 0) (hne : d ≠ c) (ho : o' = d) : o = d := by
  rcases h with h | h | ⟨-, h⟩
  · exact h.symm.trans ho
  · exact absurd (ho.symm.trans h) hd
  · exact absurd (ho.symm.trans h) hne

/-- What a turn-on for `c` may leave. -/
def Turned (c : ConnId) (mode : Option Impl) (r : Option Impl × Option (Except String Bool)) :
    Prop :=
  Passes c (owner mode) (owner r.1) ∧ (r.2 = some (.ok false) → owner r.1 = 0)

lemma turned_turnOn (mode : Option Impl) (c : ConnId) (env : Env) :
    Turned c mode (turnOn mode c env) := by
  cases mode with
  | none => exact ⟨.inl rfl, nofun⟩
  | some m =>
    simp only [turnOn, Option.map_some, Impl.turnOnPrivacy, Impl.checkOnConnId]
    split_ifs with hidd hsame hother
    · exact ⟨.inl rfl, nofun⟩
    · exact ⟨.inl rfl, nofun⟩
    · exact ⟨.inl rfl, nofun⟩
    · have hfree : m.connId = 0 := not_not.mp hother
      dsimp only
      split
      · exact ⟨.inr (.inr ⟨hfree, rfl⟩), nofun⟩
      · exact ⟨.inl rfl, fun _ => hfree⟩

lemma turned_turnOnPrivacySync (mode : Option Impl) (key : String) (c : ConnId) (env : Env) :
    Turned c mode (turnOnPrivacySync mode key c env) := by
  have hheld : ∀ {same}, mode.elim (.ok false) (fun m => m.checkOnConnId c) = .ok same →
      owner mode = 0 ∨ owner mode = c := by
    cases mode <;> grind [owner, Impl.checkOnConnId]
  simp only [turnOnPrivacySync]
  split
  · exact ⟨.inl rfl, nofun⟩
  next same hcheck =>
  split_ifs
  · exact ⟨.inl rfl, nofun⟩
  · exact turned_turnOn mode c env
  split
  · next kind _ =>
    -- the new implementation starts without an owner
    obtain ⟨hpasses, hfalse⟩ := turned_turnOn (some { kind := kind, key := _ }) c env
    refine ⟨?_, hfalse⟩
    grind [Passes, owner]
  · exact ⟨.inl rfl, nofun⟩

/-- A turn-off for `c` leaves the owner or none; where `c` owns it and the calls of the
implementation succeed, none. -/
lemma owner_turnOffPrivacy (mode : Option Impl) (c : ConnId) (os : Os) :
    (owner (turnOffPrivacy mode c os).1 = owner mode ∨ owner (turnOffPrivacy mode c os).1 = 0) ∧
    (mode.all (fun m => m.connId ≠ c || (os.uncover m.kind).isOk) → owner mode = c →
      owner (turnOffPrivacy mode c os).1 = 0) := by
  cases mode with
  | none => exact ⟨.inl rfl, fun _ _ => rfl⟩
  | some m =>
    simp only [turnOffPrivacy, Option.map_some, Impl.turnOffPrivacy]
    split
    · next hoff =>
      refine ⟨.inl rfl, fun _ hc => ?_⟩
      obtain rfl : m.connId = c := hc
      simp [Impl.checkOffConnId] at hoff
    · next huncover =>
      refine ⟨.inl rfl, fun hok hc => ?_⟩
      obtain rfl : m.connId = c := hc
      simp [huncover, Except.isOk, Except.toBool] at hok
    · exact ⟨.inr rfl, fun _ _ => rfl⟩

end

/-! ### What holds in every run -/

/-- The latest request was answered `PrvOnFailed`, or the connection has closed. -/
def Pc.refused : Pc → Bool
  | .idle answer | .closing answer => answer.any fun | .onFailed _ => true | _ => false
  | .closed => true
  | _ => false

/-- A new request of the connection. -/
def Act.requests (c : ConnId) : Act → Bool
  | .own d (.turnOn ..) | .own d (.turnOff ..) => d = c
  | _ => false

namespace System

variable {s s' : System} {c : ConnId} {act : Act} {a : Own} {pc pc' : Pc}
  {mode mode' : Option Impl}

lemma passes_ownStep (h : ownStep mode c pc a = some (mode', pc')) :
    Passes c (owner mode) (owner mode') := by
  have hoff (os : Os) : Passes c (owner mode) (owner (turnOffPrivacy mode c os).1) :=
    (owner_turnOffPrivacy mode c os).1.imp id .inl
  unfold ownStep at h
  split at h <;> try cases h
  case h_2 => exact (turned_turnOnPrivacySync ..).1
  case h_7 => split_ifs at h <;> cases h; exacts [hoff _, .inl rfl]
  all_goals first | exact .inl rfl | exact hoff _

lemma passes_step (h : s.step act = some s') : ∃ c, Passes c (owner s.mode) (owner s'.mode) := by
  cases act with
  | own c a =>
    obtain ⟨r, hown, rfl⟩ := Option.map_eq_some_iff.mp h
    exact ⟨c, passes_ownStep hown⟩
  | timeout c =>
    simp only [System.step] at h
    split at h <;> cases h
    exact ⟨c, .inl rfl⟩
  | late i env =>
    obtain ⟨w, hw, rfl⟩ := Option.map_eq_some_iff.mp h
    exact ⟨w.1, (turned_turnOnPrivacySync ..).1⟩

/-- For the connection `c`: a worker is late only until the request is looked after. -/
structure Inv (c : ConnId) (s : System) : Prop where
  late : ∀ w ∈ s.late, w.1 = c → ∃ e, s.conns c = .failed e
  refused : (s.conns c).refused → owner s.mode ≠ c

lemma Inv.own (h : Inv c s) (hc : c ≠ 0) (hok : s.prompt (.own c a))
    (hstep : ownStep s.mode c (s.conns c) a = some (mode', pc')) :
    (∀ w ∈ s.late, w.1 ≠ c) ∧ (pc'.refused → owner mode' ≠ c) := by
  have hlate : (∀ e, s.conns c ≠ .failed e) → ∀ w ∈ s.late, w.1 ≠ c := by
    intro hpc w hw hconn
    obtain ⟨e, he⟩ := h.late w hw hconn
    exact hpc e he
  have hrefused := h.refused
  have hundo : ∀ {os}, s.prompt (.own c (.undo os)) → owner (turnOffPrivacy s.mode c os).1 ≠ c := by
    intro os hok ho
    obtain ⟨hkeep, hcleared⟩ := owner_turnOffPrivacy s.mode c os
    have hzero : owner (turnOffPrivacy s.mode c os).1 = 0 :=
      hkeep.elim (fun hkeep => hcleared hok (hkeep.symm.trans ho)) id
    exact hc (ho.symm.trans hzero)
  generalize s.conns c = pc at hstep hlate hrefused
  unfold ownStep at hstep
  split at hstep <;> try cases hstep
  case h_3 =>
    refine ⟨by simpa [prompt] using hok, ?_⟩
    split_ifs with ho
    · nofun
    · exact fun _ => not_not.mp ho ▸ hc.symm
  all_goals refine ⟨hlate nofun, ?_⟩
  case h_1 | h_4 => split_ifs <;> nofun
  case h_2 key _ env =>
    have hfalse := (turned_turnOnPrivacySync s.mode key c env).2
    rcases hres : (turnOnPrivacySync s.mode key c env).2 with _ | _ | _ | _
    · nofun
    · nofun
    · exact fun _ => hfalse hres ▸ hc.symm
    · nofun
  case h_5 | h_6 => exact fun _ => hundo hok
  case h_7 =>
    split_ifs at hstep <;> cases hstep
    · rcases (turnOffPrivacy s.mode c _).2 with _ | _ | _ <;> nofun
    · nofun
  case h_8 =>
    split_ifs with ho
    · exact hrefused
    · refine fun _ howned => ho ?_
      cases hmode : s.mode <;> simp_all [owner]

lemma Inv.step (h : Inv c s) (hc : c ≠ 0) (hok : s.prompt act) (hstep : s.step act = some s') :
    Inv c s' := by
  cases act with
  | own d a =>
    obtain ⟨⟨mode', pc'⟩, hown, rfl⟩ := Option.map_eq_some_iff.mp hstep
    by_cases hd : d = c
    · subst hd
      obtain ⟨hlate, href⟩ := h.own hc hok hown
      constructor <;> simp only [Function.update_self]
      · exact fun w hw hconn => absurd hconn (hlate w hw)
      · exact href
    · constructor <;> simp only [Function.update_of_ne (Ne.symm hd)]
      · exact h.late
      · exact fun hpc ho => h.refused hpc ((passes_ownStep hown).of_ne hc (Ne.symm hd) ho)
  | timeout d =>
    simp only [System.step] at hstep
    split at hstep <;> cases hstep
    by_cases hd : d = c
    · subst hd
      constructor <;> simp only [Function.update_self]
      · exact fun _ _ _ => ⟨_, rfl⟩
      · nofun
    · constructor <;> simp only [Function.update_of_ne (Ne.symm hd)]
      · rintro w (_ | ⟨_, hw⟩) hconn
        · exact absurd hconn hd
        · exact h.late w hw hconn
      · exact h.refused
  | late i env =>
    obtain ⟨w, hw, rfl⟩ := Option.map_eq_some_iff.mp hstep
    refine ⟨fun v hv => h.late v (List.mem_of_mem_eraseIdx hv), fun href ho => ?_⟩
    have hpasses := (turned_turnOnPrivacySync s.mode w.2 w.1 env).1
    by_cases hd : w.1 = c
    · obtain ⟨e, hpc⟩ := h.late w (List.mem_of_getElem? hw) hd
      rw [hpc] at href
      cases href
    · exact h.refused href (hpasses.of_ne hc (Ne.symm hd) ho)

lemma refused_step (h : (s.conns c).refused) (hact : !act.requests c)
    (hstep : s.step act = some s') : (s'.conns c).refused := by
  cases act with
  | own d a =>
    obtain ⟨r, hown, rfl⟩ := Option.map_eq_some_iff.mp hstep
    by_cases hd : c = d
    · subst hd
      simp only [Function.update_self]
      generalize s.conns c = pc at hown h
      cases pc <;> cases a <;> grind [ownStep, Pc.refused, Act.requests]
    · simpa only [Function.update_of_ne hd]
  | timeout d =>
    simp only [System.step] at hstep
    split at hstep <;> cases hstep
    have hd : c ≠ d := by
      rintro rfl
      simp_all [Pc.refused]
    simpa only [Function.update_of_ne hd]
  | late i env =>
    obtain ⟨w, -, rfl⟩ := Option.map_eq_some_iff.mp hstep
    exact h

/-- **A turn-on reported as failed is not in force.** Ownership never passes from one connection to
another. Where every failed request is looked after promptly, a connection whose latest request was
answered `PrvOnFailed`, or that has closed, does not own privacy mode before its next request. -/
theorem failed_not_in_force (hs : (system.restrict prompt).Reachable s) :
    (∀ c ≠ 0, (s.conns c).refused → ∀ acts, ∀ s' ∈ ((system.restrict prompt).restrict
      fun _ act => !act.requests c).run s acts, owner s'.mode ≠ c) ∧
    ∀ (t : System) (act : Act) (t' : System), t.step act = some t' →
      owner t.mode ≠ 0 → owner t'.mode = 0 ∨ owner t'.mode = owner t.mode := by
  constructor
  · intro c hc href acts s' hrun
    have href' : (s'.conns c).refused := by
      refine LTS.run_invariant (P := fun s => (s.conns c).refused) ?_ hrun href
      intro s act s' href hstep
      obtain ⟨hact, hstep⟩ := LTS.restrict_step_some hstep
      exact refused_step href hact (LTS.restrict_step_some hstep).2
    have hs' := hs.run (LTS.run_of_restrict hrun)
    refine (hs'.restrict_invariant (P := Inv c) ?_ fun _ _ _ hs => hs.step hc).refused href'
    rintro s ⟨-, hlate, hconns⟩
    constructor <;> simp [hlate, hconns, Pc.refused]
  · intro t act t' hstep howned
    obtain ⟨c, h | h | ⟨h, -⟩⟩ := passes_step hstep
    · exact .inr h
    · exact .inl h
    · exact absurd h howned

/-- The virtual display, where its driver starts it and where it does not. -/
def plug (displays : Except String Unit) : Env :=
  ⟨["a key"], "", "a key", fun _ => some .virtualDisplay, { displays := displays }⟩

def started : System := { mode := some ⟨.virtualDisplay, "a key", 0⟩ }

/-- The worker of the first connection takes the lock after the timeout, and before the look. -/
def overtaken : List Act :=
  [.own 1 (.turnOn "" true true true), .timeout 1, .late 0 (plug (.ok ())), .own 1 .look,
    .own 1 (.undo {})]

def second : List Act := [.own 2 (.turnOn "" true true true), .own 2 (.call (plug (.ok ())))]

/-- The look turns off what the worker has turned on, and the second connection owns privacy
mode. -/
theorem failed_not_in_force_next :
    ∃ s, (system.restrict prompt).run started overtaken = some s ∧ (s.conns 1).refused ∧
    ∃ s', ((system.restrict prompt).restrict fun _ act => !act.requests 1).run s second = some s' ∧
    owner s'.mode = 2 ∧ owner s'.mode ≠ 1 := by
  have hinit : (system.restrict prompt).init started := ⟨rfl, rfl, rfl⟩
  have hruns : ∃ s, (system.restrict prompt).run started overtaken = some s ∧ (s.conns 1).refused ∧
      ∃ s', ((system.restrict prompt).restrict fun _ act => !act.requests 1).run s second =
        some s' ∧ owner s'.mode = 2 := ⟨_, rfl, rfl, _, rfl, rfl⟩
  obtain ⟨s, hs, href, s', hs', howner⟩ := hruns
  exact ⟨s, hs, href, s', hs', howner,
    (failed_not_in_force ((LTS.Reachable.init hinit).run hs)).1 1 one_ne_zero href second s' hs'⟩

/-- The worker of a connection takes the lock after its request was looked after. -/
theorem in_force_after_failed :
    ∃ s, system.run started [.own 1 (.turnOn "" true true true),
      .own 2 (.turnOn "" true true true), .own 1 (.call (plug (.error "No virtual displays."))),
      .timeout 2, .own 2 .look, .late 0 (plug (.ok ()))] = some s ∧
    s.conns 2 = .idle (some (.onFailed "deadline has elapsed")) ∧ owner s.mode = 2 :=
  ⟨_, rfl, rfl, rfl⟩

end System

end RustDesk.Privacy
