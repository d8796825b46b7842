import RustDesk.Lib.Transition
import RustDesk.Lib.LittleEndian
import RustDesk.Net.Addr

/-!
# The scope of a login

A peer may send several login requests before it is authorized: without a password first, then
with one, then with a code. What it asks for, and as whom, is latched with the first of them
(`login_scope`): the later ones are compared by a digest. Between the requests approvals are given,
by a password, by a code or by a click, and a session is opened for the last request.
-/

namespace RustDesk.Login

/-- The bytes of a Rust string; there are at most `isize::MAX`. -/
structure Str where
  bytes : Bytes
  length_lt : bytes.length < 2 ^ 63
  deriving DecidableEq

namespace Str

@[ext] lemma ext {s t : Str} (h : s.bytes = t.bytes) : s = t := by
  cases s
  cases t
  cases h
  rfl

def empty : Str := ⟨[], by decide⟩

end Str

/-- `login_request::Union`, with the variants this build does not know by their field number. -/
inductive LoginUnion where
  | fileTransfer (dir : Str) (showHidden clipboardFast : Bool)
  | viewCamera
  | terminal (serviceId : Str)
  | portForward (host : Str) (port : Int32) (multiplex : Bool)
  | unknown (field : ℕ)
  deriving DecidableEq

structure LoginRequest where
  myId : Str := .empty
  password : Bytes := []
  union : Option LoginUnion := none
  deriving DecidableEq

/-- What a session is for. -/
inductive Scope where
  | fileTransfer (dir : Str) (showHidden clipboardFast : Bool)
  | viewCamera
  | terminal (serviceId : Str)
  | portForward (host : Str) (port : Int32) (multiplex : Bool)
  | remote
  deriving DecidableEq

/-- Who asks, and for what. -/
structure Target where
  controller : Str
  scope : Scope
  deriving DecidableEq

/-- Variants this build does not know execute as remote. -/
def LoginUnion.scope : Option LoginUnion → Scope
  | some (.fileTransfer dir showHidden clipboardFast) =>
    .fileTransfer dir showHidden clipboardFast
  | some .viewCamera => .viewCamera
  | some (.terminal serviceId) => .terminal serviceId
  | some (.portForward host port multiplex) => .portForward host port multiplex
  | none | some (.unknown _) => .remote

def LoginRequest.target (lr : LoginRequest) : Target := ⟨lr.myId, LoginUnion.scope lr.union⟩

/-! ### The digest -/

/-- `b"…"` -/
def tag (s : String) : Bytes := s.toList.map ascii

/-- `i32::to_le_bytes` -/
def portBytes (port : Int32) : Bytes := leBytes 4 port.toUInt32.toNat

/-- `*flag as u8` -/
def flagByte (flag : Bool) : Bytes := [flag.toUInt8]

/-- What is pushed for the union. -/
def LoginUnion.pushed : Option LoginUnion → List Bytes
  | some (.fileTransfer dir showHidden clipboardFast) =>
    [tag "file_transfer", dir.bytes, flagByte showHidden, flagByte clipboardFast]
  | some .viewCamera => [tag "view_camera"]
  | some (.terminal serviceId) => [tag "terminal", serviceId.bytes]
  | some (.portForward host port multiplex) =>
    [tag "port_forward", host.bytes, portBytes port, flagByte multiplex]
  | none | some (.unknown _) => [tag "remote"]

/-- The bytes `login_scope_digest` gives to the hasher, with the length in front of each push. -/
def loginScopeBytes (lr : LoginRequest) : Bytes :=
  (lr.myId.bytes :: LoginUnion.pushed lr.union).flatMap (lePrefixed 8)

lemma flagByte_inj {a b : Bool} : flagByte a = flagByte b ↔ a = b := by
  cases a <;> cases b <;> decide

lemma portBytes_inj {p q : Int32} : portBytes p = portBytes q ↔ p = q := by
  rw [portBytes, portBytes, leBytes_inj (UInt32.toNat_lt _) (UInt32.toNat_lt _), UInt32.toNat_inj]
  constructor
  · intro h
    cases p
    cases q
    exact congrArg Int32.ofUInt32 h
  · exact congrArg Int32.toUInt32

lemma Str.length_lt_pushed (s : Str) : s.bytes.length < 256 ^ 8 :=
  s.length_lt.trans (by decide)

lemma length_pushed (u : Option LoginUnion) : ∀ bs ∈ LoginUnion.pushed u, bs.length < 256 ^ 8 := by
  rcases u with - | u
  · simp [LoginUnion.pushed, tag]
  · cases u with
    | fileTransfer dir showHidden clipboardFast =>
      simpa [LoginUnion.pushed, tag, flagByte] using dir.length_lt_pushed
    | viewCamera => simp [LoginUnion.pushed, tag]
    | terminal serviceId =>
      simpa [LoginUnion.pushed, tag] using serviceId.length_lt_pushed
    | portForward host port multiplex =>
      simpa [LoginUnion.pushed, tag, flagByte, portBytes] using host.length_lt_pushed
    | unknown field => simp [LoginUnion.pushed, tag]

/-! ### No two scopes have the same bytes -/

namespace Scope

inductive Kind where
  | fileTransfer
  | viewCamera
  | terminal
  | portForward
  | remote
  deriving DecidableEq

/-- The first push says which kind it is. -/
def Kind.tagged : Kind → Bytes
  | .fileTransfer => tag "file_transfer"
  | .viewCamera => tag "view_camera"
  | .terminal => tag "terminal"
  | .portForward => tag "port_forward"
  | .remote => tag "remote"

lemma Kind.tagged_injective : Function.Injective Kind.tagged := by
  intro k k' h
  cases k <;> cases k' <;> first | rfl | exact absurd h (by decide)

def kind : Scope → Kind
  | .fileTransfer .. => .fileTransfer
  | .viewCamera => .viewCamera
  | .terminal _ => .terminal
  | .portForward .. => .portForward
  | .remote => .remote

def fields : Scope → List Bytes
  | .fileTransfer dir showHidden clipboardFast =>
    [dir.bytes, flagByte showHidden, flagByte clipboardFast]
  | .terminal serviceId => [serviceId.bytes]
  | .portForward host port multiplex => [host.bytes, portBytes port, flagByte multiplex]
  | .viewCamera | .remote => []

lemma eq_of_fields {s t : Scope} (hkind : s.kind = t.kind) (h : s.fields = t.fields) : s = t := by
  cases s <;> cases t <;> cases hkind <;>
    simp_all [fields, Str.ext_iff, flagByte_inj, portBytes_inj]

end Scope

lemma pushed_eq (u : Option LoginUnion) :
    LoginUnion.pushed u = (LoginUnion.scope u).kind.tagged :: (LoginUnion.scope u).fields := by
  rcases u with - | u
  · rfl
  · cases u <;> rfl

/-- The bytes that are hashed say who asks, and for what. -/
lemma loginScopeBytes_inj {lr lr' : LoginRequest} :
    loginScopeBytes lr = loginScopeBytes lr' ↔ lr.target = lr'.target := by
  constructor
  · intro h
    have hpushes := flatMap_lePrefixed_inj (by decide)
      (List.forall_mem_cons.mpr ⟨lr.myId.length_lt_pushed, length_pushed _⟩)
      (List.forall_mem_cons.mpr ⟨lr'.myId.length_lt_pushed, length_pushed _⟩) h
    rw [pushed_eq, pushed_eq, List.cons.injEq, List.cons.injEq] at hpushes
    obtain ⟨hid, htag, hfields⟩ := hpushes
    have hscope := Scope.eq_of_fields (Scope.Kind.tagged_injective htag) hfields
    rw [LoginRequest.target, LoginRequest.target, Str.ext hid, hscope]
  · intro h
    obtain ⟨hid, hscope⟩ := Target.mk.inj h
    rw [loginScopeBytes, loginScopeBytes, pushed_eq, pushed_eq, hid, hscope]

/-! ### The connection until it is authorized -/

inductive ApprovalKind where
  | password
  | twoFactor
  | click
  deriving DecidableEq

/-- An approval, and what whoever gave it was asked for. -/
structure Approval where
  kind : ApprovalKind
  target : Target
  deriving DecidableEq

/-- The fields of `Connection` a login reads and writes. The session is for the request in `lr`,
from which its fields are set. What happened is kept aside: the requests that `check_login_scope`
accepted, what the connection manager was shown, for what a code was asked last, the approvals, and
the sessions that were opened. -/
structure Connection (D : Type*) where
  loginScope : Option D := none
  lr : LoginRequest := {}
  require2fa : Bool := false
  awaiting2fa : Bool := false
  authorized : Bool := false
  closed : Bool := false
  accepted : List LoginRequest := []
  shown : List Target := []
  asked : Option Target := none
  approvals : List Approval := []
  sessions : List Target := []

/-- What the login depends on beside the request: whether there is a second factor, whether the
identity, permission and platform checks pass, whether only a click approves, whether the session is
a recent one, whether further attempts are allowed, whether the password is right, whether the
recent session has passed the second factor, and whether the session can be set up. -/
structure LoginEnv where
  windows : Bool := false
  get2fa : Bool := false
  checks : Bool := true
  clickOnly : Bool := false
  recentSession : Bool := false
  checkFailure : Bool := true
  validatePassword : Bool := true
  recent2fa : Bool := false
  setup : Bool := true
  deriving DecidableEq

namespace Connection

variable {D : Type*} [DecidableEq D] (hash : Bytes → D) (c : Connection D)

def loginScopeDigest (lr : LoginRequest) : D := hash (loginScopeBytes lr)

def checkLoginScope (lr : LoginRequest) : Connection D × Bool :=
  match c.loginScope with
  | some initial =>
    if initial ≠ loginScopeDigest hash lr then (c, false)
    else ({ c with accepted := c.accepted ++ [lr] }, true)
  | none =>
    ({ c with loginScope := some (loginScopeDigest hash lr), accepted := c.accepted ++ [lr] }, true)

/-- `clipboard_fast`, as it is set from the request. -/
def clipboardFast (env : LoginEnv) : Bool :=
  match c.lr.union with
  | some (.fileTransfer _ _ clipboardFast) => clipboardFast && env.windows
  | _ => false

/-- The connection manager is shown what the session is for. -/
def tryStartCm (env : LoginEnv) : Connection D :=
  if c.clipboardFast env then c else { c with shown := c.shown ++ [c.lr.target] }

def sendLogonResponseAndKeepAlive (env : LoginEnv) : Connection D × Bool :=
  if c.authorized then (c, true)
  else if c.require2fa && !env.recent2fa then
    ({ c with awaiting2fa := true, asked := some c.lr.target }, true)
  else if !env.setup then ({ c with awaiting2fa := false }, false)
  else
    ({ c with awaiting2fa := false, authorized := true,
              sessions := c.sessions ++ [c.lr.target] }, true)

/-- `send_logon_response_and_keep_alive`, and the connection manager is told. -/
def logon (env : LoginEnv) : Connection D × Bool :=
  let result := c.sendLogonResponseAndKeepAlive env
  if result.2 then (result.1.tryStartCm env, true) else result

def approve (kind : ApprovalKind) (target : Target) : Connection D :=
  { c with approvals := c.approvals ++ [⟨kind, target⟩] }

/-- A login request is now the one of the connection. -/
def handleLoginRequest (env : LoginEnv) (lr : LoginRequest) : Connection D :=
  { c with awaiting2fa := false, require2fa := env.get2fa, lr := lr }

/-- How the request of the connection is authenticated. -/
def authenticate (env : LoginEnv) : Connection D × Bool :=
  if !env.checks then (c, false)
  else if env.clickOnly then (c.tryStartCm env, true)
  else if env.recentSession then c.logon env
  else if c.lr.password.isEmpty then (c.tryStartCm env, true)
  else if !env.checkFailure then (c, true)
  else if !env.validatePassword then (c.tryStartCm env, true)
  else (c.approve .password c.lr.target).logon env

/-- `LoginRequest` of `on_message`. -/
def onLoginRequest (env : LoginEnv) (lr : LoginRequest) : Connection D × Bool :=
  if c.authorized then (c, true)
  else if !(c.checkLoginScope hash lr).2 then c.checkLoginScope hash lr
  else ((c.checkLoginScope hash lr).1.handleLoginRequest env lr).authenticate env

/-- `Auth2fa` of `on_message`, with a code that is right or not. -/
def onAuth2fa (env : LoginEnv) (right : Bool) : Connection D × Bool :=
  if !c.awaiting2fa then (c, true)
  else if !env.checkFailure then (c, true)
  else if !c.require2fa || !right then (c, true)
  else
    let approvals := c.asked.toList.map fun target => ⟨.twoFactor, target⟩
    { c with require2fa := false, approvals := c.approvals ++ approvals }.logon env

/-- `ipc::Data::Authorize`: a click on something that was shown. -/
def onAuthorize (env : LoginEnv) (target : Target) : Connection D × Bool :=
  { c.approve .click target with require2fa := false }.sendLogonResponseAndKeepAlive env

inductive Act where
  | loginRequest (env : LoginEnv) (lr : LoginRequest)
  | auth2fa (env : LoginEnv) (right : Bool)
  | authorize (env : LoginEnv) (target : Target)
  deriving DecidableEq

def act : Act → Connection D × Bool
  | .loginRequest env lr => c.onLoginRequest hash env lr
  | .auth2fa env right => c.onAuth2fa env right
  | .authorize env target => c.onAuthorize env target

/-- What can be clicked on. -/
def canClick : Act → Bool
  | .authorize _ target => c.shown.contains target
  | _ => true

/-- A handler that returns false ends the connection. -/
def step (a : Act) : Option (Connection D) :=
  if c.closed = false ∧ c.canClick a then
    some { (c.act hash a).1 with closed := !(c.act hash a).2 }
  else none

end Connection

def connection {D : Type*} [DecidableEq D] (hash : Bytes → D) :
    LTS (Connection D) Connection.Act where
  init c := c = {}
  step := Connection.step hash

/-! ### One scope for the whole connection -/

lemma forall_mem_concat {α : Type*} {p : α → Prop} {l : List α} {a : α} (hl : ∀ x ∈ l, p x)
    (ha : p a) : ∀ x ∈ l ++ [a], p x :=
  List.forall_mem_append.mpr ⟨hl, List.forall_mem_singleton.mpr ha⟩

namespace Connection

section

variable {D : Type*} {hash : Bytes → D} {c : Connection D} {env : LoginEnv} {lr : LoginRequest}

/-- What was asked for in an accepted request. -/
def targets (c : Connection D) : List Target := c.accepted.map LoginRequest.target

/-- The accepted requests have the digest that was latched; whatever was shown, asked, approved or
opened is what one of them asked for. -/
structure Kept (hash : Bytes → D) (c : Connection D) : Prop where
  latched : ∀ lr ∈ c.accepted, c.loginScope = some (loginScopeDigest hash lr)
  lr : c.accepted ≠ [] → c.lr ∈ c.accepted
  awaiting : c.awaiting2fa → c.accepted ≠ []
  shown : ∀ t ∈ c.shown, t ∈ c.targets
  asked : ∀ t ∈ c.asked, t ∈ c.targets
  approvals : ∀ a ∈ c.approvals, a.target ∈ c.targets
  sessions : ∀ t ∈ c.sessions, t ∈ c.targets

lemma accepted_sendLogonResponse :
    (c.sendLogonResponseAndKeepAlive env).1.accepted = c.accepted := by
  rw [sendLogonResponseAndKeepAlive]
  split_ifs <;> rfl

lemma mem_targets_concat {t : Target} (ht : t ∈ c.targets) :
    t ∈ (c.accepted ++ [lr]).map LoginRequest.target := by
  rw [List.map_append]
  exact List.mem_append_left _ ht

variable (h : Kept hash c)

include h

lemma Kept.target_mem (hne : c.accepted ≠ []) : c.lr.target ∈ c.targets :=
  List.mem_map_of_mem (h.lr hne)

lemma Kept.approve {kind : ApprovalKind} {t : Target} (ht : t ∈ c.targets) :
    Kept hash (c.approve kind t) :=
  { h with approvals := forall_mem_concat h.approvals ht }

lemma Kept.tryStartCm (hne : c.accepted ≠ []) : Kept hash (c.tryStartCm env) := by
  rw [Connection.tryStartCm]
  split_ifs
  · exact h
  · exact { h with shown := forall_mem_concat h.shown (h.target_mem hne) }

lemma Kept.sendLogonResponse (hne : c.accepted ≠ []) :
    Kept hash (c.sendLogonResponseAndKeepAlive env).1 := by
  rw [sendLogonResponseAndKeepAlive]
  split_ifs
  · exact h
  · refine { h with awaiting := fun _ => hne, asked := ?_ }
    rintro _ ⟨⟩
    exact h.target_mem hne
  · exact { h with awaiting := fun hfalse => absurd hfalse Bool.false_ne_true }
  · exact { h with
      awaiting := fun hfalse => absurd hfalse Bool.false_ne_true
      sessions := forall_mem_concat h.sessions (h.target_mem hne) }

lemma Kept.logon (hne : c.accepted ≠ []) : Kept hash (c.logon env).1 := by
  rw [Connection.logon]
  split_ifs
  · refine (h.sendLogonResponse hne).tryStartCm ?_
    rw [accepted_sendLogonResponse]
    exact hne
  · exact h.sendLogonResponse hne

lemma Kept.accept (hsame : ∀ d ∈ c.loginScope, d = loginScopeDigest hash lr) : Kept hash ({ c with
      loginScope := some (loginScopeDigest hash lr)
      accepted := c.accepted ++ [lr] }.handleLoginRequest env lr) where
  latched := by
    intro lr' hlr'
    rcases List.mem_append.mp hlr' with hlr' | hlr'
    · exact congrArg some (hsame _ (h.latched lr' hlr')).symm
    · rw [List.mem_singleton.mp hlr']
      rfl
  lr _ := List.mem_append_right _ (List.mem_singleton.mpr rfl)
  awaiting hfalse := absurd hfalse Bool.false_ne_true
  shown t ht := mem_targets_concat (h.shown t ht)
  asked t ht := mem_targets_concat (h.asked t ht)
  approvals a ha := mem_targets_concat (h.approvals a ha)
  sessions t ht := mem_targets_concat (h.sessions t ht)

lemma Kept.authenticate (hne : c.accepted ≠ []) : Kept hash (c.authenticate env).1 := by
  rw [Connection.authenticate]
  split_ifs
  · exact h
  · exact h.tryStartCm hne
  · exact h.logon hne
  · exact h.tryStartCm hne
  · exact h
  · exact h.tryStartCm hne
  · exact (h.approve (h.target_mem hne)).logon hne

lemma Kept.onAuth2fa {right : Bool} : Kept hash (c.onAuth2fa env right).1 := by
  rw [Connection.onAuth2fa]
  split_ifs with hawaiting
  · exact h
  · exact h
  · exact h
  · rw [Bool.not_eq_true', Bool.not_eq_false] at hawaiting
    refine Kept.logon { h with approvals := ?_ } (h.awaiting hawaiting)
    intro a ha
    rcases List.mem_append.mp ha with ha | ha
    · exact h.approvals a ha
    · obtain ⟨t, ht, rfl⟩ := List.mem_map.mp ha
      exact h.asked t (Option.mem_toList.mp ht)

lemma Kept.onAuthorize {t : Target} (ht : t ∈ c.shown) : Kept hash (c.onAuthorize env t).1 := by
  have hmem := h.shown t ht
  have hne : c.accepted ≠ [] := by
    rintro hnil
    rw [targets, hnil] at hmem
    exact absurd hmem List.not_mem_nil
  exact Kept.sendLogonResponse { h.approve hmem with } hne

/-- The accepted requests ask for one thing, and so does whatever was approved or opened. -/
lemma Kept.target_eq (hhash : Function.Injective hash) {t t' : Target}
    (ht : t ∈ c.targets) (ht' : t' ∈ c.targets) : t = t' := by
  obtain ⟨lr, hlr, rfl⟩ := List.mem_map.mp ht
  obtain ⟨lr', hlr', rfl⟩ := List.mem_map.mp ht'
  have hdigest := (h.latched lr hlr).symm.trans (h.latched lr' hlr')
  exact loginScopeBytes_inj.mp (hhash (Option.some_inj.mp hdigest))

end

variable {D : Type*} [DecidableEq D] {hash : Bytes → D} {c c' : Connection D} {env : LoginEnv}
  {lr : LoginRequest}

/-- An accepted request has the digest of the first one, or latches its own. -/
lemma checkLoginScope_accepted (h : (c.checkLoginScope hash lr).2) :
    (c.checkLoginScope hash lr).1 = { c with
      loginScope := some (loginScopeDigest hash lr), accepted := c.accepted ++ [lr] } ∧
    ∀ d ∈ c.loginScope, d = loginScopeDigest hash lr := by
  rw [checkLoginScope] at h ⊢
  split at h
  next initial hscope =>
    split_ifs at h ⊢ with hne
    rw [not_not] at hne
    subst hne
    rw [hscope]
    refine ⟨rfl, ?_⟩
    rintro _ ⟨⟩
    rfl
  next hscope =>
    rw [hscope]
    refine ⟨rfl, ?_⟩
    rintro _ ⟨⟩

lemma checkLoginScope_rejected (h : (c.checkLoginScope hash lr).2 = false) :
    (c.checkLoginScope hash lr).1 = c := by
  rw [checkLoginScope] at h ⊢
  split at h
  next initial hscope =>
    split_ifs at h ⊢ with hne
    rfl
  next hscope => exact absurd h.symm Bool.false_ne_true

lemma Kept.onLoginRequest (h : Kept hash c) : Kept hash (c.onLoginRequest hash env lr).1 := by
  rw [Connection.onLoginRequest]
  split_ifs with hauth hrejected
  · exact h
  · rw [checkLoginScope_rejected ((Bool.not_eq_true' _).mp hrejected)]
    exact h
  · rw [Bool.not_eq_true', Bool.not_eq_false] at hrejected
    obtain ⟨hc, hsame⟩ := checkLoginScope_accepted hrejected
    rw [hc]
    exact (h.accept hsame).authenticate
      (List.append_ne_nil_of_right_ne_nil _ (List.cons_ne_nil _ _))

lemma Kept.step {a : Act} (h : Kept hash c) (hstep : c.step hash a = some c') : Kept hash c' := by
  obtain ⟨⟨-, hclick⟩, heq⟩ := Option.ite_none_right_eq_some.mp hstep
  cases heq
  have hact : Kept hash (c.act hash a).1 := by
    cases a with
    | loginRequest env lr => exact h.onLoginRequest
    | auth2fa env right => exact h.onAuth2fa
    | authorize env target => exact h.onAuthorize (List.contains_iff_mem.mp hclick)
  exact { hact with }

lemma Kept.of_reachable (h : (connection hash).Reachable c) : Kept hash c := by
  refine h.invariant ?_ fun _ _ _ _ hc hstep => hc.step hstep
  rintro _ rfl
  refine ⟨?_, fun hne => absurd rfl hne, fun hfalse => absurd hfalse Bool.false_ne_true,
    ?_, ?_, ?_, ?_⟩
  all_goals
    intro _ hmem
    cases hmem

end Connection

/-- The digest is of bytes that say who asks and for what, so a connection accepts requests for
one thing only, and no approval is for anything but what a session is opened for. -/
theorem login_scope_latched {D : Type*} [DecidableEq D] (hash : Bytes → D)
    (hhash : Function.Injective hash) :
    (∀ lr lr', loginScopeBytes lr = loginScopeBytes lr' ↔ lr.target = lr'.target) ∧
      ∀ c, (connection hash).Reachable c →
        (∀ first ∈ c.accepted.head?, ∀ lr ∈ c.accepted, lr.target = first.target) ∧
        ∀ a ∈ c.approvals, ∀ t ∈ c.sessions, a.target = t := by
  refine ⟨fun _ _ => loginScopeBytes_inj, fun c hc => ?_⟩
  have hkept := Connection.Kept.of_reachable hc
  constructor
  · intro first hfirst lr hlr
    exact hkept.target_eq hhash (List.mem_map_of_mem hlr)
      (List.mem_map_of_mem (List.mem_of_mem_head? hfirst))
  · intro a ha t ht
    exact hkept.target_eq hhash (hkept.approvals a ha) (hkept.sessions t ht)

/-- A tunnel to port 22 of this machine. -/
def tunnel (password : Bytes) : LoginRequest where
  myId := ⟨tag "peer", by decide⟩
  password := password
  union := some (.portForward ⟨tag "localhost", by decide⟩ 22 false)

/-- A request without a password, one with it, and the code. -/
def tunnelLogin : List Connection.Act :=
  [.loginRequest {} (tunnel []), .loginRequest { get2fa := true } (tunnel [1]), .auth2fa {} true]

/-- The session is what both requests ask for and the password and the code were given for. -/
theorem login_scope_latched_tunnel : ∃ c ∈ (connection id).run {} tunnelLogin,
    c.accepted = [tunnel [], tunnel [1]] ∧ c.sessions = [(tunnel []).target] ∧
      c.approvals.map Approval.kind = [.password, .twoFactor] ∧
      ∀ a ∈ c.approvals, ∀ t ∈ c.sessions, a.target = t := by
  refine LTS.exists_run_of (P := fun c => c.accepted = [tunnel [], tunnel [1]] ∧
    c.sessions = [(tunnel []).target] ∧ c.approvals.map Approval.kind = [.password, .twoFactor])
    (by decide) ?_
  rintro c hc ⟨haccepted, hsessions, happrovals⟩
  have hreach : (connection id).Reachable c := (LTS.Reachable.init rfl).run hc
  exact ⟨haccepted, hsessions, happrovals,
    ((login_scope_latched id Function.injective_id).2 c hreach).2⟩

end RustDesk.Login
