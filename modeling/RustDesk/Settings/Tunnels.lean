import RustDesk.Settings.Options

/-!
# The VLESS and SSH modes

A host may be reached through a VLESS or an SSH tunnel, one at a time: enabling one disables the
other. While one is enabled three options are set for it. The values they had are saved under keys
of the mode, and set again when it is disabled; they are read and saved through the layers of the
options.
-/

namespace RustDesk.Settings

structure VlessServer where
  server : String := ""
  port : ℤ := 0
  uuid : String := ""
  serverName : String := ""
  enabled : Bool := true
  deriving DecidableEq

structure SshServer where
  server : String := ""
  port : ℤ := 0
  username : String := ""
  publicKey : String := ""
  privateKey : String := ""
  enabled : Bool := false
  deriving DecidableEq

inductive Mode where
  | vless
  | ssh
  deriving DecidableEq

/-- The options a mode sets. -/
inductive Opt where
  | disableUdp
  | forceAlwaysRelay
  | allowWebsocket
  deriving DecidableEq

namespace Opt

def key : Opt → String
  | disableUdp => "disable-udp"
  | forceAlwaysRelay => "force-always-relay"
  | allowWebsocket => "allow-websocket"

/-- The value in a mode. -/
def forced : Opt → String
  | disableUdp => "Y"
  | forceAlwaysRelay => "Y"
  | allowWebsocket => "N"

/-- `SAVED_DISABLE_UDP`, `SAVED_FORCE_RELAY` and `SAVED_WEBSOCKET` -/
def savedKey : Mode → Opt → String
  | .ssh, disableUdp => "ssh-saved-disable-udp"
  | .ssh, forceAlwaysRelay => "ssh-saved-force-always-relay"
  | .ssh, allowWebsocket => "ssh-saved-allow-websocket"
  | .vless, disableUdp => "vless-saved-disable-udp"
  | .vless, forceAlwaysRelay => "vless-saved-force-always-relay"
  | .vless, allowWebsocket => "vless-saved-allow-websocket"

end Opt

/-- The options are set one after the other. -/
def setAll (env : Layers) (key value : Opt → String) (options : Options) : Options :=
  let options := setOption env options (key .disableUdp) (value .disableUdp)
  let options := setOption env options (key .forceAlwaysRelay) (value .forceAlwaysRelay)
  setOption env options (key .allowWebsocket) (value .allowWebsocket)

/-- One option is saved under a key of the mode. -/
def saveOption (env : Layers) (mode : Mode) (options : Options) (x : Opt) : Options :=
  setOption env options (x.savedKey mode) (getOption env options x.key)

/-- `set_ssh_mode` and `set_vless_mode`, which differ in their keys. -/
def setMode (env : Layers) (mode : Mode) (enabled : Bool) (options : Options) : Options :=
  if enabled then
    let options := saveOption env mode options .disableUdp
    let options := saveOption env mode options .forceAlwaysRelay
    let options := saveOption env mode options .allowWebsocket
    setAll env Opt.key Opt.forced options
  else
    -- the values are read before the first of them is set
    let restored := setAll env Opt.key (fun x => getOption env options (x.savedKey mode)) options
    setAll env (Opt.savedKey mode) (fun _ => "") restored

def setVlessMode (env : Layers) : Bool → Options → Options := setMode env .vless

def setSshMode (env : Layers) : Bool → Options → Options := setMode env .ssh

/-- The fields of `Config2` that the modes use. -/
structure Config2 where
  vless : Option VlessServer := none
  ssh : Option SshServer := none
  options : Options := fun _ => none

namespace Config2

/-- `v.enabled`, or false without a server -/
def isEnabled {α : Type} (enabled : α → Bool) (server : Option α) : Bool :=
  (server.map enabled).getD false

def vlessEnabled (c : Config2) : Bool := isEnabled VlessServer.enabled c.vless

def sshEnabled (c : Config2) : Bool := isEnabled SshServer.enabled c.ssh

/-- `get_ssh_config` -/
def getSshConfig (c : Config2) : Option SshServer :=
  c.ssh.or (some { port := 2222, username := "rustdesk" })

/-- `set_vless` after the other tunnel was looked at: the mode is set when it changes. -/
def storeVless (env : Layers) (c : Config2) (vless : Option VlessServer) : Config2 :=
  { c with
    vless := vless
    options :=
      if c.vlessEnabled ≠ isEnabled VlessServer.enabled vless then
        setVlessMode env (isEnabled VlessServer.enabled vless) c.options
      else c.options }

/-- `set_ssh` after the other tunnel was looked at: the mode is set when it changes. -/
def storeSsh (env : Layers) (c : Config2) (ssh : Option SshServer) : Config2 :=
  { c with
    ssh := ssh
    options :=
      if c.sshEnabled ≠ isEnabled SshServer.enabled ssh then
        setSshMode env (isEnabled SshServer.enabled ssh) c.options
      else c.options }

/-- `set_vless`. The call of `set_ssh` in it disables, so that one does not call back. -/
def setVless (env : Layers) (c : Config2) (vless : Option VlessServer) : Config2 :=
  if isEnabled VlessServer.enabled vless then
    match c.getSshConfig with
    | some ssh =>
      if ssh.enabled then
        (c.storeSsh env (some { ssh with enabled := false })).storeVless env vless
      else c.storeVless env vless
    | none => c.storeVless env vless
  else c.storeVless env vless

/-- `set_ssh`. The call of `set_vless` in it disables, so that one does not call back. -/
def setSsh (env : Layers) (c : Config2) (ssh : Option SshServer) : Config2 :=
  if isEnabled SshServer.enabled ssh then
    match c.vless with
    | some vless =>
      if vless.enabled then
        (c.storeVless env (some { vless with enabled := false })).storeSsh env ssh
      else c.storeSsh env ssh
    | none => c.storeSsh env ssh
  else c.storeSsh env ssh

inductive Call where
  | setVless (vless : Option VlessServer)
  | setSsh (ssh : Option SshServer)
  deriving DecidableEq

def call (env : Layers) (c : Config2) : Call → Config2
  | .setVless vless => c.setVless env vless
  | .setSsh ssh => c.setSsh env ssh

def calls (env : Layers) (c : Config2) (l : List Call) : Config2 := l.foldl (call env) c

end Config2

/-! ### What a mode leaves under each key -/

namespace Opt

lemma key_injective : Function.Injective key := by
  intro x y h
  cases x <;> cases y <;> first | rfl | exact absurd h (by decide)

lemma savedKey_injective (m : Mode) : Function.Injective (savedKey m) := by
  intro x y h
  cases m <;> cases x <;> cases y <;> first | rfl | exact absurd h (by decide)

lemma savedKey_ne_key (m : Mode) (x y : Opt) : x.savedKey m ≠ y.key := by
  cases m <;> cases x <;> cases y <;> decide

lemma savedKey_ne_savedKey {m m' : Mode} (h : m ≠ m') (x y : Opt) :
    x.savedKey m ≠ y.savedKey m' := by
  cases m <;> cases m' <;> first | exact absurd rfl h | (cases x <;> cases y <;> decide)

end Opt

variable {env : Layers} {o₀ o : Options} {mode : Mode} {k : String} {key value : Opt → String}

lemma setAll_of_ne (h : ∀ x, k ≠ key x) : setAll env key value o k = o k := by
  rw [setAll, setOption_of_ne (h _), setOption_of_ne (h _), setOption_of_ne (h _)]

lemma setAll_key (hkey : Function.Injective key) (x : Opt) :
    setAll env key value o (key x) = storedAs env (key x) (value x) := by
  have hne : ∀ y, y ≠ x → key x ≠ key y := fun y hy heq => hy (hkey heq).symm
  cases x with
  | disableUdp =>
    rw [setAll, setOption_of_ne (hne _ Opt.noConfusion), setOption_of_ne (hne _ Opt.noConfusion),
      setOption_self]
  | forceAlwaysRelay =>
    rw [setAll, setOption_of_ne (hne _ Opt.noConfusion), setOption_self]
  | allowWebsocket => rw [setAll, setOption_self]

/-- The three are saved as they were before the first of them. -/
lemma setMode_true : setMode env mode true o = setAll env Opt.key Opt.forced
    (setAll env (Opt.savedKey mode) (fun x => getOption env o x.key) o) := by
  simp only [setMode, if_true, saveOption, setAll,
    getOption_setOption_of_ne (Opt.savedKey_ne_key mode _ _).symm]

lemma setMode_false : setMode env mode false o = setAll env (Opt.savedKey mode) (fun _ => "")
    (setAll env Opt.key (fun x => getOption env o (x.savedKey mode)) o) := rfl

/-! ### Off and on -/

/-- No value is saved, and the options are as they were. -/
structure Off (env : Layers) (o₀ o : Options) : Prop where
  option : ∀ x : Opt, getOption env o x.key = getOption env o₀ x.key
  saved : ∀ mode x, o (Opt.savedKey mode x) = none

/-- The options are set for the mode, and the values they had are saved. -/
structure On (env : Layers) (o₀ : Options) (mode : Mode) (o : Options) : Prop where
  option : ∀ x : Opt, env.overwrite x.key = none → getOption env o x.key = x.forced
  saved : ∀ x : Opt, getOption env o (x.savedKey mode) = getOption env o₀ x.key
  other : ∀ mode', mode' ≠ mode → ∀ x, o (Opt.savedKey mode' x) = none

/-- The layers have nothing under the keys of the modes. -/
def Layers.Clean (env : Layers) : Prop :=
  ∀ mode x, env.overwrite (Opt.savedKey mode x) = none ∧ env.defaults (Opt.savedKey mode x) = none

lemma Off.on (henv : env.Clean) (h : Off env o₀ o) : On env o₀ mode (setMode env mode true o) where
  option x hoverwrite := by
    refine getOption_storedAs hoverwrite ?_ fun hempty => ?_
    · rw [setMode_true, setAll_key Opt.key_injective]
    · cases x <;> exact absurd hempty (by decide)
  saved x := by
    obtain ⟨hoverwrite, hdefault⟩ := henv mode x
    rw [← h.option x]
    refine getOption_storedAs hoverwrite ?_ fun _ => ?_
    · rw [setMode_true, setAll_of_ne fun y => Opt.savedKey_ne_key mode x y,
        setAll_key (Opt.savedKey_injective mode)]
    · rw [hdefault]
      rfl
  other mode' hne x := by
    rw [setMode_true, setAll_of_ne fun y => Opt.savedKey_ne_key mode' x y,
      setAll_of_ne fun y => Opt.savedKey_ne_savedKey hne x y]
    exact h.saved mode' x

lemma On.off (h₀ : ∀ x : Opt, o₀ x.key ≠ some "") (h : On env o₀ mode o) :
    Off env o₀ (setMode env mode false o) where
  option x := by
    refine getOption_restored (h₀ x) ?_
    rw [setMode_false, setAll_of_ne fun y => (Opt.savedKey_ne_key mode y x).symm,
      setAll_key Opt.key_injective, h.saved x]
  saved mode' x := by
    rw [setMode_false]
    by_cases hmode : mode' = mode
    · rw [hmode, setAll_key (Opt.savedKey_injective mode), storedAs, if_pos rfl, ite_self]
    · rw [setAll_of_ne fun y => Opt.savedKey_ne_savedKey hmode x y,
        setAll_of_ne fun y => Opt.savedKey_ne_key mode' x y]
      exact h.other mode' hmode x

/-! ### Every call -/

namespace Config2

variable {c c' : Config2} {l : List Call} {vless : Option VlessServer} {ssh : Option SshServer}

def enabled (c : Config2) : Mode → Bool
  | .vless => c.vlessEnabled
  | .ssh => c.sshEnabled

/-- At most one mode is enabled, and the options are set for it. -/
structure Kept (env : Layers) (o₀ : Options) (c : Config2) : Prop where
  exclusive : ∀ mode mode', c.enabled mode → c.enabled mode' → mode = mode'
  on : ∀ mode, c.enabled mode → On env o₀ mode c.options
  off : (∀ mode, c.enabled mode = false) → Off env o₀ c.options

section

variable (henv : env.Clean) (h₀ : ∀ x : Opt, o₀ x.key ≠ some "") (h : Kept env o₀ c)

include henv h₀ h

/-- One mode is enabled or disabled while the others stay as they are; it is enabled only when no
other is. -/
lemma Kept.store (mode : Mode) (hother : ∀ mode', mode' ≠ mode → c'.enabled mode' = c.enabled mode')
    (hexcl : c'.enabled mode → ∀ mode', mode' ≠ mode → c.enabled mode' = false)
    (hoptions : c'.options = if c.enabled mode ≠ c'.enabled mode then
      setMode env mode (c'.enabled mode) c.options else c.options) : Kept env o₀ c' := by
  by_cases hsame : c'.enabled mode = c.enabled mode
  · -- nothing changes
    have hall : c'.enabled = c.enabled := by
      funext mode'
      by_cases hmode : mode' = mode
      · rw [hmode, hsame]
      · exact hother mode' hmode
    rw [if_neg (not_not.mpr hsame.symm)] at hoptions
    constructor <;> rw [hall]
    · exact h.exclusive
    · rw [hoptions]
      exact h.on
    · rw [hoptions]
      exact h.off
  · rw [if_pos (Ne.symm hsame)] at hoptions
    cases hnew : c'.enabled mode with
    | true =>
      rw [hnew] at hoptions hsame
      have hnone : ∀ m, c.enabled m = false := by
        intro m
        by_cases hm : m = mode
        · rw [hm]
          exact Bool.eq_false_iff.mpr (Ne.symm hsame)
        · exact hexcl hnew m hm
      have hone : ∀ m, c'.enabled m → m = mode := by
        intro m hm
        by_contra hne
        rw [hother m hne, hnone m] at hm
        cases hm
      constructor
      · intro m m' hm hm'
        rw [hone m hm, hone m' hm']
      · intro m hm
        rw [hone m hm, hoptions]
        exact (h.off hnone).on henv
      · intro hoff
        rw [hoff mode] at hnew
        cases hnew
    | false =>
      rw [hnew] at hoptions hsame
      have hwas : c.enabled mode = true := Bool.not_eq_false _ ▸ Ne.symm hsame
      have hnone : ∀ m, ¬c'.enabled m := by
        intro m hon
        by_cases hm : m = mode
        · rw [hm, hnew] at hon
          cases hon
        · exact hm (h.exclusive m mode (hother m hm ▸ hon) hwas)
      refine ⟨fun m _ hm => absurd hm (hnone m), fun m hm => absurd hm (hnone m), fun _ => ?_⟩
      rw [hoptions]
      exact (h.on mode hwas).off h₀

lemma Kept.storeVless (hexcl : isEnabled VlessServer.enabled vless → c.sshEnabled = false) :
    Kept env o₀ (c.storeVless env vless) := by
  refine h.store henv h₀ .vless ?_ ?_ rfl
  · rintro (_ | _) hm
    · exact absurd rfl hm
    · rfl
  · rintro hnew (_ | _) hm
    · exact absurd rfl hm
    · exact hexcl hnew

lemma Kept.storeSsh (hexcl : isEnabled SshServer.enabled ssh → c.vlessEnabled = false) :
    Kept env o₀ (c.storeSsh env ssh) := by
  refine h.store henv h₀ .ssh ?_ ?_ rfl
  · rintro (_ | _) hm
    · rfl
    · exact absurd rfl hm
  · rintro hnew (_ | _) hm
    · exact hexcl hnew
    · exact absurd rfl hm

lemma Kept.setVless : Kept env o₀ (c.setVless env vless) := by
  rw [Config2.setVless]
  split_ifs with henable
  · cases hssh : c.ssh with
    | none =>
      rw [getSshConfig, hssh]
      exact h.storeVless henv h₀ fun _ => by rw [sshEnabled, hssh]; rfl
    | some ssh =>
      rw [getSshConfig, hssh, Option.some_or]
      dsimp only
      split_ifs with hon
      · refine Kept.storeVless henv h₀ (h.storeSsh henv h₀ fun hoff => ?_) fun _ => rfl
        cases hoff
      · refine h.storeVless henv h₀ fun _ => ?_
        rw [sshEnabled, hssh]
        exact Bool.eq_false_iff.mpr hon
  · exact h.storeVless henv h₀ fun henabled => absurd henabled henable

lemma Kept.setSsh : Kept env o₀ (c.setSsh env ssh) := by
  rw [Config2.setSsh]
  split_ifs with henable
  · cases hvless : c.vless with
    | none => exact h.storeSsh henv h₀ fun _ => by rw [vlessEnabled, hvless]; rfl
    | some vless =>
      dsimp only
      split_ifs with hon
      · refine Kept.storeSsh henv h₀ (h.storeVless henv h₀ fun hoff => ?_) fun _ => rfl
        cases hoff
      · refine h.storeSsh henv h₀ fun _ => ?_
        rw [vlessEnabled, hvless]
        exact Bool.eq_false_iff.mpr hon
  · exact h.storeSsh henv h₀ fun henabled => absurd henabled henable

lemma Kept.calls (l : List Call) : Kept env o₀ (c.calls env l) := by
  induction l generalizing c with
  | nil => exact h
  | cons a l ih =>
    refine ih ?_
    cases a with
    | setVless vless => exact h.setVless henv h₀
    | setSsh ssh => exact h.setSsh henv h₀

end

/-- Against the configuration at the start: one tunnel at most is enabled, the options are set for
it unless they are overwritten, and without a tunnel they are as they were. -/
structure Reversible (env : Layers) (c start : Config2) : Prop where
  exclusive : ¬(c.vlessEnabled ∧ c.sshEnabled)
  forced : c.vlessEnabled ∨ c.sshEnabled → ∀ x : Opt, env.overwrite x.key = none →
    getOption env c.options x.key = x.forced
  restored : ¬c.vlessEnabled → ¬c.sshEnabled →
    (∀ x : Opt, getOption env c.options x.key = getOption env start.options x.key) ∧
      ∀ mode x, c.options (Opt.savedKey mode x) = none

end Config2

/-- From a configuration without a tunnel, every sequence of calls keeps the tunnels exclusive and
can be reversed. -/
theorem tunnels_reversible (env : Layers) (henv : env.Clean) (start : Config2)
    (hvless : ¬start.vlessEnabled) (hssh : ¬start.sshEnabled)
    (hsaved : ∀ mode x, start.options (Opt.savedKey mode x) = none)
    (hempty : ∀ k, start.options k ≠ some "") (l : List Config2.Call) :
    (start.calls env l).Reversible env start := by
  have hstart : Config2.Kept env start.options start := by
    have hoff : ∀ mode, ¬start.enabled mode := by
      intro mode
      cases mode with
      | vless => exact hvless
      | ssh => exact hssh
    refine ⟨fun m m' hm => absurd hm (hoff m), fun m hm => absurd hm (hoff m), fun _ => ?_⟩
    exact ⟨fun _ => rfl, hsaved⟩
  have hkept := hstart.calls henv (fun x => hempty x.key) l
  constructor
  · rintro ⟨honv, hons⟩
    exact absurd (hkept.exclusive .vless .ssh honv hons) Mode.noConfusion
  · rintro (hon | hon)
    · exact (hkept.on .vless hon).option
    · exact (hkept.on .ssh hon).option
  · intro hnv hns
    have hoff : ∀ mode, (start.calls env l).enabled mode = false := by
      intro mode
      cases mode with
      | vless => exact Bool.eq_false_iff.mpr hnv
      | ssh => exact Bool.eq_false_iff.mpr hns
    exact ⟨(hkept.off hoff).option, (hkept.off hoff).saved⟩

/-- UDP is disabled by default, but the user has enabled it; websockets are overwritten. -/
def layered : Layers where
  overwrite k := if k = "allow-websocket" then some "Y" else none
  defaults k := if k = "disable-udp" then some "Y" else none

def udpAllowed : Config2 where
  options k := if k = "disable-udp" then some "N" else none

/-- VLESS is enabled, SSH takes over, and is disabled: the value that differs from the default is
back. -/
theorem tunnels_reversible_layered :
    (udpAllowed.calls layered [.setVless (some {}),
      .setSsh (some { enabled := true })]).sshEnabled ∧
    getOption layered (udpAllowed.calls layered [.setVless (some {}),
      .setSsh (some { enabled := true }), .setSsh none]).options "disable-udp" = "N" ∧
    (udpAllowed.calls layered [.setVless (some {}), .setSsh (some { enabled := true }),
      .setSsh none]).Reversible layered udpAllowed := by
  refine ⟨by decide, by decide, tunnels_reversible layered ?_ udpAllowed ?_ ?_ ?_ ?_ _⟩
  · intro mode x
    cases mode <;> cases x <;> decide
  · decide
  · decide
  · intro mode x
    cases mode <;> cases x <;> decide
  · intro k
    show (if k = "disable-udp" then some "N" else none) ≠ some ""
    split_ifs <;> simp

end RustDesk.Settings
