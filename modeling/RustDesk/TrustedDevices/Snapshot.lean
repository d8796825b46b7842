import RustDesk.Settings.Options
import RustDesk.Settings.PermanentPassword
import RustDesk.TrustedDevices.Grants

/-!
# The settings that devices are trusted under

A device is trusted under the permanent password, the secret of the second factor and the switch for
trusted devices that are in force: grants name them by a hash, the scope. They are in force in
memory, and read from the files as well, where the password is encrypted.
-/

namespace RustDesk.TrustedDevices

open Settings

/-- What a scope is the hash of. -/
structure Effective where
  h1 : Option Bytes
  salt : Bytes
  totp : String
  enabled : Bool
  deriving DecidableEq

/-! ### Options -/

/-- `Config2`: the options that are looked at here, and everything else together. -/
structure AuthOptions (R : Type) where
  totp : Option String := none
  trustedDevices : Option String := none
  expiration : Option String := none
  rest : R
  deriving DecidableEq

/-- `OPTION_ENABLE_TRUSTED_DEVICES` -/
def enableTrustedDevices : String := "enable-trusted-devices"

/-- `OPTION_TRUSTED_DEVICE_EXPIRATION` -/
def trustedDeviceExpiration : String := "trusted-device-expiration-days"

variable {R : Type}

namespace AuthOptions

def get (o : AuthOptions R) : Options := fun k =>
  if k = "2fa" then o.totp
  else if k = enableTrustedDevices then o.trustedDevices
  else if k = trustedDeviceExpiration then o.expiration
  else none

/-- `effective_options` -/
def effective (env : Layers) (o : AuthOptions R) : Options := effectiveOptions env o.get

/-- `purify_options`; the other options are as they come out of it. -/
def purify (env : Layers) (o : AuthOptions R) : AuthOptions R where
  totp := o.totp.filter (isOptionCanSave env "2fa")
  trustedDevices := o.trustedDevices.filter (isOptionCanSave env enableTrustedDevices)
  expiration := o.expiration.filter (isOptionCanSave env trustedDeviceExpiration)
  rest := o.rest

end AuthOptions

/-- `DEFAULT_DAYS` -/
def defaultDays : ℕ := 90

/-- `policy::days` -/
def days (options : Options) : ℕ :=
  match options trustedDeviceExpiration with
  | some "1" => 1
  | some "7" => 7
  | some "30" => 30
  | some "0" => neverExpire
  | _ => defaultDays

/-- `authentication_changed` -/
def authenticationChanged (old new : Options) : Bool :=
  ["2fa", enableTrustedDevices].any fun key => old key ≠ new key

/-! ### The password -/

/-- `preset_permanent_password_storage_is_usable_for_auth` -/
def presetStorageIsUsableForAuth (libs : Libs) (preset : Preset) : Bool :=
  if preset.storage = [] then false
  else if preset.salt = [] then true
  else (decodeH1FromHashedStorage libs preset.storage).isSome

/-- The hash and the salt of a password in the form it has in memory. -/
def normalizeInMemory (libs : Libs) (preset : Preset) (password salt : Bytes) :
    Option Bytes × Bytes :=
  if password ≠ [] then
    if localStorageIsUsableForAuth libs password salt then
      (some ((decodeH1FromStorage libs password).getD (computeH1 libs password salt)), salt)
    else (none, salt)
  else if !presetStorageIsUsableForAuth libs preset then (none, salt)
  else if preset.salt = [] then (some (computeH1 libs preset.storage salt), salt)
  else (decodeH1FromHashedStorage libs preset.storage, preset.salt)

/-- A password that is encrypted on the disk is decrypted first. -/
def passwordOnDisk (libs : Libs) (password : Bytes) : Bytes :=
  if startsWith password passwordEncVersion then (decryptStrOrOriginal libs password).1
  else password

def normalize (libs : Libs) (preset : Preset) (c : Config R) (onDisk : Bool) :
    Option Bytes × Bytes :=
  normalizeInMemory libs preset (if onDisk then passwordOnDisk libs c.password else c.password)
    c.salt

/-! ### The snapshot -/

/-- What does not change while the host is installed: the libraries, the settings it was built with,
and the hash of the settings. -/
structure Setup (D : Type) where
  libs : Libs
  sha : Sha256 D
  /-- The hash of the settings, as JSON. -/
  scope : Effective → D
  layers : Layers := {}
  preset : Preset := {}
  /-- `TOTPInfo::from_str` succeeds. -/
  totpInfo : String → Bool := fun _ => true
  /-- The generation of `Grants::default()`. -/
  zero : D

structure Snapshot where
  effective : Effective
  validityDays : ℕ
  deriving DecidableEq

/-- `config::build` -/
def build (libs : Libs) (preset : Preset) (c : Config R) (options : Options) (onDisk : Bool) :
    Snapshot where
  effective :=
    { h1 := (normalize libs preset c onDisk).1
      salt := (normalize libs preset c onDisk).2
      totp := (options "2fa").getD ""
      enabled := (options enableTrustedDevices).getD "" ≠ "N" }
  validityDays := days options

end RustDesk.TrustedDevices
