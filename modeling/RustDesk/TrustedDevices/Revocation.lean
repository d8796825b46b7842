import RustDesk.TrustedDevices.Changes

/-!
# Revocation is final

Whatever is accepted was begun and made in the present epoch: after `clear`, or after other settings
were in force, nothing from before is accepted again, not even when the settings are as they were.
But a password may be stored as another one, which is in force at the next start: one that cannot be
used, such as a hash that has lost its salt, is cleared, and the preset one takes its place. So a
device of the earlier version may come to be trusted under it. And if a password is stored as
another and that as the first, while the trust could not be revoked in between, the tokens from
before are good again.
-/

namespace RustDesk.TrustedDevices

open Settings

/-! ### A host that can be run -/

/-- Hashes that keep what they are of. -/
inductive Digest where
  | zero
  | random (n : ℕ)
  | hash (d : Digest)
  | device (hwid : List UInt8) (id name platform : String)
  | scope (e : Effective)
  deriving DecidableEq

def sevens : Nonce := ⟨List.replicate 24 7, rfl⟩

/-- It has the form of a password that is stored, and is none. -/
def unusable : Bytes :=
  permanentPasswordEncVersion ++ plainLibs.encode (encrypt plainLibs sevens [0])

/-- A password that is stored as the one above, for it has the form of that encrypted. -/
def presetPassword : Bytes :=
  passwordEncVersion ++ plainLibs.encode (encrypt plainLibs sevens unusable)

def salt : Bytes := "salt".toList.map ascii

/-- A host with a preset password and its salt. -/
def preset : Setup Digest where
  libs := plainLibs
  sha := ⟨.hash, .device⟩
  scope := .scope
  preset :=
    { storage := encodeStorageFromH1 plainLibs (computeH1 plainLibs presetPassword salt)
      salt := salt }
  zero := .zero

def drawing (coins : List ℕ) : Env Digest := { coins := coins.map .random, nonce := sevens }

/-- A password as it is stored. -/
def hashed (password salt : String) : Bytes :=
  (encodeEncryptedStorageFromH1 plainLibs sevens
    (computeH1 plainLibs (password.toList.map ascii) (salt.toList.map ascii))).getD []

/-- A host that has just been started. -/
def started (password : Bytes) (salt : String) (devices : Option (List LegacyDevice)) :
    Host Digest ℕ :=
  let file : Config ℕ := { password := password, salt := salt.toList.map ascii, rest := 0 }
  let options : AuthOptions ℕ := { totp := some "totp", rest := 0 }
  { config := { Config.load preset.libs file with rest := 0 }
    options := options
    disk := { config := file, options := options, legacy := devices.map .ok }
    env := drawing [] }

lemma init_started (password : Bytes) (salt : String) (devices : Option (List LegacyDevice)) :
    (host preset).init (started password salt devices) :=
  ⟨_, _, _, _, 0, rfl⟩

/-- What a login proves, that knows the password. -/
def proofOf (password salt : String) (token : Option ℕ) (legacy : Option Digest) :
    LoginProof Digest where
  password := plainLibs.sha256 (computeH1 plainLibs (password.toList.map ascii)
    (salt.toList.map ascii))
  challenge := []
  salt := salt.toList.map ascii
  token := token.map .random
  legacy := legacy
  supportsV2 := true

def oldDevice : LegacyDevice where
  hwid := [1]
  info := { expiresAt := some 0, id := "1", name := "old", platform := "Linux" }

/-! ### Revocation -/

end RustDesk.TrustedDevices
