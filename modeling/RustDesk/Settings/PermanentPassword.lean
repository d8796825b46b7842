import RustDesk.Net.Addr

/-!
# The permanent password

The password is kept as a hash over it and a salt, encrypted with a key of the machine. Earlier
versions have kept it as it is, or encrypted; so what is stored is text in one of several forms, and
loading and storing the configuration look at that text to tell them apart. A hash without its salt
is lost, and the salt of a hashed password is not to change.
-/

namespace RustDesk.Settings

/-- What the code takes from its libraries: SHA-256, base64, `String::from_utf8_lossy` and
`secretbox`. The keys are those of the machine: the one of its uuid, and that of its key pair if
there is one and it differs. -/
structure Libs where
  sha256 : Bytes → Bytes
  encode : Bytes → Bytes
  decode : Bytes → Option Bytes
  fromUtf8Lossy : Bytes → Bytes
  sealBox : Bytes → Bytes → Bytes → Bytes
  openBox : Bytes → Bytes → Bytes → Option Bytes
  key : Bytes
  pkKey : Option Bytes
  length_sha256 : ∀ bs, (sha256 bs).length = 32
  decode_encode : ∀ bs, decode (encode bs) = some bs
  encode_ascii : ∀ bs, ∀ b ∈ encode bs, b < 128
  length_le_encode : ∀ bs, bs.length ≤ (encode bs).length
  length_encode_le : ∀ bs, (encode bs).length ≤ 2 * bs.length + 4
  lossy_ascii : ∀ bs, (∀ b ∈ bs, b < 128) → fromUtf8Lossy bs = bs
  open_seal : ∀ data nonce key, openBox (sealBox data nonce key) nonce key = some data
  length_seal : ∀ data nonce key, (sealBox data nonce key).length = data.length + 16

/-- `secretbox::NONCEBYTES` -/
def nonceBytes : ℕ := 24

/-- `secretbox::Nonce` -/
abbrev Nonce := { bs : Bytes // bs.length = nonceBytes }

/-- `FORMAT_V1` -/
def formatV1 : UInt8 := 1

/-- `PASSWORD_ENC_VERSION` -/
def passwordEncVersion : Bytes := "00".toList.map ascii

/-- `PERMANENT_PASSWORD_ENC_VERSION` -/
def permanentPasswordEncVersion : Bytes := "01".toList.map ascii

/-- `PERMANENT_PASSWORD_HASH_PREFIX` and `HBBS_PRESET_PASSWORD_HASH_PREFIX` -/
def passwordHashVersion : Bytes := "00".toList.map ascii

/-- `PERMANENT_PASSWORD_H1_LEN` -/
def h1Len : ℕ := 32

/-- `DEFAULT_SALT_LEN` -/
def defaultSaltLen : ℕ := 32

/-- `ENCRYPT_MAX_LEN` -/
def encryptMaxLen : ℕ := 128

/-- `secretbox::MACBYTES` -/
def macBytes : ℕ := 16

/-- `VERSION_LEN` -/
def versionLen : ℕ := 2

/-- `CHARS` -/
def autoChars : Bytes := "23456789abcdefghijkmnpqrstuvwxyz".toList.map ascii

/-- `get_auto_password`, with the numbers that are drawn. -/
def getAutoPassword (length : ℕ) (draws : ℕ → ℕ) : Bytes :=
  (List.range length).map fun i => autoChars.getD (draws i % autoChars.length) 0

/-- `s.chars().count()`: the bytes that begin a character. -/
def charCount (s : Bytes) : ℕ := s.countP fun b => b &&& 0xC0 ≠ 0x80

def startsWith (s version : Bytes) : Bool := version.isPrefixOf s

section

variable (libs : Libs)

/-! ### Encrypted text -/

def openSecretboxPayload (data key : Bytes) : Option Bytes :=
  let current :=
    if data.head? = some formatV1 && 1 + nonceBytes + macBytes ≤ data.length then
      libs.openBox (data.drop (1 + nonceBytes)) ((data.drop 1).take nonceBytes) key
    else none
  -- boxes of earlier versions have the nonce zero
  current <|> libs.openBox data (List.replicate nonceBytes 0) key

/-- `symmetric_crypt` to encrypt -/
def encrypt (nonce : Nonce) (data : Bytes) : Bytes :=
  formatV1 :: (nonce.val ++ libs.sealBox data nonce libs.key)

/-- `symmetric_crypt` to decrypt -/
def decrypt (data : Bytes) : Option Bytes :=
  openSecretboxPayload libs data libs.key <|> libs.pkKey.bind (openSecretboxPayload libs data)

def isEncrypted (v : Bytes) : Bool :=
  versionLen < v.length && startsWith v passwordEncVersion &&
    (libs.decode (v.drop versionLen)).any (macBytes ≤ ·.length)

/-- `encrypt_str_or_original`, for the current version. -/
def encryptStrOrOriginal (nonce : Nonce) (s : Bytes) (maxLen : ℕ) : Bytes :=
  if isEncrypted libs s then s
  else if maxLen < charCount s then []
  else if s = [] then s
  else passwordEncVersion ++ libs.encode (encrypt libs nonce s)

/-- `decrypt_str_or_original`, for the current version: the text, whether it was decrypted, and
whether it is to be stored again. -/
def decryptStrOrOriginal (s : Bytes) : Bytes × Bool × Bool :=
  let decrypted :=
    if versionLen < s.length && startsWith s passwordEncVersion then
      (libs.decode (s.drop versionLen)).bind (decrypt libs)
    else none
  match decrypted with
  | some v => (libs.fromUtf8Lossy v, true, false)
  | none => (s, false, !s.isEmpty && !isEncrypted libs s)

/-! ### The hash -/

/-- `compute_permanent_password_h1` -/
def computeH1 (password salt : Bytes) : Bytes := libs.sha256 (password ++ salt)

/-- `encode_permanent_password_storage_from_h1` -/
def encodeStorageFromH1 (h1 : Bytes) : Bytes := passwordHashVersion ++ libs.encode h1

/-- `encrypt_permanent_password_storage` -/
def encryptStorage (nonce : Nonce) (storage : Bytes) : Option Bytes :=
  if encryptMaxLen < charCount storage then none
  else some (permanentPasswordEncVersion ++ libs.encode (encrypt libs nonce storage))

/-- `encode_permanent_password_encrypted_storage_from_h1` -/
def encodeEncryptedStorageFromH1 (nonce : Nonce) (h1 : Bytes) : Option Bytes :=
  encryptStorage libs nonce (encodeStorageFromH1 libs h1)

/-- `decode_password_h1_after_prefix`; the version is the same for a local and a preset password. -/
def decodeH1FromHashedStorage (storage : Bytes) : Option Bytes :=
  if startsWith storage passwordHashVersion then
    (libs.decode (storage.drop versionLen)).filter (·.length = h1Len)
  else none

/-- `decrypt_permanent_password_str_or_original`: the text, and whether it was decrypted. -/
def decryptPermanentStrOrOriginal (storage : Bytes) : Bytes × Bool :=
  let decrypted :=
    if versionLen < storage.length && startsWith storage permanentPasswordEncVersion then
      (libs.decode (storage.drop versionLen)).bind (decrypt libs)
    else none
  match decrypted with
  | some v => (libs.fromUtf8Lossy v, true)
  | none => (storage, false)

/-- `decode_permanent_password_h1_from_storage` -/
def decodeH1FromStorage (storage : Bytes) : Option Bytes :=
  if startsWith storage permanentPasswordEncVersion then
    let decrypted := decryptPermanentStrOrOriginal libs storage
    if decrypted.2 then decodeH1FromHashedStorage libs decrypted.1 else none
  else none

/-- `local_permanent_password_storage_is_usable_for_auth` -/
def localStorageIsUsableForAuth (storage salt : Bytes) : Bool :=
  if storage = [] then false
  else if (decodeH1FromStorage libs storage).isSome then salt ≠ []
  else if startsWith storage permanentPasswordEncVersion &&
      (decryptPermanentStrOrOriginal libs storage).2 then false
  else
    let (_, decrypted, looksLikePlaintext) := decryptStrOrOriginal libs storage
    !(startsWith storage passwordEncVersion && !decrypted && !looksLikePlaintext)

/-- `preset_permanent_password_storage_matches_plain` -/
def presetStorageMatchesPlain (storage salt input : Bytes) : Bool :=
  if storage = [] || input = [] then false
  else if salt = [] then storage = input
  else decodeH1FromHashedStorage libs storage = some (computeH1 libs input salt)

/-- `password_is_empty_or_not_hashed` -/
def passwordIsEmptyOrNotHashed (storage : Bytes) : Bool :=
  if storage = [] then true
  else if (decodeH1FromStorage libs storage).isSome then false
  else if startsWith storage permanentPasswordEncVersion then false
  else
    let (_, decrypted, looksLikePlaintext) := decryptStrOrOriginal libs storage
    decrypted || looksLikePlaintext

/-- `keep_encrypted_storage_if_plaintext_unchanged` -/
def keepEncryptedStorage (nonce : Nonce) (plain stored : Bytes) : Bytes :=
  let (storedPlain, encrypted, _) := decryptStrOrOriginal libs stored
  if encrypted && storedPlain = plain then stored
  else encryptStrOrOriginal libs nonce plain encryptMaxLen

end

/-! ### The configuration -/

/-- `Config`, with its other fields together. -/
structure Config (R : Type) where
  password : Bytes := []
  salt : Bytes := []
  rest : R
  deriving DecidableEq

variable {R : Type}

namespace Config

variable (libs : Libs) (c : Config R)

def validateOrDecryptPermanentPasswordStorage : Except String (Config R) :=
  if c.password = [] then .ok c
  else if startsWith c.password passwordEncVersion then
    let (plain, decrypted, shouldStore) := decryptStrOrOriginal libs c.password
    if decrypted then .ok { c with password := plain }
    else if !shouldStore then .error "Invalid permanent password encrypted hash storage"
    else .ok c
  else
    let decrypted := decryptPermanentStrOrOriginal libs c.password
    if decrypted.2 then
      if c.salt = [] then .error "Permanent password hash storage requires a non-empty salt"
      else if (decodeH1FromHashedStorage libs decrypted.1).isSome then .ok c
      else .error "Invalid permanent password encrypted hash storage"
    else .ok c

/-- A password that cannot be used is cleared with its salt. -/
def prepareConfigForStore : Config R :=
  match c.validateOrDecryptPermanentPasswordStorage libs with
  | .ok prepared => prepared
  | .error _ => { c with password := [], salt := [] }

/-- What `store` writes over a file. -/
def stored (nonce : Nonce) (file : Config R) : Config R :=
  let prepared := c.prepareConfigForStore libs
  if prepared.password ≠ [] && (decodeH1FromStorage libs prepared.password).isNone then
    { prepared with password := keepEncryptedStorage libs nonce prepared.password file.password }
  else prepared

/-- What `load` makes of a file; an error is logged. -/
def load (file : Config R) : Config R :=
  match file.validateOrDecryptPermanentPasswordStorage libs with
  | .ok config => config
  | .error _ => file

end Config

/-- `BUILTIN_SETTINGS` and `HARD_SETTINGS`: whether the password may be changed, and the preset. -/
structure Preset where
  disableChange : Bool := false
  storage : Bytes := []
  salt : Bytes := []

/-- The configuration in memory and in its file. -/
structure Machine (R : Type) where
  mem : Config R
  file : Config R
  deriving DecidableEq

/-- What came of setting the password. -/
inductive SetPassword where
  | disabled
  | matchesPreset
  | failed
  | unchanged
  | stored
  deriving DecidableEq

namespace Machine

variable (libs : Libs) (m : Machine R)

/-- `store`; a write that fails is logged. -/
def store (nonce : Nonce) (written : Bool) : Machine R :=
  if written then { m with file := m.mem.stored libs nonce m.file } else m

/-- `ensure_permanent_password_salt` -/
def ensureSalt (draws : ℕ → ℕ) : Config R :=
  if m.mem.salt = [] then { m.mem with salt := getAutoPassword defaultSaltLen draws } else m.mem

/-- The end of `set_permanent_password`, when its write does not fail: `storage` is what the
password is to be stored as, if it could be computed. -/
def updatePassword (nonce : Nonce) (storage : Option Bytes) : Machine R × SetPassword :=
  match storage with
  | none => (m, .failed)
  | some storage =>
    if storage = m.mem.password then (m, .unchanged)
    else ({ m with mem := { m.mem with password := storage } }.store libs nonce true, .stored)

def setPermanentPassword (preset : Preset) (draws : ℕ → ℕ) (nonce : Nonce) (password : Bytes) :
    Machine R × SetPassword :=
  if preset.disableChange then (m, .disabled)
  else if presetStorageMatchesPlain libs preset.storage preset.salt password &&
      m.mem.password = [] then (m, .matchesPreset)
  else if password = [] then m.updatePassword libs nonce (some [])
  else
    { m with mem := m.ensureSalt draws }.updatePassword libs nonce
      (encodeEncryptedStorageFromH1 libs nonce
        (computeH1 libs password (m.ensureSalt draws).salt))

def setSalt (salt : Bytes) (nonce : Nonce) (written : Bool) : Machine R :=
  if salt = m.mem.salt then m
  else if !passwordIsEmptyOrNotHashed libs m.mem.password && m.mem.salt ≠ [] then m
  else { m with mem := { m.mem with salt := salt } }.store libs nonce written

def getSalt (draws : ℕ → ℕ) (nonce : Nonce) (written : Bool) : Machine R :=
  if m.mem.salt = [] then m.setSalt libs (getAutoPassword defaultSaltLen draws) nonce written
  else m

inductive Act (R : Type) where
  | setSalt (salt : Bytes) (nonce : Nonce) (written : Bool)
  | getSalt (draws : ℕ → ℕ) (nonce : Nonce) (written : Bool)
  | setRest (rest : R) (nonce : Nonce) (written : Bool)
  | store (nonce : Nonce) (written : Bool)
  | load (rest : R) (nonce : Nonce) (rewrite written : Bool)

/-- After a restart the file is loaded, and stored again if there is a new id. -/
def act : Act R → Machine R
  | .setSalt salt nonce written => m.setSalt libs salt nonce written
  | .getSalt draws nonce written => m.getSalt libs draws nonce written
  | .setRest rest nonce written =>
    { m with mem := { m.mem with rest := rest } }.store libs nonce written
  | .store nonce written => m.store libs nonce written
  | .load rest nonce rewrite written =>
    { m with mem := { Config.load libs m.file with rest := rest } }.store libs nonce
      (rewrite && written)

def acts (l : List (Act R)) : Machine R := l.foldl (act libs) m

end Machine

/-! ### What is encoded is decoded -/

section

variable {libs : Libs} {c : Config R} {nonce : Nonce} {salt storage h1 password : Bytes}
  {m : Machine R}

/-- The machine decrypts what it has encrypted. -/
lemma decrypt_encrypt (nonce : Nonce) (data : Bytes) :
    decrypt libs (encrypt libs nonce data) = some data := by
  obtain ⟨nonce, hnonce⟩ := nonce
  have hlength : 1 + nonceBytes + macBytes ≤
      (formatV1 :: (nonce ++ libs.sealBox data nonce libs.key)).length := by
    simp only [List.length_cons, List.length_append, libs.length_seal, hnonce, macBytes]
    omega
  have htake : (nonce ++ libs.sealBox data nonce libs.key).take nonceBytes = nonce :=
    List.take_left' hnonce
  have hdrop : (nonce ++ libs.sealBox data nonce libs.key).drop nonceBytes =
    libs.sealBox data nonce libs.key := List.drop_left' hnonce
  have hopen : openSecretboxPayload libs (formatV1 :: (nonce ++ libs.sealBox data nonce libs.key))
      libs.key = some data := by
    rw [openSecretboxPayload, if_pos (by simpa using hlength), Nat.add_comm 1, List.drop_succ_cons,
      List.drop_succ_cons, List.drop_zero, htake, hdrop, libs.open_seal]
    rfl
  rw [decrypt, encrypt, hopen]
  rfl

lemma encrypt_ne_nil (nonce : Nonce) (data : Bytes) : 0 < (encrypt libs nonce data).length :=
  Nat.succ_pos _

lemma startsWith_append (version s : Bytes) : startsWith (version ++ s) version :=
  List.isPrefixOf_iff_prefix.mpr (List.prefix_append _ _)

lemma charCount_le_length (s : Bytes) : charCount s ≤ s.length := List.countP_le_length

lemma decodeH1FromHashedStorage_encode (h : h1.length = h1Len) :
    decodeH1FromHashedStorage libs (encodeStorageFromH1 libs h1) = some h1 := by
  have hversion : startsWith (encodeStorageFromH1 libs h1) passwordHashVersion :=
    startsWith_append _ _
  have hdrop : (encodeStorageFromH1 libs h1).drop versionLen = libs.encode h1 := rfl
  rw [decodeH1FromHashedStorage, if_pos hversion, hdrop, libs.decode_encode]
  simp [h]

lemma encodeStorageFromH1_ascii (h1 : Bytes) : ∀ b ∈ encodeStorageFromH1 libs h1, b < 128 := by
  have hversion : ∀ b ∈ passwordHashVersion, b < 128 := by decide +kernel
  intro b hb
  rcases List.mem_append.mp hb with hb | hb
  · exact hversion b hb
  · exact libs.encode_ascii h1 b hb

/-- The text of a hash is short enough to be encrypted. -/
lemma charCount_encodeStorageFromH1 (h : h1.length = h1Len) :
    charCount (encodeStorageFromH1 libs h1) ≤ encryptMaxLen := by
  have hencoded := libs.length_encode_le h1
  have hlength : (encodeStorageFromH1 libs h1).length = 2 + (libs.encode h1).length :=
    List.length_append
  have hcount := charCount_le_length (encodeStorageFromH1 libs h1)
  rw [h] at hencoded
  simp only [h1Len, encryptMaxLen] at *
  omega

lemma decodeH1FromStorage_eq_some : decodeH1FromStorage libs storage = some h1 ↔
    startsWith storage permanentPasswordEncVersion ∧
    (decryptPermanentStrOrOriginal libs storage).2 ∧
    decodeH1FromHashedStorage libs (decryptPermanentStrOrOriginal libs storage).1 = some h1 := by
  rw [decodeH1FromStorage]
  split_ifs <;> simp_all

lemma decryptPermanentStrOrOriginal_encrypt (nonce : Nonce) (s : Bytes) :
    decryptPermanentStrOrOriginal libs
      (permanentPasswordEncVersion ++ libs.encode (encrypt libs nonce s)) =
    (libs.fromUtf8Lossy s, true) := by
  have hdrop : (permanentPasswordEncVersion ++ libs.encode (encrypt libs nonce s)).drop
    versionLen = libs.encode (encrypt libs nonce s) := rfl
  have hlength : versionLen <
      (permanentPasswordEncVersion ++ libs.encode (encrypt libs nonce s)).length := by
    have := libs.length_le_encode (encrypt libs nonce s)
    have : 0 < (encrypt libs nonce s).length := encrypt_ne_nil nonce s
    rw [List.length_append]
    exact Nat.lt_add_of_pos_right (by omega)
  have hguard : (versionLen <
      (permanentPasswordEncVersion ++ libs.encode (encrypt libs nonce s)).length &&
      startsWith (permanentPasswordEncVersion ++ libs.encode (encrypt libs nonce s))
        permanentPasswordEncVersion) = true := by
    rw [startsWith_append]
    simpa using hlength
  rw [decryptPermanentStrOrOriginal, if_pos hguard, hdrop, libs.decode_encode,
    Option.bind_some, decrypt_encrypt]

lemma decodeH1FromStorage_encode (hlen : h1.length = h1Len)
    (h : encodeEncryptedStorageFromH1 libs nonce h1 = some storage) :
    decodeH1FromStorage libs storage = some h1 := by
  rw [encodeEncryptedStorageFromH1, encryptStorage,
    if_neg (charCount_encodeStorageFromH1 hlen).not_gt, Option.some.injEq] at h
  subst h
  rw [decodeH1FromStorage_eq_some, decryptPermanentStrOrOriginal_encrypt,
    libs.lossy_ascii _ (encodeStorageFromH1_ascii h1)]
  exact ⟨startsWith_append _ _, rfl, decodeH1FromHashedStorage_encode hlen⟩

/-- The two versions are told apart. -/
lemma not_startsWith_of_startsWith (h : startsWith storage permanentPasswordEncVersion) :
    ¬startsWith storage passwordEncVersion := by
  obtain ⟨rest, rfl⟩ := List.isPrefixOf_iff_prefix.mp h
  intro h'
  obtain ⟨rest', h'⟩ := List.isPrefixOf_iff_prefix.mp h'
  have hsecond := congrArg (·.take 2) h'
  exact absurd hsecond (by simp [passwordEncVersion, permanentPasswordEncVersion, ascii])

lemma ne_nil_of_startsWith (h : startsWith storage permanentPasswordEncVersion) :
    storage ≠ [] := by
  rintro rfl
  exact absurd h (by decide)

/-! ### A hash with its salt -/

/-- The password is a hash, and has the salt. -/
structure Config.Holds (libs : Libs) (c : Config R) (salt h1 : Bytes) : Prop where
  salt_eq : c.salt = salt
  salt_ne : salt ≠ []
  decoded : decodeH1FromStorage libs c.password = some h1

namespace Config.Holds

variable {file : Config R} (h : c.Holds libs salt h1)

include h

lemma usable : localStorageIsUsableForAuth libs c.password c.salt := by
  have hstart := (decodeH1FromStorage_eq_some.mp h.decoded).1
  rw [localStorageIsUsableForAuth, if_neg (ne_nil_of_startsWith hstart), h.decoded, h.salt_eq]
  simpa using h.salt_ne

lemma validate : c.validateOrDecryptPermanentPasswordStorage libs = .ok c := by
  obtain ⟨hstart, hdecrypted, hdecoded⟩ := decodeH1FromStorage_eq_some.mp h.decoded
  have hsalt : c.salt ≠ [] := h.salt_eq ▸ h.salt_ne
  rw [Config.validateOrDecryptPermanentPasswordStorage, if_neg (ne_nil_of_startsWith hstart),
    if_neg (not_startsWith_of_startsWith hstart)]
  simp [hdecrypted, hsalt, hdecoded]

lemma stored : (c.stored libs nonce file).Holds libs salt h1 := by
  have hprepared : c.prepareConfigForStore libs = c := by
    rw [Config.prepareConfigForStore, h.validate]
  rw [Config.stored, hprepared, h.decoded]
  simpa using h

lemma load : (Config.load libs c).Holds libs salt h1 := by
  rw [Config.load, h.validate]
  exact h

lemma setRest (rest : R) : Config.Holds libs { c with rest := rest } salt h1 :=
  ⟨h.salt_eq, h.salt_ne, h.decoded⟩

lemma passwordIsEmptyOrNotHashed : passwordIsEmptyOrNotHashed libs c.password = false := by
  have hstart := (decodeH1FromStorage_eq_some.mp h.decoded).1
  rw [RustDesk.Settings.passwordIsEmptyOrNotHashed, if_neg (ne_nil_of_startsWith hstart), h.decoded]
  rfl

end Config.Holds

/-! ### The machine -/

structure Machine.Holds (libs : Libs) (m : Machine R) (salt h1 : Bytes) : Prop where
  mem : m.mem.Holds libs salt h1
  file : m.file.Holds libs salt h1

namespace Machine.Holds

variable {m : Machine R} (h : m.Holds libs salt h1)

include h

lemma store (nonce : Nonce) (written : Bool) : (m.store libs nonce written).Holds libs salt h1 := by
  rw [Machine.store]
  split
  · exact ⟨h.mem, h.mem.stored⟩
  · exact h

lemma setSalt (salt' : Bytes) (nonce : Nonce) (written : Bool) :
    m.setSalt libs salt' nonce written = m := by
  have hsalt : m.mem.salt ≠ [] := h.mem.salt_eq ▸ h.mem.salt_ne
  rw [Machine.setSalt, h.mem.passwordIsEmptyOrNotHashed]
  simp [hsalt]

/-- One act keeps the hash and its salt, in memory and in the file. -/
lemma act (a : Act R) : (m.act libs a).Holds libs salt h1 := by
  cases a with
  | setSalt salt' nonce written =>
    rw [Machine.act, h.setSalt]
    exact h
  | getSalt draws nonce written =>
    rw [Machine.act, Machine.getSalt, h.setSalt, ite_self]
    exact h
  | setRest rest nonce written =>
    have hrest : Machine.Holds libs { m with mem := { m.mem with rest := rest } } salt h1 :=
      ⟨h.mem.setRest rest, h.file⟩
    exact hrest.store nonce written
  | store nonce written => exact h.store nonce written
  | load rest nonce rewrite written =>
    have hload : Machine.Holds libs
        { m with mem := { Config.load libs m.file with rest := rest } } salt h1 :=
      ⟨h.file.load.setRest rest, h.file⟩
    exact hload.store nonce (rewrite && written)

lemma acts (l : List (Act R)) : (m.acts libs l).Holds libs salt h1 := by
  induction l generalizing m with
  | nil => exact h
  | cons a l ih => exact ih (h.act a)

end Machine.Holds

lemma getAutoPassword_ne_nil (draws : ℕ → ℕ) : getAutoPassword defaultSaltLen draws ≠ [] := by
  rw [← List.length_pos_iff, getAutoPassword, List.length_map, List.length_range]
  decide

lemma Machine.ensureSalt_ne_nil (m : Machine R) (draws : ℕ → ℕ) :
    (m.ensureSalt draws).salt ≠ [] := by
  rw [Machine.ensureSalt]
  split_ifs with h
  · exact getAutoPassword_ne_nil draws
  · exact h

/-- A storage that has been written is held in memory and in the file. -/
lemma Machine.holds_of_updatePassword {stored : Option Bytes}
    (hstored : (m.updatePassword libs nonce stored).2 = .stored) (hsalt : m.mem.salt ≠ [])
    (h1 : Bytes) (h : ∀ storage ∈ stored, decodeH1FromStorage libs storage = some h1) :
    (m.updatePassword libs nonce stored).1.Holds libs m.mem.salt h1 := by
  cases stored with
  | none => cases hstored
  | some storage =>
    rw [Machine.updatePassword] at hstored ⊢
    split_ifs at hstored ⊢
    have hmem : Config.Holds libs { m.mem with password := storage } m.mem.salt h1 :=
      ⟨rfl, hsalt, h storage rfl⟩
    exact ⟨hmem, hmem.stored⟩

lemma Machine.mem_salt_updatePassword (m : Machine R) (stored : Option Bytes) :
    (m.updatePassword libs nonce stored).1.mem.salt = m.mem.salt := by
  cases stored with
  | none => rfl
  | some storage =>
    rw [Machine.updatePassword]
    split_ifs <;> rfl

lemma Machine.holds_of_stored {preset : Preset} {draws : ℕ → ℕ} (hpassword : password ≠ [])
    (h : (m.setPermanentPassword libs preset draws nonce password).2 = .stored) :
    let m' := (m.setPermanentPassword libs preset draws nonce password).1
    m'.Holds libs m'.mem.salt (computeH1 libs password m'.mem.salt) := by
  rw [Machine.setPermanentPassword, if_neg hpassword] at h ⊢
  split_ifs at h ⊢
  intro m'
  have hsalt : m'.mem.salt = (m.ensureSalt draws).salt := Machine.mem_salt_updatePassword _ _
  rw [hsalt]
  apply Machine.holds_of_updatePassword h (m.ensureSalt_ne_nil draws)
  intro storage hstorage
  exact decodeH1FromStorage_encode (libs.length_sha256 _) hstorage

/-! ### The password stays usable -/

/-- The configuration lets the password in, and no other but one of the same hash. -/
structure Config.UsableWith (libs : Libs) (c : Config R) (password salt : Bytes) : Prop where
  usable : localStorageIsUsableForAuth libs c.password c.salt
  salt_eq : c.salt = salt
  decoded : ∃ h1, decodeH1FromStorage libs c.password = some h1 ∧
    ∀ q, computeH1 libs q c.salt = h1 ↔ libs.sha256 (q ++ salt) = libs.sha256 (password ++ salt)

lemma Config.Holds.usableWith (h : c.Holds libs salt (computeH1 libs password salt)) :
    c.UsableWith libs password salt where
  usable := h.usable
  salt_eq := h.salt_eq
  decoded := by
    refine ⟨_, h.decoded, fun q => ?_⟩
    rw [h.salt_eq]
    rfl

end

/-- After a password has been stored it can be used, with the same salt, until it is changed. -/
theorem permanent_password_kept (libs : Libs) (m : Machine R) (preset : Preset) (draws : ℕ → ℕ)
    (nonce : Nonce) (password : Bytes) (hpassword : password ≠ [])
    (hstored : (m.setPermanentPassword libs preset draws nonce password).2 = .stored)
    (l : List (Machine.Act R)) :
    let m' := (m.setPermanentPassword libs preset draws nonce password).1
    (m'.acts libs l).mem.UsableWith libs password m'.mem.salt ∧
      (m'.acts libs l).file.UsableWith libs password m'.mem.salt := by
  intro m'
  have h : m'.Holds libs m'.mem.salt (computeH1 libs password m'.mem.salt) :=
    Machine.holds_of_stored hpassword hstored
  have hl := h.acts l
  exact ⟨hl.mem.usableWith, hl.file.usableWith⟩

/-- Two letters for a byte. -/
def hexEncode (bs : Bytes) : Bytes := bs.flatMap fun b => [97 + b / 16, 97 + b % 16]

def hexDecode : Bytes → Option Bytes
  | [] => some []
  | [_] => none
  | a :: b :: rest => (hexDecode rest).map fun bs => ((a - 97) * 16 + (b - 97)) :: bs

lemma hexDecode_hexEncode (bs : Bytes) : hexDecode (hexEncode bs) = some bs := by
  have hbyte : ∀ b : UInt8, (97 + b / 16 - 97) * 16 + (97 + b % 16 - 97) = b := by grind
  induction bs with
  | nil => rfl
  | cons b bs ih =>
    show (hexDecode (hexEncode bs)).map _ = _
    rw [ih, Option.map_some, hbyte]

lemma length_hexEncode (bs : Bytes) : (hexEncode bs).length = 2 * bs.length := by
  simp [hexEncode, List.length_flatMap, Nat.mul_comm]

/-- Libraries that hide nothing. -/
def plainLibs : Libs where
  sha256 bs := (bs ++ List.replicate 32 0).take 32
  encode := hexEncode
  decode := hexDecode
  fromUtf8Lossy := id
  sealBox data _ _ := data ++ List.replicate 16 0
  openBox box _ _ := some (box.take (box.length - 16))
  key := []
  pkKey := none
  length_sha256 bs := by simp
  decode_encode := hexDecode_hexEncode
  encode_ascii bs b hb := by
    have hbyte : ∀ b : UInt8, 97 + b / 16 < 128 ∧ 97 + b % 16 < 128 := by grind
    obtain ⟨c, -, hc⟩ := List.mem_flatMap.mp hb
    rcases List.mem_pair.mp hc with rfl | rfl
    · exact (hbyte c).1
    · exact (hbyte c).2
  length_le_encode bs := by
    rw [length_hexEncode]
    omega
  length_encode_le bs := by
    rw [length_hexEncode]
    omega
  lossy_ascii bs _ := rfl
  open_seal data _ _ := by simp
  length_seal data _ _ := by simp

/-- The salt is refused, and the password is there after a restart. -/
theorem permanent_password_kept_restart :
    let m : Machine ℕ := ⟨{ rest := 0 }, { rest := 0 }⟩
    let nonce : Nonce := ⟨List.replicate 24 7, rfl⟩
    let password : Bytes := "secret".toList.map ascii
    let m' := (m.setPermanentPassword plainLibs {} (fun i => i) nonce password).1
    let l : List (Machine.Act ℕ) := [.setSalt [1] nonce true, .load 1 nonce true true]
    password ≠ [] ∧
      (m'.acts plainLibs l).mem.UsableWith plainLibs password m'.mem.salt ∧
      (m'.acts plainLibs l).file.UsableWith plainLibs password m'.mem.salt := by
  intro m nonce password m' l
  have hpassword : password ≠ [] := by decide
  refine ⟨hpassword, ?_⟩
  apply permanent_password_kept plainLibs m {} (fun i => i) nonce password hpassword
  decide

end RustDesk.Settings
