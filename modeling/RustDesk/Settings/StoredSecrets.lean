import RustDesk.Settings.PermanentPassword

/-!
# Secrets in the configuration

A secret is stored encrypted, under the version `00`, and a text that is encrypted already is stored
as it is. The two are told apart by their form, so a secret that has the form of an encrypted text
is stored in the clear; it comes back as it was unless one of the keys opens it. The keys are that
of the machine and, where that one fails, the one of its key pair.
-/

namespace RustDesk.Settings

variable {box : Bytes}

/-! ### Text -/

/-- `str::as_bytes` -/
def utf8 (s : String) : Bytes := s.toUTF8.data.toList

lemma utf8_eq (s : String) : utf8 s = s.toList.flatMap String.utf8EncodeChar := by
  unfold utf8 String.toUTF8
  rw [← String.utf8Encode_toList, List.utf8Encode]
  simp

lemma inside_char_iff : ∀ n < 256, UInt8.ofNat n &&& 0xC0 = 0x80 ↔ 128 ≤ n ∧ n < 192 := by
  decide +kernel

/-- An encoding counts for one: its first byte does, the others do not. -/
lemma countP_encoding {b : UInt8} {bs : Bytes} (hb : b &&& 0xC0 ≠ 0x80)
    (hbs : ∀ b ∈ bs, b &&& 0xC0 = 0x80) : (b :: bs).countP (fun b => b &&& 0xC0 ≠ 0x80) = 1 := by
  have hrest : bs.countP (fun b => b &&& 0xC0 ≠ 0x80) = 0 :=
    List.countP_eq_zero.mpr fun b hb' => by simpa using hbs b hb'
  rw [List.countP_cons_of_pos (by simpa using hb), hrest]

lemma countP_utf8EncodeChar (c : Char) :
    (String.utf8EncodeChar c).countP (fun b => b &&& 0xC0 ≠ 0x80) = 1 := by
  have hinside : ∀ n, UInt8.ofNat (n % 64 + 128) &&& 0xC0 = 0x80 := fun n =>
    (inside_char_iff _ (by omega)).mpr (by omega)
  have hfirst : ∀ n < 256, (n < 128 ∨ 192 ≤ n) → UInt8.ofNat n &&& 0xC0 ≠ 0x80 := by
    intro n hn hout heq
    have := (inside_char_iff n hn).mp heq
    omega
  have hnil : ∀ b ∈ ([] : Bytes), b &&& 0xC0 = 0x80 := nofun
  unfold String.utf8EncodeChar
  dsimp only
  generalize c.val.toNat = v
  split_ifs with h1 h2 h3
  · exact countP_encoding (hfirst v (by omega) (by omega)) hnil
  · exact countP_encoding (hfirst _ (by omega) (by omega)) (List.forall_mem_cons.mpr
      ⟨hinside _, hnil⟩)
  · exact countP_encoding (hfirst _ (by omega) (by omega)) (List.forall_mem_cons.mpr
      ⟨hinside _, List.forall_mem_cons.mpr ⟨hinside _, hnil⟩⟩)
  · exact countP_encoding (hfirst _ (by omega) (by omega)) (List.forall_mem_cons.mpr
      ⟨hinside _, List.forall_mem_cons.mpr ⟨hinside _, List.forall_mem_cons.mpr
        ⟨hinside _, hnil⟩⟩⟩)

/-- `s.chars().count()` -/
lemma charCount_utf8 (s : String) : charCount (utf8 s) = s.length := by
  have hone : List.countP (fun b => b &&& 0xC0 ≠ 0x80) ∘ String.utf8EncodeChar = fun _ => 1 :=
    funext countP_utf8EncodeChar
  rw [utf8_eq, charCount, List.countP_flatMap, hone]
  simp [String.length_toList]

/-! ### What a key opens -/

/-- `secretbox` opens nothing but what was sealed under the same key and nonce, and the bytes of a
string come back from `from_utf8_lossy` as they are. -/
structure Libs.Ideal (libs : Libs) : Prop where
  sealed : ∀ box nonce key plain, libs.openBox box nonce key = some plain →
    box = libs.sealBox plain nonce key
  lossy : ∀ s, libs.fromUtf8Lossy (utf8 s) = utf8 s

section

variable (libs : Libs)

/-- A box that was sealed under the key, in the current format or in that of earlier versions. -/
def SealedUnder (key box : Bytes) : Prop :=
  ∃ plain, (∃ nonce : Nonce, box = formatV1 :: (nonce.val ++ libs.sealBox plain nonce key)) ∨
    box = libs.sealBox plain (List.replicate nonceBytes 0) key

/-- A text that is the ciphertext of something under the key. -/
def Authentic (key s : Bytes) : Prop :=
  ∃ text box, s = passwordEncVersion ++ text ∧ libs.decode text = some box ∧
    SealedUnder libs key box

variable {libs} {key box s : Bytes} {nonce : Nonce} {maxLen : ℕ}

/-- A key opens only what was sealed under it. -/
lemma openSecretboxPayload_eq_none (hideal : libs.Ideal) (h : ¬SealedUnder libs key box) :
    openSecretboxPayload libs box key = none := by
  have hlegacy : libs.openBox box (List.replicate nonceBytes 0) key = none := by
    refine Option.eq_none_iff_forall_not_mem.mpr fun plain hplain => h ⟨plain, .inr ?_⟩
    exact hideal.sealed _ _ _ _ hplain
  unfold openSecretboxPayload
  dsimp only
  rw [hlegacy]
  split_ifs with hform
  · simp only [Bool.and_eq_true, decide_eq_true_eq] at hform
    obtain ⟨hhead, hlength⟩ := hform
    obtain ⟨rest, rfl⟩ : ∃ rest, box = formatV1 :: rest := by
      cases box with
      | nil => cases hhead
      | cons b rest => exact ⟨rest, by rw [Option.some.inj hhead]⟩
    have hnonce : (rest.take nonceBytes).length = nonceBytes := by
      rw [List.length_cons] at hlength
      rw [List.length_take]
      omega
    rw [Nat.add_comm 1, List.drop_succ_cons, List.drop_succ_cons, List.drop_zero]
    cases hopen : libs.openBox (rest.drop nonceBytes) (rest.take nonceBytes) key with
    | none => rfl
    | some plain =>
      refine absurd ⟨plain, .inl ⟨⟨rest.take nonceBytes, hnonce⟩, ?_⟩⟩ h
      rw [← hideal.sealed _ _ _ _ hopen, List.take_append_drop]
  · rfl

lemma decrypt_eq_none (hideal : libs.Ideal) (hkey : ¬SealedUnder libs libs.key box)
    (hpk : ∀ key ∈ libs.pkKey, ¬SealedUnder libs key box) : decrypt libs box = none := by
  unfold decrypt
  rw [openSecretboxPayload_eq_none hideal hkey]
  cases hpkKey : libs.pkKey with
  | none => rfl
  | some pkKey => exact openSecretboxPayload_eq_none hideal (hpk pkKey hpkKey)

/-! ### Storing and loading -/

/-- A text that no key opens is loaded as it is. -/
lemma decryptStrOrOriginal_original (hideal : libs.Ideal) (hkey : ¬Authentic libs libs.key s)
    (hpk : ∀ key ∈ libs.pkKey, ¬Authentic libs key s) : (decryptStrOrOriginal libs s).1 = s := by
  unfold decryptStrOrOriginal
  dsimp only
  split_ifs with hform
  · simp only [Bool.and_eq_true, decide_eq_true_eq] at hform
    have hsplit : s = passwordEncVersion ++ s.drop versionLen := by
      obtain ⟨text, rfl⟩ := List.isPrefixOf_iff_prefix.mp hform.2
      rfl
    cases hdecode : libs.decode (s.drop versionLen) with
    | none => rfl
    | some box =>
      have hnone : decrypt libs box = none := decrypt_eq_none hideal
        (fun h => hkey ⟨_, box, hsplit, hdecode, h⟩)
        fun key hmem h => hpk key hmem ⟨_, box, hsplit, hdecode, h⟩
      rw [Option.bind_some, hnone]
  · rfl

/-- What a secret is encrypted to has the form of an encrypted text. -/
lemma isEncrypted_encrypted (nonce : Nonce) (s : Bytes) :
    isEncrypted libs (passwordEncVersion ++ libs.encode (encrypt libs nonce s)) = true := by
  have hencoded := libs.length_le_encode (encrypt libs nonce s)
  have hmac : macBytes ≤ (encrypt libs nonce s).length := by
    simp only [encrypt, List.length_cons, List.length_append, libs.length_seal, macBytes]
    omega
  have hlength :
      versionLen < (passwordEncVersion ++ libs.encode (encrypt libs nonce s)).length := by
    rw [List.length_append]
    change 2 < 2 + _
    unfold macBytes at hmac
    omega
  have hdrop : (passwordEncVersion ++ libs.encode (encrypt libs nonce s)).drop versionLen =
    libs.encode (encrypt libs nonce s) := rfl
  rw [isEncrypted, startsWith_append, hdrop, libs.decode_encode, decide_eq_true hlength]
  simpa using hmac

lemma decryptStrOrOriginal_encrypted (nonce : Nonce) (s : Bytes) :
    decryptStrOrOriginal libs (passwordEncVersion ++ libs.encode (encrypt libs nonce s)) =
      (libs.fromUtf8Lossy s, true, false) := by
  have hform : isEncrypted libs (passwordEncVersion ++ libs.encode (encrypt libs nonce s)) = true :=
    isEncrypted_encrypted nonce s
  simp only [isEncrypted, Bool.and_eq_true] at hform
  have hdrop : (passwordEncVersion ++ libs.encode (encrypt libs nonce s)).drop versionLen =
    libs.encode (encrypt libs nonce s) := rfl
  unfold decryptStrOrOriginal
  dsimp only
  rw [if_pos (by simpa using hform.1), hdrop, libs.decode_encode, Option.bind_some,
    decrypt_encrypt]

/-- The three ways a secret of allowed length is stored. -/
lemma encryptStrOrOriginal_cases (libs : Libs) (nonce : Nonce) (hlen : charCount s ≤ maxLen) :
    (isEncrypted libs s = true ∨ s = []) ∧ encryptStrOrOriginal libs nonce s maxLen = s ∨
      isEncrypted libs s = false ∧ s ≠ [] ∧ encryptStrOrOriginal libs nonce s maxLen =
        passwordEncVersion ++ libs.encode (encrypt libs nonce s) := by
  unfold encryptStrOrOriginal
  split_ifs with hencrypted hlong hnil
  · exact .inl ⟨.inl hencrypted, rfl⟩
  · omega
  · exact .inl ⟨.inr hnil, rfl⟩
  · exact .inr ⟨by simpa using hencrypted, hnil, rfl⟩

/-- A text that has the form of an encrypted one is stored as it is, and so is the empty one. -/
lemma encryptStrOrOriginal_original (nonce : Nonce) (maxLen : ℕ)
    (h : isEncrypted libs s = true ∨ s = []) : encryptStrOrOriginal libs nonce s maxLen = s := by
  unfold encryptStrOrOriginal
  rcases h with h | rfl
  · rw [if_pos h]
  · split_ifs with _ _ hnil
    · rfl
    · rfl
    · rfl
    · exact absurd rfl hnil

end

/-- Secrets come back as they were stored: one that no key of the machine opens is loaded with its
value; one that does not have the form of an encrypted text is stored as another text, which is
decrypted and not stored again; and storing what was stored changes nothing. -/
theorem stored_secret_round_trip {libs : Libs} (hideal : libs.Ideal) (nonce nonce' : Nonce)
    {s : String} {maxLen : ℕ} (hlen : s.length ≤ maxLen)
    (hkey : ¬Authentic libs libs.key (utf8 s))
    (hpk : ∀ key ∈ libs.pkKey, ¬Authentic libs key (utf8 s)) :
    let stored := encryptStrOrOriginal libs nonce (utf8 s) maxLen
    (decryptStrOrOriginal libs stored).1 = utf8 s ∧
      (s ≠ "" → isEncrypted libs (utf8 s) = false →
        stored ≠ utf8 s ∧ (decryptStrOrOriginal libs stored).2 = (true, false)) ∧
      encryptStrOrOriginal libs nonce' stored maxLen = stored := by
  intro stored
  have hcount : charCount (utf8 s) ≤ maxLen := by rwa [charCount_utf8]
  rcases encryptStrOrOriginal_cases libs nonce hcount with
    ⟨hform, hstored⟩ | ⟨hplain, hne, hstored⟩
  · have hsame : stored = utf8 s := hstored
    rw [hsame]
    refine ⟨decryptStrOrOriginal_original hideal hkey hpk, fun hne hplain => ?_,
      encryptStrOrOriginal_original nonce' maxLen hform⟩
    rcases hform with hencrypted | hempty
    · rw [hplain] at hencrypted
      cases hencrypted
    · have hlength := charCount_utf8 s
      rw [hempty] at hlength
      exact absurd (String.length_eq_zero_iff.mp hlength.symm) hne
  · have hencrypted : stored = passwordEncVersion ++ libs.encode (encrypt libs nonce (utf8 s)) :=
      hstored
    have hform : isEncrypted libs stored = true := by
      rw [hencrypted]
      exact isEncrypted_encrypted nonce (utf8 s)
    have hload : decryptStrOrOriginal libs stored = (utf8 s, true, false) := by
      rw [hencrypted, decryptStrOrOriginal_encrypted, hideal.lossy]
    refine ⟨by rw [hload], fun _ _ => ⟨fun heq => ?_, by rw [hload]⟩,
      encryptStrOrOriginal_original nonce' maxLen (.inl hform)⟩
    rw [heq, hplain] at hform
    cases hform

/-! ### Ciphertexts of the key pair -/

/-- `secretbox` with the key in place of the tag. -/
def keyTag (key : Bytes) : Bytes := (key ++ List.replicate 16 0).take 16

lemma length_keyTag (key : Bytes) : (keyTag key).length = 16 := by
  simp [keyTag]

/-- A machine with a key pair of its own, and libraries that evaluate. -/
def keyedLibs : Libs where
  sha256 bs := (bs ++ List.replicate 32 0).take 32
  encode := hexEncode
  decode := hexDecode
  fromUtf8Lossy := id
  sealBox data _ key := keyTag key ++ data
  openBox box _ key := if (keyTag key).isPrefixOf box then some (box.drop 16) else none
  key := [1]
  pkKey := some [2]
  length_sha256 := plainLibs.length_sha256
  decode_encode := hexDecode_hexEncode
  encode_ascii := plainLibs.encode_ascii
  length_le_encode := plainLibs.length_le_encode
  length_encode_le := plainLibs.length_encode_le
  lossy_ascii := plainLibs.lossy_ascii
  open_seal data _ key := by
    rw [if_pos (List.isPrefixOf_iff_prefix.mpr (List.prefix_append _ _)),
      List.drop_left' (length_keyTag key)]
  length_seal data _ key := by
    rw [List.length_append, length_keyTag, Nat.add_comm]

lemma ideal_keyedLibs : keyedLibs.Ideal where
  sealed box nonce key plain h := by
    change (if (keyTag key).isPrefixOf box then some (box.drop 16) else none) = some plain at h
    split_ifs at h with hprefix
    obtain ⟨rest, rfl⟩ := List.isPrefixOf_iff_prefix.mp hprefix
    rw [List.drop_left' (length_keyTag key)] at h
    cases h
    rfl
  lossy _ := rfl

/-- What is sealed under the machine's key begins with the format or the key. -/
lemma head_of_sealedUnder (h : SealedUnder keyedLibs [1] box) : box.head? = some 1 := by
  obtain ⟨plain, ⟨nonce, rfl⟩ | rfl⟩ := h <;> rfl

lemma not_authentic_of_head {s text : Bytes} (hs : s = passwordEncVersion ++ text)
    (hdecode : hexDecode text = some box) (hhead : box.head? ≠ some 1) :
    ¬Authentic keyedLibs keyedLibs.key s := by
  rintro ⟨text', box', hs', hdecode', hsealed⟩
  obtain rfl : text = text' := List.append_cancel_left (hs.symm.trans hs')
  obtain rfl : box = box' := Option.some.inj (hdecode.symm.trans hdecode')
  exact hhead (head_of_sealedUnder hsealed)

/-- A word is stored under the machine's key and loaded again. -/
theorem stored_secret_round_trip_word :
    let nonce : Nonce := ⟨List.replicate 24 7, rfl⟩
    let stored := encryptStrOrOriginal keyedLibs nonce (utf8 "secret") 128
    (decryptStrOrOriginal keyedLibs stored).1 = utf8 "secret" ∧ stored ≠ utf8 "secret" := by
  intro nonce stored
  have hplain : ∀ key, ¬Authentic keyedLibs key (utf8 "secret") := by
    rintro key ⟨text, box, hs, -⟩
    have hhead : (utf8 "secret").head? = some 48 := congrArg List.head? hs
    rw [utf8_eq] at hhead
    revert hhead
    decide
  have hlen : "secret".length ≤ 128 := by decide
  have htrip := stored_secret_round_trip ideal_keyedLibs nonce nonce hlen (hplain _)
    fun key _ => hplain key
  exact ⟨htrip.1, (htrip.2.1 (by decide) (by rw [utf8_eq]; decide)).1⟩

/-- A text that is a ciphertext under the key of the key pair, and not under that of the machine,
comes back as what it is the ciphertext of. -/
theorem pair_ciphertext_opened :
    let nonce : Nonce := ⟨List.replicate 24 7, rfl⟩
    let s := "00acaaaaaaaaaaaaaaaaaaaaaaaaaaaaaahi"
    keyedLibs.Ideal ∧ s.length ≤ 128 ∧ ¬Authentic keyedLibs keyedLibs.key (utf8 s) ∧
      (decryptStrOrOriginal keyedLibs (encryptStrOrOriginal keyedLibs nonce (utf8 s) 128)).1 =
        utf8 "x" ∧ utf8 "x" ≠ utf8 s := by
  intro nonce s
  refine ⟨ideal_keyedLibs, by decide, ?_, ?_, ?_⟩
  · have hs : utf8 s = passwordEncVersion ++ utf8 "acaaaaaaaaaaaaaaaaaaaaaaaaaaaaaahi" := by
      rw [utf8_eq, utf8_eq]
      decide
    have hdecode : hexDecode (utf8 "acaaaaaaaaaaaaaaaaaaaaaaaaaaaaaahi") =
        some (2 :: (List.replicate 15 0 ++ [120])) := by
      rw [utf8_eq]
      decide
    exact not_authentic_of_head hs hdecode (by decide)
  · rw [utf8_eq, utf8_eq]
    decide
  · rw [utf8_eq, utf8_eq]
    decide

end RustDesk.Settings
