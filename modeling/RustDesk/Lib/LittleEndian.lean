import Mathlib.Data.Nat.Digits.Lemmas
import Mathlib.Tactic

/-!
# Little-endian bytes

A number as a fixed count of bytes, least significant first, and back. `leValue` is Mathlib's
`Nat.ofDigits` in base 256.
-/

/-- The low `k` bytes of a number. -/
def leBytes : ℕ → ℕ → List UInt8
  | 0, _ => []
  | k + 1, n => UInt8.ofNat n :: leBytes k (n / 256)

/-- The number whose bytes these are. -/
def leValue (bs : List UInt8) : ℕ := Nat.ofDigits 256 (bs.map UInt8.toNat)

@[simp] lemma leValue_cons (b : UInt8) (bs : List UInt8) :
    leValue (b :: bs) = b.toNat + 256 * leValue bs := by
  rw [leValue, List.map_cons, Nat.ofDigits_cons, leValue]

@[simp] lemma length_leBytes (k n : ℕ) : (leBytes k n).length = k := by
  induction k generalizing n with
  | zero => rfl
  | succ k ih => rw [leBytes, List.length_cons, ih]

lemma leValue_lt (bs : List UInt8) : leValue bs < 256 ^ bs.length := by
  have h := Nat.ofDigits_lt_base_pow_length (b := 256) (l := bs.map UInt8.toNat) (by decide)
    fun d hd => by
      obtain ⟨b, -, rfl⟩ := List.mem_map.mp hd
      exact b.toNat_lt
  rwa [List.length_map] at h

lemma leValue_leBytes (h : n < 256 ^ k) : leValue (leBytes k n) = n := by
  induction k generalizing n with
  | zero =>
    obtain rfl : n = 0 := by simpa using h
    rfl
  | succ k ih =>
    have hdiv : n / 256 < 256 ^ k := Nat.div_lt_of_lt_mul (by rwa [← pow_succ'])
    rw [leBytes, leValue_cons, ih hdiv, UInt8.toNat_ofNat']
    omega

lemma leBytes_leValue (bs : List UInt8) : leBytes bs.length (leValue bs) = bs := by
  induction bs with
  | nil => rfl
  | cons b bs ih =>
    have hb := b.toNat_lt
    have hlow : UInt8.ofNat (b.toNat + 256 * leValue bs) = b := by
      apply UInt8.toNat_inj.mp
      rw [UInt8.toNat_ofNat']
      omega
    have hhigh : (b.toNat + 256 * leValue bs) / 256 = leValue bs := by omega
    rw [List.length_cons, leBytes, leValue_cons, hlow, hhigh, ih]

lemma leBytes_inj {m : ℕ} (hm : m < 256 ^ k) (hn : n < 256 ^ k) :
    leBytes k m = leBytes k n ↔ m = n := by
  constructor
  · intro h
    rw [← leValue_leBytes hm, h, leValue_leBytes hn]
  · rintro rfl
    rfl

/-! ### Length in front -/

/-- Bytes after their length, which takes `k` bytes itself. -/
def lePrefixed (k : ℕ) (bs : List UInt8) : List UInt8 := leBytes k bs.length ++ bs

lemma lePrefixed_append_inj {as bs rest rest' : List UInt8} (ha : as.length < 256 ^ k)
    (hb : bs.length < 256 ^ k) (h : lePrefixed k as ++ rest = lePrefixed k bs ++ rest') :
    as = bs ∧ rest = rest' := by
  rw [lePrefixed, lePrefixed, List.append_assoc, List.append_assoc] at h
  obtain ⟨hlen, h⟩ := List.append_inj h (by rw [length_leBytes, length_leBytes])
  exact List.append_inj h ((leBytes_inj ha hb).mp hlen)

/-- Adjacent fields do not alias. -/
lemma flatMap_lePrefixed_inj (hk : 0 < k) {as bs : List (List UInt8)}
    (ha : ∀ a ∈ as, a.length < 256 ^ k) (hb : ∀ b ∈ bs, b.length < 256 ^ k)
    (h : as.flatMap (lePrefixed k) = bs.flatMap (lePrefixed k)) : as = bs := by
  have hne : ∀ x rest, lePrefixed k x ++ rest ≠ [] := by
    intro x rest hnil
    have hlen := congrArg List.length hnil
    rw [List.length_append, lePrefixed, List.length_append, length_leBytes,
      List.length_nil] at hlen
    omega
  induction as generalizing bs with
  | nil =>
    cases bs with
    | nil => rfl
    | cons b bs => exact absurd h.symm (hne b _)
  | cons a as ih =>
    cases bs with
    | nil => exact absurd h (hne a _)
    | cons b bs =>
      rw [List.flatMap_cons, List.flatMap_cons] at h
      rw [List.forall_mem_cons] at ha hb
      obtain ⟨rfl, hrest⟩ := lePrefixed_append_inj ha.1 hb.1 h
      rw [ih ha.2 hb.2 hrest]
