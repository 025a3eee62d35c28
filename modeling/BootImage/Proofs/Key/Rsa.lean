import BootImage.Key.Reader
import BootImage.Proofs.Bytes
import BootImage.Proofs.Digest.Agreement
import Mathlib.FieldTheory.Finite.Basic

/-! Signatures of RSA keys. The public exponent undoes the private one on every number below the
modulus, those that share a prime with it included, so raising a signature to the public exponent
gives back the encoded message. The encoding is the one of RSASSA-PKCS1-v1_5 over SHA-256. -/

namespace BootImage.Key

theorem powMod_eq (base exponent modulus : ℕ) :
    powMod base exponent modulus = base ^ exponent % modulus := by
  have hhalf (base exponent : ℕ) :
      (base * base % modulus) ^ exponent % modulus = base ^ (2 * exponent) % modulus := by
    rw [← Nat.pow_mod, pow_mul, sq]
  induction exponent using Nat.strong_induction_on generalizing base with
  | _ exponent ih =>
    rw [powMod]
    by_cases hzero : exponent = 0
    · rw [if_pos hzero, hzero, pow_zero]
    · have hless : exponent / 2 < exponent := by omega
      rw [if_neg hzero, ih _ hless, hhalf]
      by_cases hodd : exponent % 2 = 1
      · have hsplit : exponent = 2 * (exponent / 2) + 1 := by omega
        rw [if_pos hodd, Nat.mul_mod_mod, ← pow_succ', ← hsplit]
      · have hsplit : exponent = 2 * (exponent / 2) := by omega
        rw [if_neg hodd, ← hsplit]

/-- Fermat's theorem, also where the prime divides the base. -/
theorem pow_modEq_self {p k : ℕ} (hp : p.Prime) (hk : k ≠ 0) (h : k ≡ 1 [MOD p - 1]) (m : ℕ) :
    m ^ k ≡ m [MOD p] := by
  -- where the prime divides the base both sides are zero, and Fermat's theorem says nothing
  by_cases hdvd : p ∣ m
  · have hzero : m ≡ 0 [MOD p] := Nat.modEq_zero_iff_dvd.mpr hdvd
    calc m ^ k ≡ 0 ^ k [MOD p] := hzero.pow k
      _ = 0 := zero_pow hk
      _ ≡ m [MOD p] := hzero.symm
  · obtain ⟨c, hc⟩ := (Nat.modEq_iff_dvd' (Nat.one_le_iff_ne_zero.mpr hk)).mp h.symm
    have hone : m ^ (p - 1) ≡ 1 [MOD p] := by
      rw [← Nat.totient_prime hp]
      exact Nat.ModEq.pow_totient ((hp.coprime_iff_not_dvd.mpr hdvd).symm)
    have hsplit : k = (p - 1) * c + 1 := by omega
    calc m ^ k = (m ^ (p - 1)) ^ c * m := by rw [hsplit, pow_succ, pow_mul]
      _ ≡ 1 ^ c * m [MOD p] := (hone.pow c).mul_right m
      _ = m := by rw [one_pow, one_mul]

namespace RsaKey

/-- The prime factors of a key, and its exponents as inverse to each other. -/
structure IsPair (key : RsaKey) (p q : ℕ) : Prop where
  modulus : key.modulus = p * q
  prime : p.Prime ∧ q.Prime
  distinct : p ≠ q
  inverse : key.publicExponent * key.privateExponent ≡ 1 [MOD p - 1] ∧
    key.publicExponent * key.privateExponent ≡ 1 [MOD q - 1]

variable {key : RsaKey} {p q : ℕ}

theorem IsPair.exponents_ne_zero (h : key.IsPair p q) :
    key.publicExponent * key.privateExponent ≠ 0 := by
  intro hzero
  have hp := h.prime.1.two_le
  have hq := h.prime.2.two_le
  have hdistinct := h.distinct
  have hinverse := h.inverse
  rw [hzero] at hinverse
  have hp1 := Nat.dvd_one.mp (Nat.modEq_zero_iff_dvd.mp hinverse.1.symm)
  have hq1 := Nat.dvd_one.mp (Nat.modEq_zero_iff_dvd.mp hinverse.2.symm)
  omega

theorem IsPair.pow_pow (h : key.IsPair p q) {m : ℕ} (hm : m < key.modulus) :
    (m ^ key.privateExponent % key.modulus) ^ key.publicExponent % key.modulus = m := by
  have hne := h.exponents_ne_zero
  have hcoprime : Nat.Coprime p q := (Nat.coprime_primes h.prime.1 h.prime.2).mpr h.distinct
  have hfactors : m ^ (key.publicExponent * key.privateExponent) ≡ m [MOD p * q] :=
    (Nat.modEq_and_modEq_iff_modEq_mul hcoprime).mp
      ⟨pow_modEq_self h.prime.1 hne h.inverse.1 m, pow_modEq_self h.prime.2 hne h.inverse.2 m⟩
  rw [← Nat.pow_mod, ← pow_mul, Nat.mul_comm, h.modulus, hfactors, ← h.modulus,
    Nat.mod_eq_of_lt hm]

def tagged (tag : UInt8) (content : Bytes) : Bytes :=
  tag :: UInt8.ofNat content.length :: content

/-- The object identifier 2.16.840.1.101.3.4.2.1, which names SHA-256. -/
def sha256Identifier : Bytes :=
  [2 * 40 + 16, UInt8.ofNat (128 + 840 / 128), UInt8.ofNat (840 % 128), 1, 101, 3, 4, 2, 1]

/-- A sequence of the algorithm, which has no parameters, and the digest. -/
def digestInfoOf (digest : Bytes) : Bytes :=
  tagged 0x30 (tagged 0x30 (tagged 0x06 sha256Identifier ++ tagged 0x05 []) ++ tagged 0x04 digest)

def encodedMessage (digest : Bytes) : Bytes :=
  [0x00, 0x01] ++ List.replicate 202 0xff ++ [0x00] ++ digestInfoOf digest

theorem digestInfoOf_eq {digest : Bytes} (h : digest.length = 32) :
    digestInfoOf digest = digestInfo ++ digest := by
  have hdigest : tagged 0x04 digest = 0x04 :: 0x20 :: digest := by
    rw [tagged, h]
    rfl
  have hlength : (tagged 0x30 (tagged 0x06 sha256Identifier ++ tagged 0x05 []) ++
      0x04 :: 0x20 :: digest).length = 0x31 := by
    rw [List.length_append, List.length_cons, List.length_cons, h]
    rfl
  rw [digestInfoOf, hdigest, tagged, hlength]
  rfl

theorem length_info {digest : Bytes} (h : digest.length = 32) :
    (digestInfo ++ digest).length = 51 := by
  rw [List.length_append, h]
  rfl

theorem encoded_eq {digest : Bytes} (h : digest.length = 32) :
    encoded 256 digest = encodedMessage digest := by
  rw [encoded, encodedMessage, digestInfoOf_eq h, length_info h]
  simp only [List.cons_append, List.nil_append, List.append_assoc]

theorem length_encodedMessage {digest : Bytes} (h : digest.length = 32) :
    (encodedMessage digest).length = 256 := by
  rw [encodedMessage, digestInfoOf_eq h, List.length_append, length_info h, List.length_append,
    List.length_append, List.length_replicate]
  rfl

theorem encodedMessage_lt {digest : Bytes} (h : digest.length = 32) :
    Bytes.toNatBE (encodedMessage digest) < 256 ^ 254 * 2 := by
  obtain ⟨rest, hrest⟩ : ∃ rest, encodedMessage digest = 0x00 :: 0x01 :: rest := ⟨_, rfl⟩
  have hlength : rest.length = 254 := by
    have hall := length_encodedMessage h
    rw [hrest, List.length_cons, List.length_cons] at hall
    omega
  have hlt := Bytes.toNatBE_lt rest
  rw [hlength] at hlt
  rw [hrest, Bytes.toNatBE_cons, Bytes.toNatBE_cons, hlength, UInt8.toNat_zero, UInt8.toNat_one,
    Nat.mul_zero, Nat.add_zero, Nat.mul_one, Nat.mul_two]
  exact Nat.add_lt_add_right hlt _

/-- What a verifier accepts as the signature of a message. -/
structure Verifies (key : RsaKey) (message signature : Bytes) : Prop where
  length : signature.length = 256
  below : Bytes.toNatBE signature < key.modulus
  power : Bytes.toNatBE signature ^ key.publicExponent % key.modulus =
    Bytes.toNatBE (encodedMessage (Digest.digest message))

theorem pow_bytes (k : ℕ) : 256 ^ k = 2 ^ (8 * k) := by
  rw [pow_mul]
  rfl

theorem bitLength_bounds {n k : ℕ} (h : bitLength n = k + 1) : 2 ^ k ≤ n ∧ n < 2 ^ (k + 1) := by
  have hpos : n ≠ 0 := by
    rintro rfl
    cases h
  have hlog : n.log2 = k := by
    rw [bitLength, if_neg hpos] at h
    exact Nat.succ_injective h
  rw [← hlog]
  exact ⟨Nat.log2_self_le hpos, Nat.lt_log2_self⟩

theorem bounds_of_accept (h : accept key = .ok (some key)) :
    key.byteSize = 256 ∧ 256 ^ 254 * 2 ≤ key.modulus ∧ key.modulus < 256 ^ 256 := by
  have hbits : key.bits = 8 * 254 + 15 + 1 := by
    rw [accept] at h
    split at h
    · assumption
    · cases h
  obtain ⟨hlow, hhigh⟩ := bitLength_bounds hbits
  refine ⟨?_, ?_, ?_⟩
  · rw [byteSize, hbits]
  · calc 256 ^ 254 * 2 = 2 ^ (8 * 254) * 2 := congrArg (· * 2) (pow_bytes 254)
      _ ≤ 2 ^ (8 * 254) * 2 ^ 15 := Nat.mul_le_mul_left _ (by decide)
      _ = 2 ^ (8 * 254 + 15) := (pow_add 2 _ _).symm
      _ ≤ key.modulus := hlow
  · have hexponent : 8 * 254 + 15 + 1 = 8 * 256 := rfl
    rw [pow_bytes, ← hexponent]
    exact hhigh

theorem sign_verifies (h : accept key = .ok (some key)) (hpair : key.IsPair p q)
    (message : Bytes) : key.Verifies message (key.sign message) := by
  obtain ⟨hsize, hlow, hhigh⟩ := bounds_of_accept h
  have hdigest : (Digest.digest message).length = 32 := Digest.length_digest message
  have hbelow : Bytes.toNatBE (encodedMessage (Digest.digest message)) < key.modulus :=
    (encodedMessage_lt hdigest).trans_le hlow
  have hpos : 0 < key.modulus := Nat.zero_lt_of_lt hbelow
  have hvalue : Bytes.toNatBE (key.sign message) =
      Bytes.toNatBE (encodedMessage (Digest.digest message)) ^ key.privateExponent %
        key.modulus := by
    have hlt := (Nat.mod_lt (Bytes.toNatBE (encodedMessage (Digest.digest message)) ^
      key.privateExponent) hpos).trans hhigh
    rw [sign, hsize, encoded_eq hdigest, powMod_eq, Bytes.toNatBE_ofNatBE, Nat.mod_eq_of_lt hlt]
  refine ⟨?_, ?_, ?_⟩
  · rw [length_sign, hsize]
  · rw [hvalue]
    exact Nat.mod_lt _ hpos
  · rw [hvalue]
    exact hpair.pow_pow hbelow

end RsaKey

end BootImage.Key
