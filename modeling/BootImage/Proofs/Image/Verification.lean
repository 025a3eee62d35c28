import BootImage.Proofs.Bytes
import BootImage.Proofs.Image.Signing
import BootImage.Proofs.Key.Rsa
import Mathlib.NumberTheory.LucasPrimality
import Mathlib.Tactic.NormNum.Prime

/-! What a target obtains from an image when it hashes its own ROM and checks the signature. The
digest is taken over the payload alone, while the ROM holds whole words: they agree where the last
word needs no fill. The signature of an accepted key, read back from the table of a bootloader,
verifies for the digest message of the payload. -/

namespace BootImage

/-- What a target computes from its ROM: the words of the digest, least significant bytes first. -/
def romMessage? (rom : Bytes) : Option Bytes :=
  Bytes.pack? (Bytes.ofNatLE 4) (Digest.words rom).toList

theorem romMessage?_eq (rom : Bytes) : romMessage? rom = some (Digest.wordMessage rom) :=
  Digest.pack?_words (Bytes.ofNatLE 4) rom

theorem Image.rom?_bootloader {image : Image} (h : image.payload ≠ []) (signature : Bytes) :
    Listing.rom? (image.bootloader signature) = some (Word.join image.words) := by
  have hwords : image.words ≠ [] := Word.split_ne_nil h
  rw [bootloader, Listing.rom?_bootloader _ _ _ hwords]

namespace Session

/-- The ROM holds the payload and the fill of its last word. Without the fill it is what was signed;
with it, only where the two have one digest. -/
theorem rom_signed_without_fill (s : Session) (hpayload : s.image.payload ≠ [])
    (reply : ProgramReply) (signer : Signer) :
    ((∃ signature, (signer.sign reply s.image.digestMessage).1 = .ok signature ∧
        signer.signatureLength = .ok 256 ∧ signature.length = 256) →
      ∃ text, (s.next reply (.create "bld_vhd" (some signer) none)).2.outcome =
        .ok (.output (.text text))) ∧
    ∀ text, (s.next reply (.create "bld_vhd" (some signer) none)).2.outcome =
        .ok (.output (.text text)) →
      ∃ codeWords rom message,
        Listing.codeSize? text = some codeWords ∧ Listing.rom? text = some rom ∧
        rom.length = 4 * codeWords ∧
        messages (s.next reply (.create "bld_vhd" (some signer) none)).2.consulted = [message] ∧
        rom = s.image.payload ++ Bytes.zeros ((4 - s.image.payload.length % 4) % 4) ∧
        romMessage? (rom.take s.image.payload.length) = some message ∧
        (romMessage? rom = some message ↔ Digest.digest rom = Digest.digest s.image.payload) ∧
        (4 ∣ s.image.payload.length → romMessage? rom = some message) := by
  constructor
  · rintro ⟨signature, hsigned⟩
    exact ⟨_, (next_bldVhd_ok (Image.signatureFor_eq_ok.mpr hsigned)).2⟩
  · intro text houtcome
    obtain ⟨signature, hsigned⟩ := succeeds_bldVhd.mp ⟨_, houtcome⟩
    have htext : s.image.bootloader signature = text := by
      have hsame := (next_bldVhd_ok hsigned).2.symm.trans houtcome
      injection hsame with hsame
      injection hsame with hsame
      injection hsame
    have hrom : Listing.rom? text = some (Word.join s.image.words) := by
      rw [← htext, Image.rom?_bootloader hpayload]
    have hfilled : Word.join s.image.words =
        s.image.payload ++ Word.fill s.image.payload.length := Word.join_split _
    have hcover : romMessage? (Word.join s.image.words) = some s.image.digestMessage ↔
        Digest.digest (Word.join s.image.words) = Digest.digest s.image.payload := by
      rw [romMessage?_eq, Option.some_inj, Image.digestMessage, Digest.wordMessage_inj]
    refine ⟨s.image.words.length, Word.join s.image.words, s.image.digestMessage, ?_, hrom,
      Word.length_join _, ?_, hfilled, ?_, hcover, ?_⟩
    · rw [← htext, Image.bootloader, Listing.codeSize?_bootloader]
    · rw [consulted_bldVhd, Image.signatureFor_consulted]
    · rw [hfilled, List.take_left, romMessage?_eq, Image.digestMessage]
    · intro haligned
      apply hcover.mpr
      rw [hfilled, Word.fill_of_dvd haligned, List.append_nil]

def oneByte : Session where
  image := { built := ⟨2024, 1, 2, 3, 4, 5⟩, source := some "a.bin", payload := [0x61] }
  files := {}

def zeroSigner : Signer :=
  .custom
    { name := .ok "zero", signatureLength := .ok 256, respond := fun _ => .ok (Bytes.zeros 256) }

theorem one_byte_signed_without_fill :
    oneByte.image.payload ≠ [] ∧
    ∃ text codeWords rom message,
      (oneByte.next .absent (.create "bld_vhd" (some zeroSigner) none)).2.outcome =
        .ok (.output (.text text)) ∧
      Listing.codeSize? text = some codeWords ∧ Listing.rom? text = some rom ∧
      rom.length = 4 * codeWords ∧
      messages (oneByte.next .absent (.create "bld_vhd" (some zeroSigner) none)).2.consulted =
        [message] ∧
      romMessage? (rom.take 1) = some message := by
  have hpayload : oneByte.image.payload ≠ [] := by decide
  obtain ⟨hcreated, hcovers⟩ := rom_signed_without_fill oneByte hpayload .absent zeroSigner
  obtain ⟨text, htext⟩ := hcreated ⟨Bytes.zeros 256, rfl, rfl, List.length_replicate⟩
  obtain ⟨codeWords, rom, message, hsize, hrom, hlen, hasked, _, hmessage, _⟩ := hcovers text htext
  exact ⟨hpayload, text, codeWords, rom, message, htext, hsize, hrom, hlen, hasked, hmessage⟩

theorem one_byte_rom_not_signed :
    ∃ text rom message,
      (oneByte.next .absent (.create "bld_vhd" (some zeroSigner) none)).2.outcome =
        .ok (.output (.text text)) ∧
      Listing.rom? text = some rom ∧
      messages (oneByte.next .absent (.create "bld_vhd" (some zeroSigner) none)).2.consulted =
        [message] ∧
      romMessage? rom ≠ some message := by
  have hsigned : (oneByte.image.signatureFor .absent (some zeroSigner) none).1 =
      .ok (Bytes.zeros 256) := Image.signatureFor_eq_ok.mpr ⟨rfl, rfl, List.length_replicate⟩
  have hdiffer : Digest.wordMessage [0x61, 0, 0, 0] ≠ Digest.wordMessage [0x61] := by
    decide +kernel
  refine ⟨_, [0x61, 0, 0, 0], oneByte.image.digestMessage, (next_bldVhd_ok hsigned).2, ?_, ?_, ?_⟩
  · rw [Image.rom?_bootloader (by decide)]
    rfl
  · rw [consulted_bldVhd, Image.signatureFor_consulted]
  · rw [romMessage?_eq, Ne, Option.some_inj]
    exact hdiffer

end Session

variable {key : Key.RsaKey} {p q : ℕ}

theorem Signer.checkedSign_rsa (haccept : Key.accept key = .ok (some key))
    (hpair : key.IsPair p q) (reply : ProgramReply) (message : Bytes) :
    ((Signer.rsa key).checkedSign reply message).1 = .ok (key.sign message) := by
  rw [Signer.checkedSign_eq_ok]
  refine ⟨rfl, ?_⟩
  rw [(Key.RsaKey.sign_verifies haccept hpair message).length]
  rfl

theorem Image.signatureFor_rsa (haccept : Key.accept key = .ok (some key))
    (hpair : key.IsPair p q) (image : Image) (reply : ProgramReply) :
    (image.signatureFor reply (some (.rsa key)) none).1 = .ok (key.sign image.digestMessage) := by
  rw [Image.signatureFor_eq_ok]
  exact ⟨rfl, rfl, (Key.RsaKey.sign_verifies haccept hpair image.digestMessage).length⟩

theorem Image.sign_of_signatureFor {image : Image} {reply : ProgramReply} {signer : Option Signer}
    {fixed : Option Bytes} {signature : Bytes}
    (h : (image.signatureFor reply signer fixed).1 = .ok signature) :
    (image.sign reply signer fixed).1 = .ok { image with signature := some signature } := by
  rw [Image.sign]
  rcases hfor : image.signatureFor reply signer fixed with ⟨_ | bytes, consulted⟩
  · rw [hfor] at h
    cases h
  · rw [hfor] at h
    cases h
    rfl

namespace Session

/-- Signatures of an accepted key verify, by themselves and out of a bootloader. -/
theorem rsa_signatures_verify (haccept : Key.accept key = .ok (some key))
    (hpair : key.IsPair p q) (reply : ProgramReply) :
    (∀ message, ∃ signature, ((Signer.rsa key).sign reply message).1 = .ok signature ∧
      key.Verifies message signature ∧
      ((Signer.rsa key).checkedSign reply message).1 = .ok signature) ∧
    ∀ s : Session,
      (∃ signature, (s.image.sign reply (some (.rsa key)) none).1 =
          .ok { s.image with signature := some signature } ∧
        key.Verifies s.image.digestMessage signature) ∧
      ∃ text, (s.next reply (.create "bld_vhd" (some (.rsa key)) none)).2.outcome =
          .ok (.output (.text text)) ∧
        (∃ signature, Listing.CarriesSignature text signature) ∧
        ∀ signature, Listing.CarriesSignature text signature →
          key.Verifies s.image.digestMessage signature := by
  refine ⟨fun message => ?_, fun s => ?_⟩
  · exact ⟨key.sign message, rfl, Key.RsaKey.sign_verifies haccept hpair message,
      Signer.checkedSign_rsa haccept hpair reply message⟩
  · have hfor := Image.signatureFor_rsa haccept hpair s.image reply
    have hverifies := Key.RsaKey.sign_verifies haccept hpair s.image.digestMessage
    refine ⟨⟨key.sign s.image.digestMessage, ?_, hverifies⟩, ?_⟩
    · exact Image.sign_of_signatureFor hfor
    · obtain ⟨⟨text, houtcome, hcarries⟩, _⟩ := emits_bldVhd hfor hverifies.length
      refine ⟨text, houtcome, ⟨_, hcarries⟩, fun signature hother => ?_⟩
      rw [hother.unique hcarries]
      exact hverifies

end Session

namespace Key

def squared (modulus base : ℕ) : ℕ → ℕ
  | 0 => base % modulus
  | count + 1 => squared modulus base count * squared modulus base count % modulus

theorem squared_eq (modulus base count : ℕ) :
    squared modulus base count = base ^ 2 ^ count % modulus := by
  induction count with
  | zero => rw [squared, pow_zero, pow_one]
  | succ count ih => rw [squared, ih, ← Nat.mul_mod, ← pow_add, ← Nat.mul_two, ← pow_succ]

/-- One above a number times a power of two. -/
def aboveEven (k count : ℕ) : ℕ := k * 2 ^ (count + 1) + 1

theorem prime_of_squared {k count : ℕ} (base : ℕ) (hk : k.Prime)
    (hwhole : squared (aboveEven k count) (base ^ k) (count + 1) = 1)
    (hhalf : squared (aboveEven k count) (base ^ k) count ≠ 1)
    (hpower : squared (aboveEven k count) base (count + 1) ≠ 1) : (aboveEven k count).Prime := by
  have hpred : aboveEven k count - 1 = k * 2 ^ (count + 1) := Nat.add_sub_cancel _ _
  have hlarge : 1 < aboveEven k count := Nat.succ_lt_succ (Nat.mul_pos hk.pos (Nat.two_pow_pos _))
  have hcast (exponent : ℕ) : (base : ZMod (aboveEven k count)) ^ exponent = 1 ↔
      base ^ exponent % aboveEven k count = 1 := by
    rw [← Nat.cast_pow, ← Nat.cast_one, ZMod.natCast_eq_natCast_iff', Nat.mod_eq_of_lt hlarge]
  rw [squared_eq, ← pow_mul] at hwhole hhalf
  rw [squared_eq] at hpower
  apply lucas_primality _ (base : ZMod (aboveEven k count))
  · rw [hpred, hcast]
    exact hwhole
  · intro r hr hdvd
    rw [hpred] at hdvd ⊢
    rw [Ne, hcast]
    rcases hr.dvd_mul.mp hdvd with hfirst | hsecond
    · rw [(Nat.prime_dvd_prime_iff_eq hr hk).mp hfirst, Nat.mul_div_cancel_left _ hk.pos]
      exact hpower
    · have htwo : r = 2 :=
        (Nat.prime_dvd_prime_iff_eq hr Nat.prime_two).mp (hr.dvd_of_dvd_pow hsecond)
      rw [htwo, pow_succ, ← Nat.mul_assoc, Nat.mul_div_cancel _ (by decide)]
      exact hhalf

end Key

def samplePrimes : ℕ × ℕ := (Key.aboveEven 52951 1007, Key.aboveEven 52237 1007)

def sampleKey : Key.RsaKey where
  modulus := samplePrimes.1 * samplePrimes.2
  publicExponent := 65537
  privateExponent := (2669 * (52951 * 52237 * 2 ^ 1008) + 1) / 65537

theorem sample_accepted : Key.accept sampleKey = .ok (some sampleKey) := by
  have hbits : sampleKey.bits = Key.keyBits := by decide +kernel
  rw [Key.accept, if_pos hbits]

theorem sample_isPair : sampleKey.IsPair samplePrimes.1 samplePrimes.2 where
  modulus := rfl
  prime := by
    constructor
    · exact Key.prime_of_squared 3 (by norm_num) (by decide +kernel)
        (by decide +kernel) (by decide +kernel)
    · exact Key.prime_of_squared 3 (by norm_num) (by decide +kernel)
        (by decide +kernel) (by decide +kernel)
  distinct := by decide +kernel
  inverse := by decide +kernel

def sampleSession : Session where
  image := { built := ⟨2024, 1, 2, 3, 4, 5⟩, source := some "a.bin", payload := [0x61, 0x62] }
  files := {}

theorem sample_signatures_verify :
    Key.accept sampleKey = .ok (some sampleKey) ∧
    sampleKey.IsPair samplePrimes.1 samplePrimes.2 ∧
    ∃ text signature,
      (sampleSession.next .absent (.create "bld_vhd" (some (.rsa sampleKey)) none)).2.outcome =
        .ok (.output (.text text)) ∧
      Listing.CarriesSignature text signature ∧
      sampleKey.Verifies sampleSession.image.digestMessage signature := by
  have hverify := Session.rsa_signatures_verify sample_accepted sample_isPair .absent
  obtain ⟨_, text, houtcome, ⟨signature, hcarries⟩, hverifies⟩ := hverify.2 sampleSession
  exact ⟨sample_accepted, sample_isPair, text, signature, houtcome, hcarries,
    hverifies signature hcarries⟩

end BootImage
