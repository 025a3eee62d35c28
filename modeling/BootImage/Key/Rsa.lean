import BootImage.Digest.Basic

/-! RSA private keys and PKCS #1 v1.5 signatures over SHA-256 digests. A signature is the encoded
message raised to the private exponent. The primality test takes a fixed list of bases, so it is
certain only of what it rejects. -/

namespace BootImage.Key

def powMod (base exponent modulus : Nat) : Nat :=
  if exponent = 0 then 1 % modulus
  else
    let half := powMod (base * base % modulus) (exponent / 2) modulus
    if exponent % 2 = 1 then base * half % modulus else half
termination_by exponent

def bitLength (n : Nat) : Nat := if n = 0 then 0 else n.log2 + 1

structure RsaKey where
  modulus : Nat
  publicExponent : Nat
  privateExponent : Nat
  deriving DecidableEq, Repr

structure RsaParts where
  modulus : Nat
  publicExponent : Nat
  privateExponent : Nat
  p : Nat
  q : Nat
  exponentP : Nat
  exponentQ : Nat
  coefficient : Nat
  deriving DecidableEq, Repr

/-- Writes a positive number as an odd part and a count of halvings, at most `fuel` of them. -/
def halvings (n : Nat) : Nat → Nat × Nat
  | 0 => (n, 0)
  | fuel + 1 =>
    if n % 2 = 1 then (n, 0)
    else
      let (odd, count) := halvings (n / 2) fuel
      (odd, count + 1)

/-- Whether one of `count` successive squares of `x` is `n - 1`. -/
def reachesMinusOne (n x : Nat) : Nat → Bool
  | 0 => false
  | count + 1 => x == n - 1 || reachesMinusOne n (x * x % n) count

def passesBase (n base : Nat) : Bool :=
  let (odd, count) := halvings (n - 1) (bitLength n)
  let x := powMod base odd n
  base % n == 0 || x == 1 || reachesMinusOne n x count

def bases : List Nat := [2, 3, 5, 7, 11, 13, 17, 19]

def isProbablePrime (n : Nat) : Bool :=
  n == 2 || (1 < n && n % 2 == 1 && bases.all (passesBase n))

namespace RsaParts

def key (parts : RsaParts) : RsaKey :=
  ⟨parts.modulus, parts.publicExponent, parts.privateExponent⟩

def isConsistent (parts : RsaParts) : Bool :=
  parts.modulus == parts.p * parts.q
    && parts.publicExponent % 2 == 1 && 1 < parts.publicExponent
    && isProbablePrime parts.p && isProbablePrime parts.q
    && parts.publicExponent * parts.privateExponent % (parts.p - 1) == 1 % (parts.p - 1)
    && parts.publicExponent * parts.privateExponent % (parts.q - 1) == 1 % (parts.q - 1)
    && parts.exponentP == parts.privateExponent % (parts.p - 1)
    && parts.exponentQ == parts.privateExponent % (parts.q - 1)
    && parts.coefficient * parts.q % parts.p == 1 % parts.p

end RsaParts

namespace RsaKey

def bits (key : RsaKey) : Nat := bitLength key.modulus

def byteSize (key : RsaKey) : Nat := (key.bits + 7) / 8

/-- What announces a SHA-256 digest in an encoded message. -/
def digestInfo : Bytes :=
  [0x30, 0x31, 0x30, 0x0d, 0x06, 0x09, 0x60, 0x86, 0x48, 0x01, 0x65, 0x03, 0x04, 0x02, 0x01, 0x05,
   0x00, 0x04, 0x20]

def encoded (size : Nat) (digest : Bytes) : Bytes :=
  let info := digestInfo ++ digest
  0x00 :: 0x01 :: (List.replicate (size - 3 - info.length) 0xff ++ 0x00 :: info)

def sign (key : RsaKey) (message : Bytes) : Bytes :=
  let m := Bytes.toNatBE (encoded key.byteSize (Digest.digest message))
  Bytes.ofNatBE key.byteSize (powMod m key.privateExponent key.modulus)

theorem length_sign (key : RsaKey) (message : Bytes) :
    (key.sign message).length = key.byteSize :=
  Bytes.length_ofNatBE _ _

end RsaKey

end BootImage.Key
