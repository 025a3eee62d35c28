import BootImage.Bytes

/-! SHA-256 of a whole message, on unbounded integers. Bitwise operations read an integer as an
infinite two's complement bit string; a rotation and a sum keep their lowest 32 bits, a plain shift
keeps everything, and the registers may hold any integers at the start. A message is framed into
blocks, each block has a schedule, and the compression is folded over them. `wordMessage` is the
final state as the target keeps it in memory, each word least significant byte first. -/

namespace BootImage.Digest

def bitAnd : Int → Int → Int
  | .ofNat m, .ofNat n => .ofNat (m &&& n)
  | .ofNat m, .negSucc n => .ofNat (m ^^^ (m &&& n))
  | .negSucc m, .ofNat n => .ofNat (n ^^^ (n &&& m))
  | .negSucc m, .negSucc n => .negSucc (m ||| n)

def bitOr : Int → Int → Int
  | .ofNat m, .ofNat n => .ofNat (m ||| n)
  | .ofNat m, .negSucc n => .negSucc (n ^^^ (n &&& m))
  | .negSucc m, .ofNat n => .negSucc (m ^^^ (m &&& n))
  | .negSucc m, .negSucc n => .negSucc (m &&& n)

def bitXor : Int → Int → Int
  | .ofNat m, .ofNat n => .ofNat (m ^^^ n)
  | .ofNat m, .negSucc n => .negSucc (m ^^^ n)
  | .negSucc m, .ofNat n => .negSucc (m ^^^ n)
  | .negSucc m, .negSucc n => .ofNat (m ^^^ n)

def bitNot (x : Int) : Int := -x - 1

def low32 (x : Int) : Int := x % 4294967296

theorem low32_nonneg (x : Int) : 0 ≤ low32 x := by
  simp only [low32]
  omega

theorem low32_lt (x : Int) : low32 x < 4294967296 := by
  simp only [low32]
  omega

/-- What was added to a number that fits can be taken away again, though the sum was cut. -/
theorem low32_add_sub {x : Int} (h : 0 ≤ x ∧ x < 4294967296) (n : Int) :
    low32 (low32 (x + n) - n) = x := by
  simp only [low32]
  omega

theorem low32_sub_add {x : Int} (h : 0 ≤ x ∧ x < 4294967296) (n : Int) :
    low32 (low32 (x - n) + n) = x := by
  simp only [low32]
  omega

def rotr (x : Int) (n : Nat) : Int := low32 (bitOr (x >>> n) (x <<< (32 - n)))

def sigma0 (x : Int) : Int := bitXor (bitXor (rotr x 7) (rotr x 18)) (x >>> (3 : Nat))

def sigma1 (x : Int) : Int := bitXor (bitXor (rotr x 17) (rotr x 19)) (x >>> (10 : Nat))

def bigSigma0 (x : Int) : Int := bitXor (bitXor (rotr x 2) (rotr x 13)) (rotr x 22)

def bigSigma1 (x : Int) : Int := bitXor (bitXor (rotr x 6) (rotr x 11)) (rotr x 25)

def choose (e f g : Int) : Int := bitXor (bitAnd e f) (bitAnd (bitNot e) g)

def majority (a b c : Int) : Int :=
  bitXor (bitXor (bitAnd a b) (bitAnd a c)) (bitAnd b c)

structure Registers where
  a : Int
  b : Int
  c : Int
  d : Int
  e : Int
  f : Int
  g : Int
  h : Int
  deriving DecidableEq, Repr

namespace Registers

def toList (r : Registers) : List Int := [r.a, r.b, r.c, r.d, r.e, r.f, r.g, r.h]

def ofList? : List Int → Option Registers
  | [a, b, c, d, e, f, g, h] => some ⟨a, b, c, d, e, f, g, h⟩
  | _ => none

def initial : Registers where
  a := 0x6a09e667
  b := 0xbb67ae85
  c := 0x3c6ef372
  d := 0xa54ff53a
  e := 0x510e527f
  f := 0x9b05688c
  g := 0x1f83d9ab
  h := 0x5be0cd19

def add (r s : Registers) : Registers where
  a := low32 (r.a + s.a)
  b := low32 (r.b + s.b)
  c := low32 (r.c + s.c)
  d := low32 (r.d + s.d)
  e := low32 (r.e + s.e)
  f := low32 (r.f + s.f)
  g := low32 (r.g + s.g)
  h := low32 (r.h + s.h)

def round (r : Registers) (k w : Int) : Registers :=
  let t1 := low32 (r.h + bigSigma1 r.e + choose r.e r.f r.g + k + w)
  let t2 := low32 (bigSigma0 r.a + majority r.a r.b r.c)
  { a := low32 (t1 + t2), b := r.a, c := r.b, d := r.c
    e := low32 (r.d + t1), f := r.e, g := r.f, h := r.g }

end Registers

def roundConstants : List Int :=
  [0x428a2f98, 0x71374491, 0xb5c0fbcf, 0xe9b5dba5, 0x3956c25b, 0x59f111f1, 0x923f82a4, 0xab1c5ed5,
   0xd807aa98, 0x12835b01, 0x243185be, 0x550c7dc3, 0x72be5d74, 0x80deb1fe, 0x9bdc06a7, 0xc19bf174,
   0xe49b69c1, 0xefbe4786, 0x0fc19dc6, 0x240ca1cc, 0x2de92c6f, 0x4a7484aa, 0x5cb0a9dc, 0x76f988da,
   0x983e5152, 0xa831c66d, 0xb00327c8, 0xbf597fc7, 0xc6e00bf3, 0xd5a79147, 0x06ca6351, 0x14292967,
   0x27b70a85, 0x2e1b2138, 0x4d2c6dfc, 0x53380d13, 0x650a7354, 0x766a0abb, 0x81c2c92e, 0x92722c85,
   0xa2bfe8a1, 0xa81a664b, 0xc24b8b70, 0xc76c51a3, 0xd192e819, 0xd6990624, 0xf40e3585, 0x106aa070,
   0x19a4c116, 0x1e376c08, 0x2748774c, 0x34b0bcb5, 0x391c0cb3, 0x4ed8aa4a, 0x5b9cca4f, 0x682e6ff3,
   0x748f82ee, 0x78a5636f, 0x84c87814, 0x8cc70208, 0x90befffa, 0xa4506ceb, 0xbef9a3f7, 0xc67178f2]

/-- One round per schedule entry, as long as there are round constants. -/
def rounds (r : Registers) (schedule : List Int) : Registers :=
  (roundConstants.zip schedule).foldl (fun r kw => r.round kw.1 kw.2) r

def compress (r : Registers) (schedule : List Int) : Registers := r.add (rounds r schedule)

def blockSize : Nat := 64

def bigEndianWords (block : Bytes) : List Int :=
  (Bytes.groups 4 block).map fun group => (Bytes.toNatBE group : Int)

/-- The entry that follows a window of sixteen. -/
def nextEntry (window : List Int) : Int :=
  low32 (sigma1 (window.getD 14 0) + window.getD 9 0 + sigma0 (window.getD 1 0) + window.getD 0 0)

def slide (window : List Int) : List Int := window.tail ++ [nextEntry window]

/-- A window and the `n` entries that follow it. -/
def expand : Nat → List Int → List Int
  | 0, window => window
  | n + 1, window => window.headD 0 :: expand n (slide window)

def scheduleOf (block : Bytes) : List Int := expand 48 (bigEndianWords block)

def lengthSize : Nat := 8

/-- Zeros that leave exactly the length field free in the last block. -/
def paddingZeros (length : Int) : Nat := ((55 - length) % 64).toNat

def bitLength (length : Int) : Nat := (length * 8 % 18446744073709551616).toNat

def pad (length : Int) : Bytes :=
  0x80 :: (Bytes.zeros (paddingZeros length) ++ Bytes.ofNatBE lengthSize (bitLength length))

def frame (message : Bytes) : Bytes := message ++ pad message.length

def blocks (message : Bytes) : List Bytes := Bytes.groups blockSize (frame message)

theorem paddingZeros_eq (length : Int) : (paddingZeros length : Int) = (55 - length) % 64 := by
  simp only [paddingZeros]
  omega

theorem bitLength_eq (length : Int) : (bitLength length : Int) = 8 * length % 18446744073709551616 := by
  simp only [bitLength]
  omega

def size : Nat := 32

def absorb (r : Registers) (block : Bytes) : Registers := compress r (scheduleOf block)

def words (message : Bytes) : Registers := (blocks message).foldl absorb .initial

namespace Registers

def toBytes (r : Registers) : Bytes := r.toList.flatMap fun w => Bytes.ofNatBE 4 w.toNat

def toBytesLE (r : Registers) : Bytes := r.toList.flatMap fun w => Bytes.ofNatLE 4 w.toNat

end Registers

def digest (message : Bytes) : Bytes := (words message).toBytes

def wordMessage (message : Bytes) : Bytes := (words message).toBytesLE

theorem length_digest (message : Bytes) : (digest message).length = size := by
  simp [digest, Registers.toBytes, Registers.toList, Bytes.length_ofNatBE, size]

theorem length_wordMessage (message : Bytes) : (wordMessage message).length = size := by
  simp [wordMessage, Registers.toBytesLE, Registers.toList, Bytes.length_ofNatLE, size]

end BootImage.Digest
