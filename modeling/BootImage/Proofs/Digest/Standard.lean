import BootImage.Bytes
import Mathlib.Analysis.Real.Sqrt
import Mathlib.Analysis.SpecialFunctions.Pow.Real
import Mathlib.Data.Nat.Nth
import Mathlib.Data.Nat.Prime.Basic

/-! SHA-256 as the standard states it. A message is a bit string, padded to whole blocks of 512
bits; a word is a vector of 32 bits; sums wrap; the constants are fractional parts of roots of
primes. Nothing here refers to the digest that is computed, so the two can be compared. -/

namespace BootImage.Digest.Standard

abbrev Bits := List Bool

abbrev Word := BitVec 32

/-- The lowest binary digits of a number, most significant first. -/
def digits : ℕ → ℕ → Bits
  | 0, _ => []
  | width + 1, n => n.testBit width :: digits width n

/-- The number that a bit string spells, most significant bit first. -/
def value (bs : Bits) : ℕ := bs.foldl (fun n b => 2 * n + b.toNat) 0

def ofBytes (bytes : Bytes) : Bits := bytes.flatMap fun b => digits 8 b.toNat

theorem exists_zeroCount (l : ℕ) : ∃ k, (l + 1 + k) % 512 = 448 :=
  ⟨447 + 511 * l, by omega⟩

/-- The least number of zeros that leaves 64 bits of the last block free. -/
def zeroCount (l : ℕ) : ℕ := Nat.find (exists_zeroCount l)

def padded (m : Bits) : Bits :=
  m ++ true :: (List.replicate (zeroCount m.length) false ++ digits 64 m.length)

def rotr (n : ℕ) (x : Word) : Word := x >>> n ||| x <<< (32 - n)

def shr (n : ℕ) (x : Word) : Word := x >>> n

def ch (x y z : Word) : Word := (x &&& y) ^^^ (~~~x &&& z)

def maj (x y z : Word) : Word := (x &&& y) ^^^ (x &&& z) ^^^ (y &&& z)

def bigSigma0 (x : Word) : Word := rotr 2 x ^^^ rotr 13 x ^^^ rotr 22 x

def bigSigma1 (x : Word) : Word := rotr 6 x ^^^ rotr 11 x ^^^ rotr 25 x

def sigma0 (x : Word) : Word := rotr 7 x ^^^ rotr 18 x ^^^ shr 3 x

def sigma1 (x : Word) : Word := rotr 17 x ^^^ rotr 19 x ^^^ shr 10 x

noncomputable def fractionBits (x : ℝ) : Word := BitVec.ofNat 32 ⌊Int.fract x * 2 ^ 32⌋₊

noncomputable def prime (i : ℕ) : ℝ := Nat.nth Nat.Prime i

noncomputable def initialWord (i : ℕ) : Word := fractionBits (√(prime i))

noncomputable def roundConstant (t : ℕ) : Word := fractionBits (prime t ^ (1 / 3 : ℝ))

structure State where
  a : Word
  b : Word
  c : Word
  d : Word
  e : Word
  f : Word
  g : Word
  h : Word
  deriving DecidableEq, Repr

namespace State

def words (s : State) : List Word := [s.a, s.b, s.c, s.d, s.e, s.f, s.g, s.h]

def add (s r : State) : State where
  a := s.a + r.a
  b := s.b + r.b
  c := s.c + r.c
  d := s.d + r.d
  e := s.e + r.e
  f := s.f + r.f
  g := s.g + r.g
  h := s.h + r.h

def round (s : State) (k w : Word) : State :=
  let t1 := s.h + bigSigma1 s.e + ch s.e s.f s.g + k + w
  let t2 := bigSigma0 s.a + maj s.a s.b s.c
  { a := t1 + t2, b := s.a, c := s.b, d := s.c, e := s.d + t1, f := s.e, g := s.f, h := s.g }

/-- The 256 bits of a state, its words in order. -/
def bits (s : State) : Bits := s.words.flatMap fun w => digits 32 w.toNat

end State

noncomputable def initial : State where
  a := initialWord 0
  b := initialWord 1
  c := initialWord 2
  d := initialWord 3
  e := initialWord 4
  f := initialWord 5
  g := initialWord 6
  h := initialWord 7

/-- The schedule of a block given by its sixteen words. -/
def schedule (m : ℕ → Word) (t : ℕ) : Word :=
  if t < 16 then m t
  else sigma1 (schedule m (t - 2)) + schedule m (t - 7) + sigma0 (schedule m (t - 15)) +
    schedule m (t - 16)

/-- Word `t` of block `i` of a padded message. -/
def blockWord (p : Bits) (i t : ℕ) : Word :=
  BitVec.ofNat 32 (value ((p.drop (512 * i + 32 * t)).take 32))

noncomputable def compress (s : State) (m : ℕ → Word) : State :=
  s.add ((List.range 64).foldl (fun r t => r.round (roundConstant t) (schedule m t)) s)

noncomputable def hash (m : Bits) : State :=
  (List.range ((padded m).length / 512)).foldl
    (fun s i => compress s (blockWord (padded m) i)) initial

end BootImage.Digest.Standard
