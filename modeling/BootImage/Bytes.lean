/-! Byte strings as lists: their numbers in either byte order, their two-digit hexadecimal text, the
memory words that they fill, and base64. Bytes keep no link to where they came from; files and keys
are built on top of them. -/

namespace BootImage

abbrev Bytes := List UInt8

namespace Bytes

def ofText (s : String) : Bytes := s.toUTF8.data.toList

def zeros (n : Nat) : Bytes := List.replicate n 0

/-- The number whose base-256 digits are the bytes, least significant first. -/
def toNatLE : Bytes → Nat
  | [] => 0
  | b :: rest => b.toNat + 256 * toNatLE rest

def toNatBE (bs : Bytes) : Nat := toNatLE bs.reverse

def ofNatLE : Nat → Nat → Bytes
  | 0, _ => []
  | width + 1, n => UInt8.ofNat n :: ofNatLE width (n / 256)

def ofNatBE (width n : Nat) : Bytes := (ofNatLE width n).reverse

/-- Consecutive groups of `n` bytes; the last one may be shorter, and none is empty. -/
def groups (n : Nat) (bs : Bytes) : List Bytes :=
  if h : bs = [] ∨ n = 0 then [] else
    have : (bs.drop n).length < bs.length := by
      have hb : bs.length ≠ 0 := fun hl => h (.inl (List.length_eq_zero_iff.mp hl))
      have hn : n ≠ 0 := fun hn => h (.inr hn)
      simp only [List.length_drop]
      omega
    bs.take n :: groups n (bs.drop n)
termination_by bs.length

def hexPair (b : UInt8) : List Char :=
  [Nat.digitChar (b.toNat / 16), Nat.digitChar (b.toNat % 16)]

def toHex (bs : Bytes) : String := String.ofList (bs.flatMap hexPair)

theorem length_ofNatLE (width n : Nat) : (ofNatLE width n).length = width := by
  induction width generalizing n with
  | zero => rfl
  | succ width ih => simp [ofNatLE, ih]

theorem length_ofNatBE (width n : Nat) : (ofNatBE width n).length = width := by
  simp [ofNatBE, length_ofNatLE]

theorem ofNatLE_toNatLE (bs : Bytes) : ofNatLE bs.length (toNatLE bs) = bs := by
  induction bs with
  | nil => rfl
  | cons b rest ih =>
    have hb := b.toNat_lt
    have hdiv : (b.toNat + 256 * toNatLE rest) / 256 = toNatLE rest := by omega
    have hbyte : UInt8.ofNat (b.toNat + 256 * toNatLE rest) = b := by
      apply UInt8.toNat_inj.mp
      rw [UInt8.toNat_ofNat']
      omega
    rw [toNatLE, List.length_cons, ofNatLE, hdiv, hbyte, ih]

theorem ofNatBE_toNatBE (bs : Bytes) : ofNatBE bs.length (toNatBE bs) = bs := by
  have h := ofNatLE_toNatLE bs.reverse
  rw [List.length_reverse] at h
  rw [ofNatBE, toNatBE, h, List.reverse_reverse]

theorem flatten_groups (n : Nat) (bs : Bytes) (hn : n ≠ 0) : (groups n bs).flatten = bs := by
  fun_induction groups n bs with
  | case1 bs h => simp_all
  | case2 bs h _ ih => rw [List.flatten_cons, ih, List.take_append_drop]

end Bytes

end BootImage

namespace BootImage.Word

def size : Nat := 4

def modulus : Nat := 4294967296

def ofBytes (a b c d : UInt8) : UInt32 := UInt32.ofNat (Bytes.toNatLE [a, b, c, d])

def toBytes (w : UInt32) : Bytes := Bytes.ofNatLE size w.toNat

/-- The words of a byte string, its tail filled with zeros. -/
def split : Bytes → List UInt32
  | [] => []
  | [a] => [ofBytes a 0 0 0]
  | [a, b] => [ofBytes a b 0 0]
  | [a, b, c] => [ofBytes a b c 0]
  | a :: b :: c :: d :: rest => ofBytes a b c d :: split rest

def join (ws : List UInt32) : Bytes := ws.flatMap toBytes

def fill (length : Nat) : Bytes := Bytes.zeros ((size - length % size) % size)

def total (ns : List Int) : Int := ns.foldr (· + ·) 0

/-- The value that brings the sum of `ns` to zero modulo `2^32`. -/
def sumComplement (ns : List Int) : Nat := (-total ns % modulus).toNat

theorem length_toBytes (w : UInt32) : (toBytes w).length = size := Bytes.length_ofNatLE _ _

theorem length_join (ws : List UInt32) : (join ws).length = size * ws.length := by
  induction ws with
  | nil => rfl
  | cons w rest ih =>
    rw [join, List.flatMap_cons, List.length_append, length_toBytes, List.length_cons,
      Nat.mul_succ, ← ih, join, Nat.add_comm]

theorem sumComplement_lt (ns : List Int) : sumComplement ns < modulus := by
  simp only [sumComplement, modulus]
  omega

end BootImage.Word

namespace BootImage.Base64

def padding : UInt8 := 61

def letter (n : Nat) : UInt8 :=
  if n < 26 then UInt8.ofNat (65 + n)
  else if n < 52 then UInt8.ofNat (97 + (n - 26))
  else if n < 62 then UInt8.ofNat (48 + (n - 52))
  else if n = 62 then 43
  else 47

def sextet? (b : UInt8) : Option Nat :=
  let n := b.toNat
  if 65 ≤ n ∧ n ≤ 90 then some (n - 65)
  else if 97 ≤ n ∧ n ≤ 122 then some (n - 97 + 26)
  else if 48 ≤ n ∧ n ≤ 57 then some (n - 48 + 52)
  else if n = 43 then some 62
  else if n = 47 then some 63
  else none

def encode : Bytes → Bytes
  | [] => []
  | [a] => [letter (a.toNat / 4), letter (a.toNat % 4 * 16), padding, padding]
  | [a, b] =>
    [letter (a.toNat / 4), letter (a.toNat % 4 * 16 + b.toNat / 16), letter (b.toNat % 16 * 4),
      padding]
  | a :: b :: c :: rest =>
    letter (a.toNat / 4) :: letter (a.toNat % 4 * 16 + b.toNat / 16) ::
      letter (b.toNat % 16 * 4 + c.toNat / 64) :: letter (c.toNat % 64) :: encode rest

inductive Base64Error where
  | loneLetter (letters : Nat)
  | padding
  deriving DecidableEq, Repr

def Base64Error.message : Base64Error → String
  | .loneLetter letters =>
    s!"Invalid base64-encoded string: number of data characters ({letters}) cannot be 1 more than a multiple of 4"
  | .padding => "Incorrect padding"

/-- The letters of a quad so far: how many, and the bits that have not filled a byte. -/
inductive Quad where
  | empty
  | one (bits : Nat)
  | two (bits : Nat)
  | three (bits : Nat)
  deriving DecidableEq, Repr

namespace Quad

def letters : Quad → Nat
  | empty => 0
  | one _ => 1
  | two _ => 2
  | three _ => 3

/-- The quad after one more letter, and the byte it completes. -/
def push (n : Nat) : Quad → Quad × Option UInt8
  | empty => (one n, none)
  | one bits => (two (n % 16), some (UInt8.ofNat (bits * 4 + n / 16)))
  | two bits => (three (n % 4), some (UInt8.ofNat (bits * 16 + n / 4)))
  | three bits => (empty, some (UInt8.ofNat (bits * 64 + n)))

end Quad

def finish (quad : Quad) (written : Bytes) : Except Base64Error Bytes :=
  match quad with
  | .empty => .ok written.reverse
  | .one _ => .error (.loneLetter (written.length / 3 * 4 + 1))
  | _ => .error .padding

/-- Reads on with a quad begun, `pads` padding bytes counted in it, and the bytes written so far,
latest first. Padding counts from the second letter of a quad on. -/
def readLenient (quad : Quad) (pads : Nat) (written : Bytes) : Bytes → Except Base64Error Bytes
  | [] => finish quad written
  | b :: rest =>
    if b = padding then
      if 2 ≤ quad.letters then
        if 4 ≤ quad.letters + (pads + 1) then .ok written.reverse
        else readLenient quad (pads + 1) written rest
      else readLenient quad pads written rest
    else
      match sextet? b with
      | none => readLenient quad pads written rest
      | some n =>
        match quad.push n with
        | (quad, none) => readLenient quad 0 written rest
        | (quad, some byte) => readLenient quad 0 (byte :: written) rest

def decode (text : Bytes) : Except Base64Error Bytes := readLenient .empty 0 [] text

def decodeStrict? (text : Bytes) : Option Bytes :=
  match decode text with
  | .ok bytes => if encode bytes = text then some bytes else none
  | .error _ => none

end BootImage.Base64
