import BootImage.Bytes
import BootImage.Digest.Basic

/-! Ciphers of key files: AES decryption in cipher block chaining with counted padding, and the keys
that a passphrase turns into, by iterated HMAC-SHA256 (PBKDF2) or the older chain of MD5 digests. -/

namespace BootImage.Cipher.Aes

def double (a : UInt8) : UInt8 := if a < 0x80 then a <<< 1 else a <<< 1 ^^^ 0x1b

/-- Product in the field of 256 elements, over the lowest `bits` bits of the second factor. -/
def times (a b : UInt8) : Nat → UInt8
  | 0 => 0
  | bits + 1 =>
    (if b &&& 1 = 1 then a else 0) ^^^ times (double a) (b >>> 1) bits

def mul (a b : UInt8) : UInt8 := times a b 8

def power (a : UInt8) : Nat → UInt8
  | 0 => 1
  | n + 1 => mul a (power a n)

def inverse (a : UInt8) : UInt8 := power a 254

def rotl (a n : UInt8) : UInt8 := a <<< n ||| a >>> (8 - n)

def substitute (a : UInt8) : UInt8 :=
  let b := inverse a
  b ^^^ rotl b 1 ^^^ rotl b 2 ^^^ rotl b 3 ^^^ rotl b 4 ^^^ 0x63

def table : Array UInt8 := (Array.range 256).map fun n => substitute (UInt8.ofNat n)

def substituted (a : UInt8) : UInt8 := table.getD a.toNat 0

def inverseTable : Array UInt8 :=
  (Array.range 256).map fun n => UInt8.ofNat ((table.idxOf? (UInt8.ofNat n)).getD 0)

def restored (a : UInt8) : UInt8 := inverseTable.getD a.toNat 0

def xor (as bs : Bytes) : Bytes := List.zipWith (· ^^^ ·) as bs

structure Expansion where
  words : List Bytes
  constant : UInt8 := 1

/-- The next word of the key expansion; `length` is the number of words in the key. -/
def nextWord (length : Nat) (e : Expansion) : Expansion :=
  let i := e.words.length
  let last := e.words.headD []
  let earlier := e.words.getD (length - 1) []
  if i % length = 0 then
    let turned := (last.tail ++ last.take 1).map substituted
    ⟨xor earlier (xor turned [e.constant, 0, 0, 0]) :: e.words, double e.constant⟩
  else if 6 < length ∧ i % length = 4 then
    ⟨xor earlier (last.map substituted) :: e.words, e.constant⟩
  else ⟨xor earlier last :: e.words, e.constant⟩

/-- The round keys, sixteen bytes each, last round first. -/
def roundKeys (key : Bytes) : List Bytes :=
  let words := Bytes.groups 4 key
  let length := words.length
  let expanded := (List.range (4 * (length + 7) - length)).foldl
    (fun e _ => nextWord length e) ⟨words.reverse, 1⟩
  (Bytes.groups 16 expanded.words.reverse.flatten).reverse

/-- Undoes the row shift: row `r` of the column-major square moves right by `r`. -/
def unshiftRows (s : Bytes) : Bytes :=
  (List.range 16).map fun i => s.getD ((i + 12 * (i % 4)) % 16) 0

def unmixColumn (column : Bytes) : Bytes :=
  (List.range 4).map fun i =>
    mul (column.getD i 0) 14 ^^^ mul (column.getD ((i + 1) % 4) 0) 11 ^^^
      mul (column.getD ((i + 2) % 4) 0) 13 ^^^ mul (column.getD ((i + 3) % 4) 0) 9

def unmixColumns (s : Bytes) : Bytes := (Bytes.groups 4 s).flatMap unmixColumn

def unround (s key : Bytes) : Bytes := xor ((unshiftRows s).map restored) key

def decryptBlock (keys : List Bytes) (block : Bytes) : Bytes :=
  match keys with
  | [] => block
  | last :: rest =>
    let s := rest.dropLast.foldl (fun s key => unmixColumns (unround s key)) (xor block last)
    unround s (rest.getLastD [])

def unchain (keys : List Bytes) (previous : Bytes) : List Bytes → Bytes
  | [] => []
  | block :: rest => xor (decryptBlock keys block) previous ++ unchain keys block rest

def unpad? (bytes : Bytes) : Option Bytes :=
  match bytes.getLast? with
  | none => none
  | some last =>
    let n := last.toNat
    if n = 0 ∨ 16 < n ∨ bytes.length < n then none
    else if bytes.drop (bytes.length - n) = List.replicate n last then
      some (bytes.take (bytes.length - n))
    else none

def decrypt? (key iv text : Bytes) : Option Bytes :=
  if text.isEmpty ∨ text.length % 16 ≠ 0 ∨ iv.length ≠ 16 then none
  else unpad? (unchain (roundKeys key) iv (Bytes.groups 16 text))

end BootImage.Cipher.Aes

namespace BootImage.Cipher.Md5

structure State where
  a : UInt32
  b : UInt32
  c : UInt32
  d : UInt32

def initial : State := ⟨0x67452301, 0xefcdab89, 0x98badcfe, 0x10325476⟩

def sines : List UInt32 :=
  [0xd76aa478, 0xe8c7b756, 0x242070db, 0xc1bdceee, 0xf57c0faf, 0x4787c62a, 0xa8304613, 0xfd469501,
   0x698098d8, 0x8b44f7af, 0xffff5bb1, 0x895cd7be, 0x6b901122, 0xfd987193, 0xa679438e, 0x49b40821,
   0xf61e2562, 0xc040b340, 0x265e5a51, 0xe9b6c7aa, 0xd62f105d, 0x02441453, 0xd8a1e681, 0xe7d3fbc8,
   0x21e1cde6, 0xc33707d6, 0xf4d50d87, 0x455a14ed, 0xa9e3e905, 0xfcefa3f8, 0x676f02d9, 0x8d2a4c8a,
   0xfffa3942, 0x8771f681, 0x6d9d6122, 0xfde5380c, 0xa4beea44, 0x4bdecfa9, 0xf6bb4b60, 0xbebfbc70,
   0x289b7ec6, 0xeaa127fa, 0xd4ef3085, 0x04881d05, 0xd9d4d039, 0xe6db99e5, 0x1fa27cf8, 0xc4ac5665,
   0xf4292244, 0x432aff97, 0xab9423a7, 0xfc93a039, 0x655b59c3, 0x8f0ccc92, 0xffeff47d, 0x85845dd1,
   0x6fa87e4f, 0xfe2ce6e0, 0xa3014314, 0x4e0811a1, 0xf7537e82, 0xbd3af235, 0x2ad7d2bb, 0xeb86d391]

def turns (i : Nat) : UInt32 :=
  ([[7, 12, 17, 22], [5, 9, 14, 20], [4, 11, 16, 23], [6, 10, 15, 21]].getD (i / 16) []).getD (i % 4) 0

def rotl (x n : UInt32) : UInt32 := x <<< n ||| x >>> (32 - n)

def mixed (i : Nat) (s : State) : UInt32 :=
  if i < 16 then s.b &&& s.c ||| ~~~s.b &&& s.d
  else if i < 32 then s.d &&& s.b ||| ~~~s.d &&& s.c
  else if i < 48 then s.b ^^^ s.c ^^^ s.d
  else s.c ^^^ (s.b ||| ~~~s.d)

def wordIndex (i : Nat) : Nat :=
  if i < 16 then i
  else if i < 32 then (5 * i + 1) % 16
  else if i < 48 then (3 * i + 5) % 16
  else 7 * i % 16

def round (block : List UInt32) (s : State) (entry : UInt32 × Nat) : State :=
  let i := entry.2
  let sum := s.a + mixed i s + entry.1 + block.getD (wordIndex i) 0
  ⟨s.d, s.b + rotl sum (turns i), s.b, s.c⟩

def absorb (s : State) (block : Bytes) : State :=
  let words := (Bytes.groups 4 block).map fun group => UInt32.ofNat (Bytes.toNatLE group)
  let r := sines.zipIdx.foldl (round words) s
  ⟨s.a + r.a, s.b + r.b, s.c + r.c, s.d + r.d⟩

def frame (message : Bytes) : Bytes :=
  message ++ 0x80 :: (Bytes.zeros ((119 - message.length % 64) % 64) ++
    Bytes.ofNatLE 8 (8 * message.length))

def digest (message : Bytes) : Bytes :=
  let s := (Bytes.groups 64 (frame message)).foldl absorb initial
  [s.a, s.b, s.c, s.d].flatMap fun w => Bytes.ofNatLE 4 w.toNat

end BootImage.Cipher.Md5

namespace BootImage.Cipher

def xored (mask : UInt8) (bytes : Bytes) : Bytes := bytes.map (· ^^^ mask)

def blockKey (key : Bytes) : Bytes :=
  let short := if Digest.blockSize < key.length then Digest.digest key else key
  short ++ Bytes.zeros (Digest.blockSize - short.length)

def hmac (key message : Bytes) : Bytes :=
  let key := blockKey key
  Digest.digest (xored 0x5c key ++ Digest.digest (xored 0x36 key ++ message))

/-- The sum of `n` further iterates, starting after `last`. -/
def iterates (passphrase : Bytes) : Nat → Bytes → Bytes → Bytes
  | 0, _, sum => sum
  | n + 1, last, sum =>
    let next := hmac passphrase last
    iterates passphrase n next (List.zipWith (· ^^^ ·) sum next)

def stretch (passphrase salt : Bytes) (iterations index : Nat) : Bytes :=
  let first := hmac passphrase (salt ++ Bytes.ofNatBE 4 index)
  iterates passphrase (iterations - 1) first first

def pbkdf2 (passphrase salt : Bytes) (iterations length : Nat) : Bytes :=
  ((List.range ((length + 31) / 32)).flatMap fun i =>
    stretch passphrase salt iterations (i + 1)).take length

/-- `n` chained digests, each over the one before, the passphrase and the salt. -/
def md5Chain (passphrase salt : Bytes) : Nat → Bytes → Bytes
  | 0, _ => []
  | n + 1, last =>
    let next := Md5.digest (last ++ passphrase ++ salt)
    next ++ md5Chain passphrase salt n next

def md5Key (passphrase salt : Bytes) (length : Nat) : Bytes :=
  (md5Chain passphrase salt ((length + 15) / 16) []).take length

end BootImage.Cipher
