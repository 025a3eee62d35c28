import BootImage.Digest.Basic
import BootImage.Proofs.Digest.Standard
import Mathlib.Tactic.Ring

/-! Bytes as bit strings, and integers as 32-bit words. The padding of a message's bytes is the
padding of its bits, and a group of four bytes is the word that its 32 bits spell. Cutting an
integer to its lowest 32 bits commutes with sums and with the bitwise operations, also for negative
integers; a shift to the right commutes only where nothing stands above bit 31, which is why the
registers have to stay in range. -/

namespace BootImage.Digest.Standard

@[simp] theorem length_digits (width n : ℕ) : (digits width n).length = width := by
  induction width with
  | zero => rfl
  | succ width ih => rw [digits, List.length_cons, ih]

theorem digits_add (a b n : ℕ) : digits (a + b) n = digits a (n / 2 ^ b) ++ digits b n := by
  induction a with
  | zero => rw [Nat.zero_add, digits, List.nil_append]
  | succ a ih =>
    rw [Nat.succ_add, digits, ih, digits, Nat.testBit_div_two_pow, List.cons_append]

/-- Digits depend only on the bits that they show. -/
theorem digits_congr {width m n : ℕ} (h : ∀ i < width, m.testBit i = n.testBit i) :
    digits width m = digits width n := by
  induction width with
  | zero => rfl
  | succ width ih =>
    rw [digits, digits, h width (Nat.lt_succ_self _), ih fun i hi => h i (by omega)]

theorem digits_mod (width n : ℕ) : digits width (n % 2 ^ width) = digits width n := by
  apply digits_congr
  intro i hi
  rw [Nat.testBit_mod_two_pow, decide_eq_true hi, Bool.true_and]

theorem value_append (xs ys : Bits) : value (xs ++ ys) = value xs * 2 ^ ys.length + value ys := by
  induction ys using List.reverseRecOn with
  | nil => rw [List.append_nil, List.length_nil, pow_zero, mul_one, value, value, List.foldl_nil,
      add_zero]
  | append_singleton ys b ih =>
    have hstep (zs : Bits) : value (zs ++ [b]) = 2 * value zs + b.toNat := by
      rw [value, List.foldl_append, List.foldl_cons, List.foldl_nil, value]
    rw [← List.append_assoc, hstep, hstep, ih, List.length_append, List.length_singleton, pow_succ]
    ring

theorem value_digits (width n : ℕ) : value (digits width n) = n % 2 ^ width := by
  induction width with
  | zero => rw [pow_zero, Nat.mod_one, digits, value, List.foldl_nil]
  | succ width ih =>
    have hsplit : digits (width + 1) n = [n.testBit width] ++ digits width n := rfl
    have hone (b : Bool) : value [b] = b.toNat := by
      rw [value, List.foldl_cons, List.foldl_nil, Nat.mul_zero, Nat.zero_add]
    rw [hsplit, value_append, length_digits, ih, hone, Nat.toNat_testBit, Nat.mod_pow_succ]
    ring

theorem ofBytes_append (xs ys : Bytes) : ofBytes (xs ++ ys) = ofBytes xs ++ ofBytes ys :=
  List.flatMap_append

theorem ofBytes_singleton (b : UInt8) : ofBytes [b] = digits 8 b.toNat := by
  rw [ofBytes, List.flatMap_singleton]

@[simp] theorem length_ofBytes (bs : Bytes) : (ofBytes bs).length = 8 * bs.length := by
  induction bs with
  | nil => rfl
  | cons b rest ih =>
    rw [ofBytes, List.flatMap_cons, List.length_append, length_digits, ← ofBytes, ih,
      List.length_cons]
    ring

theorem drop_ofBytes (k : ℕ) (bs : Bytes) : (ofBytes bs).drop (8 * k) = ofBytes (bs.drop k) := by
  by_cases hk : k ≤ bs.length
  · have hlen : (ofBytes (bs.take k)).length = 8 * k := by
      rw [length_ofBytes, List.length_take, Nat.min_eq_left hk]
    conv_lhs => rw [← List.take_append_drop k bs, ofBytes_append]
    rw [List.drop_left' hlen]
  · rw [List.drop_eq_nil_of_le (by rw [length_ofBytes]; omega), List.drop_eq_nil_of_le (by omega)]
    rfl

theorem take_ofBytes (k : ℕ) (bs : Bytes) : (ofBytes bs).take (8 * k) = ofBytes (bs.take k) := by
  by_cases hk : k ≤ bs.length
  · have hlen : (ofBytes (bs.take k)).length = 8 * k := by
      rw [length_ofBytes, List.length_take, Nat.min_eq_left hk]
    conv_lhs => rw [← List.take_append_drop k bs, ofBytes_append]
    rw [List.take_left' hlen]
  · rw [List.take_of_length_le (by rw [length_ofBytes]; omega), List.take_of_length_le (by omega)]

theorem toNatBE_append_singleton (bs : Bytes) (b : UInt8) :
    Bytes.toNatBE (bs ++ [b]) = 256 * Bytes.toNatBE bs + b.toNat := by
  rw [Bytes.toNatBE, List.reverse_append, List.reverse_singleton, List.singleton_append,
    Bytes.toNatLE, ← Bytes.toNatBE, Nat.add_comm]

theorem value_ofBytes (bs : Bytes) : value (ofBytes bs) = Bytes.toNatBE bs := by
  induction bs using List.reverseRecOn with
  | nil => rfl
  | append_singleton bs b ih =>
    have hb := b.toNat_lt
    rw [ofBytes_append, ofBytes_singleton, value_append, length_digits, value_digits, ih,
      toNatBE_append_singleton, Nat.mod_eq_of_lt (by omega)]
    ring

theorem ofBytes_ofNatBE (width n : ℕ) : ofBytes (Bytes.ofNatBE width n) = digits (8 * width) n := by
  induction width generalizing n with
  | zero => rfl
  | succ width ih =>
    have hbyte : (UInt8.ofNat n).toNat = n % 2 ^ 8 := UInt8.toNat_ofNat'
    have hbase : n / 256 = n / 2 ^ 8 := rfl
    rw [Bytes.ofNatBE, Bytes.ofNatLE, List.reverse_cons, ← Bytes.ofNatBE, ofBytes_append, ih,
      ofBytes_singleton, hbyte, digits_mod, Nat.mul_succ, digits_add, hbase]

theorem zeroCount_eq (n : ℕ) : zeroCount (8 * n) = 7 + 8 * paddingZeros n := by
  have hz := paddingZeros_eq n
  rw [zeroCount, Nat.find_eq_iff]
  constructor
  · omega
  · intro k hk
    omega

theorem ofBytes_zeros (n : ℕ) : ofBytes (Bytes.zeros n) = List.replicate (8 * n) false := by
  induction n with
  | zero => rfl
  | succ n ih =>
    rw [Bytes.zeros, List.replicate_succ', ofBytes_append, ← Bytes.zeros, ih, Nat.mul_succ,
      List.replicate_add]
    rfl

/-- The marker byte is the one bit and the first seven of the zeros. -/
theorem padded_ofBytes (m : Bytes) : padded (ofBytes m) = ofBytes (frame m) := by
  have hmarker : ofBytes [0x80] = true :: List.replicate 7 false := by decide
  have hlength : digits 64 (8 * m.length) = digits 64 (bitLength m.length) := by
    have h : bitLength m.length = 8 * m.length % 2 ^ 64 := by
      have hlength := bitLength_eq m.length
      omega
    rw [h, digits_mod]
  have hpad : ofBytes (pad m.length) = true :: (List.replicate (zeroCount (8 * m.length)) false ++
      digits 64 (8 * m.length)) := by
    have hsplit : pad m.length = [0x80] ++ (Bytes.zeros (paddingZeros m.length) ++
        Bytes.ofNatBE lengthSize (bitLength m.length)) := rfl
    rw [hsplit, ofBytes_append, ofBytes_append, hmarker, ofBytes_zeros, ofBytes_ofNatBE,
      zeroCount_eq, hlength, List.replicate_add, List.cons_append, List.append_assoc, lengthSize]
  rw [padded, frame, ofBytes_append, hpad, length_ofBytes]

theorem blockSize_dvd_frame (m : Bytes) : blockSize ∣ (frame m).length := by
  have hz := paddingZeros_eq m.length
  rw [frame, pad, List.length_append, List.length_cons, List.length_append, Bytes.zeros,
    List.length_replicate, Bytes.length_ofNatBE, blockSize, lengthSize]
  omega

theorem blockWord_ofBytes (bytes : Bytes) (i t : ℕ) :
    blockWord (ofBytes bytes) i t =
      BitVec.ofNat 32 (Bytes.toNatBE ((bytes.drop (64 * i + 4 * t)).take 4)) := by
  have hpos : 512 * i + 32 * t = 8 * (64 * i + 4 * t) := by ring
  have htake (bs : Bytes) : (ofBytes bs).take 32 = ofBytes (bs.take 4) := take_ofBytes 4 bs
  rw [blockWord, hpos, drop_ofBytes, htake, value_ofBytes]

end BootImage.Digest.Standard

namespace BootImage.Digest

open Standard (Word State)

abbrev toWord (x : ℤ) : Word := BitVec.ofInt 32 x

theorem low32_eq (x : ℤ) : low32 x = (toWord x).toNat := by
  rw [BitVec.toNat_ofInt, low32]
  omega

theorem toWord_toNat (w : Word) : toWord (w.toNat : ℤ) = w := by
  rw [toWord, BitVec.ofInt_natCast, BitVec.ofNat_toNat, BitVec.setWidth_eq]

theorem toWord_add (x y : ℤ) : toWord (x + y) = toWord x + toWord y := BitVec.ofInt_add x y

theorem toWord_bitNot (x : ℤ) : toWord (bitNot x) = ~~~toWord x := by
  have h : bitNot x = -(x + 1) := by
    unfold bitNot
    ring
  rw [h, toWord, toWord, BitVec.ofInt_neg, BitVec.ofInt_add, BitVec.neg_add, BitVec.not_eq_neg_add]
  rfl

theorem xor_and_self (x y : Word) : x ^^^ (x &&& y) = x &&& ~~~y := by
  ext i
  simp only [BitVec.getElem_xor, BitVec.getElem_and, BitVec.getElem_not]
  cases x[i] <;> cases y[i] <;> rfl

/- A negative integer is the complement of a natural number, so each operation splits by signs. -/
theorem toWord_bitAnd (x y : ℤ) : toWord (bitAnd x y) = toWord x &&& toWord y := by
  cases x with
  | ofNat m =>
    cases y with
    | ofNat n => simp [bitAnd]
    | negSucc n => simp [bitAnd, xor_and_self]
  | negSucc m =>
    cases y with
    | ofNat n =>
      have h := xor_and_self (BitVec.ofNat 32 n) (BitVec.ofNat 32 m)
      simpa [bitAnd, BitVec.and_comm (~~~BitVec.ofNat 32 m)] using h
    | negSucc n => simp [bitAnd, BitVec.not_or]

theorem toWord_bitOr (x y : ℤ) : toWord (bitOr x y) = toWord x ||| toWord y := by
  cases x with
  | ofNat m =>
    cases y with
    | ofNat n => simp [bitOr]
    | negSucc n => simp [bitOr, xor_and_self, BitVec.not_and, BitVec.or_comm]
  | negSucc m =>
    cases y with
    | ofNat n => simp [bitOr, xor_and_self, BitVec.not_and]
    | negSucc n => simp [bitOr, BitVec.not_and]

theorem toWord_bitXor (x y : ℤ) : toWord (bitXor x y) = toWord x ^^^ toWord y := by
  cases x with
  | ofNat m =>
    cases y with
    | ofNat n => simp [bitXor]
    | negSucc n => simp [bitXor, BitVec.not_xor_right]
  | negSucc m =>
    cases y with
    | ofNat n => simp [bitXor, BitVec.not_xor_left]
    | negSucc n =>
      have h : ~~~BitVec.ofNat 32 m ^^^ ~~~BitVec.ofNat 32 n =
          BitVec.ofNat 32 m ^^^ BitVec.ofNat 32 n := by
        rw [← BitVec.not_xor_left, ← BitVec.not_xor_right, BitVec.not_not]
      simp [bitXor, h]

theorem bitXor_natCast (m n : ℕ) : bitXor m n = (m ^^^ n : ℕ) := rfl

theorem toWord_shiftLeft (w : Word) (n : ℕ) : toWord ((w.toNat : ℤ) <<< n) = w <<< n := by
  rw [← Int.natCast_shiftLeft, toWord, BitVec.ofInt_natCast]
  apply BitVec.eq_of_toNat_eq
  rw [BitVec.toNat_ofNat, BitVec.toNat_shiftLeft]

theorem shiftRight_toNat (w : Word) (n : ℕ) : (w.toNat : ℤ) >>> n = ((w >>> n).toNat : ℕ) := by
  rw [← Int.natCast_shiftRight, BitVec.toNat_ushiftRight]

theorem rotr_toNat (w : Word) (n : ℕ) : rotr w.toNat n = ((Standard.rotr n w).toNat : ℤ) := by
  rw [rotr, low32_eq, toWord_bitOr, shiftRight_toNat, toWord_toNat, toWord_shiftLeft, Standard.rotr]

theorem sigma0_toNat (w : Word) : sigma0 w.toNat = ((Standard.sigma0 w).toNat : ℤ) := by
  simp only [sigma0, rotr_toNat, shiftRight_toNat, bitXor_natCast, Standard.sigma0, Standard.shr,
    BitVec.toNat_xor]

theorem sigma1_toNat (w : Word) : sigma1 w.toNat = ((Standard.sigma1 w).toNat : ℤ) := by
  simp only [sigma1, rotr_toNat, shiftRight_toNat, bitXor_natCast, Standard.sigma1, Standard.shr,
    BitVec.toNat_xor]

theorem bigSigma0_toNat (w : Word) : bigSigma0 w.toNat = ((Standard.bigSigma0 w).toNat : ℤ) := by
  simp only [bigSigma0, rotr_toNat, bitXor_natCast, Standard.bigSigma0, BitVec.toNat_xor]

theorem bigSigma1_toNat (w : Word) : bigSigma1 w.toNat = ((Standard.bigSigma1 w).toNat : ℤ) := by
  simp only [bigSigma1, rotr_toNat, bitXor_natCast, Standard.bigSigma1, BitVec.toNat_xor]

/-- The choice is not cut: with a negative operand it may be any integer. -/
theorem toWord_choose (x y z : ℤ) :
    toWord (choose x y z) = Standard.ch (toWord x) (toWord y) (toWord z) := by
  rw [choose, toWord_bitXor, toWord_bitAnd, toWord_bitAnd, toWord_bitNot, Standard.ch]

theorem toWord_majority (x y z : ℤ) :
    toWord (majority x y z) = Standard.maj (toWord x) (toWord y) (toWord z) := by
  rw [majority, toWord_bitXor, toWord_bitXor, toWord_bitAnd, toWord_bitAnd, toWord_bitAnd,
    Standard.maj]

/-- The registers that hold the words of a state. -/
def Standard.State.registers (s : State) : Registers where
  a := s.a.toNat
  b := s.b.toNat
  c := s.c.toNat
  d := s.d.toNat
  e := s.e.toNat
  f := s.f.toNat
  g := s.g.toNat
  h := s.h.toNat

theorem toList_registers (s : State) : s.registers.toList = s.words.map fun w => (w.toNat : ℤ) :=
  rfl

theorem toList_inj {r s : Registers} (h : r.toList = s.toList) : r = s := by
  obtain ⟨a, b, c, d, e, f, g, h'⟩ := r
  obtain ⟨a', b', c', d', e', f', g', h''⟩ := s
  simpa [Registers.toList] using h

theorem round_registers (s : State) (k w : ℤ) :
    s.registers.round k w = (s.round (toWord k) (toWord w)).registers := by
  simp only [Registers.round, State.registers, State.round, low32_eq, bigSigma0_toNat,
    bigSigma1_toNat, toWord_add, toWord_toNat, toWord_choose, toWord_majority]

theorem add_registers (s r : State) : s.registers.add r.registers = (s.add r).registers := by
  simp only [Registers.add, State.registers, State.add, low32_eq, toWord_add, toWord_toNat]

def Standard.State.rounds (s : State) (entries : List (ℤ × ℤ)) : State :=
  entries.foldl (fun s kw => s.round (toWord kw.1) (toWord kw.2)) s

theorem foldl_round_registers (s : State) (entries : List (ℤ × ℤ)) :
    entries.foldl (fun r kw => r.round kw.1 kw.2) s.registers = (s.rounds entries).registers := by
  induction entries generalizing s with
  | nil => rfl
  | cons kw rest ih => rw [List.foldl_cons, round_registers, ih, State.rounds, State.rounds,
      List.foldl_cons]

/-- Compression of registers in range, for schedule entries that may be any integers. -/
theorem compress_registers (s : State) (schedule : List ℤ) :
    compress s.registers schedule =
      (s.add (s.rounds (roundConstants.zip schedule))).registers := by
  rw [compress, rounds, foldl_round_registers, add_registers]

end BootImage.Digest
