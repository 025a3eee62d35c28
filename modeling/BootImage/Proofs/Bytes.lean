import BootImage.Bytes
import Mathlib.Data.List.Basic
import Mathlib.Tactic.NormNum

/-! Byte strings as numbers, in groups, as packed words and as base64. A number comes back from its
bytes modulo a power of 256; a cut into groups of one size, where nothing is left over, is given by
position and respects concatenation at a group boundary. The bytes of the words of a byte string are
the string and the fill of its last word. What encoding writes, the lenient reader reads back. -/

namespace BootImage.Bytes

theorem toNatLE_ofNatLE (width n : ℕ) : toNatLE (ofNatLE width n) = n % 256 ^ width := by
  induction width generalizing n with
  | zero => simp [ofNatLE, toNatLE, Nat.mod_one]
  | succ width ih =>
    rw [ofNatLE, toNatLE, ih, Nat.pow_succ', Nat.mod_mul, UInt8.toNat_ofNat']

theorem toNatBE_ofNatBE (width n : ℕ) : toNatBE (ofNatBE width n) = n % 256 ^ width := by
  simp [toNatBE, ofNatBE, toNatLE_ofNatLE]

theorem toNatLE_lt (bs : Bytes) : toNatLE bs < 256 ^ bs.length := by
  induction bs with
  | nil => simp [toNatLE]
  | cons b rest ih =>
    have hb := b.toNat_lt
    rw [toNatLE, List.length_cons, Nat.pow_succ']
    omega

theorem toNatLE_append (xs ys : Bytes) :
    toNatLE (xs ++ ys) = toNatLE xs + 256 ^ xs.length * toNatLE ys := by
  induction xs with
  | nil => rw [List.nil_append, toNatLE, List.length_nil, pow_zero, Nat.one_mul, Nat.zero_add]
  | cons b rest ih =>
    rw [List.cons_append, toNatLE, toNatLE, ih, List.length_cons, Nat.pow_succ', Nat.mul_add,
      Nat.mul_assoc, Nat.add_assoc]

theorem toNatBE_cons (b : UInt8) (rest : Bytes) :
    toNatBE (b :: rest) = toNatBE rest + 256 ^ rest.length * b.toNat := by
  rw [toNatBE, List.reverse_cons, toNatLE_append, List.length_reverse, toNatLE, toNatLE,
    Nat.mul_zero, Nat.add_zero, toNatBE]

theorem toNatBE_lt (bs : Bytes) : toNatBE bs < 256 ^ bs.length := by
  rw [toNatBE, ← List.length_reverse]
  exact toNatLE_lt bs.reverse

variable {n : ℕ}

@[simp] theorem groups_nil (n : ℕ) : groups n [] = [] := by
  rw [groups, dif_pos (Or.inl rfl)]

theorem groups_of_ne_nil {bs : Bytes} (hn : n ≠ 0) (h : bs ≠ []) :
    groups n bs = bs.take n :: groups n (bs.drop n) := by
  have hne : ¬ (bs = [] ∨ n = 0) := not_or.mpr ⟨h, hn⟩
  rw [groups, dif_neg hne]

theorem groups_cons {xs ys : Bytes} (hn : n ≠ 0) (hx : xs.length = n) :
    groups n (xs ++ ys) = xs :: groups n ys := by
  have hne : xs ++ ys ≠ [] := by
    intro h
    rw [List.append_eq_nil_iff] at h
    exact hn (by rw [← hx, h.1, List.length_nil])
  rw [groups_of_ne_nil hn hne, List.take_left' hx, List.drop_left' hx]

/-- The first group lies in the first part, or the first part lies in it. -/
theorem groups_append_of_le (hn : n ≠ 0) {xs : Bytes} (h : n ≤ xs.length) (ys : Bytes) :
    groups n (xs ++ ys) = xs.take n :: groups n (xs.drop n ++ ys) := by
  conv_lhs => rw [← List.take_append_drop n xs, List.append_assoc]
  exact groups_cons hn (List.length_take_of_le h)

theorem groups_append_of_lt {xs : Bytes} (h : xs.length < n) (b : UInt8) (ys : Bytes) :
    groups n (xs ++ b :: ys) =
      (xs ++ b :: ys.take (n - xs.length - 1)) :: groups n (ys.drop (n - xs.length - 1)) := by
  have hshort : n - xs.length = n - xs.length - 1 + 1 := by omega
  rw [groups_of_ne_nil (by omega) (by simp), List.take_append, List.drop_append,
    List.take_of_length_le (by omega), List.drop_of_length_le (by omega), hshort,
    List.take_succ_cons, List.drop_succ_cons, List.nil_append, Nat.add_sub_cancel]

theorem groups_flatten (hn : n ≠ 0) {gs : List Bytes} (h : ∀ g ∈ gs, g.length = n) :
    groups n gs.flatten = gs := by
  induction gs with
  | nil => exact groups_nil n
  | cons g rest ih =>
    rw [List.flatten_cons, groups_cons hn (h g List.mem_cons_self),
      ih fun g hg => h g (List.mem_cons_of_mem _ hg)]

theorem groups_flatMap {α : Type} (hn : n ≠ 0) {encode : α → Bytes}
    (h : ∀ a, (encode a).length = n) (l : List α) : groups n (l.flatMap encode) = l.map encode := by
  rw [List.flatMap_def]
  apply groups_flatten hn
  intro g hg
  obtain ⟨a, _, rfl⟩ := List.mem_map.mp hg
  exact h a

theorem groups_eq_map_range (hn : n ≠ 0) {bs : Bytes} {k : ℕ} (h : bs.length = n * k) :
    groups n bs = (List.range k).map fun i => (bs.drop (n * i)).take n := by
  induction k generalizing bs with
  | zero =>
    rw [Nat.mul_zero, List.length_eq_zero_iff] at h
    rw [h, groups_nil]
    rfl
  | succ k ih =>
    have hlen : n ≤ bs.length := by
      rw [h, Nat.mul_succ]
      omega
    have hrest : (bs.drop n).length = n * k := by
      rw [List.length_drop, h, Nat.mul_succ]
      omega
    conv_lhs => rw [← List.take_append_drop n bs]
    rw [groups_cons hn (by rw [List.length_take]; omega), ih hrest, List.range_succ_eq_map,
      List.map_cons, List.map_map, Nat.mul_zero, List.drop_zero]
    congr 1
    apply List.map_congr_left
    intro i _
    rw [Function.comp_apply, List.drop_drop, Nat.succ_eq_add_one, Nat.mul_add, Nat.mul_one,
      Nat.add_comm]

theorem length_groups (hn : n ≠ 0) {bs : Bytes} {k : ℕ} (h : bs.length = n * k) :
    (groups n bs).length = k := by
  rw [groups_eq_map_range hn h, List.length_map, List.length_range]

theorem length_of_mem_groups (hn : n ≠ 0) {bs : Bytes} (h : n ∣ bs.length) :
    ∀ g ∈ groups n bs, g.length = n := by
  obtain ⟨k, hk⟩ := h
  intro g hg
  rw [groups_eq_map_range hn hk, List.mem_map] at hg
  obtain ⟨i, hi, rfl⟩ := hg
  have hlast : n * i + n ≤ n * k := by
    rw [← Nat.mul_succ]
    exact Nat.mul_le_mul_left n (List.mem_range.mp hi)
  rw [List.length_take, List.length_drop, hk]
  omega

theorem groups_append (hn : n ≠ 0) {xs ys : Bytes} (h : n ∣ xs.length) :
    groups n (xs ++ ys) = groups n xs ++ groups n ys := by
  obtain ⟨k, hk⟩ := h
  induction k generalizing xs with
  | zero =>
    rw [Nat.mul_zero, List.length_eq_zero_iff] at hk
    rw [hk, groups_nil, List.nil_append, List.nil_append]
  | succ k ih =>
    have htake : (xs.take n).length = n := by
      rw [List.length_take, hk, Nat.mul_succ]
      omega
    have hdrop : (xs.drop n).length = n * k := by
      rw [List.length_drop, hk, Nat.mul_succ]
      omega
    have hsplit := List.take_append_drop n xs
    calc groups n (xs ++ ys) = groups n (xs.take n ++ (xs.drop n ++ ys)) := by
          rw [← List.append_assoc, hsplit]
      _ = xs.take n :: (groups n (xs.drop n) ++ groups n ys) := by
          rw [groups_cons hn htake, ih hdrop]
      _ = groups n xs ++ groups n ys := by
          conv_rhs => rw [← hsplit, groups_cons hn htake]
          rfl

/-- Packs integers that all fit 32 bits; on any other integer it fails. -/
def pack? (encode : ℕ → Bytes) : List ℤ → Option Bytes
  | [] => some []
  | n :: rest =>
    if 0 ≤ n ∧ n < 2 ^ 32 then (pack? encode rest).map fun bytes => encode n.toNat ++ bytes
    else none

variable {encode : ℕ → Bytes}

theorem pack?_of_fits {ns : List ℤ} (h : ∀ n ∈ ns, 0 ≤ n ∧ n < 2 ^ 32) :
    pack? encode ns = some (ns.flatMap fun n => encode n.toNat) := by
  induction ns with
  | nil => rfl
  | cons n rest ih =>
    have hrest := ih fun k hk => h k (List.mem_cons_of_mem _ hk)
    rw [pack?, if_pos (h n List.mem_cons_self), hrest, Option.map_some, List.flatMap_cons]

theorem pack?_words32 (ws : List UInt32) :
    pack? encode (ws.map fun w => (w.toNat : ℤ)) = some (ws.flatMap fun w => encode w.toNat) := by
  have hfits : ∀ n ∈ ws.map (fun w => (w.toNat : ℤ)), 0 ≤ n ∧ n < 2 ^ 32 := by
    intro n hn
    obtain ⟨w, _, rfl⟩ := List.mem_map.mp hn
    have hw := w.toNat_lt
    omega
  rw [pack?_of_fits hfits, List.flatMap_map]
  rfl

end BootImage.Bytes

namespace BootImage.Word

theorem ofBytes_eq {a b c d : UInt8} {w : UInt32} (h : toBytes w = [a, b, c, d]) :
    ofBytes a b c d = w := by
  apply UInt32.toNat_inj.mp
  have hw := w.toNat_lt
  rw [ofBytes, ← h, toBytes, Bytes.toNatLE_ofNatLE, UInt32.toNat_ofNat']
  simp only [size]
  omega

theorem toBytes_ofBytes (a b c d : UInt8) : toBytes (ofBytes a b c d) = [a, b, c, d] := by
  have h := Bytes.ofNatLE_toNatLE [a, b, c, d]
  have hlt := Bytes.toNatLE_lt [a, b, c, d]
  have hsmall : (ofBytes a b c d).toNat = Bytes.toNatLE [a, b, c, d] := by
    rw [ofBytes, UInt32.toNat_ofNat']
    simp only [List.length_cons, List.length_nil] at hlt
    omega
  rw [toBytes, hsmall]
  exact h

theorem split_join_append (ws : List UInt32) (bs : Bytes) :
    split (join ws ++ bs) = ws ++ split bs := by
  induction ws with
  | nil => rfl
  | cons w rest ih =>
    obtain ⟨a, b, c, d, h⟩ : ∃ a b c d, toBytes w = [a, b, c, d] := ⟨_, _, _, _, rfl⟩
    rw [join, List.flatMap_cons, h]
    rw [join] at ih
    simp only [List.cons_append, List.nil_append, split, ih, ofBytes_eq h]

theorem split_join (ws : List UInt32) : split (join ws) = ws := by
  have h := split_join_append ws []
  rwa [List.append_nil, split, List.append_nil] at h

theorem join_split (bs : Bytes) : join (split bs) = bs ++ fill bs.length := by
  fun_induction split bs with
  | case1 => rfl
  | case2 a => simp [join, toBytes_ofBytes, fill, size, Bytes.zeros]
  | case3 a b => simp [join, toBytes_ofBytes, fill, size, Bytes.zeros]
  | case4 a b c => simp [join, toBytes_ofBytes, fill, size, Bytes.zeros]
  | case5 a b c d rest ih =>
    have hlen : (rest.length + 1 + 1 + 1 + 1) % size = rest.length % size := by
      simp only [size]
      omega
    rw [join, List.flatMap_cons, toBytes_ofBytes, ← join, ih]
    simp only [fill, List.length_cons, hlen, List.cons_append, List.nil_append]

theorem split_ne_nil {payload : Bytes} (h : payload ≠ []) : split payload ≠ [] := by
  intro hsplit
  have hjoin := join_split payload
  rw [hsplit, join, List.flatMap_nil] at hjoin
  exact h (List.append_eq_nil_iff.mp hjoin.symm).1

theorem fill_of_dvd {length : ℕ} (h : 4 ∣ length) : fill length = [] := by
  have hmod : length % size = 0 := Nat.mod_eq_zero_of_dvd h
  rw [fill, hmod, Nat.sub_zero, Nat.mod_self, Bytes.zeros, List.replicate_zero]

theorem join_split_of_dvd {bs : Bytes} (h : 4 ∣ bs.length) : join (split bs) = bs := by
  rw [join_split, fill_of_dvd h, List.append_nil]

theorem split_append {xs : Bytes} (h : 4 ∣ xs.length) (ys : Bytes) :
    split (xs ++ ys) = split xs ++ split ys := by
  conv_lhs => rw [← join_split_of_dvd h]
  exact split_join_append (split xs) ys

/-- A byte string and the least number of zero bytes that makes it whole words. -/
def filled (bs : Bytes) : Bytes := bs ++ Bytes.zeros ((4 - bs.length % 4) % 4)

theorem join_split_filled (bs : Bytes) : join (split bs) = filled bs := join_split bs

theorem filled_of_dvd {bs : Bytes} (h : 4 ∣ bs.length) : filled bs = bs := by
  rw [← join_split_filled, join_split_of_dvd h]

theorem dvd_length_filled (bs : Bytes) : 4 ∣ (filled bs).length := by
  rw [← join_split_filled, length_join, size]
  exact Nat.dvd_mul_right 4 _

theorem length_split (bs : Bytes) : 4 * (split bs).length = (bs.length + 3) / 4 * 4 := by
  have hlen : 4 * (split bs).length = bs.length + (4 - bs.length % 4) % 4 := by
    have hjoin := length_join (split bs)
    rw [join_split_filled, filled, List.length_append, Bytes.zeros, List.length_replicate,
      size] at hjoin
    omega
  omega

/-- What is filled up to the same bytes has the same words. -/
theorem split_eq_iff {xs ys : Bytes} : split xs = split ys ↔ filled xs = filled ys := by
  rw [← join_split_filled, ← join_split_filled]
  constructor
  · intro h
    rw [h]
  · intro h
    rw [← split_join (split xs), h, split_join]

/-- Bytes as numbers of four, least significant first, if they are whole words. -/
def numbers? (bytes : Bytes) : Option (List ℕ) :=
  if 4 ∣ bytes.length then some ((Bytes.groups 4 bytes).map Bytes.toNatLE) else none

theorem toNatLE_toBytes (w : UInt32) : Bytes.toNatLE (toBytes w) = w.toNat := by
  have hw := w.toNat_lt
  rw [toBytes, Bytes.toNatLE_ofNatLE, size]
  omega

theorem numbers?_join (ws : List UInt32) : numbers? (join ws) = some (ws.map UInt32.toNat) := by
  have hgroups : Bytes.groups 4 (join ws) = ws.map toBytes :=
    Bytes.groups_flatMap (by decide) length_toBytes ws
  have hdvd : 4 ∣ (join ws).length := by
    rw [length_join, size]
    exact Nat.dvd_mul_right 4 _
  rw [numbers?, if_pos hdvd, hgroups, List.map_map]
  congr 1
  apply List.map_congr_left
  intro w _
  exact toNatLE_toBytes w

end BootImage.Word

namespace BootImage.Base64

variable {n : Nat}

theorem sextet?_letter (h : n < 64) : sextet? (letter n) = some n := by
  revert n
  decide

theorem letter_ne_padding (h : n < 64) : letter n ≠ padding := by
  revert n
  decide

theorem readLenient_letter (h : n < 64) (quad : Quad) (pads : Nat) (written rest : Bytes) :
    readLenient quad pads written (letter n :: rest) =
      readLenient (quad.push n).1 0 ((quad.push n).2.toList ++ written) rest := by
  rw [readLenient, if_neg (letter_ne_padding h), sextet?_letter h]
  cases quad <;> rfl

theorem readLenient_two_padding (bits : Nat) (written : Bytes) :
    readLenient (.two bits) 0 written [padding, padding] = .ok written.reverse := by
  simp [readLenient, Quad.letters]

theorem readLenient_one_padding (bits : Nat) (written : Bytes) :
    readLenient (.three bits) 0 written [padding] = .ok written.reverse := by
  simp [readLenient, Quad.letters]

section

variable (a b c : UInt8) (above : Nat) {below : Nat}

theorem upper_byte (h : below < 16) :
    UInt8.ofNat (a.toNat / 4 * 4 + (a.toNat % 4 * 16 + below) / 16) = a := by
  have hbyte : a.toNat / 4 * 4 + (a.toNat % 4 * 16 + below) / 16 = a.toNat := by omega
  rw [hbyte, UInt8.ofNat_toNat]

theorem middle_byte (h : below < 4) :
    UInt8.ofNat ((above * 16 + b.toNat / 16) % 16 * 16 + (b.toNat % 16 * 4 + below) / 4) = b := by
  have hlt := b.toNat_lt
  have hbyte : (above * 16 + b.toNat / 16) % 16 * 16 + (b.toNat % 16 * 4 + below) / 4 =
      b.toNat := by omega
  rw [hbyte, UInt8.ofNat_toNat]

theorem lower_byte :
    UInt8.ofNat ((above * 4 + c.toNat / 64) % 4 * 64 + c.toNat % 64) = c := by
  have hlt := c.toNat_lt
  have hbyte : (above * 4 + c.toNat / 64) % 4 * 64 + c.toNat % 64 = c.toNat := by omega
  rw [hbyte, UInt8.ofNat_toNat]

end

theorem readLenient_encode (bytes written : Bytes) :
    readLenient .empty 0 written (encode bytes) = .ok (written.reverse ++ bytes) := by
  induction bytes using encode.induct generalizing written with
  | case1 => simp only [encode, readLenient, finish, List.append_nil]
  | case2 a =>
    have ha := a.toNat_lt
    have hupper := upper_byte a (show 0 < 16 by omega)
    rw [Nat.add_zero] at hupper
    rw [encode, readLenient_letter (by omega), readLenient_letter (by omega)]
    simp only [Quad.push, Option.toList, List.nil_append, List.singleton_append, hupper]
    rw [readLenient_two_padding, List.reverse_cons]
  | case3 a b =>
    have ha := a.toNat_lt
    have hb := b.toNat_lt
    have hupper := upper_byte a (show b.toNat / 16 < 16 by omega)
    have hmiddle := middle_byte b (a.toNat % 4) (show 0 < 4 by omega)
    rw [Nat.add_zero] at hmiddle
    rw [encode, readLenient_letter (by omega), readLenient_letter (by omega),
      readLenient_letter (by omega)]
    simp only [Quad.push, Option.toList, List.nil_append, List.singleton_append, hupper, hmiddle]
    rw [readLenient_one_padding, List.reverse_cons, List.reverse_cons, List.append_assoc,
      List.singleton_append]
  | case4 a b c rest ih =>
    have ha := a.toNat_lt
    have hb := b.toNat_lt
    have hc := c.toNat_lt
    have hupper := upper_byte a (show b.toNat / 16 < 16 by omega)
    have hmiddle := middle_byte b (a.toNat % 4) (show c.toNat / 64 < 4 by omega)
    have hlower := lower_byte c (b.toNat % 16)
    rw [encode, readLenient_letter (by omega), readLenient_letter (by omega),
      readLenient_letter (by omega), readLenient_letter (by omega)]
    simp only [Quad.push, Option.toList, List.nil_append, List.singleton_append, hupper, hmiddle,
      hlower]
    rw [ih]
    simp only [List.reverse_cons, List.append_assoc, List.cons_append, List.nil_append]

theorem length_encode_le (bytes : Bytes) : 3 * (encode bytes).length ≤ 4 * bytes.length + 8 := by
  fun_induction encode bytes with
  | case1 | case2 | case3 => simp
  | case4 a b c rest ih =>
    simp only [List.length_cons]
    omega

theorem decode_encode (bytes : Bytes) : decode (encode bytes) = .ok bytes :=
  readLenient_encode bytes []

end BootImage.Base64
