import BootImage.Proofs.Digest.Agreement

/-! What the blocks of a message determine. Two messages with one digest compress to it along two
runs; going back from the end, either the runs meet in one result of different compressions, or one
framing is the end of the other. Framings end in the length of their message, so the latter is no
collision at all. Nothing is assumed about the compression. The length counts modulo `2^64`: below
`2^61` bytes a framing gives back its message. -/

namespace BootImage.Digest

theorem lengthField_suffix (m : Bytes) : Bytes.ofNatBE 8 (bitLength m.length) <:+ frame m := by
  refine ⟨m ++ 0x80 :: Bytes.zeros (paddingZeros m.length), ?_⟩
  rw [frame, pad, lengthSize, List.append_assoc, List.cons_append]

theorem bitLength_inj {a b : ℕ} (ha : a < 2 ^ 61) (hb : b < 2 ^ 61)
    (h : Bytes.ofNatBE 8 (bitLength a) = Bytes.ofNatBE 8 (bitLength b)) : a = b := by
  have hvalue := congrArg Bytes.toNatBE h
  rw [Bytes.toNatBE_ofNatBE, Bytes.toNatBE_ofNatBE, bitLength, bitLength] at hvalue
  omega

/-- No framing ends in the framing of another message. -/
theorem eq_of_frame_suffix {m m' : Bytes} (hm : m.length < 2 ^ 61) (hm' : m'.length < 2 ^ 61)
    (h : frame m <:+ frame m') : m = m' := by
  have hfield : Bytes.ofNatBE 8 (bitLength m.length) = Bytes.ofNatBE 8 (bitLength m'.length) := by
    have hsize : (Bytes.ofNatBE 8 (bitLength m.length)).length =
        (Bytes.ofNatBE 8 (bitLength m'.length)).length := by
      rw [Bytes.length_ofNatBE, Bytes.length_ofNatBE]
    have hends := (lengthField_suffix m).trans h
    exact (List.suffix_of_suffix_length_le hends (lengthField_suffix m') hsize.le).eq_of_length
      hsize
  have hlen : m.length = m'.length := bitLength_inj hm hm' hfield
  have hframes : frame m = frame m' := by
    apply h.eq_of_length
    rw [frame, frame, List.length_append, List.length_append, hlen]
  exact List.append_inj_left hframes hlen

theorem flatten_blocks (m : Bytes) : (blocks m).flatten = frame m :=
  Bytes.flatten_groups blockSize (frame m) (by decide)

theorem eq_of_blocks_suffix {m m' : Bytes} (hm : m.length < 2 ^ 61) (hm' : m'.length < 2 ^ 61)
    (h : blocks m <:+ blocks m') : m = m' := by
  obtain ⟨front, hfront⟩ := h
  apply eq_of_frame_suffix hm hm'
  refine ⟨front.flatten, ?_⟩
  rw [← flatten_blocks, ← flatten_blocks, ← hfront, List.flatten_append]

theorem blocks_ne_nil (m : Bytes) : blocks m ≠ [] := by
  intro h
  have hframe := flatten_blocks m
  rw [h, List.flatten_nil, frame, pad] at hframe
  exact List.cons_ne_nil _ _ (List.append_eq_nil_iff.mp hframe.symm).2

theorem length_of_mem_blocks {m block : Bytes} (h : block ∈ blocks m) : block.length = 64 :=
  Bytes.length_of_mem_groups (by decide) (Standard.blockSize_dvd_frame m) block h

/-- What one compression is given: the hash state so far, and a block. -/
structure Compression where
  state : Registers
  block : Bytes
  deriving DecidableEq, Repr

def compressions (r : Registers) : List Bytes → List Compression
  | [] => []
  | block :: rest => ⟨r, block⟩ :: compressions (absorb r block) rest

def trail (m : Bytes) : List Compression := compressions .initial (blocks m)

theorem compressions_concat (r : Registers) (front : List Bytes) (block : Bytes) :
    compressions r (front ++ [block]) =
      compressions r front ++ [⟨front.foldl absorb r, block⟩] := by
  induction front generalizing r with
  | nil => rfl
  | cons first rest ih =>
    rw [List.cons_append, compressions, ih, compressions, List.foldl_cons, List.cons_append]

theorem map_block_compressions (r : Registers) (bs : List Bytes) :
    (compressions r bs).map Compression.block = bs := by
  induction bs generalizing r with
  | nil => rfl
  | cons block rest ih => rw [compressions, List.map_cons, ih]

theorem length_block_of_trail {m : Bytes} {k : ℕ} {c : Compression}
    (h : (trail m).reverse[k]? = some c) : c.block.length = 64 := by
  have hmem : c ∈ trail m := List.mem_reverse.mp (List.mem_of_getElem? h)
  apply length_of_mem_blocks
  rw [← map_block_compressions .initial (blocks m)]
  exact List.mem_map_of_mem hmem

theorem exists_last (m : Bytes) :
    ∃ c, (trail m).reverse[0]? = some c ∧ compress c.state (scheduleOf c.block) = words m := by
  rcases List.eq_nil_or_concat (blocks m) with h | ⟨front, block, h⟩
  · exact absurd h (blocks_ne_nil m)
  · refine ⟨⟨front.foldl absorb .initial, block⟩, ?_, ?_⟩
    · rw [trail, h, List.concat_eq_append, compressions_concat, List.reverse_append]
      rfl
    · rw [words, h, List.concat_eq_append, List.foldl_append]
      rfl

/-- Two runs meet: equally far from their ends they are given different compressions with one
result, and from there on they are the same. -/
structure CollideAt (run run' : List Compression) (k : ℕ) (c c' : Compression) : Prop where
  left : run.reverse[k]? = some c
  right : run'.reverse[k]? = some c'
  different : c ≠ c'
  result : compress c.state (scheduleOf c.block) = compress c'.state (scheduleOf c'.block)
  after : ∀ j < k, run.reverse[j]? = run'.reverse[j]?

theorem CollideAt.concat {run run' : List Compression} {k : ℕ} {c c' : Compression}
    (h : CollideAt run run' k c c') (last : Compression) :
    CollideAt (run ++ [last]) (run' ++ [last]) (k + 1) c c' := by
  have hback (run : List Compression) : (run ++ [last]).reverse = last :: run.reverse := by
    rw [List.reverse_append, List.reverse_singleton, List.singleton_append]
  constructor
  · rw [hback, List.getElem?_cons_succ, h.left]
  · rw [hback, List.getElem?_cons_succ, h.right]
  · exact h.different
  · exact h.result
  · intro j hj
    rw [hback, hback]
    cases j with
    | zero => rfl
    | succ j =>
      rw [List.getElem?_cons_succ, List.getElem?_cons_succ]
      exact h.after j (by omega)

/-- The induction takes both runs back by one block as long as their last compressions are equal,
and ends where they differ or where one run has come to its start. -/
theorem collide_or_suffix {r r' : Registers} {bs bs' : List Bytes}
    (h : bs.foldl absorb r = bs'.foldl absorb r') :
    (∃ k c c', CollideAt (compressions r bs) (compressions r' bs') k c c') ∨
      bs <:+ bs' ∨ bs' <:+ bs := by
  induction bs using List.reverseRecOn generalizing bs' with
  | nil => exact .inr (.inl List.nil_suffix)
  | append_singleton front block ih =>
    rcases List.eq_nil_or_concat bs' with rfl | ⟨front', block', rfl⟩
    · exact .inr (.inr List.nil_suffix)
    · rw [List.concat_eq_append] at h ⊢
      rw [List.foldl_append, List.foldl_append] at h
      rw [compressions_concat, compressions_concat]
      by_cases hlast : (⟨front.foldl absorb r, block⟩ : Compression) =
          ⟨front'.foldl absorb r', block'⟩
      · obtain ⟨hstate, rfl⟩ := Compression.mk.inj hlast
        rw [← hlast]
        rcases ih hstate with ⟨k, c, c', hcollide⟩ | ⟨more, rfl⟩ | ⟨more, rfl⟩
        · exact .inl ⟨k + 1, c, c', hcollide.concat _⟩
        · exact .inr (.inl ⟨more, (List.append_assoc _ _ _).symm⟩)
        · exact .inr (.inr ⟨more, (List.append_assoc _ _ _).symm⟩)
      · refine .inl ⟨0, _, _, ?_, ?_, hlast, h, fun j hj => absurd hj (Nat.not_lt_zero j)⟩
        · rw [List.reverse_append]
          rfl
        · rw [List.reverse_append]
          rfl

theorem bigEndianWords_digest (m : Bytes) : bigEndianWords (digest m) = (words m).toList := by
  apply bigEndianWords_bytes
  rw [words_eq_hash]
  exact fits_of_mem_registers

theorem digest_eq_iff_words_eq {m m' : Bytes} : digest m = digest m' ↔ words m = words m' := by
  constructor
  · intro h
    apply toList_inj
    rw [← bigEndianWords_digest, ← bigEndianWords_digest, h]
  · intro h
    rw [digest, digest, h]

theorem digest_eq_of_collideAt {m m' : Bytes} {k : ℕ} {c c' : Compression}
    (h : CollideAt (trail m) (trail m') k c c') : digest m = digest m' := by
  obtain ⟨last, hlast, hwords⟩ := exists_last m
  obtain ⟨last', hlast', hwords'⟩ := exists_last m'
  rw [digest_eq_iff_words_eq, ← hwords, ← hwords']
  cases k with
  | zero =>
    have hc := Option.some.inj (hlast.symm.trans h.left)
    have hc' := Option.some.inj (hlast'.symm.trans h.right)
    rw [hc, hc']
    exact h.result
  | succ k =>
    have hsame := h.after 0 (Nat.succ_pos k)
    rw [hlast, hlast', Option.some_inj] at hsame
    rw [hsame]

/-- Different messages have one digest exactly when their runs collide in a compression of the same
distance from the last block. -/
theorem digest_eq_iff_collide {m m' : Bytes} (hm : m.length < 2 ^ 61) (hm' : m'.length < 2 ^ 61) :
    digest m = digest m' ↔ m = m' ∨ ∃ k c c', CollideAt (trail m) (trail m') k c c' ∧
      c.block.length = 64 ∧ c'.block.length = 64 := by
  constructor
  · intro h
    have hwords : words m = words m' := digest_eq_iff_words_eq.mp h
    rcases collide_or_suffix hwords with ⟨k, c, c', hcollide⟩ | hsuffix | hsuffix
    · exact .inr ⟨k, c, c', hcollide, length_block_of_trail hcollide.left,
        length_block_of_trail hcollide.right⟩
    · exact .inl (eq_of_blocks_suffix hm hm' hsuffix)
    · exact .inl (eq_of_blocks_suffix hm' hm hsuffix).symm
  · rintro (rfl | ⟨k, c, c', hcollide, _⟩)
    · rfl
    · exact digest_eq_of_collideAt hcollide

theorem zeros_do_not_collide :
    ([] : Bytes).length < 2 ^ 61 ∧ (Bytes.zeros 56).length < 2 ^ 61 ∧
    (trail []).length = 1 ∧ (trail (Bytes.zeros 56)).length = 2 ∧
    ¬ ∃ k c c', CollideAt (trail []) (trail (Bytes.zeros 56)) k c c' := by
  have hnone : ([] : Bytes).length < 2 ^ 61 := by decide
  have hzeros : (Bytes.zeros 56).length < 2 ^ 61 := by decide
  have hdiffer : digest [] ≠ digest (Bytes.zeros 56) := by decide +kernel
  refine ⟨hnone, hzeros, by decide +kernel, by decide +kernel, ?_⟩
  rintro ⟨k, c, c', hcollide⟩
  apply hdiffer
  rw [digest_eq_iff_collide hnone hzeros]
  exact .inr ⟨k, c, c', hcollide, length_block_of_trail hcollide.left,
    length_block_of_trail hcollide.right⟩

/-- The eight bytes of a number, most significant first; a number that does not fit has none. -/
def lengthField? (n : ℤ) : Option Bytes :=
  if 0 ≤ n ∧ n < 2 ^ 64 then some (Bytes.ofNatBE 8 n.toNat) else none

/-- The shape of a padding: a marker, zeros, and the number of bits modulo `2^64`. -/
def Pads (length : ℤ) (padding : Bytes) : Prop :=
  ∃ zeros field, lengthField? (8 * length % 2 ^ 64) = some field ∧
    padding = 0x80 :: (Bytes.zeros zeros ++ field)

theorem lengthField?_bitLength (length : ℤ) :
    lengthField? (8 * length % 2 ^ 64) = some (Bytes.ofNatBE 8 (bitLength length)) := by
  have hfits : 0 ≤ 8 * length % 2 ^ 64 ∧ 8 * length % 2 ^ 64 < 2 ^ 64 := by omega
  have hbits : (8 * length % 2 ^ 64).toNat = bitLength length := by
    have hlength := bitLength_eq length
    omega
  rw [lengthField?, if_pos hfits, hbits]

theorem pads_pad (length : ℤ) : Pads length (pad length) :=
  ⟨paddingZeros length, _, lengthField?_bitLength length, rfl⟩

theorem length_pad (length : ℤ) : (pad length).length = paddingZeros length + 9 := by
  simp [pad, Bytes.zeros, Bytes.length_ofNatBE, lengthSize]

/-- Of the zeros only their number is open, and it is a residue modulo 64. -/
theorem eq_pad_of_pads {length : ℤ} {padding : Bytes} (h : Pads length padding)
    (hsize : padding.length ≤ 72) (hblocks : 64 ∣ length + padding.length) :
    padding = pad length := by
  obtain ⟨zeros, field, hfield, rfl⟩ := h
  have hfield' : field = Bytes.ofNatBE 8 (bitLength length) :=
    Option.some.inj (hfield.symm.trans (lengthField?_bitLength length))
  subst hfield'
  simp only [List.length_cons, List.length_append, Bytes.zeros, List.length_replicate,
    Bytes.length_ofNatBE] at hsize hblocks
  have hzeros : zeros = paddingZeros length := by
    have hleast := paddingZeros_eq length
    omega
  rw [hzeros, pad, lengthSize]

/-- The blocks of a message, and what they hold one after the other. -/
structure Framed (m : Bytes) (bs : List Bytes) : Prop where
  count : bs.length = (m.length + 9 + 63) / 64
  size : ∀ block ∈ bs, block.length = 64
  content : ∃ zeros, IsLeast {z | 64 ∣ m.length + 1 + z + 8} zeros ∧
    bs.flatten = m ++ 0x80 :: (Bytes.zeros zeros ++ Bytes.ofNatBE 8 (8 * m.length % 2 ^ 64))

theorem length_frame (m : Bytes) : (frame m).length = 64 * ((m.length + 9 + 63) / 64) := by
  have hzeros := paddingZeros_eq m.length
  rw [frame, List.length_append, length_pad]
  omega

theorem length_blocks (m : Bytes) : (blocks m).length = (m.length + 9 + 63) / 64 :=
  Bytes.length_groups (by decide) (length_frame m)

theorem isLeast_paddingZeros (m : Bytes) :
    IsLeast {z | 64 ∣ m.length + 1 + z + 8} (paddingZeros m.length) := by
  have hzeros := paddingZeros_eq m.length
  constructor
  · show 64 ∣ m.length + 1 + paddingZeros m.length + 8
    omega
  · intro z hz
    have hz : 64 ∣ m.length + 1 + z + 8 := hz
    omega

theorem framed_blocks (m : Bytes) : Framed m (blocks m) where
  count := length_blocks m
  size _ hblock := length_of_mem_blocks hblock
  content := by
    have hbits : bitLength m.length = 8 * m.length % 2 ^ 64 := by
      have hlength := bitLength_eq m.length
      omega
    refine ⟨paddingZeros m.length, isLeast_paddingZeros m, ?_⟩
    rw [flatten_blocks, frame, pad, lengthSize, hbits]

/-- The number in the last eight bytes. -/
def statedBits (framed : Bytes) : ℕ := Bytes.toNatBE (framed.drop (framed.length - 8))

/-- As many leading bits as the last eight bytes state. -/
def leadingBits (framed : Bytes) : Standard.Bits :=
  (Standard.ofBytes framed).take (statedBits framed)

def unframe (framed : Bytes) : Bytes := framed.take (statedBits framed / 8)

theorem statedBits_frame (m : Bytes) : statedBits (frame m) = 8 * m.length % 2 ^ 64 := by
  obtain ⟨front, hfront⟩ := lengthField_suffix m
  have hsize : (frame m).length - 8 = front.length := by
    rw [← hfront, List.length_append, Bytes.length_ofNatBE, Nat.add_sub_cancel]
  have hlast : (frame m).drop ((frame m).length - 8) = Bytes.ofNatBE 8 (bitLength m.length) := by
    rw [hsize, ← hfront, List.drop_left]
  have hbits := bitLength_eq m.length
  rw [statedBits, hlast, Bytes.toNatBE_ofNatBE]
  omega

theorem take_frame (m : Bytes) : (frame m).take m.length = m := by
  rw [frame, List.take_left]

theorem leadingBits_frame {m : Bytes} (h : m.length < 2 ^ 61) :
    leadingBits (frame m) = Standard.ofBytes m := by
  have hstated : statedBits (frame m) = 8 * m.length := by
    rw [statedBits_frame]
    omega
  rw [leadingBits, hstated, Standard.take_ofBytes, take_frame]

theorem unframe_frame {m : Bytes} (h : m.length < 2 ^ 61) : unframe (frame m) = m := by
  have hstated : statedBits (frame m) / 8 = m.length := by
    rw [statedBits_frame]
    omega
  rw [unframe, hstated, take_frame]

theorem pad_congr {a b : ℕ} (h : a % 2 ^ 61 = b % 2 ^ 61) : pad a = pad b := by
  have hzeros : paddingZeros a = paddingZeros b := by
    have ha := paddingZeros_eq a
    have hb := paddingZeros_eq b
    omega
  have hbits : bitLength a = bitLength b := by
    have ha := bitLength_eq a
    have hb := bitLength_eq b
    omega
  rw [pad, pad, hzeros, hbits]

/-- The lengths are stated at the ends, so they agree as far as they are stated, and then both
messages are followed by the same padding. -/
theorem frame_suffix_iff {m m' : Bytes} :
    frame m <:+ frame m' ↔ m <:+ m' ∧ m.length % 2 ^ 61 = m'.length % 2 ^ 61 := by
  constructor
  · rintro ⟨front, hfront⟩
    have hstated : statedBits (frame m) = statedBits (frame m') := by
      have hlong : 8 ≤ (frame m).length := by
        rw [length_frame]
        omega
      have hcut : (frame m').length - 8 = front.length + ((frame m).length - 8) := by
        rw [← hfront, List.length_append]
        omega
      rw [statedBits, statedBits, hcut, ← hfront, List.drop_length_add_append]
    have hlength : m.length % 2 ^ 61 = m'.length % 2 ^ 61 := by
      rw [statedBits_frame, statedBits_frame] at hstated
      omega
    refine ⟨⟨front, ?_⟩, hlength⟩
    rw [frame, frame, pad_congr hlength, ← List.append_assoc] at hfront
    exact List.append_cancel_right hfront
  · rintro ⟨⟨front, rfl⟩, hlength⟩
    refine ⟨front, ?_⟩
    rw [frame, frame, pad_congr hlength, List.append_assoc]

/-- Framing can be undone, and no other padding would do. -/
theorem blocks_recover_message :
    (∀ m : Bytes, Framed m (blocks m)) ∧
    (∀ m : Bytes, m.length < 2 ^ 61 →
      leadingBits (blocks m).flatten = Standard.ofBytes m ∧ unframe (blocks m).flatten = m) ∧
    (∀ m m' : Bytes, m.length < 2 ^ 61 → m'.length < 2 ^ 61 → m ≠ m' →
      ¬ (blocks m).flatten <:+ (blocks m').flatten) ∧
    (∀ m m' : Bytes, (blocks m).flatten <:+ (blocks m').flatten ↔
      m <:+ m' ∧ m.length % 2 ^ 61 = m'.length % 2 ^ 61) ∧
    ∀ length : ℤ, Pads length (pad length) ∧
      9 ≤ (pad length).length ∧ (pad length).length ≤ 72 ∧ 64 ∣ length + (pad length).length ∧
      ∀ padding, Pads length padding → 9 ≤ padding.length → padding.length ≤ 72 →
        64 ∣ length + padding.length → padding = pad length := by
  refine ⟨framed_blocks, fun m hm => ?_, fun m m' hm hm' hne hsuffix => ?_, fun m m' => ?_,
    fun length => ?_⟩
  · rw [flatten_blocks]
    exact ⟨leadingBits_frame hm, unframe_frame hm⟩
  · rw [flatten_blocks, flatten_blocks] at hsuffix
    exact hne (eq_of_frame_suffix hm hm' hsuffix)
  · rw [flatten_blocks, flatten_blocks]
    exact frame_suffix_iff
  · have hzeros := paddingZeros_eq length
    have hsize := length_pad length
    refine ⟨pads_pad length, by omega, by omega, by omega, fun padding hpads _ hlarge hblocks => ?_⟩
    exact eq_pad_of_pads hpads hlarge hblocks

theorem blocks_recover_zeros :
    (Bytes.zeros 55).length < 2 ^ 61 ∧ (Bytes.zeros 56).length < 2 ^ 61 ∧
    Bytes.zeros 55 ≠ Bytes.zeros 56 ∧
    (blocks (Bytes.zeros 55)).length = 1 ∧ (blocks (Bytes.zeros 56)).length = 2 ∧
    unframe (blocks (Bytes.zeros 56)).flatten = Bytes.zeros 56 ∧
    ¬ (blocks (Bytes.zeros 55)).flatten <:+ (blocks (Bytes.zeros 56)).flatten ∧
    ∀ padding, Pads (-1) padding → 9 ≤ padding.length → padding.length ≤ 72 →
      64 ∣ (-1) + (padding.length : ℤ) → padding = pad (-1) := by
  have hshort : (Bytes.zeros 55).length < 2 ^ 61 := by decide
  have hlong : (Bytes.zeros 56).length < 2 ^ 61 := by decide
  have hne : Bytes.zeros 55 ≠ Bytes.zeros 56 := by decide
  obtain ⟨hframed, hback, hapart, -, hpad⟩ := blocks_recover_message
  exact ⟨hshort, hlong, hne, (hframed _).count, (hframed _).count, (hback _ hlong).2,
    hapart _ _ hshort hlong hne, (hpad (-1)).2.2.2.2⟩

end BootImage.Digest
