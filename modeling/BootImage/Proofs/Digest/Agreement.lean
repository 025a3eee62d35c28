import BootImage.Digest.Basic
import BootImage.Proofs.Bytes
import BootImage.Proofs.Digest.Arithmetic
import Mathlib.Data.List.Forall2
import Mathlib.Data.Nat.Prime.Nth
import Mathlib.Tactic.Linarith
import Mathlib.Tactic.NormNum

/-! The digest agrees with the standard for every message. Blocks, schedule entries and rounds are
matched from the inside out. The constants are fractional parts of roots of primes: a root is
bounded by powers of natural numbers, so each entry is checked in exact arithmetic. -/

namespace BootImage.Digest

open Standard (Word State fractionBits prime initialWord roundConstant)

/-- What trial division by the numbers below 18 finds. -/
def PassesTrial (n : ℕ) : Prop := 2 ≤ n ∧ ∀ q < 18, 2 ≤ q → q ∣ n → q = n

instance (n : ℕ) : Decidable (PassesTrial n) :=
  inferInstanceAs (Decidable (2 ≤ n ∧ ∀ q < 18, 2 ≤ q → q ∣ n → q = n))

theorem passesTrial_iff_prime {n : ℕ} (hn : n < 324) : PassesTrial n ↔ n.Prime := by
  constructor
  · rintro ⟨h2, h⟩
    by_contra hp
    have hsq := Nat.minFac_sq_le_self (by omega) hp
    have hlt : n.minFac < 18 := by nlinarith
    have hmin : n.minFac.Prime := Nat.minFac_prime (by omega)
    have heq := h n.minFac hlt hmin.two_le (Nat.minFac_dvd n)
    exact hp (heq ▸ hmin)
  · intro h
    refine ⟨h.two_le, fun q _ hq hd => ?_⟩
    rcases h.eq_one_or_self_of_dvd q hd with rfl | rfl
    · omega
    · rfl

theorem filter_range_eq_map_nth (p : ℕ → Prop) [DecidablePred p] (n : ℕ) :
    (List.range n).filter (fun i => decide (p i)) =
      (List.range (Nat.count p n)).map (Nat.nth p) := by
  induction n with
  | zero => rfl
  | succ n ih =>
    rw [List.range_succ, List.filter_append, ih, Nat.count_succ]
    by_cases h : p n
    · simp [h, List.range_succ, Nat.nth_count h]
    · simp [h]

def smallPrimes : List ℕ :=
  [2, 3, 5, 7, 11, 13, 17, 19, 23, 29, 31, 37, 41, 43, 47, 53, 59, 61, 67, 71, 73, 79, 83, 89, 97,
   101, 103, 107, 109, 113, 127, 131, 137, 139, 149, 151, 157, 163, 167, 173, 179, 181, 191, 193,
   197, 199, 211, 223, 227, 229, 233, 239, 241, 251, 257, 263, 269, 271, 277, 281, 283, 293, 307,
   311]

theorem filter_passesTrial :
    (List.range 312).filter (fun n => decide (PassesTrial n)) = smallPrimes := by
  decide +kernel

theorem smallPrimes_eq : smallPrimes = (List.range 64).map (Nat.nth Nat.Prime) := by
  have h : smallPrimes = (List.range 312).filter fun n => decide n.Prime := by
    rw [← filter_passesTrial]
    apply List.filter_congr
    intro n hn
    rw [List.mem_range] at hn
    exact decide_eq_decide.mpr (passesTrial_iff_prime (by omega))
  rw [filter_range_eq_map_nth] at h
  have hcount : Nat.count Nat.Prime 312 = 64 := by
    have hlen : smallPrimes.length = 64 := by decide
    rw [← hlen, h, List.length_map, List.length_range]
  rw [h, hcount]

theorem fractionBits_of_bounds {x : ℝ} (hx : 0 ≤ x) {m : ℕ} (lower : m ≤ x * 2 ^ 32)
    (upper : x * 2 ^ 32 < m + 1) : fractionBits x = BitVec.ofNat 32 m := by
  have hfract : Int.fract x = x - ⌊x⌋₊ := by
    rw [← Int.self_sub_floor, natCast_floor_eq_intCast_floor hx]
  have hwhole : ⌊x⌋₊ * 2 ^ 32 ≤ m := by
    have h : (⌊x⌋₊ * 2 ^ 32 : ℝ) < m + 1 := by
      have := Nat.floor_le hx
      linarith
    exact_mod_cast Nat.lt_succ_iff.mp (by exact_mod_cast h)
  have hfloor : ⌊Int.fract x * 2 ^ 32⌋₊ = m - ⌊x⌋₊ * 2 ^ 32 := by
    rw [hfract, Nat.floor_eq_iff (by rw [← hfract]; have := Int.fract_nonneg x; positivity)]
    rw [Nat.cast_sub hwhole]
    push_cast
    constructor <;> linarith
  apply BitVec.eq_of_toNat_eq
  rw [fractionBits, hfloor, BitVec.toNat_ofNat, BitVec.toNat_ofNat]
  omega

theorem fractionBits_of_root {x : ℝ} (hx : 0 ≤ x) {n p m : ℕ} (hn : n ≠ 0) (hp : x ^ n = p)
    (lower : m ^ n ≤ p * 2 ^ (32 * n)) (upper : p * 2 ^ (32 * n) < (m + 1) ^ n) :
    fractionBits x = BitVec.ofNat 32 m := by
  have hpow : (x * 2 ^ 32) ^ n = ((p * 2 ^ (32 * n) : ℕ) : ℝ) := by
    rw [mul_pow, hp, ← pow_mul]
    push_cast
    rfl
  have hnonneg : 0 ≤ x * 2 ^ 32 := by positivity
  apply fractionBits_of_bounds hx
  · rw [← pow_le_pow_iff_left₀ (by positivity) hnonneg hn, hpow]
    exact_mod_cast lower
  · rw [← pow_lt_pow_iff_left₀ hnonneg (by positivity) hn, hpow]
    exact_mod_cast upper

/-- `k` is the fraction, in units of `2^-32`, of the root of `p`, whose whole part is below 8. -/
def IsRootFraction (n p : ℕ) (k : ℤ) : Prop :=
  (0 ≤ k ∧ k < 2 ^ 32) ∧ ∃ whole < 8, (whole * 2 ^ 32 + k.toNat) ^ n ≤ p * 2 ^ (32 * n) ∧
    p * 2 ^ (32 * n) < (whole * 2 ^ 32 + k.toNat + 1) ^ n

instance (n p : ℕ) (k : ℤ) : Decidable (IsRootFraction n p k) :=
  inferInstanceAs (Decidable ((_ ∧ _) ∧ ∃ whole < 8, _ ∧ _))

theorem fraction_of_isRootFraction {x : ℝ} (hx : 0 ≤ x) {n p : ℕ} {k : ℤ} (hn : n ≠ 0)
    (hp : x ^ n = p) (h : IsRootFraction n p k) : ((fractionBits x).toNat : ℤ) = k := by
  obtain ⟨⟨h0, hk⟩, whole, _, lower, upper⟩ := h
  rw [fractionBits_of_root hx hn hp lower upper, BitVec.toNat_ofNat]
  omega

theorem prime_nonneg (i : ℕ) : 0 ≤ prime i := Nat.cast_nonneg _

theorem initialWord_eq {i : ℕ} {k : ℤ} (h : IsRootFraction 2 (Nat.nth Nat.Prime i) k) :
    ((initialWord i).toNat : ℤ) = k :=
  fraction_of_isRootFraction (Real.sqrt_nonneg _) two_ne_zero
    (Real.sq_sqrt (prime_nonneg i)) h

theorem roundConstant_eq {t : ℕ} {k : ℤ} (h : IsRootFraction 3 (Nat.nth Nat.Prime t) k) :
    ((roundConstant t).toNat : ℤ) = k := by
  refine fraction_of_isRootFraction (Real.rpow_nonneg (prime_nonneg t) _) three_ne_zero ?_ h
  rw [one_div]
  exact_mod_cast Real.rpow_inv_natCast_pow (prime_nonneg t) three_ne_zero

def AreRootFractions (n : ℕ) (table : List ℤ) : Prop :=
  ∀ i < table.length, IsRootFraction n (smallPrimes.getD i 0) (table.getD i 0)

theorem smallPrimes_getD {i : ℕ} (hi : i < 64) : smallPrimes.getD i 0 = Nat.nth Nat.Prime i := by
  rw [smallPrimes_eq]
  simp [hi]

theorem table_eq {n : ℕ} {table : List ℤ} {word : ℕ → Word} (hlen : table.length ≤ 64)
    (hroots : AreRootFractions n table)
    (hword : ∀ i k, IsRootFraction n (Nat.nth Nat.Prime i) k → ((word i).toNat : ℤ) = k) :
    table = (List.range table.length).map fun i => ((word i).toNat : ℤ) := by
  apply List.ext_getElem
  · simp
  · intro i hi _
    have h := hroots i hi
    rw [smallPrimes_getD (by omega), List.getD_eq_getElem _ _ hi] at h
    rw [List.getElem_map, List.getElem_range, hword i _ h]

theorem roundConstants_eq :
    roundConstants = (List.range 64).map fun t => ((roundConstant t).toNat : ℤ) := by
  have hlen : roundConstants.length = 64 := by decide
  have hroots : AreRootFractions 3 roundConstants := by
    unfold AreRootFractions
    decide +kernel
  have h := table_eq (by omega) hroots fun _ _ => roundConstant_eq
  rwa [hlen] at h

theorem initial_eq : Registers.initial = Standard.initial.registers := by
  have hroots : AreRootFractions 2 Registers.initial.toList := by
    unfold AreRootFractions
    decide +kernel
  have h := table_eq (by decide) hroots fun _ _ => initialWord_eq
  exact toList_inj h

open Standard (Word State Bits ofBytes blockWord padded)

def entry (m : ℕ → Word) (t : ℕ) : ℤ := (Standard.schedule m t).toNat

theorem entry_of_lt (m : ℕ → Word) {t : ℕ} (ht : t < 16) : entry m t = (m t).toNat := by
  rw [entry, Standard.schedule, if_pos ht]

theorem nextEntry_window (m : ℕ → Word) (i : ℕ) :
    nextEntry ((List.range' i 16).map (entry m)) = entry m (i + 16) := by
  have hwindow : ∀ j < 16, ((List.range' i 16).map (entry m)).getD j 0 = entry m (i + j) := by
    intro j hj
    have hlen : j < ((List.range' i 16).map (entry m)).length := by simpa using hj
    rw [List.getD_eq_getElem _ _ hlen, List.getElem_map, List.getElem_range', Nat.one_mul]
  have hrec : Standard.schedule m (i + 16) = Standard.sigma1 (Standard.schedule m (i + 14)) +
      Standard.schedule m (i + 9) + Standard.sigma0 (Standard.schedule m (i + 1)) +
      Standard.schedule m i := by
    rw [Standard.schedule, if_neg (by omega)]
    congr 1
  have hfirst : ((List.range' i 16).map (entry m)).getD 0 0 = entry m i := hwindow 0 (by omega)
  rw [nextEntry, hwindow 14 (by omega), hwindow 9 (by omega), hwindow 1 (by omega), hfirst]
  simp only [entry, sigma0_toNat, sigma1_toNat, low32_eq, toWord_add, toWord_toNat, hrec]

theorem slide_window (m : ℕ → Word) (i : ℕ) :
    slide ((List.range' i 16).map (entry m)) = (List.range' (i + 1) 16).map (entry m) := by
  have hlast : List.range' (i + 1) 16 = List.range' (i + 1) 15 ++ [i + 16] := by
    rw [List.range'_concat, Nat.one_mul, Nat.add_assoc]
  rw [slide, nextEntry_window, hlast, List.range'_succ, List.map_cons, List.tail_cons,
    List.map_append, List.map_singleton]

/-- The window slides from any position, so the induction is over the entries still to come. -/
theorem expand_window (m : ℕ → Word) (n i : ℕ) :
    expand n ((List.range' i 16).map (entry m)) = (List.range' i (n + 16)).map (entry m) := by
  induction n generalizing i with
  | zero => rw [expand, Nat.zero_add]
  | succ n ih =>
    have hhead : ((List.range' i 16).map (entry m)).headD 0 = entry m i := rfl
    have hcons : List.range' i (n + 1 + 16) = i :: List.range' (i + 1) (n + 16) := by
      rw [Nat.succ_add, List.range'_succ]
    rw [expand, hhead, slide_window, ih, hcons, List.map_cons]

theorem scheduleOf_eq {block : Bytes} {m : ℕ → Word}
    (h : bigEndianWords block = (List.range 16).map fun t => ((m t).toNat : ℤ)) :
    scheduleOf block = (List.range 64).map (entry m) := by
  have hfirst : bigEndianWords block = (List.range' 0 16).map (entry m) := by
    rw [h, ← List.range_eq_range']
    apply List.map_congr_left
    intro t ht
    rw [entry_of_lt m (List.mem_range.mp ht)]
  rw [scheduleOf, hfirst, expand_window, List.range_eq_range']

theorem bigEndianWords_block {bytes : Bytes} {i : ℕ} (hi : 64 * i + 64 ≤ bytes.length) :
    bigEndianWords ((bytes.drop (64 * i)).take 64) =
      (List.range 16).map fun t => ((blockWord (ofBytes bytes) i t).toNat : ℤ) := by
  have hlen : ((bytes.drop (64 * i)).take 64).length = 4 * 16 := by
    rw [List.length_take, List.length_drop]
    omega
  rw [bigEndianWords, Bytes.groups_eq_map_range (by decide) hlen, List.map_map]
  apply List.map_congr_left
  intro t ht
  rw [List.mem_range] at ht
  have hgroup : (((bytes.drop (64 * i)).take 64).drop (4 * t)).take 4 =
      (bytes.drop (64 * i + 4 * t)).take 4 := by
    rw [List.drop_take, List.drop_drop, List.take_take, Nat.min_eq_left (by omega)]
  have hsmall : Bytes.toNatBE ((bytes.drop (64 * i + 4 * t)).take 4) < 2 ^ 32 := by
    have h := Bytes.toNatLE_lt ((bytes.drop (64 * i + 4 * t)).take 4).reverse
    rw [List.length_reverse, List.length_take, List.length_drop, Nat.min_eq_left (by omega)] at h
    exact lt_of_lt_of_eq h (by norm_num)
  rw [Function.comp_apply, hgroup, Standard.blockWord_ofBytes, BitVec.toNat_ofNat,
    Nat.mod_eq_of_lt hsmall]

theorem rounds_entries (s : State) (m : ℕ → Word) :
    s.rounds (roundConstants.zip ((List.range 64).map (entry m))) =
      (List.range 64).foldl
        (fun r t => r.round (Standard.roundConstant t) (Standard.schedule m t)) s := by
  rw [roundConstants_eq, List.zip_map', State.rounds, List.foldl_map]
  simp only [entry, toWord_toNat]

theorem absorb_registers {block : Bytes} {m : ℕ → Word} (s : State)
    (h : bigEndianWords block = (List.range 16).map fun t => ((m t).toNat : ℤ)) :
    absorb s.registers block = (Standard.compress s m).registers := by
  rw [absorb, scheduleOf_eq h, compress_registers, rounds_entries, Standard.compress]

theorem words_eq_hash (m : Bytes) : words m = (Standard.hash (ofBytes m)).registers := by
  obtain ⟨k, hk⟩ := Standard.blockSize_dvd_frame m
  rw [blockSize] at hk
  have hcount : (ofBytes (frame m)).length / 512 = k := by
    rw [Standard.length_ofBytes, hk]
    omega
  have hfold (l : List ℕ) (hl : ∀ i ∈ l, i < k) (s : State) :
      (l.map fun i => ((frame m).drop (64 * i)).take 64).foldl absorb s.registers =
        (l.foldl (fun s i => Standard.compress s (blockWord (ofBytes (frame m)) i))
          s).registers := by
    induction l generalizing s with
    | nil => rfl
    | cons i rest ih =>
      have hi := hl i List.mem_cons_self
      rw [List.map_cons, List.foldl_cons, List.foldl_cons,
        absorb_registers s (bigEndianWords_block (by omega)),
        ih fun j hj => hl j (List.mem_cons_of_mem _ hj)]
  rw [words, blocks, blockSize, Bytes.groups_eq_map_range (by decide) hk, initial_eq,
    hfold _ fun i hi => List.mem_range.mp hi, Standard.hash, Standard.padded_ofBytes, hcount]

theorem fits_of_mem_registers {s : State} : ∀ n ∈ s.registers.toList, 0 ≤ n ∧ n < 2 ^ 32 := by
  intro n hn
  rw [toList_registers, List.mem_map] at hn
  obtain ⟨w, _, rfl⟩ := hn
  have hw := w.isLt
  omega

theorem pack?_words (encode : ℕ → Bytes) (m : Bytes) :
    Bytes.pack? encode (words m).toList =
      some ((words m).toList.flatMap fun n => encode n.toNat) := by
  rw [words_eq_hash]
  exact Bytes.pack?_of_fits fits_of_mem_registers

/-- Numbers packed into four bytes each, most significant first. -/
def bigEndianBytes (ns : List ℤ) : Bytes := ns.flatMap fun n => Bytes.ofNatBE 4 n.toNat

theorem length_bigEndianBytes (ns : List ℤ) : (bigEndianBytes ns).length = 4 * ns.length := by
  induction ns with
  | nil => rfl
  | cons n rest ih =>
    rw [bigEndianBytes, List.flatMap_cons, List.length_append, Bytes.length_ofNatBE,
      ← bigEndianBytes, ih, List.length_cons, Nat.mul_succ, Nat.add_comm]

theorem bigEndianWords_bytes {ns : List ℤ} (h : ∀ n ∈ ns, 0 ≤ n ∧ n < 2 ^ 32) :
    bigEndianWords (bigEndianBytes ns) = ns := by
  have hback : ∀ n ∈ ns, (Bytes.toNatBE (Bytes.ofNatBE 4 n.toNat) : ℤ) = n := by
    intro n hn
    have hbounds := h n hn
    rw [Bytes.toNatBE_ofNatBE]
    omega
  rw [bigEndianWords, bigEndianBytes,
    Bytes.groups_flatMap (by decide) fun n : ℤ => Bytes.length_ofNatBE 4 n.toNat, List.map_map]
  exact (List.map_congr_left hback).trans (List.map_id' ns)

theorem bigEndianBytes_words {bytes : Bytes} (h : 4 ∣ bytes.length) :
    bigEndianBytes (bigEndianWords bytes) = bytes := by
  have hback : ∀ g ∈ Bytes.groups 4 bytes, Bytes.ofNatBE 4 (Bytes.toNatBE g : ℤ).toNat = g := by
    intro g hg
    have hg := Bytes.length_of_mem_groups (by decide) h g hg
    rw [Int.toNat_natCast, ← hg, Bytes.ofNatBE_toNatBE]
  rw [bigEndianBytes, bigEndianWords, List.flatMap_map, List.flatMap_def, List.map_congr_left hback,
    List.map_id', Bytes.flatten_groups 4 bytes (by decide)]

/-- The target keeps the digest with the bytes of every word turned around. -/
theorem groups_wordMessage (m : Bytes) :
    Bytes.groups 4 (wordMessage m) = (Bytes.groups 4 (digest m)).map List.reverse := by
  have hgroups (encode : ℕ → Bytes) (hlen : ∀ n, (encode n).length = 4) :
      Bytes.groups 4 ((words m).toList.flatMap fun n => encode n.toNat) =
        (words m).toList.map fun n => encode n.toNat :=
    Bytes.groups_flatMap (by decide) (fun n : ℤ => hlen n.toNat) _
  rw [wordMessage, Registers.toBytesLE, hgroups _ (Bytes.length_ofNatLE 4), digest,
    Registers.toBytes, hgroups _ (Bytes.length_ofNatBE 4), List.map_map]
  apply List.map_congr_left
  intro n _
  rw [Function.comp_apply, Bytes.ofNatBE, List.reverse_reverse]

theorem wordMessage_inj {m m' : Bytes} :
    wordMessage m = wordMessage m' ↔ digest m = digest m' := by
  have hback (m : Bytes) :
      digest m = ((Bytes.groups 4 (wordMessage m)).map List.reverse).flatten := by
    rw [groups_wordMessage, List.map_map, List.reverse_involutive.comp_self, List.map_id,
      Bytes.flatten_groups 4 _ (by decide)]
  have hforth (m : Bytes) :
      wordMessage m = ((Bytes.groups 4 (digest m)).map List.reverse).flatten := by
    rw [← groups_wordMessage, Bytes.flatten_groups 4 _ (by decide)]
  constructor
  · intro h
    rw [hback m, h, ← hback]
  · intro h
    rw [hforth m, h, ← hforth]

theorem ofBytes_toBytes (s : State) : ofBytes s.registers.toBytes = s.bits := by
  have h (ws : List Word) :
      ofBytes ((ws.map fun w => (w.toNat : ℤ)).flatMap fun n => Bytes.ofNatBE 4 n.toNat) =
        ws.flatMap fun w => Standard.digits 32 w.toNat := by
    induction ws with
    | nil => rfl
    | cons w rest ih =>
      rw [List.map_cons, List.flatMap_cons, Standard.ofBytes_append, ih, Int.toNat_natCast,
        Standard.ofBytes_ofNatBE, List.flatMap_cons]
  rw [Registers.toBytes, toList_registers, h, State.bits]

/-- The digest of a message is the one of the standard: its words are the words of the standard's
hash, its bytes spell the bits of that hash, and packing the words into these bytes succeeds. -/
theorem digest_eq_standard (m : Bytes) :
    words m = (Standard.hash (ofBytes m)).registers ∧
    ofBytes (digest m) = (Standard.hash (ofBytes m)).bits ∧
    Bytes.pack? (Bytes.ofNatBE 4) (words m).toList = some (digest m) := by
  have hwords := words_eq_hash m
  refine ⟨hwords, ?_, ?_⟩
  · rw [digest, hwords, ofBytes_toBytes]
  · rw [pack?_words, digest, Registers.toBytes]

end BootImage.Digest
