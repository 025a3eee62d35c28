import BootImage.Digest.Hasher
import BootImage.Proofs.Digest.Agreement
import Mathlib.Data.Set.Function

/-! Compression of any registers by any schedule, and what it loses. It leaves registers of 32 bits;
from such registers it computes what the standard's rounds compute on machine words, however wide
the entries are and however many. A round can be undone, because what it adds can be computed again
from the registers that it leaves. An entry of the schedule is a sum in which the oldest of the
sixteen before it appears as it is, so a window of sixteen can be slid back as well as forth. -/

namespace BootImage.Digest

open Standard (Word State)

namespace Registers

def InRange (r : Registers) : Prop := ∀ n ∈ r.toList, 0 ≤ n ∧ n < 2 ^ 32

instance (r : Registers) : Decidable r.InRange :=
  inferInstanceAs (Decidable (∀ n ∈ r.toList, 0 ≤ n ∧ n < 2 ^ 32))

def state (r : Registers) : State where
  a := toWord r.a
  b := toWord r.b
  c := toWord r.c
  d := toWord r.d
  e := toWord r.e
  f := toWord r.f
  g := toWord r.g
  h := toWord r.h

theorem words_state (r : Registers) : r.state.words = r.toList.map toWord := rfl

end Registers

variable {r : Registers}

theorem toNat_toWord {n : ℤ} (h : 0 ≤ n ∧ n < 2 ^ 32) : ((toWord n).toNat : ℤ) = n := by
  rw [← low32_eq, low32]
  omega

theorem registers_state (h : r.InRange) : r.state.registers = r := by
  apply toList_inj
  rw [toList_registers, Registers.words_state, List.map_map]
  have hsame := List.map_congr_left fun n hn => toNat_toWord (h n hn)
  exact hsame.trans (List.map_id' r.toList)

theorem inRange_low32 (n : ℤ) : 0 ≤ low32 n ∧ low32 n < 2 ^ 32 := ⟨low32_nonneg n, low32_lt n⟩

theorem add_inRange (r s : Registers) : (r.add s).InRange := by
  intro n hn
  simp only [Registers.add, Registers.toList, List.mem_cons, List.not_mem_nil, or_false] at hn
  rcases hn with rfl | rfl | rfl | rfl | rfl | rfl | rfl | rfl <;> exact inRange_low32 _

/-- The rounds of the standard, one for each entry, and 64 at most. -/
noncomputable def Standard.State.roundsOver (s : State) (entries : List Word) : State :=
  (List.range (min 64 entries.length)).foldl
    (fun r t => r.round (Standard.roundConstant t) (entries.getD t 0)) s

theorem zip_roundConstants (schedule : List ℤ) :
    roundConstants.zip schedule = (List.range (min 64 schedule.length)).map fun t =>
      (((Standard.roundConstant t).toNat : ℤ), schedule.getD t 0) := by
  rw [roundConstants_eq]
  apply List.ext_getElem
  · simp
  · intro t ht _
    have hlen : t < schedule.length := by
      simp only [List.length_zip] at ht
      omega
    simp [hlen]

theorem rounds_eq_roundsOver (s : State) (schedule : List ℤ) :
    s.rounds (roundConstants.zip schedule) = s.roundsOver (schedule.map toWord) := by
  have hentry (t : ℕ) : toWord (schedule.getD t 0) = (schedule.map toWord).getD t 0 := by
    have hzero : toWord 0 = 0 := rfl
    rw [← hzero, List.getD_map]
  rw [zip_roundConstants, State.rounds, List.foldl_map, State.roundsOver, List.length_map]
  simp only [toWord_toNat, hentry]

theorem compress?_toList (r : Registers) (schedule : List ℤ) :
    compress? r.toList schedule = .ok (compress r schedule) := rfl

/-- Any eight integers are compressed, and what is left are registers of 32 bits. Where it starts
from such registers, compression is the standard's, of the schedule modulo `2^32`. -/
theorem compress_exact (r : Registers) (schedule : List ℤ) :
    compress? r.toList schedule = .ok (compress r schedule) ∧
    (compress r schedule).InRange ∧
    (r.InRange → compress r schedule =
      (r.state.add (r.state.roundsOver (schedule.map toWord))).registers) := by
  refine ⟨compress?_toList r schedule, add_inRange _ _, fun hr => ?_⟩
  conv_lhs => rw [← registers_state hr]
  rw [compress_registers, rounds_eq_roundsOver]

theorem wide_entries_compressed :
    Registers.initial.InRange ∧ (compress .initial [-1, 2 ^ 40 + 5]).InRange ∧
    compress .initial [-1, 2 ^ 40 + 5] =
      (Registers.initial.state.add
        (Registers.initial.state.roundsOver [0xffffffff, 5])).registers := by
  have hinitial : Registers.initial.InRange := by decide
  have hentries : [(-1 : ℤ), 2 ^ 40 + 5].map toWord = [0xffffffff, 5] := by decide
  obtain ⟨-, hrange, hexact⟩ := compress_exact .initial [-1, 2 ^ 40 + 5]
  rw [hentries] at hexact
  exact ⟨hinitial, hrange, hexact hinitial⟩

namespace Registers

/-- The registers before a round. Its second sum is computed from registers that the round only
moves; that gives the first sum, and the first sum gives `d` and `h`. -/
def unround (r : Registers) (k w : ℤ) : Registers :=
  let t2 := low32 (bigSigma0 r.b + majority r.b r.c r.d)
  let t1 := low32 (r.a - t2)
  { a := r.b, b := r.c, c := r.d, d := low32 (r.e - t1)
    e := r.f, f := r.g, g := r.h, h := low32 (t1 - (bigSigma1 r.f + choose r.f r.g r.h + k + w)) }

variable {r s : Registers}

theorem unround_round (h : r.InRange) (k w : ℤ) : (r.round k w).unround k w = r := by
  have hd : 0 ≤ r.d ∧ r.d < 2 ^ 32 := h r.d (by simp [toList])
  have hh : 0 ≤ r.h ∧ r.h < 2 ^ 32 := h r.h (by simp [toList])
  have hsum : r.h + bigSigma1 r.e + choose r.e r.f r.g + k + w =
      r.h + (bigSigma1 r.e + choose r.e r.f r.g + k + w) := by omega
  simp only [unround, round, hsum, low32_add_sub (inRange_low32 _), low32_add_sub hd,
    low32_add_sub hh]

theorem round_unround (h : r.InRange) (k w : ℤ) : (r.unround k w).round k w = r := by
  have ha : 0 ≤ r.a ∧ r.a < 2 ^ 32 := h r.a (by simp [toList])
  have he : 0 ≤ r.e ∧ r.e < 2 ^ 32 := h r.e (by simp [toList])
  have hsum (n : ℤ) : n + bigSigma1 r.f + choose r.f r.g r.h + k + w =
      n + (bigSigma1 r.f + choose r.f r.g r.h + k + w) := by omega
  simp only [unround, round, hsum, low32_sub_add (inRange_low32 _), low32_sub_add ha,
    low32_sub_add he]

theorem InRange.moved (h : r.InRange) (hs : ∀ n ∈ s.toList, n ∈ r.toList ∨ n ∈ Set.range low32) :
    s.InRange := by
  intro n hn
  rcases hs n hn with hmem | ⟨m, rfl⟩
  · exact h n hmem
  · exact inRange_low32 m

theorem InRange.round (h : r.InRange) (k w : ℤ) : (r.round k w).InRange := by
  apply h.moved
  simp [Registers.round, toList]

theorem InRange.unround (h : r.InRange) (k w : ℤ) : (r.unround k w).InRange := by
  apply h.moved
  simp [Registers.unround, toList]

theorem bijOn_round (k w : ℤ) : Set.BijOn (round · k w) {r | r.InRange} {r | r.InRange} := by
  have hinv : Set.InvOn (unround · k w) (round · k w) {r | r.InRange} {r | r.InRange} := by
    constructor
    · intro r hr
      exact unround_round hr k w
    · intro r hr
      exact round_unround hr k w
  apply hinv.bijOn
  · intro r hr
    exact hr.round k w
  · intro r hr
    exact hr.unround k w

end Registers

theorem bijOn_foldl_round (entries : List (ℤ × ℤ)) :
    Set.BijOn (fun r => entries.foldl (fun r kw => r.round kw.1 kw.2) r)
      {r : Registers | r.InRange} {r | r.InRange} := by
  induction entries with
  | nil => exact Set.bijOn_id _
  | cons kw rest ih => exact ih.comp (Registers.bijOn_round kw.1 kw.2)

theorem bijOn_rounds (schedule : List ℤ) :
    Set.BijOn (rounds · schedule) {r | r.InRange} {r | r.InRange} :=
  bijOn_foldl_round (roundConstants.zip schedule)

def Registers.sub (r s : Registers) : Registers where
  a := low32 (r.a - s.a)
  b := low32 (r.b - s.b)
  c := low32 (r.c - s.c)
  d := low32 (r.d - s.d)
  e := low32 (r.e - s.e)
  f := low32 (r.f - s.f)
  g := low32 (r.g - s.g)
  h := low32 (r.h - s.h)

theorem Registers.add_sub_self {s : Registers} (h : s.InRange) (r : Registers) :
    (r.add s).sub r = s := by
  have hback : ∀ n ∈ s.toList, ∀ m, low32 (low32 (m + n) - m) = n := by
    intro n hn m
    rw [Int.add_comm]
    exact low32_add_sub (h n hn) m
  apply toList_inj
  simp only [toList, List.mem_cons, List.not_mem_nil, or_false, forall_eq_or_imp, forall_eq]
    at hback
  simp only [Registers.sub, Registers.add, Registers.toList, hback]

/-- Whatever the schedule, compression adds to its registers what the rounds make of them, and the
rounds permute the registers of 32 bits. -/
theorem compress_adds_permutation (schedule : List ℤ) :
    Set.BijOn (fun r => (compress r schedule).sub r) {r | r.InRange} {r | r.InRange} ∧
    Set.EqOn (fun r => (compress r schedule).sub r) (rounds · schedule) {r | r.InRange} := by
  have hrounds := bijOn_rounds schedule
  have hadded : Set.EqOn (fun r => (compress r schedule).sub r) (rounds · schedule)
      {r | r.InRange} := by
    intro r hr
    exact Registers.add_sub_self (hrounds.mapsTo hr) r
  exact ⟨hadded.bijOn_iff.mpr hrounds, hadded⟩

/-- The sixteen entries of a schedule from one position on. -/
def window (schedule : List ℤ) (i : ℕ) : List ℤ := (schedule.drop i).take 16

def IsWindow (ws : List ℤ) : Prop := ws.length = 16 ∧ ∀ n ∈ ws, 0 ≤ n ∧ n < 2 ^ 32

instance (ws : List ℤ) : Decidable (IsWindow ws) :=
  inferInstanceAs (Decidable (ws.length = 16 ∧ ∀ n ∈ ws, 0 ≤ n ∧ n < 2 ^ 32))

variable {n : ℤ} {ws later : List ℤ}

/-- What is added to the oldest entry of a window, computed from the fifteen later ones. -/
def addend (later : List ℤ) : ℤ :=
  sigma1 (later.getD 13 0) + later.getD 8 0 + sigma0 (later.getD 0 0)

def unslide (ws : List ℤ) : List ℤ := low32 (ws.getLastD 0 - addend ws.dropLast) :: ws.dropLast

theorem slide_cons (n : ℤ) (later : List ℤ) :
    slide (n :: later) = later ++ [low32 (n + addend later)] := by
  have hsum : nextEntry (n :: later) = low32 (addend later + n) := by
    simp only [nextEntry, addend, List.getD_cons_succ, List.getD_cons_zero]
  rw [slide, hsum, Int.add_comm, List.tail_cons]

theorem unslide_concat (later : List ℤ) (n : ℤ) :
    unslide (later ++ [n]) = low32 (n - addend later) :: later := by
  rw [unslide, List.getLastD_concat, List.dropLast_concat]

theorem isWindow_concat : IsWindow (later ++ [n]) ↔ IsWindow (n :: later) := by
  have hperm := List.perm_append_singleton n later
  simp only [IsWindow, hperm.length_eq, hperm.mem_iff]

theorem IsWindow.cut (h : IsWindow (n :: later)) (m : ℤ) : IsWindow (low32 m :: later) := by
  obtain ⟨hlen, hrange⟩ := h
  refine ⟨hlen, ?_⟩
  intro k hk
  rcases List.mem_cons.mp hk with rfl | hk
  · exact inRange_low32 m
  · exact hrange k (List.mem_cons_of_mem n hk)

theorem IsWindow.exists_cons (h : IsWindow ws) : ∃ n later, ws = n :: later :=
  List.exists_cons_of_length_eq_add_one h.1

theorem IsWindow.exists_concat (h : IsWindow ws) : ∃ later n, ws = later ++ [n] := by
  rcases List.eq_nil_or_concat ws with rfl | ⟨later, n, rfl⟩
  · exact absurd h.1 (by decide)
  · exact ⟨later, n, List.concat_eq_append⟩

/-- The oldest entry of a window comes back when what was added to it is taken away again. -/
theorem invOn_unslide_slide : Set.InvOn unslide slide {ws | IsWindow ws} {ws | IsWindow ws} := by
  constructor
  · intro ws h
    obtain ⟨n, later, rfl⟩ := h.exists_cons
    have hn : 0 ≤ n ∧ n < 2 ^ 32 := h.2 n List.mem_cons_self
    rw [slide_cons, unslide_concat, low32_add_sub hn]
  · intro ws h
    obtain ⟨later, n, rfl⟩ := h.exists_concat
    have hn : 0 ≤ n ∧ n < 2 ^ 32 := h.2 n List.mem_concat_self
    rw [unslide_concat, slide_cons, low32_sub_add hn]

theorem bijOn_slide : Set.BijOn slide {ws | IsWindow ws} {ws | IsWindow ws} := by
  apply invOn_unslide_slide.bijOn
  · intro ws h
    obtain ⟨n, later, rfl⟩ := h.exists_cons
    rw [slide_cons]
    exact isWindow_concat.mpr (h.cut _)
  · intro ws h
    obtain ⟨later, n, rfl⟩ := h.exists_concat
    rw [unslide_concat]
    exact (isWindow_concat.mp h).cut _

theorem drop_expand (n i : ℕ) (ws : List ℤ) :
    (expand (i + n) ws).drop i = expand n (slide^[i] ws) := by
  induction i generalizing ws with
  | zero => rw [Nat.zero_add, List.drop_zero, Function.iterate_zero_apply]
  | succ i ih => rw [Nat.succ_add, expand, List.drop_succ_cons, ih, Function.iterate_succ_apply]

theorem take_expand (n : ℕ) {ws : List ℤ} (h : ws.length = 16) : (expand n ws).take 16 = ws := by
  induction n generalizing ws with
  | zero => rw [expand, ← h, List.take_length]
  | succ n ih =>
    obtain ⟨first, later, rfl⟩ := List.exists_cons_of_length_eq_add_one h
    have hlater : later.length = 15 := Nat.succ.inj h
    have hslide : (slide (first :: later)).length = 16 := by
      rw [slide_cons, List.length_append, hlater, List.length_singleton]
    have htake : (expand n (slide (first :: later))).take 15 = later := by
      have hmin : 15 = min 15 16 := rfl
      rw [hmin, ← List.take_take, ih hslide, slide_cons, List.take_left' hlater]
    rw [expand, List.headD_cons, List.take_succ_cons, htake]

theorem isWindow_bigEndianWords {block : Bytes} (h : block.length = 64) :
    IsWindow (bigEndianWords block) := by
  constructor
  · have hlen : block.length = 4 * 16 := h
    rw [bigEndianWords, List.length_map, Bytes.length_groups (by decide) hlen]
  · intro n hn
    obtain ⟨g, hg, rfl⟩ := List.mem_map.mp hn
    have hsize := Bytes.length_of_mem_groups (by decide) (by omega) g hg
    have hlt := Bytes.toNatBE_lt g
    rw [hsize] at hlt
    omega

theorem bijOn_bigEndianWords :
    Set.BijOn bigEndianWords {block | block.length = 64} {ws | IsWindow ws} := by
  have hinv : Set.InvOn bigEndianBytes bigEndianWords {block | block.length = 64}
      {ws | IsWindow ws} := by
    constructor
    · intro block (h : block.length = 64)
      exact bigEndianBytes_words (by omega)
    · intro ws h
      exact bigEndianWords_bytes h.2
  apply hinv.bijOn
  · intro block h
    exact isWindow_bigEndianWords h
  · intro ws h
    show (bigEndianBytes ws).length = 64
    rw [length_bigEndianBytes, h.1]

theorem window_scheduleOf {block : Bytes} (h : block.length = 64) {i : ℕ} (hi : i ≤ 48) :
    window (scheduleOf block) i = slide^[i] (bigEndianWords block) := by
  obtain ⟨left, hleft⟩ := Nat.exists_eq_add_of_le hi
  have hwindow := ((bijOn_slide.iterate i).comp bijOn_bigEndianWords).mapsTo h
  rw [window, scheduleOf, hleft, drop_expand]
  exact take_expand left hwindow.1

theorem bijOn_window {i : ℕ} (hi : i ≤ 48) :
    Set.BijOn (fun block => window (scheduleOf block) i) {block | block.length = 64}
      {ws | IsWindow ws} := by
  apply ((bijOn_slide.iterate i).comp bijOn_bigEndianWords).congr
  intro block h
  exact (window_scheduleOf h hi).symm

theorem schedule?_of_length {block : Bytes} (h : block.length = 64) :
    schedule? (.bytes block) = .ok (scheduleOf block) := by
  rw [schedule?, blockSize, if_pos h]

/-- Every block has a schedule, any sixteen entries of it in a row tell which block it is, and any
sixteen words of 32 bits are these entries for one block. -/
theorem windows_determine_block {i : ℕ} (hi : i ≤ 48) :
    (∀ block : Bytes, block.length = 64 → schedule? (.bytes block) = .ok (scheduleOf block) ∧
      IsWindow (window (scheduleOf block) i)) ∧
    (∀ block block' : Bytes, block.length = 64 → block'.length = 64 →
      window (scheduleOf block) i = window (scheduleOf block') i → block = block') ∧
    ∀ ws, IsWindow ws →
      ∃! block : Bytes, block.length = 64 ∧ window (scheduleOf block) i = ws := by
  obtain ⟨hmaps, hinj, hsurj⟩ := bijOn_window hi
  refine ⟨fun block h => ⟨schedule?_of_length h, hmaps h⟩, fun block block' h h' hsame => ?_,
    fun ws hws => ?_⟩
  · exact hinj h h' hsame
  · obtain ⟨block, h, hblock⟩ := hsurj hws
    refine ⟨block, ⟨h, hblock⟩, ?_⟩
    rintro other ⟨hother, hsame⟩
    exact hinj hother h (hsame.trans hblock.symm)

def countingWindow : List ℤ := [0, 1, 2, 3, 4, 5, 6, 7, 8, 9, 10, 11, 12, 13, 14, 15]

def countingBlock : Bytes := bigEndianBytes
  [0x3e86e88f, 0xe8fc91a3, 0x18268aa4, 0x8709ec05, 0x2fdbd2b0, 0xbe0c6b75, 0xfd521b87, 0x5cea3ca3,
   0x4647b945, 0xd2674ff1, 0x19e960c4, 0xf37a9a27, 0x68637d1b, 0xf5c72e2c, 0x68ee3d6b, 0x91cde718]

theorem counting_ends_one_schedule :
    48 ≤ 48 ∧ IsWindow countingWindow ∧ countingBlock.length = 64 ∧
    window (scheduleOf countingBlock) 48 = countingWindow ∧
    (∃! block : Bytes, block.length = 64 ∧ window (scheduleOf block) 48 = countingWindow) ∧
    ∀ block : Bytes, block.length = 64 → window (scheduleOf block) 48 = countingWindow →
      block = countingBlock := by
  have hlate : 48 ≤ 48 := by decide
  have hwindow : IsWindow countingWindow := by decide
  have hblock : countingBlock.length = 64 := by decide +kernel
  have hends : window (scheduleOf countingBlock) 48 = countingWindow := by decide +kernel
  obtain ⟨-, hsame, hunique⟩ := windows_determine_block hlate
  refine ⟨hlate, hwindow, hblock, hends, hunique countingWindow hwindow, fun block h hw => ?_⟩
  exact hsame block countingBlock h hblock (hw.trans hends.symm)

end BootImage.Digest
