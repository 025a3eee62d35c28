import BootImage.Proofs.Bytes
import BootImage.Text.Characters
import BootImage.Text.Lines
import Mathlib.Data.Nat.Init
import Mathlib.Tactic.NormNum

/-! Reading numerals and lines. The texts that numbers are written as, in any base up to sixteen and
filled with zeros to any width, read back as the numbers. Where the bytes are ASCII, the lines that
blocks hand out, one after the other, are those of the whole text: neither a line nor a line end is
lost or doubled where a block ends. -/

namespace BootImage.Text

def digit? (base : ℕ) (c : Char) : Option ℕ := (hexValue? c).filter fun d => d < base

def readDigits? (base : ℕ) : ℕ → List Char → Option ℕ
  | n, [] => some n
  | n, c :: rest => (digit? base c).bind fun d => readDigits? base (base * n + d) rest

def number? (base : ℕ) (cs : List Char) : Option ℕ :=
  if cs = [] then none else readDigits? base 0 cs

/-- A number in the base, at least `width` digits wide. -/
def numeral (base width n : ℕ) : List Char :=
  List.replicate (width - (Nat.toDigits base n).length) '0' ++ Nat.toDigits base n

theorem hexValue?_digitChar : ∀ d < 16, hexValue? (Nat.digitChar d) = some d := by decide

variable {base : ℕ}

theorem digit?_digitChar (hb : base ≤ 16) {d : ℕ} (hd : d < base) :
    digit? base (Nat.digitChar d) = some d := by
  rw [digit?, hexValue?_digitChar d (by omega), Option.filter_some, if_pos (decide_eq_true hd)]

theorem readDigits?_append (m : ℕ) (xs ys : List Char) :
    readDigits? base m (xs ++ ys) =
      (readDigits? base m xs).bind fun n => readDigits? base n ys := by
  induction xs generalizing m with
  | nil => rfl
  | cons c rest ih =>
    rw [List.cons_append, readDigits?, readDigits?, Option.bind_assoc]
    congr 1
    funext d
    exact ih _

theorem readDigits?_toDigits (hb : 1 < base) (hb' : base ≤ 16) (n : ℕ) :
    readDigits? base 0 (Nat.toDigits base n) = some n := by
  induction n using Nat.strong_induction_on with
  | _ n ih =>
    by_cases hn : n < base
    · rw [Nat.toDigits_of_lt_base hn, readDigits?, digit?_digitChar hb' hn, Option.bind_some,
        readDigits?, Nat.mul_zero, Nat.zero_add]
    · have hmod : n % base < base := Nat.mod_lt n (by omega)
      rw [Nat.toDigits_of_base_le hb (by omega), readDigits?_append,
        ih (n / base) (Nat.div_lt_self (by omega) hb), Option.bind_some, readDigits?,
        digit?_digitChar hb' hmod, Option.bind_some, readDigits?, Nat.div_add_mod]

theorem readDigits?_zeros (hb : 1 < base) (k : ℕ) :
    readDigits? base 0 (List.replicate k '0') = some 0 := by
  have hzero : digit? base '0' = some 0 := by
    have h : hexValue? '0' = some 0 := by decide
    rw [digit?, h, Option.filter_some, if_pos (decide_eq_true (by omega))]
  induction k with
  | zero => rfl
  | succ k ih =>
    rw [List.replicate_succ, readDigits?, hzero, Option.bind_some, Nat.mul_zero, Nat.add_zero, ih]

theorem number?_numeral (hb : 1 < base) (hb' : base ≤ 16) (width n : ℕ) :
    number? base (numeral base width n) = some n := by
  have hne : numeral base width n ≠ [] := by
    rw [numeral, Ne, List.append_eq_nil_iff]
    exact fun h => Nat.toDigits_ne_nil h.2
  rw [number?, if_neg hne, numeral, readDigits?_append, readDigits?_zeros hb, Option.bind_some,
    readDigits?_toDigits hb hb']

theorem exists_digit_of_mem_numeral (hb : 1 < base) {width n : ℕ} {c : Char}
    (hc : c ∈ numeral base width n) : ∃ d < base, c = Nat.digitChar d := by
  have hdigits (n : ℕ) : c ∈ Nat.toDigits base n → ∃ d < base, c = Nat.digitChar d := by
    induction n using Nat.strong_induction_on with
    | _ n ih =>
      intro hc
      by_cases hn : n < base
      · rw [Nat.toDigits_of_lt_base hn, List.mem_singleton] at hc
        exact ⟨n, hn, hc⟩
      · rw [Nat.toDigits_of_base_le hb (by omega), List.mem_append, List.mem_singleton] at hc
        rcases hc with hc | hc
        · exact ih (n / base) (Nat.div_lt_self (by omega) hb) hc
        · exact ⟨n % base, Nat.mod_lt n (by omega), hc⟩
  rw [numeral, List.mem_append] at hc
  rcases hc with hc | hc
  · exact ⟨0, by omega, (List.mem_replicate.mp hc).2⟩
  · exact hdigits n hc

theorem not_mem_numeral (hb : 1 < base) (hb' : base ≤ 16) {c : Char} (h : hexValue? c = none)
    (width n : ℕ) : c ∉ numeral base width n := by
  intro hc
  obtain ⟨d, hd, rfl⟩ := exists_digit_of_mem_numeral hb hc
  rw [hexValue?_digitChar d (by omega)] at h
  cases h

theorem toList_hex (width n : ℕ) : (hex width n).toList = numeral 16 width n := by
  rw [hex, String.toList_ofList, numeral]

theorem toList_decimal (width n : ℕ) : (decimal width n).toList = numeral 10 width n := by
  rw [decimal, String.toList_ofList, numeral]

theorem number?_hex (width n : ℕ) : number? 16 (hex width n).toList = some n := by
  rw [toList_hex, number?_numeral (by decide) (by decide)]

theorem number?_decimal (width n : ℕ) : number? 10 (decimal width n).toList = some n := by
  rw [toList_decimal, number?_numeral (by decide) (by decide)]

theorem not_mem_hex {c : Char} (h : hexValue? c = none) (width n : ℕ) :
    c ∉ (hex width n).toList := by
  rw [toList_hex]
  exact not_mem_numeral (by decide) (by decide) h width n

theorem not_mem_decimal {c : Char} (h : hexValue? c = none) (width n : ℕ) :
    c ∉ (decimal width n).toList := by
  rw [toList_decimal]
  exact not_mem_numeral (by decide) (by decide) h width n

theorem length_hex {width n : ℕ} (hw : 0 < width) (hn : n < 16 ^ width) :
    (hex width n).toList.length = width := by
  have hlen : (Nat.toDigits 16 n).length ≤ width :=
    (Nat.length_toDigits_le_iff (by decide) hw).mpr hn
  rw [toList_hex, numeral, List.length_append, List.length_replicate]
  omega

def IsAscii (text : List Char) : Prop := ∀ c ∈ text, c.toNat < 128

instance (text : List Char) : Decidable (IsAscii text) :=
  List.decidableBAll (fun c : Char => c.toNat < 128) text

theorem isAscii_numeral (hb : 1 < base) (hb' : base ≤ 16) (width n : ℕ) :
    IsAscii (numeral base width n) := by
  have hdigit : ∀ d < 16, (Nat.digitChar d).toNat < 128 := by decide
  intro c hc
  obtain ⟨d, hd, rfl⟩ := exists_digit_of_mem_numeral hb hc
  exact hdigit d (hd.trans_le hb')

theorem isAscii_hex (width n : ℕ) : IsAscii (hex width n).toList := by
  rw [toList_hex]
  exact isAscii_numeral (by decide) le_rfl width n

theorem isAscii_decimal (width n : ℕ) : IsAscii (decimal width n).toList := by
  rw [toList_decimal]
  exact isAscii_numeral (by decide) (by decide) width n

def asciiBytes (text : List Char) : Bytes := text.map fun c => UInt8.ofNat c.toNat

theorem IsAscii.append {xs ys : List Char} (hx : IsAscii xs) (hy : IsAscii ys) :
    IsAscii (xs ++ ys) := by
  intro c hc
  rcases List.mem_append.mp hc with hc | hc
  · exact hx c hc
  · exact hy c hc

theorem toNat_asciiByte {c : Char} (h : c.toNat < 128) :
    (UInt8.ofNat c.toNat).toNat = c.toNat := by
  rw [UInt8.toNat_ofNat']
  omega

theorem utf8EncodeChar_ascii {c : Char} (h : c.toNat < 128) :
    String.utf8EncodeChar c = [UInt8.ofNat c.toNat] := by
  have hle : c.val ≤ 0x7f := by
    rw [UInt32.le_iff_toNat_le]
    exact Nat.le_of_lt_succ h
  exact String.utf8EncodeChar_eq_singleton (Char.utf8Size_eq_one_iff.mpr hle)

theorem ofText_ascii {text : List Char} (h : IsAscii text) :
    Bytes.ofText (String.ofList text) = asciiBytes text := by
  have hbytes : text.flatMap String.utf8EncodeChar = asciiBytes text := by
    rw [List.flatMap_congr fun c hc => utf8EncodeChar_ascii (h c hc), asciiBytes]
    exact List.map_eq_flatMap.symm
  rw [Bytes.ofText, String.toUTF8, String.toByteArray_ofList, List.utf8Encode,
    List.toList_data_toByteArray, hbytes]

theorem decodeAfter_ascii (read : List Char) {text : List Char} (h : IsAscii text) :
    decodeAfter read (asciiBytes text) = some (read.reverse ++ text, []) := by
  induction text generalizing read with
  | nil =>
    rw [asciiBytes, List.map_nil, decodeAfter, List.append_nil]
  | cons c rest ih =>
    have hc := toNat_asciiByte (h c List.mem_cons_self)
    have hwidth : width? (UInt8.ofNat c.toNat) = some 1 := by
      have hlt : UInt8.ofNat c.toNat < 0x80 := by
        rw [UInt8.lt_iff_toNat_lt, hc]
        exact h c List.mem_cons_self
      rw [width?, if_pos hlt]
    have hchar : Char.ofNat (codePoint 1 (UInt8.ofNat c.toNat) []) = c := by
      rw [codePoint, if_pos rfl, hc, List.foldl_nil, Char.ofNat_toNat]
    rw [asciiBytes, List.map_cons, decodeAfter, hwidth]
    simp only [Nat.sub_self, List.take_zero, admits, Bool.not_true, Bool.false_eq_true, if_false,
      List.length_nil, Nat.zero_add, Nat.lt_irrefl, List.drop_zero, hchar]
    rw [← asciiBytes, ih _ fun x hx => h x (List.mem_cons_of_mem c hx), List.reverse_cons,
      List.append_assoc, List.singleton_append]

theorem decodePart_ascii {text : List Char} (h : IsAscii text) :
    decodePart (asciiBytes text) = some (text, []) := decodeAfter_ascii [] h

theorem linesAfter_of_plain (begun : List Char) {line : List Char}
    (h : ∀ c ∈ line, c ≠ '\r' ∧ c ≠ '\n') (rest : List Char) :
    linesAfter begun (line ++ rest) = linesAfter (line.reverse ++ begun) rest := by
  induction line generalizing begun with
  | nil => rfl
  | cons c tail ih =>
    obtain ⟨hcr, hlf⟩ := h c List.mem_cons_self
    rw [List.cons_append, linesAfter_char begun hcr hlf,
      ih (c :: begun) fun d hd => h d (List.mem_cons_of_mem c hd), List.reverse_cons,
      List.append_assoc, List.singleton_append]

theorem linesAfter_ne_nil (begun text : List Char) : linesAfter begun text ≠ [] := by
  fun_induction linesAfter begun text with
  | case1 => exact List.cons_ne_nil _ _
  | case2 => exact List.cons_ne_nil _ _
  | case3 => exact List.cons_ne_nil _ _
  | case4 => exact List.cons_ne_nil _ _
  | case5 _ _ _ _ _ _ ih => exact ih

theorem dropLast_cons_linesAfter (first text : List Char) :
    (first :: linesAfter [] text).dropLast = first :: (linesAfter [] text).dropLast :=
  List.dropLast_cons_of_ne_nil (linesAfter_ne_nil [] text)

theorem getLastD_cons_linesAfter (first text : List Char) :
    (first :: linesAfter [] text).getLastD [] = (linesAfter [] text).getLastD [] := by
  obtain ⟨second, lines, hlines⟩ := List.exists_cons_of_ne_nil (linesAfter_ne_nil [] text)
  rw [hlines]
  rfl

/-- Whether a line end is cut in two between texts. -/
def CutsLineEnd (xs ys : List Char) : Prop := xs.getLast? = some '\r' ∧ ys.head? = some '\n'

theorem CutsLineEnd.cons {c : Char} {xs ys : List Char} (h : CutsLineEnd xs ys) :
    CutsLineEnd (c :: xs) ys := by
  refine ⟨?_, h.2⟩
  rw [List.getLast?_cons, h.1, Option.getD_some]

/-- The last line of a text goes on in the next one; the others are complete. -/
theorem linesAfter_append {begun xs ys : List Char} (h : ¬ CutsLineEnd xs ys) :
    linesAfter begun (xs ++ ys) = (linesAfter begun xs).dropLast ++
      linesAfter ((linesAfter begun xs).getLastD []).reverse ys := by
  -- only a carriage return looks at what follows it, so only there the cut matters
  fun_induction linesAfter begun xs with
  | case1 begun =>
    rw [List.dropLast_singleton, List.nil_append, List.nil_append]
    exact congrArg (linesAfter · ys) (List.reverse_reverse begun).symm
  | case2 begun rest ih =>
    rw [List.cons_append, List.cons_append, linesAfter_crlf, dropLast_cons_linesAfter,
      getLastD_cons_linesAfter, List.cons_append, ih fun hcut => h hcut.cons.cons]
  | case3 begun rest hrest ih =>
    have hhead : (rest ++ ys).head? ≠ some '\n' := by
      intro hlf
      cases rest with
      | nil => exact h ⟨rfl, hlf⟩
      | cons c rest =>
        cases hlf
        exact hrest rest rfl
    rw [List.cons_append, linesAfter_cr begun hhead, dropLast_cons_linesAfter,
      getLastD_cons_linesAfter, List.cons_append, ih fun hcut => h hcut.cons]
  | case4 begun rest ih =>
    rw [List.cons_append, linesAfter_lf, dropLast_cons_linesAfter, getLastD_cons_linesAfter,
      List.cons_append, ih fun hcut => h hcut.cons]
  | case5 begun c rest _ hcr hlf ih =>
    rw [List.cons_append, linesAfter_char begun hcr hlf, ih fun hcut => h hcut.cons]

/-- Whether a cut between texts falls inside a line: the characters on both sides belong to it. -/
def CutsLine (xs ys : List Char) : Prop :=
  (∃ c, xs.getLast? = some c ∧ c ≠ '\r' ∧ c ≠ '\n') ∧
  ∃ d, ys.head? = some d ∧ d ≠ '\r' ∧ d ≠ '\n'

theorem linesAfter_lineEnd {c : Char} (hc : c = '\r' ∨ c = '\n') (rest : List Char) :
    ∃ lines, ∀ begun, linesAfter begun (c :: rest) = begun.reverse :: lines := by
  rcases hc with rfl | rfl
  · by_cases hlf : rest.head? = some '\n'
    · obtain ⟨rest, rfl⟩ := List.head?_eq_some_iff.mp hlf
      exact ⟨_, fun begun => linesAfter_crlf begun rest⟩
    · exact ⟨_, fun begun => linesAfter_cr begun hlf⟩
  · exact ⟨_, fun begun => linesAfter_lf begun rest⟩

theorem linesAfter_begun (text : List Char) :
    ∃ more lines, ∀ begun, linesAfter begun text = (begun.reverse ++ more) :: lines := by
  induction text with
  | nil => exact ⟨[], [], fun begun => by rw [linesAfter, List.append_nil]⟩
  | cons c rest ih =>
    by_cases hend : c = '\r' ∨ c = '\n'
    · obtain ⟨lines, hlines⟩ := linesAfter_lineEnd hend rest
      exact ⟨[], lines, fun begun => by rw [hlines, List.append_nil]⟩
    · obtain ⟨hcr, hlf⟩ := not_or.mp hend
      obtain ⟨more, lines, hlines⟩ := ih
      refine ⟨c :: more, lines, fun begun => ?_⟩
      rw [linesAfter_char begun hcr hlf, hlines, List.reverse_cons, List.append_assoc,
        List.singleton_append]

theorem linesAfter_eq_concat (begun text : List Char) :
    linesAfter begun text =
      (linesAfter begun text).dropLast ++ [(linesAfter begun text).getLastD []] := by
  rcases List.eq_nil_or_concat' (linesAfter begun text) with hnil | ⟨lines, last, hlines⟩
  · exact absurd hnil (linesAfter_ne_nil begun text)
  · rw [hlines, List.dropLast_concat, List.getLastD_concat]

theorem last_line_of_ended {begun text : List Char} {c : Char} (h : text.getLast? = some c)
    (hc : c = '\r' ∨ c = '\n') : (linesAfter begun text).getLastD [] = [] := by
  have hrest {begun rest : List Char} (first : Char) (hlast : (first :: rest).getLast? = some c)
      (ih : rest.getLast? = some c → (linesAfter [] rest).getLastD [] = []) :
      (begun.reverse :: linesAfter [] rest).getLastD [] = [] := by
    rw [getLastD_cons_linesAfter]
    cases rest with
    | nil => rfl
    | cons d rest => exact ih hlast
  fun_induction linesAfter begun text with
  | case1 => cases h
  | case2 begun rest ih => exact hrest '\n' h ih
  | case3 begun rest _ ih => exact hrest '\r' h ih
  | case4 begun rest ih => exact hrest '\n' h ih
  | case5 begun d rest _ hcr hlf ih =>
    cases rest with
    | nil =>
      cases h
      rcases hc with rfl | rfl
      · exact absurd rfl hcr
      · exact absurd rfl hlf
    | cons e rest => exact ih h

theorem CutsLine.lines {xs ys : List Char} (h : CutsLine xs ys) :
    ∃ complete front back lines, front ≠ [] ∧ back ≠ [] ∧
      linesAfter [] xs = complete ++ [front] ∧
      linesAfter [] (xs ++ ys) = complete ++ (front ++ back) :: lines := by
  obtain ⟨⟨c, hlast, hccr, hclf⟩, d, hhead, hdcr, hdlf⟩ := h
  obtain ⟨init, rfl⟩ := List.getLast?_eq_some_iff.mp hlast
  obtain ⟨rest, rfl⟩ := List.head?_eq_some_iff.mp hhead
  have hcut (text : List Char) : ¬ CutsLineEnd init (c :: text) := by
    rintro ⟨_, hlf⟩
    cases hlf
    exact hclf rfl
  obtain ⟨begun, hbegun⟩ : ∃ begun, begun = (linesAfter [] init).getLastD [] := ⟨_, rfl⟩
  obtain ⟨more, lines, hlines⟩ := linesAfter_begun rest
  refine ⟨(linesAfter [] init).dropLast, begun ++ [c], d :: more, lines, by simp, by simp, ?_, ?_⟩
  · rw [linesAfter_append (hcut []), ← hbegun, linesAfter_char _ hccr hclf, linesAfter,
      List.reverse_cons, List.reverse_reverse]
  · rw [List.append_assoc, List.singleton_append, linesAfter_append (hcut _), ← hbegun,
      linesAfter_char _ hccr hclf, linesAfter_char _ hdcr hdlf, hlines]
    simp

theorem lines_of_not_cutsLine {xs ys : List Char} (h : ¬ CutsLine xs ys) :
    ∃ complete lines, linesAfter [] (xs ++ ys) = complete ++ lines ∧
      (linesAfter [] xs = complete ∨ linesAfter [] xs = complete ++ [[]]) := by
  by_cases hend : CutsLineEnd xs ys
  · obtain ⟨init, rfl⟩ := List.getLast?_eq_some_iff.mp hend.1
    obtain ⟨rest, rfl⟩ := List.head?_eq_some_iff.mp hend.2
    have hcut (text : List Char) : ¬ CutsLineEnd init ('\r' :: text) := by
      rintro ⟨_, hlf⟩
      cases hlf
    refine ⟨(linesAfter [] init).dropLast ++ [(linesAfter [] init).getLastD []],
      linesAfter [] rest, ?_, Or.inr ?_⟩
    · rw [List.append_assoc, List.singleton_append, linesAfter_append (hcut _), linesAfter_crlf,
        List.reverse_reverse, List.append_cons]
    · rw [linesAfter_append (hcut []), linesAfter_cr _ (by simp), List.reverse_reverse,
        List.append_assoc]
      rfl
  have happend : linesAfter [] (xs ++ ys) = (linesAfter [] xs).dropLast ++
      linesAfter ((linesAfter [] xs).getLastD []).reverse ys := linesAfter_append hend
  by_cases hblank : (linesAfter [] xs).getLastD [] = []
  · refine ⟨_, _, happend, Or.inr ?_⟩
    conv_lhs => rw [linesAfter_eq_concat, hblank]
  · have hlast : ∃ c, xs.getLast? = some c ∧ c ≠ '\r' ∧ c ≠ '\n' := by
      rcases List.eq_nil_or_concat' xs with rfl | ⟨init, c, rfl⟩
      · exact absurd rfl hblank
      · have hc : (init ++ [c]).getLast? = some c := List.getLast?_concat
        exact ⟨c, hc, not_or.mp fun hended => hblank (last_line_of_ended hc hended)⟩
    have hnext : ∃ lines, linesAfter ((linesAfter [] xs).getLastD []).reverse ys =
        (linesAfter [] xs).getLastD [] :: lines := by
      cases ys with
      | nil => exact ⟨[], by rw [linesAfter, List.reverse_reverse]⟩
      | cons d rest =>
        have hd : d = '\r' ∨ d = '\n' := by
          by_contra hplain
          exact h ⟨hlast, d, rfl, not_or.mp hplain⟩
        obtain ⟨lines, hlines⟩ := linesAfter_lineEnd hd rest
        exact ⟨lines, by rw [hlines, List.reverse_reverse]⟩
    obtain ⟨lines, hlines⟩ := hnext
    refine ⟨linesAfter [] xs, lines, ?_, Or.inl rfl⟩
    rw [happend, hlines, List.append_cons, ← linesAfter_eq_concat]

namespace Intake

/-- The lines still to come if some more text follows, once all of it is there. -/
def remaining (s : Intake) (text : List Char) : List (List Char) :=
  linesAfter s.begun.reverse (if s.waiting then '\r' :: text else text)

theorem remaining_append {s : Intake} {block rest : List Char} (h : block ≠ []) :
    s.remaining (block ++ rest) =
      (s.takeText block []).1 ++ (s.takeText block []).2.remaining rest := by
  obtain ⟨text, htext⟩ : ∃ text, text = if s.waiting then '\r' :: block else block := ⟨_, rfl⟩
  have hremaining : s.remaining (block ++ rest) = linesAfter s.begun.reverse (text ++ rest) := by
    rw [remaining, htext]
    cases s.waiting with
    | true => rfl
    | false => rfl
  have hlast : text.getLast? = block.getLast? := by
    rw [htext]
    cases s.waiting with
    | true => exact List.getLast?_cons_of_ne_nil h
    | false => rfl
  have hblock : block.isEmpty = false := List.isEmpty_eq_false_iff.mpr h
  rw [hremaining, takeText, hblock]
  by_cases hcr : block.getLast? = some '\r'
  · have hsplit : text = text.dropLast ++ ['\r'] :=
      (List.dropLast_append_getLast? '\r' (hlast.trans hcr)).symm
    have hcut : ¬ CutsLineEnd text.dropLast ('\r' :: rest) := by
      rintro ⟨_, hhead⟩
      cases hhead
    have hwhole : text ++ rest = text.dropLast ++ '\r' :: rest := by
      conv_lhs => rw [hsplit, List.append_assoc, List.singleton_append]
    simp only [Bool.false_eq_true, if_false, hcr, beq_self_eq_true, if_true, ← htext, remaining]
    rw [hwhole, linesAfter_append hcut]
  · have hcut : ¬ CutsLineEnd text rest := fun hcut => hcr (hlast.symm.trans hcut.1)
    have hwaiting : (block.getLast? == some '\r') = false := beq_eq_false_iff_ne.mpr hcr
    simp only [Bool.false_eq_true, if_false, hwaiting, ← htext, remaining]
    rw [linesAfter_append hcut]

theorem take?_ascii {s : Intake} (hs : s.tail = []) {block : List Char} (h : IsAscii block) :
    s.take? (asciiBytes block) = some (s.takeText block []) := by
  rw [take?, hs, List.nil_append, decodePart_ascii h, Option.map_some]

theorem tail_takeText (s : Intake) (block : List Char) (tail : Bytes) :
    (s.takeText block tail).2.tail = tail := by
  rw [takeText]
  split <;> rfl

end Intake

end BootImage.Text
