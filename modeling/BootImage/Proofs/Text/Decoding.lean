import BootImage.Proofs.Text.Reading

/-! Decoding in parts. Bytes that end inside a character leave its beginning over, and decoding goes
on with that beginning in front of the next bytes; so it does not matter where bytes are cut. The
lines that blocks hand out, up to the first block that is not text, are gathered into one list: a
character inside a line shows in them as itself, or they end before its line. -/

namespace BootImage.Text

variable {read text : List Char} {xs ys tail : Bytes}

theorem admits_of_prefix {a : UInt8} {front following : Bytes} (h : front <+: following)
    (hadmits : admits a following = true) : admits a front = true := by
  obtain ⟨more, rfl⟩ := h
  cases front with
  | nil => rfl
  | cons b rest =>
    rw [List.cons_append, admits, List.all_append, Bool.and_eq_true, Bool.and_eq_true] at hadmits
    rw [admits, Bool.and_eq_true]
    exact ⟨hadmits.1, hadmits.2.1⟩

theorem decodeAfter_cons {a : UInt8} {width : ℕ} (hwidth : width? a = some width)
    (hadmits : admits a (ys.take (width - 1)) = true) (hwhole : width ≤ ys.length + 1)
    (read : List Char) :
    decodeAfter read (a :: ys) =
      decodeAfter (Char.ofNat (codePoint width a (ys.take (width - 1))) :: read)
        (ys.drop (width - 1)) := by
  have hlength : ¬ (ys.take (width - 1)).length + 1 < width := by
    rw [List.length_take]
    omega
  rw [decodeAfter, hwidth]
  simp only [hadmits, Bool.not_true, Bool.false_eq_true, if_false, if_neg hlength]

/-- What a part leaves over is decoded in front of the next part. -/
theorem decodeAfter_append (h : decodeAfter read xs = some (text, tail)) (ys : Bytes) :
    decodeAfter read (xs ++ ys) = decodeAfter text.reverse (tail ++ ys) := by
  fun_induction decodeAfter read xs with
  | case1 read =>
    cases h
    rw [List.reverse_reverse]
  | case2 => cases h
  | case3 => cases h
  | case4 read a rest width hwidth following hadmits hshort =>
    cases h
    rw [List.reverse_reverse]
  | case5 read a rest width hwidth following hadmits hwhole ih =>
    have hwhole : width - 1 ≤ rest.length := by
      rw [List.length_take] at hwhole
      omega
    have htake : (rest ++ ys).take (width - 1) = following := List.take_append_of_le_length hwhole
    rw [← ih h, ← List.drop_append_of_le_length hwhole, List.cons_append,
      decodeAfter_cons hwidth (by simpa [htake] using hadmits)
        (by rw [List.length_append]; omega), htake]

theorem decodeAfter_prefix {part : List Char × Bytes}
    (h : decodeAfter read (xs ++ ys) = some part) :
    ∃ text tail, decodeAfter read xs = some (text, tail) := by
  fun_induction decodeAfter read xs with
  | case1 read => exact ⟨_, _, rfl⟩
  | case2 read a rest hwidth =>
    rw [List.cons_append, decodeAfter, hwidth] at h
    cases h
  | case3 read a rest width hwidth following hadmits =>
    have hfront : following <+: (rest ++ ys).take (width - 1) :=
      ⟨ys.take (width - 1 - rest.length), List.take_append.symm⟩
    have hrefused : admits a ((rest ++ ys).take (width - 1)) = false := by
      rw [← Bool.not_eq_true]
      intro hadmitted
      simp [following, admits_of_prefix hfront hadmitted] at hadmits
    rw [List.cons_append, decodeAfter, hwidth] at h
    simp only [hrefused, Bool.not_false, if_true] at h
    cases h
  | case4 read a rest width hwidth following hadmits hshort => exact ⟨_, _, rfl⟩
  | case5 read a rest width hwidth following hadmits hwhole ih =>
    have hwhole : width - 1 ≤ rest.length := by
      rw [List.length_take] at hwhole
      omega
    have htake : (rest ++ ys).take (width - 1) = following := List.take_append_of_le_length hwhole
    rw [List.cons_append, decodeAfter_cons hwidth (by simpa [htake] using hadmits)
      (by rw [List.length_append]; omega), htake, List.drop_append_of_le_length hwhole] at h
    exact ih h

theorem decodeAfter_read_append (read earlier : List Char) (xs : Bytes) :
    decodeAfter (read ++ earlier) xs =
      (decodeAfter read xs).map fun part => (earlier.reverse ++ part.1, part.2) := by
  fun_induction decodeAfter read xs with
  | case1 read => rw [decodeAfter, List.reverse_append, Option.map_some]
  | case2 read a rest hwidth => rw [decodeAfter, hwidth, Option.map_none]
  | case3 read a rest width hwidth following hadmits =>
    rw [decodeAfter, hwidth]
    simp only [following, hadmits, if_true, Option.map_none]
  | case4 read a rest width hwidth following hadmits hshort =>
    rw [decodeAfter, hwidth]
    simp only [following, hadmits, Bool.false_eq_true, hshort, if_true, if_false, Option.map_some,
      List.reverse_append]
  | case5 read a rest width hwidth following hadmits hwhole ih =>
    rw [decodeAfter, hwidth]
    simp only [following, hadmits, hwhole, if_false]
    exact ih

theorem decodePart_append (h : decodePart xs = some (text, tail)) (ys : Bytes) :
    decodePart (xs ++ ys) =
      (decodePart (tail ++ ys)).map fun part => (text ++ part.1, part.2) := by
  have hafter := decodeAfter_read_append [] text.reverse (tail ++ ys)
  rw [List.nil_append, List.reverse_reverse] at hafter
  rw [decodePart, decodeAfter_append h, hafter]
  rfl

theorem decodePart_split (h : decodePart (xs ++ ys) = some (text, tail)) :
    ∃ front kept back, decodePart xs = some (front, kept) ∧
      decodePart (kept ++ ys) = some (back, tail) ∧ text = front ++ back := by
  obtain ⟨front, kept, hfront⟩ := decodeAfter_prefix h
  rw [decodePart_append hfront, Option.map_eq_some_iff] at h
  obtain ⟨⟨back, rest⟩, hback, hparts⟩ := h
  cases hparts
  exact ⟨front, kept, back, hfront, hback, rfl⟩

theorem decodePart_insert {c : Char} (hc : c.toNat < 128) (h : decodePart xs = some (text, []))
    (ys : Bytes) :
    decodePart (xs ++ UInt8.ofNat c.toNat :: ys) =
      (decodePart ys).map fun part => (text ++ c :: part.1, part.2) := by
  have hascii : IsAscii [c] := by
    intro d hd
    rw [List.mem_singleton.mp hd]
    exact hc
  have hsplit : UInt8.ofNat c.toNat :: ys = asciiBytes [c] ++ ys := rfl
  rw [decodePart_append h, List.nil_append, hsplit, decodePart_append (decodePart_ascii hascii),
    List.nil_append, Option.map_map]
  rfl

theorem decodeUtf8_eq_some {bytes : Bytes} :
    decodeUtf8 bytes = some text ↔ decodePart bytes = some (text, []) := by
  rw [decodeUtf8]
  cases hpart : decodePart bytes with
  | none => simp
  | some part =>
    obtain ⟨read, tail⟩ := part
    cases tail with
    | nil => simp
    | cons b rest => simp

structure Gathered where
  lines : List (List Char)
  isText : Bool

def Gathered.behind (g : Gathered) (lines : List (List Char)) : Gathered :=
  { g with lines := lines ++ g.lines }

namespace Intake

def gather (s : Intake) : List Bytes → Gathered
  | [] =>
    match s.close? with
    | some lines => ⟨lines, true⟩
    | none => ⟨[], false⟩
  | block :: rest =>
    match s.take? block with
    | some (lines, next) => (next.gather rest).behind lines
    | none => ⟨[], false⟩

theorem isText_gather {s : Intake} {before : Bytes} {text : List Char}
    (h : decodePart before = some (text, s.tail)) (blocks : List Bytes) :
    (s.gather blocks).isText = true ↔
      ∃ text, decodePart (before ++ blocks.flatten) = some (text, []) := by
  induction blocks generalizing s before text with
  | nil =>
    rw [gather, close?, List.flatten_nil, List.append_nil, h]
    by_cases htail : s.tail = []
    · simp [htail]
    · simp [htail]
  | cons block rest ih =>
    have happend := decodePart_append h block
    rw [gather, take?, List.flatten_cons, ← List.append_assoc]
    cases hpart : decodePart (s.tail ++ block) with
    | none =>
      rw [hpart] at happend
      refine iff_of_false (fun h => by cases h) ?_
      rintro ⟨_, hwhole⟩
      obtain ⟨front, kept, back, hfront, _⟩ := decodePart_split hwhole
      rw [happend] at hfront
      cases hfront
    | some part =>
      rw [hpart] at happend
      exact ih (happend.trans (congrArg (fun tail => some (_, tail)) (tail_takeText s _ _).symm))

/-- The characters that a block adds to the lines: a carriage return at its end waits, and one that
waited comes before them. -/
def ready (waiting : Bool) (text : List Char) : List Char :=
  let text' := if waiting then '\r' :: text else text
  if text.getLast? == some '\r' then text'.dropLast else text'

variable {tail kept block : Bytes} {waiting : Bool} {text : List Char}

theorem gather_of_not_text (h : decodePart (tail ++ block) = none) (begun : List Char)
    (rest : List Bytes) : gather ⟨tail, waiting, begun⟩ (block :: rest) = ⟨[], false⟩ := by
  rw [gather, take?, h]
  rfl

theorem gather_of_no_text (h : decodePart (tail ++ block) = some ([], kept)) (begun : List Char)
    (rest : List Bytes) :
    gather ⟨tail, waiting, begun⟩ (block :: rest) = gather ⟨kept, waiting, begun⟩ rest := by
  rw [gather, take?, h]
  rfl

theorem gather_of_text (h : decodePart (tail ++ block) = some (text, kept)) (htext : text ≠ [])
    {begun last : List Char} {complete : List (List Char)}
    (hlines : linesAfter begun.reverse (ready waiting text) = complete ++ [last])
    (rest : List Bytes) :
    gather ⟨tail, waiting, begun⟩ (block :: rest) =
      (gather ⟨kept, text.getLast? == some '\r', last⟩ rest).behind complete := by
  have htake : takeText ⟨tail, waiting, begun⟩ text kept =
      ((linesAfter begun.reverse (ready waiting text)).dropLast,
        ⟨kept, text.getLast? == some '\r',
          (linesAfter begun.reverse (ready waiting text)).getLastD []⟩) := by
    rw [takeText, List.isEmpty_eq_false_iff.mpr htext]
    rfl
  rw [gather, take?, h, Option.map_some, htake, hlines, List.dropLast_concat, List.getLastD_concat]

/-- A line already begun is the front of the first line that blocks hand out, if they hand out any;
the rest does not depend on it. -/
theorem gather_begun (tail : Bytes) (waiting : Bool) (blocks : List Bytes) :
    (∃ more after isText, ∀ begun,
      gather ⟨tail, waiting, begun⟩ blocks = ⟨(begun ++ more) :: after, isText⟩) ∨
    ∀ begun, gather ⟨tail, waiting, begun⟩ blocks = ⟨[], false⟩ := by
  induction blocks generalizing tail waiting with
  | nil =>
    by_cases htail : tail = []
    · exact Or.inl ⟨[], [], true, fun begun => by simp [gather, close?, htail]⟩
    · exact Or.inr fun begun => by simp [gather, close?, htail]
  | cons block rest ih =>
    cases hpart : decodePart (tail ++ block) with
    | none => exact Or.inr fun begun => gather_of_not_text hpart begun rest
    | some part =>
      obtain ⟨text, kept⟩ := part
      by_cases htext : text = []
      · subst htext
        simp only [gather_of_no_text hpart]
        exact ih kept waiting
      obtain ⟨more, lines, hlines⟩ := linesAfter_begun (ready waiting text)
      rcases List.eq_nil_or_concat' lines with rfl | ⟨complete, last, rfl⟩
      · have hfirst (begun : List Char) :
            linesAfter begun.reverse (ready waiting text) = [] ++ [begun ++ more] := by
          rw [hlines, List.reverse_reverse, List.nil_append]
        have hnext (begun : List Char) := gather_of_text hpart htext (hfirst begun) rest
        rcases ih kept (text.getLast? == some '\r') with ⟨longer, after, isText, hrest⟩ | hrest
        · refine Or.inl ⟨more ++ longer, after, isText, fun begun => ?_⟩
          rw [hnext, hrest, List.append_assoc]
          rfl
        · refine Or.inr fun begun => ?_
          rw [hnext, hrest]
          rfl
      · have hfirst (begun : List Char) : linesAfter begun.reverse (ready waiting text) =
            ((begun ++ more) :: complete) ++ [last] := by
          rw [hlines, List.reverse_reverse, List.cons_append]
        exact Or.inl ⟨more, _, _, fun begun => gather_of_text hpart htext (hfirst begun) rest⟩

/-- A character that is ASCII and ends no line. -/
def IsPlain (c : Char) : Prop := c.toNat < 128 ∧ c ≠ '\r' ∧ c ≠ '\n'

/-- How lines depend on a plain character at a place of a file, where `complete` are the lines
before its own: it shows in its line and nowhere else, or the lines end before its line. -/
inductive ShowsChar (complete : List (List Char)) (gathered : Char → Gathered) : Prop where
  | shown (before after : List Char) (rest : List (List Char)) (isText : Bool) :
    (∀ c, IsPlain c → gathered c = ⟨complete ++ (before ++ c :: after) :: rest, isText⟩) →
    ShowsChar complete gathered
  | cut (lines : List (List Char)) : lines <+: complete →
    (∀ c, IsPlain c → gathered c = ⟨lines, false⟩) → ShowsChar complete gathered

theorem ShowsChar.behind {complete : List (List Char)} {gathered : Char → Gathered}
    (h : ShowsChar complete gathered) (lines : List (List Char)) :
    ShowsChar (lines ++ complete) fun c => (gathered c).behind lines := by
  cases h with
  | shown before after rest isText hshown =>
    refine .shown before after rest isText fun c hc => ?_
    rw [hshown c hc, List.append_assoc]
    rfl
  | cut front hfront hcut =>
    refine .cut (lines ++ front) ((List.prefix_append_right_inj lines).mpr hfront) fun c hc => ?_
    rw [hcut c hc]
    rfl

theorem remaining_takeText (s : Intake) (block rest : List Char) (tail : Bytes) :
    s.remaining (block ++ rest) =
      (s.takeText block tail).1 ++ (s.takeText block tail).2.remaining rest := by
  by_cases h : block = []
  · subst h
    rfl
  · rw [remaining_append h, takeText, takeText, List.isEmpty_eq_false_iff.mpr h]
    rfl

theorem ready_char (waiting : Bool) (text rest : List Char) :
    ∃ ends more, ∀ c, IsPlain c → ((text ++ c :: rest).getLast? == some '\r') = ends ∧
      ready waiting (text ++ c :: rest) =
        (if waiting then '\r' :: text else text) ++ c :: more := by
  have hbegun (c : Char) (rest : List Char) :
      (if waiting then '\r' :: (text ++ c :: rest) else text ++ c :: rest) =
        (if waiting then '\r' :: text else text) ++ c :: rest := by
    cases waiting <;> rfl
  by_cases hcr : rest.getLast? = some '\r'
  · obtain ⟨init, rfl⟩ := List.getLast?_eq_some_iff.mp hcr
    refine ⟨true, init, fun c _ => ?_⟩
    have hlast : ((text ++ c :: (init ++ ['\r'])).getLast? == some '\r') = true := by
      rw [← List.cons_append, ← List.append_assoc, List.getLast?_concat]
      rfl
    refine ⟨hlast, ?_⟩
    rw [ready, hlast, if_pos rfl, hbegun, ← List.cons_append, ← List.append_assoc,
      List.dropLast_concat]
  · refine ⟨false, rest, fun c hc => ?_⟩
    have hlast : ((text ++ c :: rest).getLast? == some '\r') = false := by
      rw [beq_eq_false_iff_ne, List.getLast?_append_cons, List.getLast?_cons]
      cases hrest : rest.getLast? with
      | none => simpa using hc.2.1
      | some d => simpa [hrest] using hcr
    refine ⟨hlast, ?_⟩
    rw [ready, hlast, if_neg Bool.false_ne_true, hbegun]

theorem linesAfter_ready (s : Intake) (text rest : List Char) :
    ∃ ends longer lines, ∀ c, IsPlain c → ((text ++ c :: rest).getLast? == some '\r') = ends ∧
      linesAfter s.begun.reverse (ready s.waiting (text ++ c :: rest)) =
        (s.remaining text).dropLast ++
          ((s.remaining text).getLastD [] ++ c :: longer) :: lines := by
  obtain ⟨ends, more, hready⟩ := ready_char s.waiting text rest
  obtain ⟨longer, lines, hlines⟩ := linesAfter_begun more
  refine ⟨ends, longer, lines, fun c hc => ⟨(hready c hc).1, ?_⟩⟩
  have hcut : ¬ CutsLineEnd (if s.waiting then '\r' :: text else text) (c :: more) := by
    rintro ⟨_, hhead⟩
    exact hc.2.2 (Option.some_inj.mp hhead)
  rw [(hready c hc).2, linesAfter_append hcut, linesAfter_char _ hc.2.1 hc.2.2, hlines,
    List.reverse_cons, List.reverse_reverse, List.append_assoc, List.singleton_append, ← remaining]

theorem showsChar_block {s : Intake} {front : Bytes} {text : List Char}
    (h : decodePart (s.tail ++ front) = some (text, [])) (back : Bytes) (blocks : List Bytes) :
    ShowsChar (s.remaining text).dropLast
      fun c => s.gather ((front ++ UInt8.ofNat c.toNat :: back) :: blocks) := by
  have hinsert {c : Char} (hc : IsPlain c) := decodePart_insert hc.1 h back
  simp only [List.append_assoc] at hinsert
  cases hback : decodePart back with
  | none =>
    simp only [hback, Option.map_none] at hinsert
    exact .cut [] (List.nil_prefix ..) fun c hc => gather_of_not_text (hinsert hc) s.begun blocks
  | some part =>
    obtain ⟨u, kept⟩ := part
    simp only [hback, Option.map_some] at hinsert
    obtain ⟨ends, longer, lines, hshown⟩ := linesAfter_ready s text u
    have hnext {c : Char} (hc : IsPlain c) {complete : List (List Char)} {last : List Char}
        (hlines : linesAfter s.begun.reverse (ready s.waiting (text ++ c :: u)) =
          complete ++ [last]) :
        s.gather ((front ++ UInt8.ofNat c.toNat :: back) :: blocks) =
          (gather ⟨kept, ends, last⟩ blocks).behind complete := by
      rw [← (hshown c hc).1]
      exact gather_of_text (hinsert hc) (by simp) hlines blocks
    rcases List.eq_nil_or_concat' lines with rfl | ⟨complete, last, rfl⟩
    · -- its line goes on in the next block
      rcases gather_begun kept ends blocks with ⟨after, rest, isText, hrest⟩ | hrest
      · refine .shown ((s.remaining text).getLastD []) (longer ++ after) rest isText fun c hc => ?_
        rw [hnext hc (hshown c hc).2, hrest, List.append_assoc]
        rfl
      · refine .cut _ List.prefix_rfl fun c hc => ?_
        rw [hnext hc (hshown c hc).2, hrest, Gathered.behind, List.append_nil]
    · obtain ⟨next, hrest⟩ : ∃ next, gather ⟨kept, ends, last⟩ blocks = next := ⟨_, rfl⟩
      refine .shown ((s.remaining text).getLastD []) longer (complete ++ next.lines) next.isText
        fun c hc => ?_
      have hcomplete : linesAfter s.begun.reverse (ready s.waiting (text ++ c :: u)) =
          ((s.remaining text).dropLast ++
            ((s.remaining text).getLastD [] ++ c :: longer) :: complete) ++ [last] := by
        rw [(hshown c hc).2, List.append_assoc, List.cons_append]
      rw [hnext hc hcomplete, hrest, Gathered.behind, List.append_assoc, List.cons_append]

theorem showsChar_gather {s : Intake} {front : Bytes} {text : List Char}
    (h : decodePart (s.tail ++ front) = some (text, [])) (back : Bytes) :
    ShowsChar (s.remaining text).dropLast
      fun c => s.gather (Bytes.groups blockSize (front ++ UInt8.ofNat c.toNat :: back)) := by
  have hsize : 0 < blockSize := by decide
  induction hlen : front.length using Nat.strong_induction_on generalizing s front text with
  | _ n ih =>
    by_cases hblock : blockSize ≤ front.length
    · -- the first block lies before the character, and the others are read after it
      rw [← List.take_append_drop blockSize front, ← List.append_assoc] at h
      obtain ⟨earlier, kept, later, hearlier, hlater, rfl⟩ := decodePart_split h
      obtain ⟨next, hnext⟩ : ∃ next, next = s.takeText earlier kept := ⟨_, rfl⟩
      have htail : next.2.tail = kept := by
        rw [hnext]
        exact tail_takeText s earlier kept
      have hremaining : s.remaining (earlier ++ later) = next.1 ++ next.2.remaining later := by
        rw [hnext]
        exact remaining_takeText s earlier later kept
      have hgather (c : Char) :
          s.gather (Bytes.groups blockSize (front ++ UInt8.ofNat c.toNat :: back)) =
            (next.2.gather (Bytes.groups blockSize
              (front.drop blockSize ++ UInt8.ofNat c.toNat :: back))).behind next.1 := by
        rw [Bytes.groups_append_of_le hsize.ne' hblock, gather, take?, hearlier, hnext]
        rfl
      have hshorter : (front.drop blockSize).length < n := by
        rw [List.length_drop, ← hlen]
        omega
      have hne : next.2.remaining later ≠ [] := linesAfter_ne_nil _ _
      rw [hremaining, List.dropLast_append_of_ne_nil hne]
      simp only [hgather]
      exact (ih _ hshorter (by rw [htail]; exact hlater) rfl).behind next.1
    · simp only [Bytes.groups_append_of_lt (not_le.mp hblock)]
      exact showsChar_block h _ _

end Intake

end BootImage.Text
