import BootImage.Image.Listing
import BootImage.Proofs.Bytes
import BootImage.Proofs.Text.Reading
import Mathlib.Data.List.Basic

/-! Reading tables out of VHDL packages. The opening comments of a package repeat a source name,
which may hold anything, line feeds too; so a table is looked for behind the last line that opens
it. Its entries are hexadecimal literals that commas separate, and a comment may follow the last
one. A bootloader has two tables: the code in its ROM, and the signature with the code size. -/

namespace BootImage.Listing

abbrev Line := List Char

def lines (text : String) : List Line := text.toList.splitOn '\n'

def opening (table : String) : Line := ("constant " ++ table ++ " : mem32_t := (").toList

def closing : Line := [')', ';']

/-- What follows the last line equal to a given one. -/
def afterLast? (line : Line) : List Line → Option (List Line)
  | [] => none
  | first :: rest => (afterLast? line rest).or (if first = line then some rest else none)

/-- A hexadecimal literal at the front of a line, and what follows it. -/
def literal? : Line → Option (ℕ × Line)
  | 'x' :: '"' :: rest =>
    match rest.dropWhile (· ≠ '"') with
    | '"' :: tail => (Text.number? 16 (rest.takeWhile (· ≠ '"'))).map fun n => (n, tail)
    | _ => none
  | _ => none

def isComment (tail : Line) : Prop := tail = [] ∨ [' ', '-', '-'] <+: tail

instance (tail : Line) : Decidable (isComment tail) :=
  inferInstanceAs (Decidable (_ ∨ _))

def entries? : List Line → Option (List ℕ)
  | [] => none
  | [line] => (literal? line).bind fun entry => if isComment entry.2 then some [entry.1] else none
  | line :: rest => (literal? line).bind fun entry =>
      if entry.2 = [','] then (entries? rest).map fun ns => entry.1 :: ns else none

/-- The entries of a table, up to the line that closes it. -/
def table? (table text : String) : Option (List ℕ) :=
  (afterLast? (opening table) (lines text)).bind fun rest =>
    if closing ∈ rest then entries? (rest.takeWhile (· ≠ closing)) else none

def unlines (ls : List Line) : List Char := ls.flatMap fun line => line ++ ['\n']

theorem splitOn_unlines {ls : List Line} (h : ∀ line ∈ ls, '\n' ∉ line) :
    (unlines ls).splitOn '\n' = ls ++ [[]] := by
  induction ls with
  | nil => rfl
  | cons line rest ih =>
    have hline : line.splitOn '\n' = [line] :=
      List.splitOn_eq_singleton (h line List.mem_cons_self)
    rw [unlines, List.flatMap_cons, List.append_assoc, List.singleton_append,
      List.splitOn_append_cons_self, hline, ← unlines,
      ih fun l hl => h l (List.mem_cons_of_mem _ hl), List.singleton_append, List.cons_append]

theorem unlines_append (xs ys : List Line) : unlines (xs ++ ys) = unlines xs ++ unlines ys :=
  List.flatMap_append

theorem afterLast?_of_not_mem {line : Line} {ls : List Line} (h : line ∉ ls) :
    afterLast? line ls = none := by
  induction ls with
  | nil => rfl
  | cons first rest ih =>
    rw [List.mem_cons, not_or] at h
    rw [afterLast?, ih h.2, Option.none_or, if_neg (Ne.symm h.1)]

theorem afterLast?_append_cons (line : Line) (before : List Line) {rest : List Line}
    (h : line ∉ rest) : afterLast? line (before ++ line :: rest) = some rest := by
  induction before with
  | nil => rw [List.nil_append, afterLast?, afterLast?_of_not_mem h, Option.none_or, if_pos rfl]
  | cons first before ih => rw [List.cons_append, afterLast?, ih, Option.some_or]

def entryLine (n : ℕ) (tail : Line) : Line :=
  'x' :: '"' :: ((Text.hex 8 n).toList ++ '"' :: tail)

def tableLines (init : List ℕ) (last : ℕ) (tail : Line) : List Line :=
  init.map (fun n => entryLine n [',']) ++ [entryLine last tail]

theorem literal?_entryLine (n : ℕ) (tail : Line) :
    literal? (entryLine n tail) = some (n, tail) := by
  have hquote : ∀ c ∈ (Text.hex 8 n).toList, decide (c ≠ '"') = true := by
    intro c hc
    apply decide_eq_true
    rintro rfl
    exact Text.not_mem_hex (by decide) 8 n hc
  rw [entryLine, literal?, List.dropWhile_append_of_pos hquote, List.takeWhile_append_of_pos hquote]
  simp [Text.number?_hex]

theorem entries?_cons (line : Line) {rest : List Line} (h : rest ≠ []) :
    entries? (line :: rest) = (literal? line).bind fun entry =>
      if entry.2 = [','] then (entries? rest).map fun ns => entry.1 :: ns else none := by
  cases rest with
  | nil => exact absurd rfl h
  | cons => rfl

theorem entries?_tableLines (init : List ℕ) (last : ℕ) {tail : Line} (ht : isComment tail) :
    entries? (tableLines init last tail) = some (init ++ [last]) := by
  induction init with
  | nil =>
    rw [tableLines, List.map_nil, List.nil_append, entries?, literal?_entryLine, Option.bind_some,
      if_pos ht, List.nil_append]
  | cons n rest ih =>
    have hne : tableLines rest last tail ≠ [] := List.append_ne_nil_of_right_ne_nil _ (by simp)
    have hcons : tableLines (n :: rest) last tail =
        entryLine n [','] :: tableLines rest last tail := rfl
    rw [hcons, entries?_cons _ hne, literal?_entryLine, Option.bind_some, if_pos rfl, ih,
      Option.map_some, List.cons_append]

theorem exists_entryLine_of_mem {init : List ℕ} {last : ℕ} {tail line : Line}
    (h : line ∈ tableLines init last tail) :
    ∃ n, ∃ rest, line = entryLine n rest ∧ (rest = [','] ∨ rest = tail) := by
  rw [tableLines, List.mem_append, List.mem_map, List.mem_singleton] at h
  rcases h with ⟨n, _, rfl⟩ | rfl
  · exact ⟨n, _, rfl, Or.inl rfl⟩
  · exact ⟨last, _, rfl, Or.inr rfl⟩

theorem not_mem_tableLines {c : Char} {line : Line} (hc : c ≠ 'x') (init : List ℕ) (last : ℕ)
    (tail : Line) : c :: line ∉ tableLines init last tail := by
  intro h
  obtain ⟨n, rest, he, _⟩ := exists_entryLine_of_mem h
  exact hc (List.cons.inj he).1

theorem newline_not_mem_tableLines {init : List ℕ} {last : ℕ} {tail : Line} (ht : '\n' ∉ tail) :
    ∀ line ∈ tableLines init last tail, '\n' ∉ line := by
  intro line h
  obtain ⟨n, rest, rfl, hrest⟩ := exists_entryLine_of_mem h
  have hdigits : '\n' ∉ (Text.hex 8 n).toList := Text.not_mem_hex (by decide) 8 n
  have htail : '\n' ∉ rest := by
    rcases hrest with rfl | rfl
    · decide
    · exact ht
  simp [entryLine, hdigits, htail]

/-- A table is read back from behind any text, if no later line opens it again. -/
theorem table?_of_lines {table text : String} {before : List Char} {init : List ℕ} {last : ℕ}
    {tail : Line} {after : List Line}
    (htext : text.toList = before ++ '\n' ::
      unlines (opening table :: (tableLines init last tail ++ closing :: after)))
    (ht : isComment tail) (htail : '\n' ∉ tail) (hopening : '\n' ∉ opening table)
    (hafter : ∀ line ∈ after, '\n' ∉ line ∧ line ≠ opening table) :
    table? table text = some (init ++ [last]) := by
  have hhead : opening table = 'c' :: (opening table).tail := by simp [opening]
  have hclean : ∀ line ∈ opening table :: (tableLines init last tail ++ closing :: after),
      '\n' ∉ line := by
    intro line h
    rw [List.mem_cons, List.mem_append, List.mem_cons] at h
    rcases h with rfl | h | rfl | h
    · exact hopening
    · exact newline_not_mem_tableLines htail line h
    · decide
    · exact (hafter line h).1
  have hlast : opening table ∉ tableLines init last tail ++ closing :: after ++ [[]] := by
    intro h
    rw [List.mem_append, List.mem_append, List.mem_cons, List.mem_singleton, hhead] at h
    rcases h with (h | h | h) | h
    · exact not_mem_tableLines (by decide) _ _ _ h
    · exact absurd (List.cons.inj h).1 (by decide)
    · exact (hafter _ h).2 hhead.symm
    · exact List.cons_ne_nil _ _ h
  have hrest : afterLast? (opening table) (lines text) =
      some (tableLines init last tail ++ closing :: after ++ [[]]) := by
    rw [lines, htext, List.splitOn_append_cons_self, splitOn_unlines hclean, List.cons_append]
    exact afterLast?_append_cons _ _ hlast
  have hbody : (tableLines init last tail ++ closing :: after ++ [[]]).takeWhile (· ≠ closing) =
      tableLines init last tail := by
    have hentries : ∀ line ∈ tableLines init last tail, decide (line ≠ closing) = true := by
      intro line h
      apply decide_eq_true
      rintro rfl
      exact not_mem_tableLines (by decide) _ _ _ h
    rw [List.append_assoc, List.takeWhile_append_of_pos hentries, List.cons_append,
      List.takeWhile_cons_of_neg (by simp), List.append_nil]
  rw [table?, hrest, Option.bind_some, if_pos (by simp), hbody, entries?_tableLines _ _ ht]

def imageTable (package : Package) : String := package.stem ++ "_init_image_c"

def secureBootTable : String := "bootloader_init_secure_boot_info_c"

def sizeComment : String := " -- Bootloader code size"

def closingLines (package : Package) : List Line := [[], ("end " ++ package.name ++ ";").toList]

theorem toList_vhdlEntry (w : UInt32) :
    (vhdlEntry w).toList = 'x' :: '"' :: ((Text.hex 8 w.toNat).toList ++ ['"']) := by
  simp [vhdlEntry, digits]

theorem unlines_nil : unlines [] = [] := rfl

theorem unlines_cons (line : Line) (rest : List Line) :
    unlines (line :: rest) = line ++ '\n' :: unlines rest := by
  rw [unlines, List.flatMap_cons, List.append_assoc, List.singleton_append, unlines]

theorem toList_vhdlTable (init : List UInt32) (last : UInt32) :
    (vhdlTable (init ++ [last])).toList =
      unlines (tableLines (init.map UInt32.toNat) last.toNat [] ++ [closing]) := by
  have hentries : (String.intercalate ",\n" ((init ++ [last]).map vhdlEntry)).toList ++ ['\n'] =
      unlines (tableLines (init.map UInt32.toNat) last.toNat []) := by
    induction init with
    | nil => simp [tableLines, unlines, entryLine, toList_vhdlEntry]
    | cons w rest ih =>
      have hne : (rest ++ [last]).map vhdlEntry ≠ [] := by simp
      have hcons : tableLines ((w :: rest).map UInt32.toNat) last.toNat [] =
          entryLine w.toNat [','] :: tableLines (rest.map UInt32.toNat) last.toNat [] := rfl
      rw [List.cons_append, List.map_cons, String.intercalate_cons_of_ne_nil hne, hcons,
        unlines_cons, ← ih]
      simp [entryLine, toList_vhdlEntry]
  rw [unlines_append, ← hentries]
  simp [vhdlTable, unlines, closing]

theorem toList_vhdlSecureBoot (signature : List UInt32) (codeWords : ℕ) :
    (vhdlSecureBoot signature codeWords).toList = unlines (opening secureBootTable ::
      (tableLines (signature.map UInt32.toNat) codeWords sizeComment.toList ++ [closing])) := by
  have hentries : (String.join (signature.map fun w => vhdlEntry w ++ ",\n")).toList =
      unlines ((signature.map UInt32.toNat).map fun n => entryLine n [',']) := by
    rw [String.toList_join, unlines, List.flatMap_map, List.flatMap_map, List.flatMap_map]
    apply List.flatMap_congr
    intro w _
    simp [entryLine, toList_vhdlEntry]
  have hopening : "constant bootloader_init_secure_boot_info_c : mem32_t := (\n".toList =
      opening secureBootTable ++ ['\n'] := rfl
  have hcomment : "\" -- Bootloader code size\n".toList = '"' :: (sizeComment.toList ++ ['\n']) :=
    rfl
  have hquote : "x\"".toList = ['x', '"'] := rfl
  have hclosing : ");\n".toList = closing ++ ['\n'] := rfl
  delta vhdlSecureBoot
  simp only [String.toList_append, hopening, hcomment, hquote, hclosing, hentries, unlines_cons,
    unlines_append, unlines_nil, tableLines, entryLine, List.append_assoc, List.cons_append,
    List.nil_append]

theorem toList_vhdlClosing (package : Package) :
    (vhdlClosing package).toList = unlines (closingLines package) := by
  simp [vhdlClosing, closingLines, unlines]

/-- The front of the line that declares a package's size. -/
def sizeFront (package : Package) : Line :=
  ("constant " ++ package.stem ++ "_init_size_c  : natural := ").toList

def sizeLine (package : Package) (size : ℕ) : Line :=
  sizeFront package ++ ((Text.decimal 1 size).toList ++ "; -- bytes".toList)

theorem toList_vhdlOpening (package : Package) (source : String) (built : DateTime) (size : ℕ) :
    ∃ before, (vhdlOpening package source built size).toList =
      before ++ '\n' :: unlines [sizeLine package size, opening (imageTable package)] := by
  have hfeed : "\n".toList = ['\n'] := rfl
  have hbytes : "; -- bytes\n".toList = "; -- bytes".toList ++ ['\n'] := rfl
  have htable : "_init_image_c : mem32_t := (\n".toList =
      "_init_image_c".toList ++ (" : mem32_t := (".toList ++ ['\n']) := rfl
  have hlast (earlier : String) : (earlier ++ "\n" ++ "constant " ++ package.stem ++
      "_init_size_c  : natural := " ++ Text.decimal 1 size ++ "; -- bytes\n" ++ "constant " ++
      package.stem ++ "_init_image_c : mem32_t := (\n").toList = earlier.toList ++
        '\n' :: unlines [sizeLine package size, opening (imageTable package)] := by
    simp only [String.toList_append, hfeed, hbytes, htable, unlines_cons, unlines_nil, sizeLine,
      sizeFront, opening, imageTable, List.append_assoc, List.cons_append, List.nil_append]
  delta vhdlOpening
  exact ⟨_, hlast _⟩

theorem newline_not_mem_opening {table : String} (h : '\n' ∉ table.toList) :
    '\n' ∉ opening table := by
  have hstart : '\n' ∉ "constant ".toList := by decide
  have hend : '\n' ∉ " : mem32_t := (".toList := by decide
  simp only [opening, String.toList_append, List.mem_append, not_or]
  exact ⟨⟨hstart, h⟩, hend⟩

theorem opening_ne {table : String} {line : Line} (h : line.head? ≠ some 'c') :
    line ≠ opening table := by
  have hhead : (opening table).head? = some 'c' := by simp [opening]
  rintro rfl
  exact h hhead

/-- A line that no declaration begins. -/
def Undeclaring (line : Line) : Prop := '\n' ∉ line ∧ line.head? ≠ some 'c'

instance (line : Line) : Decidable (Undeclaring line) := inferInstanceAs (Decidable (_ ∧ _))

theorem undeclaring_tableLines {init : List ℕ} {last : ℕ} {tail : Line} (ht : '\n' ∉ tail) :
    ∀ line ∈ tableLines init last tail, Undeclaring line := by
  intro line h
  refine ⟨newline_not_mem_tableLines ht line h, ?_⟩
  obtain ⟨n, rest, rfl, _⟩ := exists_entryLine_of_mem h
  simp [entryLine]

theorem undeclaring_closingLines {package : Package} (hname : '\n' ∉ package.name.toList) :
    ∀ line ∈ closingLines package, Undeclaring line := by
  intro line h
  rw [closingLines, List.mem_cons, List.mem_singleton] at h
  rcases h with rfl | rfl
  · decide
  · simp [Undeclaring, hname]

theorem closingLines_clean {package : Package} (hname : '\n' ∉ package.name.toList)
    (table : String) : ∀ line ∈ closingLines package, '\n' ∉ line ∧ line ≠ opening table := by
  intro line h
  obtain ⟨hline, hhead⟩ := undeclaring_closingLines hname line h
  exact ⟨hline, opening_ne hhead⟩

theorem table?_package {package : Package} (hstem : '\n' ∉ (imageTable package).toList)
    (source : String) (built : DateTime) (size : ℕ) {ws : List UInt32} (hws : ws ≠ [])
    {rest : String} {after : List Line} (hrest : rest.toList = unlines after)
    (hafter : ∀ line ∈ after, '\n' ∉ line ∧ line ≠ opening (imageTable package)) :
    table? (imageTable package) (vhdlOpening package source built size ++ vhdlTable ws ++ rest) =
      some (ws.map UInt32.toNat) := by
  obtain ⟨init, last, rfl⟩ := (List.eq_nil_or_concat' ws).resolve_left hws
  obtain ⟨before, hopening⟩ := toList_vhdlOpening package source built size
  have htext : (vhdlOpening package source built size ++ vhdlTable (init ++ [last]) ++
      rest).toList = (before ++ '\n' :: sizeLine package size) ++ '\n' ::
        unlines (opening (imageTable package) ::
          (tableLines (init.map UInt32.toNat) last.toNat [] ++ closing :: after)) := by
    rw [String.toList_append, String.toList_append, hopening, toList_vhdlTable, hrest]
    simp only [unlines_cons, unlines_append, unlines_nil, List.append_assoc, List.cons_append,
      List.nil_append]
  have htable := table?_of_lines htext (Or.inl rfl) (by decide) (newline_not_mem_opening hstem)
    hafter
  rw [htable, List.map_append, List.map_singleton]

theorem table?_application (source : String) (built : DateTime) (size : ℕ) {ws : List UInt32}
    (hws : ws ≠ []) :
    table? (imageTable .application) (vhdlApplication source built size ws) =
      some (ws.map UInt32.toNat) := by
  rw [vhdlApplication]
  exact table?_package (by decide) source built size hws (toList_vhdlClosing .application)
    (closingLines_clean (by decide) _)

theorem opening_injective {s t : String} (h : opening s = opening t) : s = t := by
  simp only [opening, String.toList_append] at h
  exact String.toList_inj.mp (List.append_cancel_left (List.append_cancel_right h))

theorem newline_not_mem_sizeComment : '\n' ∉ sizeComment.toList := by decide

theorem isComment_sizeComment : isComment sizeComment.toList := by decide

theorem undeclaring_secureBootLines (signature : List ℕ) (codeWords : ℕ) :
    ∀ line ∈ tableLines signature codeWords sizeComment.toList ++
        closing :: closingLines .bootloader, Undeclaring line := by
  intro line h
  rw [List.mem_append, List.mem_cons] at h
  rcases h with h | rfl | h
  · exact undeclaring_tableLines newline_not_mem_sizeComment line h
  · decide
  · exact undeclaring_closingLines (by decide) line h

theorem secureBootLines_clean (signature : List ℕ) (codeWords : ℕ) :
    ∀ line ∈ opening secureBootTable ::
        (tableLines signature codeWords sizeComment.toList ++ closing :: closingLines .bootloader),
      '\n' ∉ line ∧ line ≠ opening (imageTable .bootloader) := by
  intro line h
  rcases List.mem_cons.mp h with rfl | h
  · refine ⟨newline_not_mem_opening (by decide), fun he => ?_⟩
    exact absurd (opening_injective he) (by decide)
  · obtain ⟨hline, hhead⟩ := undeclaring_secureBootLines signature codeWords line h
    exact ⟨hline, opening_ne hhead⟩

theorem toList_secureBoot_closing (signature : List UInt32) (codeWords : ℕ) :
    (vhdlSecureBoot signature codeWords ++ vhdlClosing .bootloader).toList =
      unlines (opening secureBootTable ::
        (tableLines (signature.map UInt32.toNat) codeWords sizeComment.toList ++
          closing :: closingLines .bootloader)) := by
  rw [String.toList_append, toList_vhdlSecureBoot, toList_vhdlClosing]
  simp only [unlines_cons, unlines_append, unlines_nil, List.append_assoc, List.cons_append,
    List.nil_append]

variable (source : String) (built : DateTime) (size : ℕ)

theorem table?_secureBoot (ws signature : List UInt32) :
    table? secureBootTable (vhdlBootloader source built size ws signature) =
      some (signature.map UInt32.toNat ++ [ws.length]) := by
  have hend : (vhdlTable ws).toList =
      (String.intercalate ",\n" (ws.map vhdlEntry)).toList ++ '\n' :: closing ++ ['\n'] := by
    simp [vhdlTable, closing]
  have htext : (vhdlBootloader source built size ws signature).toList =
      ((vhdlOpening .bootloader source built size).toList ++
        ((String.intercalate ",\n" (ws.map vhdlEntry)).toList ++ '\n' :: closing)) ++ '\n' ::
      unlines (opening secureBootTable ::
        (tableLines (signature.map UInt32.toNat) ws.length sizeComment.toList ++
          closing :: closingLines .bootloader)) := by
    rw [vhdlBootloader, String.toList_append, String.toList_append, String.toList_append,
      toList_vhdlSecureBoot, toList_vhdlClosing, hend]
    simp only [unlines_cons, unlines_append, unlines_nil, List.append_assoc, List.cons_append,
      List.nil_append]
  exact table?_of_lines htext isComment_sizeComment newline_not_mem_sizeComment
    (newline_not_mem_opening (by decide)) (closingLines_clean (by decide) _)

theorem table?_image {ws : List UInt32} (hws : ws ≠ []) (signature : List UInt32) :
    table? (imageTable .bootloader) (vhdlBootloader source built size ws signature) =
      some (ws.map UInt32.toNat) := by
  rw [vhdlBootloader, String.append_assoc]
  exact table?_package (by decide) source built size hws
    (toList_secureBoot_closing signature ws.length) (secureBootLines_clean _ _)

/-- The code size that a package records, in words. -/
def codeSize? (text : String) : Option ℕ := (table? secureBootTable text).bind List.getLast?

/-- The entries of a table of words, as they lie in memory. -/
def memory? (entries : List ℕ) : Option Bytes :=
  Bytes.pack? (Bytes.ofNatLE 4) (entries.map Nat.cast)

/-- The code in the target's ROM: as many entries as the recorded code size says. -/
def rom? (text : String) : Option Bytes :=
  (codeSize? text).bind fun size =>
    (table? (imageTable .bootloader) text).bind fun entries => memory? (entries.take size)

/-- The secure-boot table holds a signature of 64 words, and the code size behind it. -/
def CarriesSignature (text : String) (signature : Bytes) : Prop :=
  ∃ entries codeWords, table? secureBootTable text = some (entries ++ [codeWords]) ∧
    entries.length = 64 ∧ memory? entries = some signature

theorem memory?_words (ws : List UInt32) : memory? (ws.map UInt32.toNat) = some (Word.join ws) := by
  rw [memory?, List.map_map]
  exact Bytes.pack?_words32 ws

theorem codeSize?_bootloader (ws signature : List UInt32) :
    codeSize? (vhdlBootloader source built size ws signature) = some ws.length := by
  rw [codeSize?, table?_secureBoot, Option.bind_some, List.getLast?_concat]

theorem rom?_bootloader {ws : List UInt32} (hws : ws ≠ []) (signature : List UInt32) :
    rom? (vhdlBootloader source built size ws signature) = some (Word.join ws) := by
  have hall : (ws.map UInt32.toNat).take ws.length = ws.map UInt32.toNat := by
    exact List.take_of_length_le (Nat.le_of_eq (List.length_map _))
  rw [rom?, codeSize?_bootloader, Option.bind_some, table?_image source built size hws,
    Option.bind_some, hall, memory?_words]

theorem length_split_signature {signature : Bytes} (h : signature.length = 256) :
    (Word.split signature).length = 64 := by
  have hsplit := Word.length_split signature
  omega

theorem carriesSignature_bootloader (ws : List UInt32) {signature : Bytes}
    (h : signature.length = 256) :
    CarriesSignature (vhdlBootloader source built size ws (Word.split signature)) signature := by
  have hfill : Word.fill signature.length = [] := by
    rw [h]
    rfl
  have hjoin : Word.join (Word.split signature) = signature := by
    rw [Word.join_split, hfill, List.append_nil]
  refine ⟨(Word.split signature).map UInt32.toNat, ws.length, table?_secureBoot _ _ _ _ _, ?_, ?_⟩
  · rw [List.length_map, length_split_signature h]
  · rw [memory?_words, hjoin]

theorem CarriesSignature.unique {text : String} {first second : Bytes}
    (hfirst : CarriesSignature text first) (hsecond : CarriesSignature text second) :
    first = second := by
  obtain ⟨entries, codeWords, htable, _, hmemory⟩ := hfirst
  obtain ⟨others, otherWords, hother, _, hotherMemory⟩ := hsecond
  rw [htable, Option.some_inj] at hother
  rw [(List.append_inj' hother rfl).1, hotherMemory, Option.some_inj] at hmemory
  exact hmemory.symm

end BootImage.Listing
