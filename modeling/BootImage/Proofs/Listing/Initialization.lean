import BootImage.Proofs.Listing.Vhdl

/-! Reading words out of the files that initialize a memory: plain hexadecimal lines, and the COE,
MEM and MIF files. Each reader follows the grammar of its format and takes the radix from the file
where the file states one; what it reads from a listing are the listed words, in order, and the
addresses that stand beside them count from zero. -/

namespace BootImage.Listing

def endedLines? (text : String) : Option (List Line) :=
  if (lines text).getLast? = some [] then some (lines text).dropLast else none

def word? (digits : Line) : Option ℕ :=
  if digits.length = 8 then Text.number? 16 digits else none

/-- What stands before a last semicolon. -/
def statement? (text : Line) : Option Line :=
  if text.getLast? = some ';' then some text.dropLast else none

def hexWords? (text : String) : Option (List ℕ) :=
  (endedLines? text).bind fun ls => ls.mapM word?

def setting? (statement : Line) : Option (Line × Line) :=
  match statement.splitOn '=' with
  | [key, value] => some (key, value)
  | _ => none

/-- Numbers that commas separate, in the radix that is set before them; line feeds mean nothing. -/
def coeWords? (text : String) : Option (List ℕ) :=
  match (text.toList.filter (· ≠ '\n')).splitOn ';' with
  | [first, second, []] =>
    match setting? first, setting? second with
    | some (radixKey, radix), some (vectorKey, vector) =>
      if radixKey = "memory_initialization_radix".toList ∧
          vectorKey = "memory_initialization_vector".toList then
        (Text.number? 10 radix).bind fun base => (vector.splitOn ',').mapM (Text.number? base)
      else none
    | _, _ => none
  | _ => none

/-- An address behind an at sign, and the word there. -/
def memCell? : Line → Option (ℕ × ℕ)
  | '@' :: rest =>
    match rest.splitOn ' ' with
    | [address, word] => (Text.number? 16 address).bind fun a => (word? word).map fun w => (a, w)
    | _ => none
  | _ => none

def memEntries? (text : String) : Option (List (ℕ × ℕ)) :=
  (endedLines? text).bind fun ls => ls.mapM memCell?

structure Mif where
  depth : ℕ
  width : ℕ
  entries : List (ℕ × ℕ)
  deriving DecidableEq, Repr

def mifSetting? (key : String) (line : Line) : Option Line :=
  (statement? line).bind fun statement =>
    match statement.splitOn ' ' with
    | [first, ['='], value] => if first = key.toList then some value else none
    | _ => none

def radix? (name : Line) : Option ℕ :=
  if name = "HEX".toList then some 16
  else if name = "DEC".toList then some 10
  else if name = "OCT".toList then some 8
  else if name = "BIN".toList then some 2
  else none

def mifCell? (addressBase dataBase : ℕ) (line : Line) : Option (ℕ × ℕ) :=
  (statement? line).bind fun statement =>
    match statement.splitOn ' ' with
    | [address, [':'], word] =>
      (Text.number? addressBase address).bind fun a =>
        (Text.number? dataBase word).map fun w => (a, w)
    | _ => none

/-- The entries between the line that begins the content and the one that ends it. -/
def mifContent? (addressBase dataBase : ℕ) : List Line → Option (List (ℕ × ℕ))
  | content :: start :: rest =>
    if content = "CONTENT".toList ∧ start = "BEGIN".toList ∧
        rest.getLast? = some "END;".toList then
      rest.dropLast.mapM (mifCell? addressBase dataBase)
    else none
  | _ => none

def mif? (text : String) : Option Mif :=
  match endedLines? text with
  | some (depth :: width :: addressRadix :: dataRadix :: rest) =>
    ((mifSetting? "DEPTH" depth).bind (Text.number? 10)).bind fun depth =>
    ((mifSetting? "WIDTH" width).bind (Text.number? 10)).bind fun width =>
    ((mifSetting? "ADDRESS_RADIX" addressRadix).bind radix?).bind fun addressBase =>
    ((mifSetting? "DATA_RADIX" dataRadix).bind radix?).bind fun dataBase =>
    (mifContent? addressBase dataBase rest).map fun entries => { depth, width, entries }
  | _ => none

theorem number?_digits (w : UInt32) : Text.number? 16 (digits w).toList = some w.toNat := by
  rw [digits, Text.number?_hex]

theorem word?_digits (w : UInt32) : word? (digits w).toList = some w.toNat := by
  have hlen : (digits w).toList.length = 8 := Text.length_hex (by decide) w.toNat_lt
  rw [word?, if_pos hlen, number?_digits]

theorem not_mem_digits {c : Char} (h : Text.hexValue? c = none) (w : UInt32) :
    c ∉ (digits w).toList := Text.not_mem_hex h 8 w.toNat

theorem statement?_concat (text : Line) : statement? (text ++ [';']) = some text := by
  rw [statement?, List.getLast?_concat, if_pos rfl, List.dropLast_concat]

theorem endedLines?_of_unlines {text : String} {ls : List Line} (htext : text.toList = unlines ls)
    (h : ∀ line ∈ ls, '\n' ∉ line) : endedLines? text = some ls := by
  have hlines : lines text = ls ++ [[]] := by
    rw [lines, htext, splitOn_unlines h]
  rw [endedLines?, hlines, List.getLast?_concat, if_pos rfl, List.dropLast_concat]

theorem toList_join_lines {α : Type} {piece : α → String} {line : α → Line}
    (h : ∀ a, (piece a).toList = line a ++ ['\n']) (as : List α) :
    (String.join (as.map piece)).toList = unlines (as.map line) := by
  rw [String.toList_join, unlines, List.flatMap_map, List.flatMap_map]
  exact List.flatMap_congr fun a _ => h a

/-- A reader that undoes a writer entry by entry undoes it on a list. -/
theorem mapM_map_of_inverse {α β γ : Type} {read : β → Option γ} {write : α → β} {value : α → γ}
    (h : ∀ a, read (write a) = some (value a)) (as : List α) :
    (as.map write).mapM read = some (as.map value) := by
  have hcomp : read ∘ write = fun a => some (value a) := by
    funext a
    exact h a
  rw [List.mapM_map, hcomp]
  exact List.mapM_pure

theorem hexWords?_hex (ws : List UInt32) : hexWords? (hex ws) = some (ws.map UInt32.toNat) := by
  have htext : (hex ws).toList = unlines (ws.map fun w => (digits w).toList) := by
    apply toList_join_lines
    intro w
    rw [String.toList_append]
    rfl
  have hclean : ∀ line ∈ ws.map fun w => (digits w).toList, '\n' ∉ line := by
    intro line h
    obtain ⟨w, _, rfl⟩ := List.mem_map.mp h
    exact not_mem_digits (by decide) w
  rw [hexWords?, endedLines?_of_unlines htext hclean, Option.bind_some]
  exact mapM_map_of_inverse word?_digits ws

theorem filter_intercalate (keep : Char → Bool) (separator : Line) (ls : List Line) :
    (separator.intercalate ls).filter keep =
      (separator.filter keep).intercalate (ls.map (List.filter keep)) := by
  induction ls with
  | nil => rfl
  | cons first rest ih =>
    cases rest with
    | nil => simp [List.intercalate_singleton]
    | cons second rest =>
      rw [List.intercalate_cons_cons, List.filter_append, List.filter_append, ih]
      simp only [List.map_cons, List.intercalate_cons_cons]

theorem mem_intercalate {separator : Line} {ls : List Line} {c : Char}
    (h : c ∈ separator.intercalate ls) : c ∈ separator ∨ ∃ line ∈ ls, c ∈ line := by
  rw [List.intercalate, List.mem_flatten] at h
  obtain ⟨piece, hpiece, hc⟩ := h
  induction ls with
  | nil => cases hpiece
  | cons first rest ih =>
    cases rest with
    | nil =>
      rw [List.intersperse_singleton, List.mem_singleton] at hpiece
      exact Or.inr ⟨first, List.mem_cons_self, hpiece ▸ hc⟩
    | cons second rest =>
      rw [List.intersperse_cons_cons, List.mem_cons, List.mem_cons] at hpiece
      rcases hpiece with rfl | rfl | hpiece
      · exact Or.inr ⟨piece, List.mem_cons_self, hc⟩
      · exact Or.inl hc
      · rcases ih hpiece with hseparator | ⟨line, hline, hmem⟩
        · exact Or.inl hseparator
        · exact Or.inr ⟨line, List.mem_cons_of_mem _ hline, hmem⟩

def separated (separator : Char) (ws : List UInt32) : Line :=
  [separator].intercalate (ws.map fun w => (digits w).toList)

theorem not_mem_separated {c separator : Char} (h : Text.hexValue? c = none)
    (hc : c ≠ separator) (ws : List UInt32) : c ∉ separated separator ws := by
  intro hmem
  rcases mem_intercalate hmem with hseparator | ⟨line, hline, hdigit⟩
  · exact hc (List.mem_singleton.mp hseparator)
  · obtain ⟨w, _, rfl⟩ := List.mem_map.mp hline
    exact not_mem_digits h w hdigit

theorem splitOn_separated {separator : Char} (hs : Text.hexValue? separator = none)
    {ws : List UInt32} (h : ws ≠ []) :
    (separated separator ws).splitOn separator = ws.map fun w => (digits w).toList := by
  apply List.splitOn_intercalate
  · intro line hline
    obtain ⟨w, _, rfl⟩ := List.mem_map.mp hline
    exact not_mem_digits hs w
  · simpa using h

theorem setting?_row {key value : Line} (hkey : '=' ∉ key) (hvalue : '=' ∉ value) :
    setting? (key ++ '=' :: value) = some (key, value) := by
  rw [setting?, List.splitOn_append_cons_self, List.splitOn_eq_singleton hkey,
    List.splitOn_eq_singleton hvalue]
  rfl

theorem filter_coe (ws : List UInt32) :
    (coe ws).toList.filter (· ≠ '\n') =
      ("memory_initialization_radix".toList ++ '=' :: "16".toList) ++ ';' ::
        (("memory_initialization_vector".toList ++ '=' :: separated ',' ws) ++ ';' :: []) := by
  have hradix : ("memory_initialization_radix=16;\n".toList).filter (· ≠ '\n') =
      "memory_initialization_radix".toList ++ '=' :: "16".toList ++ [';'] := by decide
  have hkey : ("memory_initialization_vector=\n".toList).filter (· ≠ '\n') =
      "memory_initialization_vector".toList ++ ['='] := by decide
  have hend : (";\n".toList).filter (· ≠ '\n') = [';'] := by decide
  have hvector : (String.intercalate ",\n" (ws.map digits)).toList.filter (· ≠ '\n') =
      separated ',' ws := by
    have hcomma : (",\n".toList).filter (· ≠ '\n') = [','] := by decide
    have hword (w : UInt32) : (digits w).toList.filter (· ≠ '\n') = (digits w).toList := by
      apply List.filter_eq_self.mpr
      intro c hc
      apply decide_eq_true
      rintro rfl
      exact not_mem_digits (by decide) w hc
    simp only [String.toList_intercalate, filter_intercalate, hcomma, separated, List.map_map,
      Function.comp_def, hword]
  delta coe
  simp only [String.toList_append, List.filter_append, hradix, hkey, hend, hvector,
    List.append_assoc, List.cons_append, List.nil_append]

theorem coeWords?_coe {ws : List UInt32} (h : ws ≠ []) :
    coeWords? (coe ws) = some (ws.map UInt32.toNat) := by
  have hequals : '=' ∉ separated ',' ws := not_mem_separated (by decide) (by decide) ws
  have hstatements : ((coe ws).toList.filter (· ≠ '\n')).splitOn ';' =
      ["memory_initialization_radix".toList ++ '=' :: "16".toList,
        "memory_initialization_vector".toList ++ '=' :: separated ',' ws, []] := by
    have hkey : ';' ∉ "memory_initialization_vector".toList := by decide
    have hwords : ';' ∉ separated ',' ws := not_mem_separated (by decide) (by decide) ws
    have hvector : ';' ∉ "memory_initialization_vector".toList ++ '=' :: separated ',' ws := by
      rw [List.mem_append, List.mem_cons, not_or, not_or]
      exact ⟨hkey, by decide, hwords⟩
    rw [filter_coe, List.splitOn_append_cons_self, List.splitOn_append_cons_self,
      List.splitOn_eq_singleton (by decide), List.splitOn_eq_singleton hvector, List.splitOn_nil,
      List.singleton_append, List.singleton_append]
  have hbase : Text.number? 10 "16".toList = some 16 := by decide
  have hread : (ws.map fun w => (digits w).toList).mapM (Text.number? 16) =
      some (ws.map UInt32.toNat) :=
    mapM_map_of_inverse number?_digits ws
  rw [coeWords?, hstatements]
  dsimp only
  rw [setting?_row (by decide) (by decide), setting?_row (by decide) hequals]
  dsimp only
  rw [if_pos ⟨rfl, rfl⟩, hbase, Option.bind_some, splitOn_separated (by decide) h, hread]

def addressed (ns : List ℕ) : List (ℕ × ℕ) := ns.zipIdx.map Prod.swap

theorem addressed_words (ws : List UInt32) :
    addressed (ws.map UInt32.toNat) = ws.zipIdx.map fun entry => (entry.2, entry.1.toNat) := by
  rw [addressed, List.zipIdx_map, List.map_map]
  rfl

theorem addressed_fst (ns : List ℕ) : (addressed ns).map Prod.fst = List.range ns.length := by
  rw [addressed, List.map_map, List.range_eq_range', ← List.zipIdx_map_snd 0 ns]
  rfl

theorem addressed_snd (ns : List ℕ) : (addressed ns).map Prod.snd = ns := by
  rw [addressed, List.map_map]
  exact List.zipIdx_map_fst 0 ns

def memRow (entry : UInt32 × ℕ) : Line :=
  '@' :: ((Text.hex 8 entry.2).toList ++ ' ' :: (digits entry.1).toList)

theorem memCell?_memRow (entry : UInt32 × ℕ) :
    memCell? (memRow entry) = some (entry.2, entry.1.toNat) := by
  have hsplit : ((Text.hex 8 entry.2).toList ++ ' ' :: (digits entry.1).toList).splitOn ' ' =
      [(Text.hex 8 entry.2).toList, (digits entry.1).toList] := by
    rw [List.splitOn_append_cons_self,
      List.splitOn_eq_singleton (Text.not_mem_hex (by decide) 8 entry.2),
      List.splitOn_eq_singleton (not_mem_digits (by decide) entry.1)]
    rfl
  simp only [memRow, memCell?, hsplit, Text.number?_hex, word?_digits, Option.bind_some,
    Option.map_some]

theorem memEntries?_mem (ws : List UInt32) :
    memEntries? (mem ws) = some (addressed (ws.map UInt32.toNat)) := by
  have htext : (mem ws).toList = unlines (ws.zipIdx.map memRow) := by
    apply toList_join_lines
    intro entry
    simp [memLine, memRow]
  have hclean : ∀ line ∈ ws.zipIdx.map memRow, '\n' ∉ line := by
    intro line h
    obtain ⟨entry, _, rfl⟩ := List.mem_map.mp h
    have haddress : '\n' ∉ (Text.hex 8 entry.2).toList := Text.not_mem_hex (by decide) 8 entry.2
    have hword : '\n' ∉ (digits entry.1).toList := not_mem_digits (by decide) entry.1
    simp [memRow, haddress, hword]
  rw [memEntries?, endedLines?_of_unlines htext hclean, Option.bind_some, addressed_words]
  exact mapM_map_of_inverse memCell?_memRow ws.zipIdx

def mifRow (entry : UInt32 × ℕ) : Line :=
  (Text.hex 8 entry.2).toList ++ ' ' :: ':' :: ' ' :: (digits entry.1).toList ++ [';']

def mifSettingRow (key value : Line) : Line := key ++ ' ' :: '=' :: ' ' :: value ++ [';']

def mifRows (ws : List UInt32) : List Line :=
  mifSettingRow "DEPTH".toList (Text.decimal 1 ws.length).toList ::
    mifSettingRow "WIDTH".toList "32".toList ::
    mifSettingRow "ADDRESS_RADIX".toList "HEX".toList ::
    mifSettingRow "DATA_RADIX".toList "HEX".toList ::
    "CONTENT".toList :: "BEGIN".toList :: (ws.zipIdx.map mifRow ++ ["END;".toList])

theorem mifCell?_mifRow (entry : UInt32 × ℕ) :
    mifCell? 16 16 (mifRow entry) = some (entry.2, entry.1.toNat) := by
  have hsplit : ((Text.hex 8 entry.2).toList ++
      ' ' :: ':' :: ' ' :: (digits entry.1).toList).splitOn ' ' =
      [(Text.hex 8 entry.2).toList, [':'], (digits entry.1).toList] := by
    have hcolon : ' ' :: ':' :: ' ' :: (digits entry.1).toList =
        ' ' :: ([':'] ++ ' ' :: (digits entry.1).toList) := rfl
    rw [hcolon, List.splitOn_append_cons_self, List.splitOn_append_cons_self,
      List.splitOn_eq_singleton (Text.not_mem_hex (by decide) 8 entry.2),
      List.splitOn_eq_singleton (not_mem_digits (by decide) entry.1)]
    rfl
  rw [mifCell?, mifRow, statement?_concat, Option.bind_some, hsplit]
  simp only [number?_digits, Text.number?_hex, Option.bind_some, Option.map_some]

theorem mifSetting?_row {key : String} {value : Line} (hkey : ' ' ∉ key.toList)
    (hvalue : ' ' ∉ value) : mifSetting? key (mifSettingRow key.toList value) = some value := by
  have hsplit : (key.toList ++ ' ' :: '=' :: ' ' :: value).splitOn ' ' =
      [key.toList, ['='], value] := by
    have hequals : ' ' :: '=' :: ' ' :: value = ' ' :: (['='] ++ ' ' :: value) := rfl
    rw [hequals, List.splitOn_append_cons_self, List.splitOn_append_cons_self,
      List.splitOn_eq_singleton hkey, List.splitOn_eq_singleton hvalue]
    rfl
  rw [mifSetting?, mifSettingRow, statement?_concat, Option.bind_some, hsplit]
  exact if_pos rfl

theorem toList_mif (ws : List UInt32) : (mif ws).toList = unlines (mifRows ws) := by
  have hentries : (String.join (ws.zipIdx.map mifLine)).toList =
      unlines (ws.zipIdx.map mifRow) := by
    apply toList_join_lines
    intro entry
    simp [mifLine, mifRow]
  delta mif mifRows
  simp [mifSettingRow, unlines_cons, unlines_append, unlines_nil, hentries]

theorem newline_not_mem_mifSettingRow {key value : Line} (hkey : '\n' ∉ key)
    (hvalue : '\n' ∉ value) : '\n' ∉ mifSettingRow key value := by
  simp [mifSettingRow, hkey, hvalue]

theorem mifRows_clean (ws : List UInt32) : ∀ line ∈ mifRows ws, '\n' ∉ line := by
  intro line h
  simp only [mifRows, List.mem_cons, List.mem_append, List.mem_map, List.not_mem_nil,
    or_false] at h
  rcases h with rfl | rfl | rfl | rfl | rfl | rfl | ⟨entry, _, rfl⟩ | rfl
  · exact newline_not_mem_mifSettingRow (by decide) (Text.not_mem_decimal (by decide) 1 _)
  · exact newline_not_mem_mifSettingRow (by decide) (by decide)
  · exact newline_not_mem_mifSettingRow (by decide) (by decide)
  · exact newline_not_mem_mifSettingRow (by decide) (by decide)
  · decide
  · decide
  · have haddress : '\n' ∉ (Text.hex 8 entry.2).toList := Text.not_mem_hex (by decide) 8 entry.2
    have hword : '\n' ∉ (digits entry.1).toList := not_mem_digits (by decide) entry.1
    simp [mifRow, haddress, hword]
  · decide

theorem mif?_mif (ws : List UInt32) :
    mif? (mif ws) =
      some { depth := ws.length, width := 32, entries := addressed (ws.map UInt32.toNat) } := by
  have hlines : endedLines? (mif ws) = some (mifRows ws) :=
    endedLines?_of_unlines (toList_mif ws) (mifRows_clean ws)
  have hdepth : ' ' ∉ (Text.decimal 1 ws.length).toList := Text.not_mem_decimal (by decide) 1 _
  have hcontent : mifContent? 16 16
      ("CONTENT".toList :: "BEGIN".toList :: (ws.zipIdx.map mifRow ++ ["END;".toList])) =
      some (addressed (ws.map UInt32.toNat)) := by
    rw [mifContent?, List.getLast?_concat, if_pos ⟨rfl, rfl, rfl⟩, List.dropLast_concat,
      addressed_words]
    exact mapM_map_of_inverse mifCell?_mifRow ws.zipIdx
  have hwidth : Text.number? 10 "32".toList = some 32 := by decide
  have hradix : radix? "HEX".toList = some 16 := by decide
  rw [mif?, hlines, mifRows]
  dsimp only
  rw [mifSetting?_row (by decide) hdepth, mifSetting?_row (by decide) (by decide),
    mifSetting?_row (by decide) (by decide), mifSetting?_row (by decide) (by decide)]
  simp only [Option.bind_some, Text.number?_decimal, hwidth, hradix, hcontent, Option.map_some]

end BootImage.Listing
