import BootImage.Proofs.HexFile.Loading

/-! Intel HEX files that are cut short. A record tells its length, so a cut inside a line is
noticed. A cut between lines is not: reading ends with the end-of-file record or with the last line,
whichever comes first, and a file without that record loads as what its lines define. -/

namespace BootImage.HexFile

theorem hexBytes?_append {xs ys : List Char} {bytes front : Bytes}
    (h : Text.hexBytes? (xs ++ ys) = some bytes) (hfront : Text.hexBytes? xs = some front) :
    ∃ back, Text.hexBytes? ys = some back ∧ bytes = front ++ back := by
  induction xs using List.twoStepInduction generalizing bytes front with
  | nil =>
    cases hfront
    exact ⟨bytes, h, rfl⟩
  | singleton => cases hfront
  | cons_cons high low rest ih =>
    obtain ⟨a, b, whole, hhigh, hlow, hwhole, rfl⟩ := hexBytes?_cons.mp h
    obtain ⟨a', b', start, hhigh', hlow', hstart, rfl⟩ := hexBytes?_cons.mp hfront
    cases hhigh.symm.trans hhigh'
    cases hlow.symm.trans hlow'
    obtain ⟨back, hback, rfl⟩ := ih hwhole hstart
    exact ⟨back, hback, rfl⟩

theorem ne_nil_of_hexBytes? {digits : List Char} {bytes : Bytes}
    (h : Text.hexBytes? digits = some bytes) (hdigits : digits ≠ []) : bytes ≠ [] := by
  match digits, h with
  | [], _ => exact absurd rfl hdigits
  | high :: low :: rest, h =>
    obtain ⟨_, _, _, _, _, _, rfl⟩ := hexBytes?_cons.mp h
    exact List.cons_ne_nil _ _

variable {line : ℕ} {bytes : Bytes} {record : Record}

theorem ofBytes_eq_ok (h : Record.ofBytes line bytes = .ok record) :
    ∃ count high low kind rest, bytes = count :: high :: low :: kind :: rest ∧
      ¬ rest.isEmpty = true ∧ rest.length = count.toNat + 1 ∧ ¬ 5 < kind.toNat ∧
      Record.byteSum bytes % 256 = 0 ∧
      Record.interpret line kind.toNat (high.toNat * 256 + low.toNat) rest.dropLast =
        .ok record := by
  match bytes, h with
  | count :: high :: low :: kind :: rest, h =>
    rw [Record.ofBytes] at h
    by_cases hempty : rest.isEmpty = true
    · rw [if_pos hempty] at h
      cases h
    rw [if_neg hempty] at h
    by_cases hlength : rest.length = count.toNat + 1
    swap
    · rw [if_pos hlength] at h
      cases h
    rw [if_neg (not_not.mpr hlength)] at h
    by_cases hkind : 5 < kind.toNat
    · rw [if_pos hkind] at h
      cases h
    rw [if_neg hkind] at h
    by_cases hsum : Record.byteSum (count :: high :: low :: kind :: rest) % 256 = 0
    · rw [if_neg (not_not.mpr hsum)] at h
      exact ⟨count, high, low, kind, rest, rfl, hempty, hlength, hkind, hsum, h⟩
    · rw [if_pos hsum] at h
      cases h

theorem interpret_line {kind address : ℕ} {content : Bytes}
    (h : Record.interpret line kind address content = .ok record) (line' : ℕ) :
    Record.interpret line' kind address content = .ok record := by
  have hbranch {p : Prop} [Decidable p] {value : Record} {cause cause' : HexError}
      (h : (if p then .ok value else .error cause : Except HexError Record) = .ok record) :
      (if p then .ok value else .error cause' : Except HexError Record) = .ok record := by
    by_cases hp : p
    · rw [if_pos hp] at h ⊢
      exact h
    · rw [if_neg hp] at h
      cases h
  match kind, h with
  | 0, h => exact h
  | 1, h => exact h
  | 2, h => exact hbranch h
  | 3, h => exact hbranch h
  | 4, h => exact hbranch h
  | kind + 5, h => exact hbranch h

theorem ofText_eq_ok {text : List Char} (h : Record.ofText line text = .ok record) :
    ∃ digits bytes, text = ':' :: digits ∧ Text.hexBytes? digits = some bytes ∧
      Record.ofBytes line bytes = .ok record := by
  fun_cases Record.ofText line text with
  | case1 digits bytes hbytes =>
    rw [Record.ofText, hbytes] at h
    exact ⟨digits, bytes, rfl, hbytes, h⟩
  | case2 digits hbytes =>
    rw [Record.ofText, hbytes] at h
    cases h
  | case3 _ hcolon =>
    rw [Record.ofText] at h
    · cases h
    · exact hcolon

theorem ofText_line {text : List Char} (h : Record.ofText line text = .ok record) (line' : ℕ) :
    Record.ofText line' text = .ok record := by
  obtain ⟨digits, bytes, rfl, hbytes, hread⟩ := ofText_eq_ok h
  obtain ⟨count, high, low, kind, rest, rfl, hfull, hlength, hkind, hsum, hsays⟩ :=
    ofBytes_eq_ok hread
  rw [Record.ofText, hbytes]
  dsimp only
  rw [Record.ofBytes, if_neg hfull, if_neg (not_not.mpr hlength), if_neg hkind,
    if_neg (not_not.mpr hsum)]
  exact interpret_line hsays line'

theorem length_of_ofBytes (h : Record.ofBytes line bytes = .ok record) :
    bytes.length = (bytes.headD 0).toNat + 5 := by
  obtain ⟨count, high, low, kind, rest, rfl, _, hlength, _⟩ := ofBytes_eq_ok h
  simp only [List.length_cons, List.headD_cons, hlength]

theorem eq_nil_of_ofBytes_append {line' : ℕ} {more : Bytes} {longer : Record}
    (h : Record.ofBytes line bytes = .ok record)
    (hlonger : Record.ofBytes line' (bytes ++ more) = .ok longer) : more = [] := by
  have hlength := length_of_ofBytes h
  have hlongerLength := length_of_ofBytes hlonger
  rw [← List.length_eq_zero_iff]
  cases bytes with
  | nil =>
    rw [List.length_nil] at hlength
    omega
  | cons count rest =>
    simp only [List.cons_append, List.headD_cons, List.length_cons, List.length_append]
      at hlength hlongerLength
    omega

/-- A front of a record is none: it is shorter than its first byte tells. -/
theorem ofText_front {front back : List Char}
    (h : Record.ofText line (front ++ back) = .ok record) (hfront : front ≠ [])
    (hback : back ≠ []) (line' : ℕ) : ∃ cause, Record.ofText line' front = .error cause := by
  cases hread : Record.ofText line' front with
  | error cause => exact ⟨cause, rfl⟩
  | ok shorter =>
    exfalso
    obtain ⟨digits, bytes, rfl, hbytes, hshorter⟩ := ofText_eq_ok hread
    obtain ⟨_, whole, hsame, hwhole, hlonger⟩ := ofText_eq_ok h
    cases hsame
    obtain ⟨more, hmore, rfl⟩ := hexBytes?_append hwhole hbytes
    exact ne_nil_of_hexBytes? hmore hback (eq_nil_of_ofBytes_append hshorter hlonger)

/-- Whether one of the lines is the end-of-file record. -/
def MeetsEndOfFile (lines : List (List Char)) : Prop :=
  ∃ text ∈ lines, Record.ofText 0 text = .ok .endOfFile

theorem meetsEndOfFile_cons {text : List Char} {rest : List (List Char)} :
    MeetsEndOfFile (text :: rest) ↔
      Record.ofText 0 text = .ok .endOfFile ∨ MeetsEndOfFile rest := List.exists_mem_cons_iff ..

theorem meetsEndOfFile_append_blank {lines : List (List Char)} :
    MeetsEndOfFile (lines ++ [[]]) ↔ MeetsEndOfFile lines := by
  constructor
  · rintro ⟨text, hmem, hend⟩
    rcases List.mem_append.mp hmem with hmem | hmem
    · exact ⟨text, hmem, hend⟩
    · rw [List.mem_singleton.mp hmem] at hend
      cases hend
  · rintro ⟨text, hmem, hend⟩
    exact ⟨text, List.mem_append_left _ hmem, hend⟩

theorem meetsEndOfFile_of_readLines {m : Memory} {lines : List (List Char)}
    {progress : Memory.Progress} (h : m.readLines line lines = .ok progress) :
    MeetsEndOfFile lines ↔ ∃ last, progress = .ended last := by
  fun_induction Memory.readLines m line lines with
  | case1 m line =>
    cases h
    constructor
    · rintro ⟨_, hmem, _⟩
      cases hmem
    · rintro ⟨_, hended⟩
      cases hended
  | case2 m line text rest hblank ih =>
    rw [List.isEmpty_iff.mp hblank, meetsEndOfFile_cons, or_iff_right (by rintro ⟨⟩)]
    exact ih h
  | case3 m line text rest hfull e hread => cases h
  | case4 m line text rest hfull hread =>
    cases h
    exact iff_of_true (meetsEndOfFile_cons.mpr (Or.inl (ofText_line hread 0))) ⟨m, rfl⟩
  | case5 m line text rest hfull record hgoes hread e hnext => cases h
  | case6 m line text rest hfull record hgoes hread next hnext ih =>
    have hother : Record.ofText 0 text ≠ .ok .endOfFile := by
      intro hend
      have hsame := ofText_line hend line
      rw [hread] at hsame
      exact hgoes (Except.ok.inj hsame)
    rw [meetsEndOfFile_cons, or_iff_right hother]
    exact ih h

theorem record_of_readLines {m : Memory} {text : List Char} {rest : List (List Char)}
    {progress : Memory.Progress} (h : m.readLines line (text :: rest) = .ok progress)
    (htext : text ≠ []) : ∃ record, Record.ofText line text = .ok record := by
  cases hread : Record.ofText line text with
  | ok record => exact ⟨record, rfl⟩
  | error cause =>
    rw [Memory.readLines, if_neg (mt List.isEmpty_iff.mp htext), hread] at h
    cases h

theorem readLines_malformed {m : Memory} {text : List Char} {cause : HexError}
    (h : Record.ofText line text = .error cause) (htext : text ≠ []) (rest : List (List Char)) :
    m.readLines line (text :: rest) = .error cause := by
  rw [Memory.readLines, if_neg (mt List.isEmpty_iff.mp htext), h]

theorem readLines_append_ended {m last : Memory} {xs ys : List (List Char)}
    (h : m.readLines line (xs ++ ys) = .ok (.ended last)) :
    m.readLines line xs = .ok (.ended last) ∨
    ∃ next line', m.readLines line xs = .ok (.reading next line') ∧
      next.readLines line' ys = .ok (.ended last) := by
  rw [Memory.readLines_append] at h
  cases hread : m.readLines line xs with
  | error cause =>
    rw [hread] at h
    cases h
  | ok progress =>
    rw [hread] at h
    cases progress with
    | ended m => exact Or.inl h
    | reading next line' => exact Or.inr ⟨next, line', rfl, h⟩

/-- What the front of a file may come to, if the file is read up to its end-of-file record. -/
inductive CutReading (xs ys : List Char) (last : Memory) :
    Except Memory.ReadError Memory → Prop where
  | refused (cause : HexError) : CutReading xs ys last (.error (.record cause))
  | whole : CutReading xs ys last (.ok last)
  | short (before : Memory) : ¬ Text.CutsLine xs ys →
    ¬ MeetsEndOfFile (Text.linesAfter [] xs) → CutReading xs ys last (.ok before)

theorem cutReading_of_readLines {xs ys : List Char} {last : Memory}
    (h : Memory.readLines {} 1 (Text.linesAfter [] (xs ++ ys)) = .ok (.ended last)) :
    CutReading xs ys last
      (Memory.outcome (Memory.readLines {} 1 (Text.linesAfter [] xs))) := by
  by_cases hcut : Text.CutsLine xs ys
  · obtain ⟨complete, front, back, lines, hfront, hback, hxs, hwhole⟩ := hcut.lines
    rw [hwhole] at h
    rw [hxs, Memory.readLines_append]
    rcases readLines_append_ended h with hread | ⟨next, line, hread, hrest⟩
    · rw [hread]
      exact .whole
    · obtain ⟨record, hrecord⟩ := record_of_readLines hrest (by simp [hfront])
      obtain ⟨cause, hcause⟩ := ofText_front hrecord hfront hback line
      rw [hread]
      dsimp only
      rw [readLines_malformed hcause hfront]
      exact .refused cause
  · obtain ⟨complete, lines, hwhole, hxs⟩ := Text.lines_of_not_cutsLine hcut
    have houtcome : Memory.outcome (Memory.readLines {} 1 (Text.linesAfter [] xs)) =
        Memory.outcome (Memory.readLines {} 1 complete) := by
      rcases hxs with hxs | hxs
      · rw [hxs]
      · rw [hxs, Memory.outcome_append_blank]
    have hmeets : MeetsEndOfFile (Text.linesAfter [] xs) ↔ MeetsEndOfFile complete := by
      rcases hxs with hxs | hxs
      · rw [hxs]
      · rw [hxs, meetsEndOfFile_append_blank]
    rw [hwhole] at h
    rw [houtcome]
    rcases readLines_append_ended h with hread | ⟨next, line, hread, _⟩
    · rw [hread]
      exact .whole
    · rw [hread]
      refine .short next hcut ?_
      rw [hmeets, meetsEndOfFile_of_readLines hread]
      rintro ⟨_, hended⟩
      cases hended

def HasEndOfFile (text : List Char) : Prop := MeetsEndOfFile (Text.linesAfter [] text)

theorem cutReading_of_ofBytes {front back : List Char} {last : Memory}
    (hascii : Text.IsAscii (front ++ back)) (hend : HasEndOfFile (front ++ back))
    (h : ofBytes (Text.asciiBytes (front ++ back)) = .ok last) :
    CutReading front back last (ofBytes (Text.asciiBytes front)) := by
  have hfront : Text.IsAscii front := fun c hc => hascii c (List.mem_append_left _ hc)
  rw [ofBytes_ascii hascii] at h
  rw [ofBytes_ascii hfront]
  cases hread : Memory.readLines {} 1 (Text.linesAfter [] (front ++ back)) with
  | error cause =>
    rw [hread] at h
    cases h
  | ok progress =>
    obtain ⟨m, rfl⟩ := (meetsEndOfFile_of_readLines hread).mp hend
    rw [hread] at h
    cases h
    exact cutReading_of_readLines hread

/-- What a cut may take away unnoticed: the end-of-file record, and with it some of the payload, but
neither a part of a record nor all of the payload. -/
structure LosesRecords (front back : List Char) (payload : Bytes) (before : Memory) : Prop where
  betweenLines : ¬ Text.CutsLine front back
  unfinished : ¬ HasEndOfFile front
  reads : ofBytes (Text.asciiBytes front) = .ok before
  remains : before.payload ≠ []
  differs : before.payload ≠ payload

variable {files cutFiles : FileStore} {path cutPath : String} {front back : List Char}

theorem load_of_losesRecords (image : Image) {payload : Bytes} {before : Memory}
    (h : LosesRecords front back payload before) (hcutPath : FileName.isHex cutPath = true)
    (hcutRead : cutFiles.read cutPath = .ok (Text.asciiBytes front)) (cutSize : Option ℤ) :
    image.load cutFiles cutSize cutPath =
      .ok { image with source := some cutPath, payload := before.payload } :=
  load_hex hcutPath hcutRead h.reads h.remains cutSize

theorem load_of_keepsRecords (image : Image) {last : Memory}
    (h : CutReading front back last (ofBytes (Text.asciiBytes front)))
    (hcutPath : FileName.isHex cutPath = true)
    (hcutRead : cutFiles.read cutPath = .ok (Text.asciiBytes front)) (cutSize : Option ℤ)
    (hkept : ¬ ∃ before, LosesRecords front back last.payload before) :
    (∃ cause, image.load cutFiles cutSize cutPath = .error cause ∧ cause.isInputError = true) ∨
    ∃ cut, image.load cutFiles cutSize cutPath = .ok cut ∧ cut.payload = last.payload := by
  rw [load_hex_eq image hcutPath hcutRead]
  cases hreading : ofBytes (Text.asciiBytes front) with
  | error e =>
    rw [hreading] at h
    cases h with
    | refused cause => exact Or.inl ⟨_, rfl, rfl⟩
  | ok m =>
    dsimp only
    by_cases hempty : m.payload.isEmpty = true
    · rw [if_pos hempty]
      exact Or.inl ⟨_, rfl, rfl⟩
    · rw [if_neg hempty]
      refine Or.inr ⟨_, rfl, ?_⟩
      rw [hreading] at h
      cases h with
      | whole => rfl
      | short _ hbetween hunfinished =>
        by_contra hdiffers
        exact hkept ⟨m, hbetween, hunfinished, hreading, mt List.isEmpty_iff.mpr hempty, hdiffers⟩

/-- A file that is cut short is refused as an input or loads as the whole file does, unless the cut
lies between its records and leaves another payload; then that payload is loaded. -/
theorem load_truncated (image : Image) (hascii : Text.IsAscii (front ++ back))
    (hend : HasEndOfFile (front ++ back)) (hpath : FileName.isHex path = true)
    (hcutPath : FileName.isHex cutPath = true)
    (hread : files.read path = .ok (Text.asciiBytes (front ++ back)))
    (hcutRead : cutFiles.read cutPath = .ok (Text.asciiBytes front))
    {size : Option ℤ} (cutSize : Option ℤ) {whole : Image}
    (hload : image.load files size path = .ok whole) :
    ((∃ cause, image.load cutFiles cutSize cutPath = .error cause ∧
        cause.isInputError = true) ∨
      (∃ cut, image.load cutFiles cutSize cutPath = .ok cut ∧ cut.payload = whole.payload) ↔
      ¬ ∃ before, LosesRecords front back whole.payload before) ∧
    ∀ before, LosesRecords front back whole.payload before →
      image.load cutFiles cutSize cutPath =
        .ok { image with source := some cutPath, payload := before.payload } := by
  obtain ⟨last, hmemory, _, rfl⟩ := load_hex_eq_ok hpath hread hload
  refine ⟨⟨?_, ?_⟩, fun before hlost =>
    load_of_losesRecords image hlost hcutPath hcutRead cutSize⟩
  · rintro hholds ⟨before, hlost⟩
    rw [load_of_losesRecords image hlost hcutPath hcutRead cutSize] at hholds
    rcases hholds with ⟨_, herror, _⟩ | ⟨_, hcut, hsame⟩
    · cases herror
    · cases hcut
      exact hlost.differs hsame
  · exact load_of_keepsRecords image (cutReading_of_ofBytes hascii hend hmemory) hcutPath
      hcutRead cutSize

def wholeText (statements : List Statement) : List Char :=
  text .lf statements ++ ':' :: (wire 1 0 []).flatMap Bytes.hexPair ++ LineEnd.lf.chars

theorem states_wholeText (statements : List Statement) :
    States (wholeText statements) statements := by
  induction statements with
  | nil => exact .endOfFile 0 [.lf] (spells_hexPair _)
  | cons statement rest ih =>
    rw [wholeText, text, List.append_assoc] at ih
    rw [wholeText, text, List.flatMap_cons, List.append_assoc, List.append_assoc,
      List.append_assoc]
    exact .record .lf (spells_hexPair statement.wire) ih

def twoPieces : List Statement :=
  [.data 0 [1, 2, 3, 4] (by decide), .data 4 [5, 6, 7, 8] (by decide)]

def cutStore : FileStore :=
  { nodes := [(["whole.hex"], .file (Text.asciiBytes (wholeText twoPieces))),
      (["short.hex"], .file (Text.asciiBytes ((wholeText twoPieces).take 20))),
      (["torn.hex"], .file (Text.asciiBytes ((wholeText twoPieces).take 30)))] }

theorem hasEndOfFile_twoPieces : HasEndOfFile (wholeText twoPieces) := by
  refine ⟨':' :: (wire 1 0 []).flatMap Bytes.hexPair, ?_, ?_⟩
  · decide +kernel
  · decide +kernel

theorem load_cutStore {path : String} {text : List Char} {statements : List Statement}
    {cut : List Bytes} (hpath : FileName.isHex path = true)
    (hread : cutStore.read path = .ok (Text.asciiBytes text)) (hstates : States text statements)
    (hstarts : statements.countP Statement.isStart ≤ 1) (hcut : cut.flatten ≠ [])
    (hpieces : (pieces 0 statements).Perm (consecutive 0 cut)) (image : Image) :
    image.load cutStore none path =
      .ok { image with source := some path, payload := cut.flatten } := by
  rw [← Text.ofText_ascii (isAscii_of_states hstates)] at hread
  rw [← String.toList_ofList (l := text)] at hstates
  exact load_pieces image none hpath hread hstates hstarts hcut rfl hpieces

theorem load_twoPieces (image : Image) :
    image.load cutStore none "whole.hex" =
      .ok { image with source := some "whole.hex", payload := [1, 2, 3, 4, 5, 6, 7, 8] } := by
  have hpieces : (pieces 0 twoPieces).Perm (consecutive 0 [[1, 2, 3, 4], [5, 6, 7, 8]]) := by
    decide
  exact load_cutStore (by decide) (by decide +kernel) (states_wholeText twoPieces) (by decide)
    (by decide) hpieces image

theorem cut_inside_record_refused :
    Text.IsAscii ((wholeText twoPieces).take 30 ++ (wholeText twoPieces).drop 30) ∧
    HasEndOfFile ((wholeText twoPieces).take 30 ++ (wholeText twoPieces).drop 30) ∧
    FileName.isHex "whole.hex" = true ∧ FileName.isHex "torn.hex" = true ∧
    cutStore.read "whole.hex" = .ok (Text.asciiBytes
      ((wholeText twoPieces).take 30 ++ (wholeText twoPieces).drop 30)) ∧
    cutStore.read "torn.hex" = .ok (Text.asciiBytes ((wholeText twoPieces).take 30)) ∧
    Image.load { built := ⟨2024, 1, 2, 3, 4, 5⟩ } cutStore none "whole.hex" =
      .ok { built := ⟨2024, 1, 2, 3, 4, 5⟩, source := some "whole.hex",
            payload := [1, 2, 3, 4, 5, 6, 7, 8] } ∧
    ((∃ cause, Image.load { built := ⟨2024, 1, 2, 3, 4, 5⟩ } cutStore none "torn.hex" =
        .error cause ∧ cause.isInputError = true) ∨
      ∃ cut, Image.load { built := ⟨2024, 1, 2, 3, 4, 5⟩ } cutStore none "torn.hex" = .ok cut ∧
        cut.payload = [1, 2, 3, 4, 5, 6, 7, 8]) := by
  have hascii := isAscii_of_states (states_wholeText twoPieces)
  have hend := hasEndOfFile_twoPieces
  have hread : cutStore.read "whole.hex" = .ok (Text.asciiBytes (wholeText twoPieces)) := by
    decide +kernel
  have hcutRead : cutStore.read "torn.hex" =
      .ok (Text.asciiBytes ((wholeText twoPieces).take 30)) := by decide +kernel
  have hcut : Text.CutsLine ((wholeText twoPieces).take 30) ((wholeText twoPieces).drop 30) :=
    ⟨⟨'0', by decide +kernel⟩, '5', by decide +kernel⟩
  rw [← List.take_append_drop 30 (wholeText twoPieces)] at hascii hend hread
  have hload := load_twoPieces { built := ⟨2024, 1, 2, 3, 4, 5⟩ }
  refine ⟨hascii, hend, by decide, by decide, hread, hcutRead, hload, ?_⟩
  apply (load_truncated _ hascii hend (by decide) (by decide) hread hcutRead none hload).1.mpr
  rintro ⟨before, hlost⟩
  exact hlost.betweenLines hcut

theorem cut_between_records_loads :
    FileName.isHex "whole.hex" = true ∧ FileName.isHex "short.hex" = true ∧
    cutStore.read "whole.hex" = .ok (Text.asciiBytes (wholeText twoPieces)) ∧
    HasEndOfFile (wholeText twoPieces) ∧ 20 < (Text.asciiBytes (wholeText twoPieces)).length ∧
    cutStore.read "short.hex" = .ok ((Text.asciiBytes (wholeText twoPieces)).take 20) ∧
    Image.load { built := ⟨2024, 1, 2, 3, 4, 5⟩ } cutStore none "whole.hex" =
      .ok { built := ⟨2024, 1, 2, 3, 4, 5⟩, source := some "whole.hex",
            payload := [1, 2, 3, 4, 5, 6, 7, 8] } ∧
    Image.load { built := ⟨2024, 1, 2, 3, 4, 5⟩ } cutStore none "short.hex" =
      .ok { built := ⟨2024, 1, 2, 3, 4, 5⟩, source := some "short.hex",
            payload := [1, 2, 3, 4] } := by
  have hcut : Text.asciiBytes (text .lf (twoPieces.take 1)) =
      (Text.asciiBytes (wholeText twoPieces)).take 20 := by decide +kernel
  have hread : cutStore.read "short.hex" =
      .ok ((Text.asciiBytes (wholeText twoPieces)).take 20) := by decide +kernel
  have hpieces : (pieces 0 (twoPieces.take 1)).Perm (consecutive 0 [[1, 2, 3, 4]]) := by decide
  refine ⟨by decide, by decide, by decide +kernel, hasEndOfFile_twoPieces, by decide +kernel,
    hread, load_twoPieces _, ?_⟩
  rw [← hcut] at hread
  exact load_cutStore (by decide) hread (states_text .lf (twoPieces.take 1)) (by decide)
    (by decide) hpieces _

end BootImage.HexFile
