import BootImage.Proofs.HexFile.Failures
import BootImage.Proofs.HexFile.Truncation
import BootImage.Proofs.Image.Lifetime

/-! Intel HEX files that are damaged. One digit of another value changes one byte of its record,
and two records never differ in one byte alone: the sums of their bytes would differ. So a file with
such a digit in a record that is still read is refused, whatever the digit stands for. -/

namespace BootImage.HexFile

theorem isPlain_of_hexValue? {c : Char} {value : ℕ} (h : Text.hexValue? c = some value) :
    value < 16 ∧ Text.Intake.IsPlain c := by
  have hrange (low high : Char) :
      low ≤ c ∧ c ≤ high ↔ low.toNat ≤ c.toNat ∧ c.toNat ≤ high.toNat := Iff.rfl
  have hplain (hlow : 48 ≤ c.toNat) (hhigh : c.toNat ≤ 102) : Text.Intake.IsPlain c := by
    refine ⟨by omega, ?_, ?_⟩
    · rintro rfl
      exact absurd hlow (by decide)
    · rintro rfl
      exact absurd hlow (by decide)
  rw [Text.hexValue?] at h
  simp only [hrange, Char.reduceToNat] at h
  split at h
  · cases h
    exact ⟨by omega, hplain (by omega) (by omega)⟩
  split at h
  · cases h
    exact ⟨by omega, hplain (by omega) (by omega)⟩
  split at h
  · cases h
    exact ⟨by omega, hplain (by omega) (by omega)⟩
  · cases h

theorem digitPair_inj {h l h' l' : ℕ} (hh : h < 16) (hl : l < 16) (hh' : h' < 16) (hl' : l' < 16)
    (heq : UInt8.ofNat (16 * h + l) = UInt8.ofNat (16 * h' + l')) : h = h' ∧ l = l' := by
  have hvalue := congrArg UInt8.toNat heq
  rw [UInt8.toNat_ofNat', UInt8.toNat_ofNat'] at hvalue
  omega

variable {digit other : Char} {v w : ℕ}

theorem hexBytes?_change (hdigit : Text.hexValue? digit = some v)
    (hother : Text.hexValue? other = some w) (hne : v ≠ w) {front back : List Char} {bytes : Bytes}
    (h : Text.hexBytes? (front ++ digit :: back) = some bytes) :
    ∃ before a b after, a ≠ b ∧ bytes = before ++ a :: after ∧
      Text.hexBytes? (front ++ other :: back) = some (before ++ b :: after) := by
  have hv := (isPlain_of_hexValue? hdigit).1
  have hw := (isPlain_of_hexValue? hother).1
  induction front using List.twoStepInduction generalizing bytes with
  | nil =>
    cases back with
    | nil => cases h
    | cons low rest =>
      obtain ⟨v', l, tail, hv', hlow, hrest, rfl⟩ := hexBytes?_cons.mp h
      cases hdigit.symm.trans hv'
      have hl := (isPlain_of_hexValue? hlow).1
      refine ⟨[], _, UInt8.ofNat (16 * w + l), tail, fun heq => ?_, rfl,
        hexBytes?_cons.mpr ⟨w, l, tail, hother, hlow, hrest, rfl⟩⟩
      exact hne (digitPair_inj hv hl hw hl heq).1
  | singleton high =>
    obtain ⟨d, v', tail, hhigh, hv', hrest, rfl⟩ := hexBytes?_cons.mp h
    cases hdigit.symm.trans hv'
    have hd := (isPlain_of_hexValue? hhigh).1
    refine ⟨[], _, UInt8.ofNat (16 * d + w), tail, fun heq => ?_, rfl,
      hexBytes?_cons.mpr ⟨d, w, tail, hhigh, hother, hrest, rfl⟩⟩
    exact hne (digitPair_inj hd hv hd hw heq).2
  | cons_cons high low rest ih =>
    obtain ⟨d, l, tail, hhigh, hlow, hrest, rfl⟩ := hexBytes?_cons.mp h
    obtain ⟨before, a, b, after, hab, rfl, hchanged⟩ := ih hrest
    exact ⟨_ :: before, a, b, after, hab, rfl,
      hexBytes?_cons.mpr ⟨d, l, _, hhigh, hlow, hchanged, rfl⟩⟩

variable {line : ℕ}

/-- Two records differ in more than one byte. -/
theorem ofBytes_change {before after : Bytes} {a b : UInt8} {record : Record} (hab : a ≠ b)
    (h : Record.ofBytes line (before ++ a :: after) = .ok record) (line' : ℕ) :
    ∃ cause, Record.ofBytes line' (before ++ b :: after) = .error cause := by
  cases hread : Record.ofBytes line' (before ++ b :: after) with
  | error cause => exact ⟨cause, rfl⟩
  | ok changed =>
    have hzero {line : ℕ} {c : UInt8} {record : Record}
        (h : Record.ofBytes line (before ++ c :: after) = .ok record) :
        before.sum + c + after.sum = 0 := by
      obtain ⟨_, _, _, _, _, _, _, _, _, hsum, _⟩ := ofBytes_eq_ok h
      rw [byteSum_mod, List.sum_append, List.sum_cons, ← UInt8.add_assoc] at hsum
      exact UInt8.toNat_inj.mp hsum
    have hsame : before.sum + a + after.sum = before.sum + b + after.sum :=
      (hzero h).trans (hzero hread).symm
    rw [UInt8.add_left_inj, UInt8.add_right_inj] at hsame
    exact absurd hsame hab

theorem ofText_change (hdigit : Text.hexValue? digit = some v)
    (hother : Text.hexValue? other = some w) (hne : v ≠ w) {front back : List Char}
    {record : Record} (h : Record.ofText line (front ++ digit :: back) = .ok record) (line' : ℕ) :
    ∃ cause, Record.ofText line' (front ++ other :: back) = .error cause := by
  obtain ⟨digits, bytes, htext, hbytes, hread⟩ := ofText_eq_ok h
  cases front with
  | nil =>
    cases htext
    cases hdigit
  | cons c front =>
    cases htext
    obtain ⟨before, a, b, after, hab, rfl, hchanged⟩ := hexBytes?_change hdigit hother hne hbytes
    obtain ⟨cause, hcause⟩ := ofBytes_change hab hread line'
    refine ⟨cause, ?_⟩
    rw [List.cons_append, Record.ofText, hchanged]
    exact hcause

/-- Whether a file is still read behind its front: the lines that the front completes do not have
the end-of-file record. -/
def StillRead (front : Bytes) : Prop :=
  ∃ text, Text.decodeUtf8 front = some text ∧ ¬ MeetsEndOfFile (Text.linesAfter [] text).dropLast

theorem record_of_readLines_append {m : Memory} {lines rest : List (List Char)} {text : List Char}
    {progress : Memory.Progress} (hlines : ¬ MeetsEndOfFile lines) (htext : text ≠ [])
    (h : m.readLines line (lines ++ text :: rest) = .ok progress) :
    ∃ next line' record, m.readLines line lines = .ok (.reading next line') ∧
      Record.ofText line' text = .ok record := by
  rw [Memory.readLines_append] at h
  cases hread : m.readLines line lines with
  | error cause =>
    rw [hread] at h
    cases h
  | ok passed =>
    rw [hread] at h
    cases passed with
    | ended last => exact absurd ((meetsEndOfFile_of_readLines hread).mpr ⟨last, rfl⟩) hlines
    | reading next line' =>
      obtain ⟨record, hrecord⟩ := record_of_readLines h htext
      exact ⟨next, line', record, rfl, hrecord⟩

theorem ofBytes_damaged {front back : Bytes} {m : Memory} (hdigit : Text.hexValue? digit = some v)
    (hother : Text.hexValue? other = some w) (hne : v ≠ w) (hstill : StillRead front)
    (h : ofBytes (front ++ UInt8.ofNat digit.toNat :: back) = .ok m) :
    ∃ cause, ofBytes (front ++ UInt8.ofNat other.toNat :: back) = .error (.record cause) := by
  obtain ⟨text, htext, hunfinished⟩ := hstill
  replace hunfinished : ¬ MeetsEndOfFile (Text.Intake.remaining {} text).dropLast := hunfinished
  rw [ofBytes_eq_reading, gathered] at h ⊢
  have hplain := (isPlain_of_hexValue? hdigit).2
  have hplain' := (isPlain_of_hexValue? hother).2
  cases Text.Intake.showsChar_gather (s := {}) (Text.decodeUtf8_eq_some.mp htext) back with
  | shown before after rest isText hshown =>
    rw [hshown digit hplain] at h
    obtain ⟨progress, hread, _⟩ := reading_eq_ok h
    obtain ⟨next, line, record, hpassed, hrecord⟩ :=
      record_of_readLines_append hunfinished (by simp) hread
    obtain ⟨cause, hcause⟩ := ofText_change hdigit hother hne hrecord line
    refine ⟨cause, ?_⟩
    rw [hshown other hplain', reading, Memory.readLines_append, hpassed]
    dsimp only
    rw [readLines_malformed hcause (by simp)]
  | cut lines hprefix hcut =>
    rw [hcut digit hplain] at h
    obtain ⟨progress, hread, hended⟩ := reading_eq_ok h
    obtain ⟨line, hmem, hend⟩ := (meetsEndOfFile_of_readLines hread).mpr ⟨m, hended rfl⟩
    exact absurd ⟨line, hprefix.subset hmem, hend⟩ hunfinished

/-- A file with a digit of another value is refused as an input, and the image stays as it was. -/
theorem load_damaged_digit {s t : Session} {path damagedPath : String} {size : Option ℤ}
    {reply : ProgramReply} {front back : Bytes} (hpath : FileName.isHex path = true)
    (hdamagedPath : FileName.isHex damagedPath = true)
    (hread : s.files.read path = .ok (front ++ UInt8.ofNat digit.toNat :: back))
    (hdamagedRead : t.files.read damagedPath = .ok (front ++ UInt8.ofNat other.toNat :: back))
    (hdigit : Text.hexValue? digit = some v) (hother : Text.hexValue? other = some w) (hne : v ≠ w)
    (hstill : StillRead front) (hload : (s.next reply (.load path size)).2.Succeeds)
    (damagedReply : ProgramReply) (damagedSize : Option ℤ) :
    ∃ cause, cause.isInputError = true ∧
      t.next damagedReply (.load damagedPath damagedSize) =
        (t, { outcome := .error (.load cause) }) := by
  have hwhole : ∃ m, ofBytes (front ++ UInt8.ofNat digit.toNat :: back) = .ok m := by
    rw [Session.next_load] at hload
    cases hloaded : s.image.load s.files size path with
    | error cause =>
      rw [hloaded] at hload
      obtain ⟨_, hsuccess⟩ := hload
      cases hsuccess
    | ok loaded =>
      obtain ⟨m, hmemory, _⟩ := load_hex_eq_ok hpath hread hloaded
      exact ⟨m, hmemory⟩
  obtain ⟨m, hmemory⟩ := hwhole
  obtain ⟨cause, hcause⟩ := ofBytes_damaged hdigit hother hne hstill hmemory
  refine ⟨.malformedHex damagedPath cause, rfl, ?_⟩
  rw [Session.next_load, load_hex_eq t.image hdamagedPath hdamagedRead, hcause]

/-- Both pieces in a file, but the first record has the type of a base. -/
def mistypedStore : FileStore :=
  { nodes := [(["whole.hex"], .file (Text.asciiBytes
      ((wholeText twoPieces).take 8 ++ '4' :: (wholeText twoPieces).drop 9)))] }

def freshSession (files : FileStore) : Session := ⟨{ built := ⟨2024, 1, 2, 3, 4, 5⟩ }, files⟩

theorem mistyped_record_refused :
    FileName.isHex "whole.hex" = true ∧
    cutStore.read "whole.hex" = .ok (Text.asciiBytes ((wholeText twoPieces).take 8) ++
      UInt8.ofNat '0'.toNat :: Text.asciiBytes ((wholeText twoPieces).drop 9)) ∧
    mistypedStore.read "whole.hex" = .ok (Text.asciiBytes ((wholeText twoPieces).take 8) ++
      UInt8.ofNat '4'.toNat :: Text.asciiBytes ((wholeText twoPieces).drop 9)) ∧
    StillRead (Text.asciiBytes ((wholeText twoPieces).take 8)) ∧
    ((freshSession cutStore).next .absent (.load "whole.hex" none)).2.Succeeds ∧
    ∃ cause, cause.isInputError = true ∧
      (freshSession mistypedStore).next .absent (.load "whole.hex" none) =
        (freshSession mistypedStore, { outcome := .error (.load cause) }) := by
  have hpath : FileName.isHex "whole.hex" = true := by decide
  have hread : cutStore.read "whole.hex" =
      .ok (Text.asciiBytes ((wholeText twoPieces).take 8) ++
        UInt8.ofNat '0'.toNat :: Text.asciiBytes ((wholeText twoPieces).drop 9)) := by
    decide +kernel
  have hdamaged : mistypedStore.read "whole.hex" =
      .ok (Text.asciiBytes ((wholeText twoPieces).take 8) ++
        UInt8.ofNat '4'.toNat :: Text.asciiBytes ((wholeText twoPieces).drop 9)) := by
    decide +kernel
  have hascii : Text.IsAscii ((wholeText twoPieces).take 8) := fun c hc =>
    isAscii_of_states (states_wholeText twoPieces) c (List.mem_of_mem_take hc)
  have hlines : (Text.linesAfter [] ((wholeText twoPieces).take 8)).dropLast = [] := by
    decide +kernel
  have hstill : StillRead (Text.asciiBytes ((wholeText twoPieces).take 8)) := by
    refine ⟨_, Text.decodeUtf8_eq_some.mpr (Text.decodePart_ascii hascii), ?_⟩
    rw [hlines]
    rintro ⟨_, hmem, _⟩
    cases hmem
  have hload : ((freshSession cutStore).next .absent (.load "whole.hex" none)).2.Succeeds := by
    refine ⟨.done, ?_⟩
    rw [Session.next_load, freshSession, load_twoPieces]
  have hdigit : Text.hexValue? '0' = some 0 := by decide
  have hother : Text.hexValue? '4' = some 4 := by decide
  exact ⟨hpath, hread, hdamaged, hstill, hload,
    load_damaged_digit hpath hpath hread hdamaged hdigit hother (by decide) hstill hload .absent
      none⟩

end BootImage.HexFile
