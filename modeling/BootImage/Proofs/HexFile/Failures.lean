import BootImage.Proofs.HexFile.Loading
import BootImage.Proofs.HexFile.Reading
import BootImage.Proofs.Text.Decoding

/-! How loading fails. The blocks of an Intel HEX file are read as the lines that they hand out in
all; bytes that are not text end the lines. Whatever the files hold, a load that fails tells of its
input, but for one kind of file: one in which reading comes to bytes that are not text. -/

namespace BootImage.HexFile

variable {line : ℕ} {content : Bytes}

/-- What lines come to, read to the end-of-file record or to their end. Only their end shows whether
bytes were met that are not text. -/
def reading (m : Memory) (line : ℕ) (gathered : Text.Gathered) : Except Memory.ReadError Memory :=
  match m.readLines line gathered.lines with
  | .error cause => .error (.record cause)
  | .ok (.ended last) => .ok last
  | .ok (.reading last _) => if gathered.isText then .ok last else .error .notText

theorem readBlocks_eq_reading (m : Memory) (line : ℕ) (s : Text.Intake) (blocks : List Bytes) :
    m.readBlocks line s blocks = reading m line (s.gather blocks) := by
  induction blocks generalizing m line s with
  | nil =>
    rw [Memory.readBlocks, Memory.readRest, Text.Intake.gather]
    cases s.close? with
    | none => rfl
    | some lines => rfl
  | cons block rest ih =>
    rw [Memory.readBlocks, Text.Intake.gather]
    cases s.take? block with
    | none => rfl
    | some part =>
      obtain ⟨lines, next⟩ := part
      dsimp only
      rw [reading, Text.Gathered.behind, Memory.readLines_append]
      cases hread : m.readLines line lines with
      | error cause => rfl
      | ok progress =>
        cases progress with
        | ended last => rfl
        | reading last line' => exact ih last line' next

def gathered (content : Bytes) : Text.Gathered :=
  Text.Intake.gather {} (Bytes.groups Text.blockSize content)

theorem ofBytes_eq_reading (content : Bytes) :
    ofBytes content = reading {} 1 (gathered content) := readBlocks_eq_reading ..

theorem reading_eq_ok {m last : Memory} {found : Text.Gathered}
    (h : reading m line found = .ok last) :
    ∃ progress, m.readLines line found.lines = .ok progress ∧
      (found.isText = false → progress = .ended last) := by
  rw [reading] at h
  cases hread : m.readLines line found.lines with
  | error cause =>
    rw [hread] at h
    cases h
  | ok progress =>
    refine ⟨progress, rfl, fun hbroken => ?_⟩
    rw [hread, hbroken] at h
    cases progress with
    | ended last =>
      cases h
      rfl
    | reading last line => cases h

theorem isText_gathered {content : Bytes} :
    (gathered content).isText = true ↔ ∃ text, Text.decodeUtf8 content = some text := by
  have hnone : Text.decodePart [] = some ([], []) := by
    rw [Text.decodePart, Text.decodeAfter]
    rfl
  have hblocks := Text.Intake.isText_gather (s := {}) hnone (Bytes.groups Text.blockSize content)
  rw [List.nil_append, Bytes.flatten_groups _ _ (by decide)] at hblocks
  simp only [Text.decodeUtf8_eq_some]
  exact hblocks

/-- Reading comes to bytes that are not text: no record before them is at fault or ends the file. -/
structure BreaksOff (content : Bytes) : Prop where
  notText : Text.decodeUtf8 content = none
  passed : ∃ m line, Memory.readLines {} 1 (gathered content).lines = .ok (.reading m line)

theorem ofBytes_eq_notText : ofBytes content = .error .notText ↔ BreaksOff content := by
  have hisText : (gathered content).isText = false ↔ Text.decodeUtf8 content = none := by
    rw [← Bool.not_eq_true, isText_gathered, Option.eq_none_iff_forall_ne_some, not_exists]
  have hbreaks : BreaksOff content ↔ (gathered content).isText = false ∧
      ∃ m line, Memory.readLines {} 1 (gathered content).lines = .ok (.reading m line) := by
    rw [hisText]
    exact ⟨fun h => ⟨h.notText, h.passed⟩, fun h => ⟨h.1, h.2⟩⟩
  rw [ofBytes_eq_reading, reading, hbreaks]
  cases Memory.readLines {} 1 (gathered content).lines with
  | error cause => simp
  | ok progress =>
    cases progress with
    | ended last => simp
    | reading last line => cases (gathered content).isText <;> simp

end BootImage.HexFile

namespace BootImage

variable {image : Image} {files : FileStore} {size : Option ℤ} {path : String}

theorem FileStore.read_ne_embeddedNul (hpath : hasNul path = false) :
    files.read path ≠ .error .embeddedNul := by
  rw [read, hpath]
  cases files.content path with
  | ok bytes => simp
  | error fault => simp

theorem LoadError.isInputError_ofFile {cause : FileError} (hcause : cause ≠ .embeddedNul) :
    (ofFile path cause).isInputError = true := by
  cases cause with
  | embeddedNul => exact absurd rfl hcause
  | os cause =>
    rw [ofFile]
    split <;> rfl

namespace Image

/-- The file at a path is read as Intel HEX and breaks off. -/
def BreaksOff (files : FileStore) (path : String) : Prop :=
  FileName.isHex path = true ∧ ∃ content, files.read path = .ok content ∧ HexFile.BreaksOff content

theorem load_breaksOff (image : Image) (size : Option ℤ) (h : BreaksOff files path) :
    image.load files size path = .error .notText := by
  obtain ⟨hhex, content, hread, hbreaks⟩ := h
  rw [HexFile.load_hex_eq image hhex hread, HexFile.ofBytes_eq_notText.mpr hbreaks]

theorem load_unread (image : Image) (size : Option ℤ) {cause : FileError}
    (hread : files.read path = .error cause) :
    image.load files size path = .error (.ofFile path cause) := by
  rw [load]
  delta readPayload
  dsimp only
  rw [readHex, readBinary, hread, ite_self]
  rfl

theorem isInputError_of_load_hex {cause : LoadError} {content : Bytes}
    (hhex : FileName.isHex path = true) (hread : files.read path = .ok content)
    (h : image.load files size path = .error cause) (hwhole : ¬ HexFile.BreaksOff content) :
    cause.isInputError = true := by
  rw [HexFile.load_hex_eq image hhex hread] at h
  cases hmemory : HexFile.ofBytes content with
  | error e =>
    rw [hmemory] at h
    cases e with
    | notText => exact absurd (HexFile.ofBytes_eq_notText.mp hmemory) hwhole
    | record =>
      cases h
      rfl
  | ok m =>
    rw [hmemory] at h
    dsimp only at h
    split at h
    · cases h
      rfl
    · cases h

theorem isInputError_of_load_binary {cause : LoadError} {content : Bytes}
    (hhex : FileName.isHex path = false) (hread : files.read path = .ok content)
    (h : image.load files size path = .error cause) : cause.isInputError = true := by
  rw [load] at h
  delta readPayload at h
  dsimp only at h
  rw [hhex, if_neg Bool.false_ne_true, readBinary, hread] at h
  dsimp only at h
  by_cases hsize : (content.length : ℤ) = size.getD content.length
  · rw [if_pos hsize] at h
    dsimp only at h
    split at h
    · cases h
      rfl
    · cases h
  · rw [if_neg hsize] at h
    cases h
    rfl

theorem isInputError_of_load {cause : LoadError} (hpath : FileStore.hasNul path = false)
    (h : image.load files size path = .error cause) (hwhole : ¬ BreaksOff files path) :
    cause.isInputError = true := by
  cases hread : files.read path with
  | error fault =>
    rw [load_unread image size hread] at h
    cases h
    exact LoadError.isInputError_ofFile fun hnul =>
      FileStore.read_ne_embeddedNul hpath (hread.trans (congrArg Except.error hnul))
  | ok content =>
    by_cases hhex : FileName.isHex path = true
    · exact isInputError_of_load_hex hhex hread h fun hbreaks =>
        hwhole ⟨hhex, content, hread, hbreaks⟩
    · exact isInputError_of_load_binary (Bool.eq_false_iff.mpr hhex) hread h

/-- A load succeeds or tells of its input, unless its file breaks off; then it tells of neither. -/
theorem load_tells_of_input (image : Image) (hpath : FileStore.hasNul path = false)
    (files : FileStore) (size : Option ℤ) :
    ((∃ loaded, image.load files size path = .ok loaded) ∨
      (∃ cause, image.load files size path = .error cause ∧ cause.isInputError = true) ↔
      ¬ BreaksOff files path) ∧
    (BreaksOff files path → image.load files size path = .error .notText) := by
  refine ⟨⟨?_, fun hwhole => ?_⟩, load_breaksOff image size⟩
  · rintro hends hbreaks
    rw [load_breaksOff image size hbreaks] at hends
    rcases hends with ⟨loaded, hload⟩ | ⟨cause, hfails, hinput⟩
    · cases hload
    · cases hfails
      cases hinput
  · cases hload : image.load files size path with
    | ok loaded => exact Or.inl ⟨loaded, rfl⟩
    | error cause => exact Or.inr ⟨cause, rfl, isInputError_of_load hpath hload hwhole⟩

def strayStore : FileStore := { nodes := [(["stray.hex"], .file [0xff])] }

theorem missing_file_tells_of_input :
    FileStore.hasNul "missing.hex" = false ∧
    ((∃ loaded, Image.load { built := ⟨2024, 1, 2, 3, 4, 5⟩ } strayStore none "missing.hex" =
        .ok loaded) ∨
      ∃ cause, Image.load { built := ⟨2024, 1, 2, 3, 4, 5⟩ } strayStore none "missing.hex" =
        .error cause ∧ cause.isInputError = true) := by
  have hpath : FileStore.hasNul "missing.hex" = false := by decide
  have hmissing : strayStore.read "missing.hex" = .error (.os (.notFound "missing.hex")) := by
    decide +kernel
  refine ⟨hpath, (load_tells_of_input _ hpath strayStore none).1.mpr ?_⟩
  rintro ⟨_, content, hread, _⟩
  rw [hmissing] at hread
  cases hread

theorem breaksOff_strayStore : BreaksOff strayStore "stray.hex" := by
  have hread : strayStore.read "stray.hex" = .ok [0xff] := by decide +kernel
  have hpart : Text.decodePart [0xff] = none := by
    rw [Text.decodePart, Text.decodeAfter]
    rfl
  have hgathered : HexFile.gathered [0xff] = ⟨[], false⟩ := by
    rw [HexFile.gathered, Bytes.groups_of_ne_nil (by decide) (List.cons_ne_nil _ _)]
    exact Text.Intake.gather_of_not_text hpart [] _
  refine ⟨by decide, [0xff], hread, ?_, {}, 1, ?_⟩
  · rw [Text.decodeUtf8, hpart]
  · rw [hgathered]
    rfl

theorem stray_byte_tells_otherwise :
    FileStore.hasNul "stray.hex" = false ∧
    Image.load { built := ⟨2024, 1, 2, 3, 4, 5⟩ } strayStore none "stray.hex" = .error .notText ∧
    ¬ ((∃ loaded, Image.load { built := ⟨2024, 1, 2, 3, 4, 5⟩ } strayStore none "stray.hex" =
        .ok loaded) ∨
      ∃ cause, Image.load { built := ⟨2024, 1, 2, 3, 4, 5⟩ } strayStore none "stray.hex" =
        .error cause ∧ cause.isInputError = true) := by
  have hload := load_breaksOff { built := ⟨2024, 1, 2, 3, 4, 5⟩ } none breaksOff_strayStore
  refine ⟨by decide, hload, ?_⟩
  rw [hload]
  rintro (⟨loaded, hload⟩ | ⟨cause, hfails, hinput⟩)
  · cases hload
  · cases hfails
    cases hinput

end Image

end BootImage
