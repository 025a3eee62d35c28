import BootImage.HexFile
import BootImage.Proofs.Bytes
import BootImage.Proofs.Text.Reading
import Mathlib.Data.UInt

/-! What an Intel HEX file says, and how it is read. A file states data, bases and start addresses,
one statement to a record, spelled in hexadecimal digits of either case on a line of its own; a base
is the offset of the data after it, up to the next base. Each record reads back as its statement,
and the lines that the blocks of a file hand out are read as those of the whole text would be. -/

namespace BootImage.HexFile

/-- The statement of a record. A count of one byte bounds the content. -/
inductive Statement where
  | data (address : UInt16) (content : Bytes) (short : content.length < 256)
  | segmentBase (segment : UInt16)
  | startSegment (segment pointer : UInt16)
  | linearBase (upper : UInt16)
  | startLinear (pointer : UInt32)

/-- The bytes of a record: count, address, type and content, and the byte that brings their sum to
zero. -/
def wire (kind : UInt8) (address : UInt16) (content : Bytes) : Bytes :=
  let body := UInt8.ofNat content.length :: Bytes.ofNatBE 2 address.toNat ++ kind :: content
  body ++ [-body.sum]

namespace Statement

def wire : Statement → Bytes
  | data address content _ => HexFile.wire 0 address content
  | segmentBase segment => HexFile.wire 2 0 (Bytes.ofNatBE 2 segment.toNat)
  | startSegment segment pointer =>
    HexFile.wire 3 0 (Bytes.ofNatBE 2 segment.toNat ++ Bytes.ofNatBE 2 pointer.toNat)
  | linearBase upper => HexFile.wire 4 0 (Bytes.ofNatBE 2 upper.toNat)
  | startLinear pointer => HexFile.wire 5 0 (Bytes.ofNatBE 4 pointer.toNat)

def isStart : Statement → Bool
  | startSegment _ _ => true
  | startLinear _ => true
  | _ => false

end Statement

/-- A digit below sixteen, in either case. -/
def IsDigit (c : Char) (d : ℕ) : Prop := c = Nat.digitChar d ∨ c = (Nat.digitChar d).toUpper

inductive Spells : List Char → Bytes → Prop where
  | nil : Spells [] []
  | cons {high low : Char} {b : UInt8} {digits : List Char} {bytes : Bytes} :
    IsDigit high (b.toNat / 16) → IsDigit low (b.toNat % 16) → Spells digits bytes →
    Spells (high :: low :: digits) (b :: bytes)

inductive LineEnd where
  | lf
  | crlf
  | cr

def LineEnd.chars : LineEnd → List Char
  | lf => ['\n']
  | crlf => ['\r', '\n']
  | cr => ['\r']

/-- The texts that state what a list states, in its order. Lines may be blank and end in different
ways; the last line needs no end, and there may be an end-of-file record, with no record after it.
-/
inductive States : List Char → List Statement → Prop where
  | nil : States [] []
  | blank (lineEnd : LineEnd) {text : List Char} {statements : List Statement} :
    States text statements → States (lineEnd.chars ++ text) statements
  | record {statement : Statement} {digits : List Char} (lineEnd : LineEnd) {text : List Char}
    {statements : List Statement} :
    Spells digits statement.wire → States text statements →
    States (':' :: digits ++ (lineEnd.chars ++ text)) (statement :: statements)
  | last {statement : Statement} {digits : List Char} :
    Spells digits statement.wire → States (':' :: digits) [statement]
  | endOfFile (address : UInt16) {digits : List Char} (lineEnds : List LineEnd) :
    Spells digits (wire 1 address []) →
    States (':' :: digits ++ lineEnds.flatMap LineEnd.chars) []

theorem spells_hexPair (bytes : Bytes) : Spells (bytes.flatMap Bytes.hexPair) bytes := by
  induction bytes with
  | nil => exact .nil
  | cons b rest ih => exact .cons (Or.inl rfl) (Or.inl rfl) ih

def text (lineEnd : LineEnd) (statements : List Statement) : List Char :=
  statements.flatMap fun statement =>
    ':' :: statement.wire.flatMap Bytes.hexPair ++ lineEnd.chars

theorem states_text (lineEnd : LineEnd) (statements : List Statement) :
    States (text lineEnd statements) statements := by
  induction statements with
  | nil => exact .nil
  | cons statement rest ih =>
    rw [text, List.flatMap_cons, List.append_assoc]
    exact .record lineEnd (spells_hexPair statement.wire) ih

/-- Bytes at consecutive addresses. -/
def placed (address : ℕ) : Bytes → List (ℕ × UInt8)
  | [] => []
  | b :: rest => (address, b) :: placed (address + 1) rest

/-- The contents of data and where they go, while an offset is in force. -/
def pieces (offset : ℕ) : List Statement → List (ℕ × Bytes)
  | [] => []
  | .data address content _ :: rest => (offset + address.toNat, content) :: pieces offset rest
  | .segmentBase segment :: rest => pieces (16 * segment.toNat) rest
  | .linearBase upper :: rest => pieces (65536 * upper.toNat) rest
  | .startSegment _ _ :: rest => pieces offset rest
  | .startLinear _ :: rest => pieces offset rest

def consecutive (address : ℕ) : List Bytes → List (ℕ × Bytes)
  | [] => []
  | piece :: rest => (address, piece) :: consecutive (address + piece.length) rest

/-- What statements define while an offset is in force. -/
def defined (offset : ℕ) (statements : List Statement) : List (ℕ × UInt8) :=
  (pieces offset statements).flatMap fun piece => placed piece.1 piece.2

def addresses (definitions : List (ℕ × UInt8)) : List ℕ := definitions.map Prod.fst

/-- A payload that covers the definitions from the lowest address to the highest, with a filler
where there are none. -/
structure Covers (payload : Bytes) (definitions : List (ℕ × UInt8)) (low high : ℕ) : Prop where
  lowest : low ∈ addresses definitions ∧ ∀ a ∈ addresses definitions, low ≤ a
  highest : high ∈ addresses definitions ∧ ∀ a ∈ addresses definitions, a ≤ high
  length : payload.length = high - low + 1
  byte : ∀ i b, (low + i, b) ∈ definitions → payload[i]? = some b
  filler : ∀ i < payload.length, low + i ∉ addresses definitions → payload[i]? = some 0xff

theorem IsDigit.hexValue? {c : Char} {d : ℕ} (hd : d < 16) (h : IsDigit c d) :
    Text.hexValue? c = some d := by
  have hall : ∀ d < 16, Text.hexValue? (Nat.digitChar d) = some d ∧
      Text.hexValue? (Nat.digitChar d).toUpper = some d := by decide
  rcases h with rfl | rfl
  · exact (hall d hd).1
  · exact (hall d hd).2

theorem hexBytes?_cons {high low : Char} {rest : List Char} {bytes : Bytes} :
    Text.hexBytes? (high :: low :: rest) = some bytes ↔
      ∃ h l tail, Text.hexValue? high = some h ∧ Text.hexValue? low = some l ∧
        Text.hexBytes? rest = some tail ∧ bytes = UInt8.ofNat (16 * h + l) :: tail := by
  rw [Text.hexBytes?]
  constructor
  · intro h
    split at h
    · next a b tail hhigh hlow hrest =>
      cases h
      exact ⟨a, b, tail, hhigh, hlow, hrest, rfl⟩
    · cases h
  · rintro ⟨h, l, tail, hhigh, hlow, hrest, rfl⟩
    rw [hhigh, hlow, hrest]

theorem hexBytes?_of_spells {digits : List Char} {bytes : Bytes} (h : Spells digits bytes) :
    Text.hexBytes? digits = some bytes := by
  induction h with
  | nil => rfl
  | @cons high low b digits bytes hhigh hlow _ ih =>
    have hb := b.toNat_lt
    have hbyte : UInt8.ofNat (16 * (b.toNat / 16) + b.toNat % 16) = b := by
      rw [Nat.div_add_mod, UInt8.ofNat_toNat]
    exact hexBytes?_cons.mpr ⟨_, _, _, hhigh.hexValue? (by omega), hlow.hexValue? (by omega), ih,
      by rw [hbyte]⟩

theorem Spells.plain {digits : List Char} {bytes : Bytes} (h : Spells digits bytes) :
    ∀ c ∈ digits, c.toNat < 128 ∧ c ≠ '\r' ∧ c ≠ '\n' := by
  have hdigit {c : Char} {d : ℕ} (hd : d < 16) (h : IsDigit c d) :
      c.toNat < 128 ∧ c ≠ '\r' ∧ c ≠ '\n' := by
    have hlower : ∀ d < 16, (Nat.digitChar d).toNat < 128 ∧
        Nat.digitChar d ≠ '\r' ∧ Nat.digitChar d ≠ '\n' := by decide
    have hupper : ∀ d < 16, (Nat.digitChar d).toUpper.toNat < 128 ∧
        (Nat.digitChar d).toUpper ≠ '\r' ∧ (Nat.digitChar d).toUpper ≠ '\n' := by decide
    rcases h with rfl | rfl
    · exact hlower d hd
    · exact hupper d hd
  induction h with
  | nil =>
    intro c hc
    cases hc
  | @cons high low b digits bytes hhigh hlow _ ih =>
    have hb := b.toNat_lt
    intro c hc
    rcases List.mem_cons.mp hc with rfl | hc
    · exact hdigit (by omega) hhigh
    · rcases List.mem_cons.mp hc with rfl | hc
      · exact hdigit (by omega) hlow
      · exact ih c hc

theorem byteSum_mod (bytes : Bytes) : Record.byteSum bytes % 256 = bytes.sum.toNat := by
  induction bytes with
  | nil => rfl
  | cons b rest ih =>
    rw [Record.byteSum] at ih ⊢
    rw [List.map_cons, List.foldr_cons, List.sum_cons, UInt8.toNat_add, ← ih]
    omega

theorem byteSum_checked (body : Bytes) : Record.byteSum (body ++ [-body.sum]) % 256 = 0 := by
  rw [byteSum_mod, List.sum_append, List.sum_singleton, UInt8.add_right_neg]
  rfl

theorem ofBytes_wire {kind : UInt8} (hkind : kind.toNat ≤ 5) (address : UInt16) {content : Bytes}
    (hcontent : content.length < 256) (line : ℕ) :
    Record.ofBytes line (wire kind address content) =
      Record.interpret line kind.toNat address.toNat content := by
  have haddress := address.toNat_lt
  obtain ⟨checksum, hchecksum⟩ : ∃ checksum, checksum = -(UInt8.ofNat content.length ::
      Bytes.ofNatBE 2 address.toNat ++ kind :: content).sum := ⟨_, rfl⟩
  have hwire : wire kind address content = UInt8.ofNat content.length ::
      UInt8.ofNat (address.toNat / 256) :: UInt8.ofNat address.toNat :: kind ::
        (content ++ [checksum]) := by
    rw [wire, hchecksum]
    rfl
  have hsum : Record.byteSum (wire kind address content) % 256 = 0 := byteSum_checked _
  have hlength : (content ++ [checksum]).length = (UInt8.ofNat content.length).toNat + 1 := by
    rw [List.length_append, List.length_singleton, UInt8.toNat_ofNat']
    omega
  have hnumber : (UInt8.ofNat (address.toNat / 256)).toNat * 256 +
      (UInt8.ofNat address.toNat).toNat = address.toNat := by
    rw [UInt8.toNat_ofNat', UInt8.toNat_ofNat']
    omega
  have hrest : (content ++ [checksum]).isEmpty = false := by
    cases content <;> rfl
  rw [hwire] at hsum ⊢
  rw [Record.ofBytes, hrest, if_neg (by decide), if_neg (not_not.mpr hlength),
    if_neg (by omega), if_neg (not_not.mpr hsum), hnumber, List.dropLast_concat]

def Statement.record : Statement → Record
  | data address content _ => .data address.toNat content
  | segmentBase segment => .base (segment.toNat * 16)
  | linearBase upper => .base (upper.toNat * 65536)
  | startSegment _ _ => .start
  | startLinear _ => .start

theorem interpret_base (line : ℕ) (n : UInt16) :
    Record.interpret line 2 0 (Bytes.ofNatBE 2 n.toNat) = .ok (.base (n.toNat * 16)) ∧
    Record.interpret line 4 0 (Bytes.ofNatBE 2 n.toNat) = .ok (.base (n.toNat * 65536)) := by
  have hbase : (Bytes.ofNatBE 2 n.toNat).length = 2 ∧ 0 = 0 := ⟨Bytes.length_ofNatBE 2 _, rfl⟩
  have hvalue : Bytes.toNatBE (Bytes.ofNatBE 2 n.toNat) = n.toNat := by
    have hn := n.toNat_lt
    rw [Bytes.toNatBE_ofNatBE]
    omega
  constructor
  · rw [Record.interpret, if_pos hbase, hvalue]
  · rw [Record.interpret, if_pos hbase, hvalue]

theorem interpret_start (line : ℕ) {content : Bytes} (h : content.length = 4) :
    Record.interpret line 3 0 content = .ok .start ∧
    Record.interpret line 5 0 content = .ok .start := by
  constructor
  · rw [Record.interpret, if_pos ⟨h, rfl⟩]
  · rw [Record.interpret, if_pos ⟨h, rfl⟩]
    all_goals decide

theorem ofBytes_statement (statement : Statement) (line : ℕ) :
    Record.ofBytes line statement.wire = .ok statement.record := by
  have htwo (n : UInt16) : (Bytes.ofNatBE 2 n.toNat).length = 2 := Bytes.length_ofNatBE 2 _
  cases statement with
  | data address content short => exact ofBytes_wire (by decide) address short line
  | segmentBase segment =>
    rw [Statement.wire, ofBytes_wire (by decide) 0 (by rw [htwo]; decide)]
    exact (interpret_base line segment).1
  | startSegment segment pointer =>
    have hlen : (Bytes.ofNatBE 2 segment.toNat ++ Bytes.ofNatBE 2 pointer.toNat).length = 4 := by
      rw [List.length_append, htwo, htwo]
    rw [Statement.wire, ofBytes_wire (by decide) 0 (by rw [hlen]; decide)]
    exact (interpret_start line hlen).1
  | linearBase upper =>
    rw [Statement.wire, ofBytes_wire (by decide) 0 (by rw [htwo]; decide)]
    exact (interpret_base line upper).2
  | startLinear pointer =>
    have hlen : (Bytes.ofNatBE 4 pointer.toNat).length = 4 := Bytes.length_ofNatBE 4 _
    rw [Statement.wire, ofBytes_wire (by decide) 0 (by rw [hlen]; decide)]
    exact (interpret_start line hlen).2

theorem ofText_statement {statement : Statement} {digits : List Char}
    (h : Spells digits statement.wire) (line : ℕ) :
    Record.ofText line (':' :: digits) = .ok statement.record := by
  rw [Record.ofText, hexBytes?_of_spells h]
  exact ofBytes_statement statement line

theorem ofText_endOfFile {address : UInt16} {digits : List Char}
    (h : Spells digits (wire 1 address [])) (line : ℕ) :
    Record.ofText line (':' :: digits) = .ok .endOfFile := by
  rw [Record.ofText, hexBytes?_of_spells h]
  exact ofBytes_wire (by decide) address (by decide) line

/-- A memory goes over into another one by reading lines, whatever their numbers are. -/
inductive Reads : Memory → List (List Char) → Memory → Prop where
  | nil (m : Memory) : Reads m [] m
  | blank {m last : Memory} {lines : List (List Char)} :
    Reads m lines last → Reads m ([] :: lines) last
  | record {m next last : Memory} {text : List Char} {record : Record}
    {lines : List (List Char)} : (∀ line, Record.ofText line text = .ok record) →
    record ≠ .endOfFile → (∀ line, m.next line record = .ok next) → Reads next lines last →
    Reads m (text :: lines) last
  | endOfFile {m : Memory} {text : List Char} (lines : List (List Char)) :
    (∀ line, Record.ofText line text = .ok .endOfFile) → Reads m (text :: lines) m

theorem Reads.of_blank {m last : Memory} {lines : List (List Char)}
    (h : Reads m ([] :: lines) last) : Reads m lines last := by
  cases h with
  | blank h => exact h
  | record hread => cases hread 0
  | endOfFile _ hread => cases hread 0

theorem not_isEmpty_of_ofText {text : List Char} {record : Record} {line : ℕ}
    (h : Record.ofText line text = .ok record) : text.isEmpty = false := by
  cases text with
  | nil => cases h
  | cons c rest => rfl

namespace Memory

/-- The memory that lines come to, whether or not one of them is the end-of-file record. -/
def outcome : Except HexError Progress → Except ReadError Memory
  | .error cause => .error (.record cause)
  | .ok (.ended m) => .ok m
  | .ok (.reading m _) => .ok m

variable {m next : Memory} {line : ℕ} {text : List Char} {record : Record}

theorem readLines_endOfFile (h : Record.ofText line text = .ok .endOfFile)
    (rest : List (List Char)) : m.readLines line (text :: rest) = .ok (.ended m) := by
  rw [readLines, not_isEmpty_of_ofText h, h]
  rfl

theorem readLines_record (h : Record.ofText line text = .ok record)
    (hgoes : record ≠ .endOfFile) (hnext : m.next line record = .ok next)
    (rest : List (List Char)) :
    m.readLines line (text :: rest) = next.readLines (line + 1) rest := by
  rw [readLines, not_isEmpty_of_ofText h, h]
  cases record with
  | endOfFile => exact absurd rfl hgoes
  | data _ _ | base _ | start => simp only [Bool.false_eq_true, if_false, hnext]

theorem readLines_append (m : Memory) (line : ℕ) (xs ys : List (List Char)) :
    m.readLines line (xs ++ ys) =
      match m.readLines line xs with
      | .ok (.reading next line') => next.readLines line' ys
      | stopped => stopped := by
  fun_induction Memory.readLines m line xs with
  | case1 m line => rfl
  | case2 m line text rest hblank ih =>
    rw [List.cons_append, readLines, if_pos hblank]
    exact ih
  | case3 m line text rest hfull e hread =>
    rw [List.cons_append, readLines, if_neg hfull, hread]
  | case4 m line text rest hfull hread => exact readLines_endOfFile hread _
  | case5 m line text rest hfull record hgoes hread e hnext =>
    rw [List.cons_append, readLines, if_neg hfull, hread]
    cases record with
    | endOfFile => exact absurd rfl hgoes
    | data _ _ | base _ | start => simp only [hnext]
  | case6 m line text rest hfull record hgoes hread next hnext ih =>
    rw [List.cons_append, readLines_record hread hgoes hnext]
    exact ih

theorem outcome_append_blank (m : Memory) (line : ℕ) (lines : List (List Char)) :
    outcome (m.readLines line (lines ++ [[]])) = outcome (m.readLines line lines) := by
  rw [readLines_append]
  cases m.readLines line lines with
  | error cause => rfl
  | ok progress =>
    cases progress with
    | ended last => rfl
    | reading next line' => rfl

theorem readBlocks_ascii (m : Memory) (line : ℕ) {s : Text.Intake} {text : List Char}
    (htail : s.tail = []) (htext : Text.IsAscii text) :
    m.readBlocks line s (Bytes.groups Text.blockSize (Text.asciiBytes text)) =
      outcome (m.readLines line (s.remaining text)) := by
  induction hlen : text.length using Nat.strong_induction_on generalizing m s text line with
  | _ n ih =>
    by_cases hempty : text = []
    · subst hempty
      have hlines : outcome (m.readLines line (s.remaining [])) =
          outcome (m.readLines line [s.begun]) := by
        rw [Text.Intake.remaining]
        cases s.waiting with
        | true =>
          have hcr : Text.linesAfter s.begun.reverse ['\r'] = [s.begun] ++ [[]] :=
            (Text.linesAfter_cr _ (by simp)).trans (by simp [Text.linesAfter])
          rw [if_pos rfl, hcr, outcome_append_blank]
        | false => simp [Text.linesAfter]
      rw [hlines, Text.asciiBytes, List.map_nil, Bytes.groups_nil, Memory.readBlocks,
        Memory.readRest, Text.Intake.close?, if_pos htail]
      rfl
    · have hsize : Text.blockSize ≠ 0 := by decide
      have hblock : text.take Text.blockSize ≠ [] := by
        rw [Ne, List.take_eq_nil_iff, not_or]
        exact ⟨hsize, hempty⟩
      have hgroups : Bytes.groups Text.blockSize (Text.asciiBytes text) =
          Text.asciiBytes (text.take Text.blockSize) ::
            Bytes.groups Text.blockSize (Text.asciiBytes (text.drop Text.blockSize)) := by
        have hbytes : Text.asciiBytes text ≠ [] := mt List.map_eq_nil_iff.mp hempty
        rw [Bytes.groups_of_ne_nil hsize hbytes]
        simp only [Text.asciiBytes, List.map_take, List.map_drop]
      have hascii : Text.IsAscii (text.take Text.blockSize) := fun c hc =>
        htext c (List.mem_of_mem_take hc)
      have hshorter : (text.drop Text.blockSize).length < n := by
        have hpos := List.length_pos_of_ne_nil hempty
        rw [List.length_drop, ← hlen]
        omega
      have hrest (next : Memory) (line' : ℕ) := ih _ hshorter next line'
        (Text.Intake.tail_takeText s (text.take Text.blockSize) [])
        (fun c hc => htext c (List.mem_of_mem_drop hc)) rfl
      conv_rhs => rw [← List.take_append_drop Text.blockSize text,
        Text.Intake.remaining_append hblock, readLines_append]
      rw [hgroups, Memory.readBlocks, Text.Intake.take?_ascii htail hascii]
      cases hread : m.readLines line (s.takeText (text.take Text.blockSize) []).1 with
      | error cause => simp only [hread, outcome]
      | ok progress =>
        cases progress with
        | ended last => simp only [hread, outcome]
        | reading next line' =>
          simp only [hread]
          exact hrest next line'

theorem outcome_of_reads {m last : Memory} {lines : List (List Char)} (h : Reads m lines last)
    (line : ℕ) : outcome (m.readLines line lines) = .ok last := by
  induction h generalizing line with
  | nil m => rfl
  | blank _ ih => exact ih (line + 1)
  | record hread hgoes hnext _ ih =>
    rw [readLines_record (hread line) hgoes (hnext line)]
    exact ih (line + 1)
  | endOfFile lines hread =>
    rw [readLines_endOfFile (hread line)]
    rfl

end Memory

theorem ofBytes_ascii {text : List Char} (h : Text.IsAscii text) :
    ofBytes (Text.asciiBytes text) =
      Memory.outcome (Memory.readLines {} 1 (Text.linesAfter [] text)) :=
  Memory.readBlocks_ascii {} 1 rfl h

end BootImage.HexFile
