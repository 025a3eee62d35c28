import BootImage.FileStore.Lemmas
import BootImage.Image.Basic
import BootImage.Proofs.HexFile.Reading

/-! Loading an Intel HEX file. Reading it replays its statements on a memory; where no address is
defined twice none of them is refused. The payload runs from the lowest defined address to the
highest, so it is given by what the file defines: not by the order or the size of the records, nor
by the bases, the digits or the line ends. A file that defines the bytes of a binary file one after
the other loads as the binary file does. -/

namespace BootImage.HexFile

/-- A memory that holds the bytes of definitions, and nothing else. -/
def Holds (cells : Std.TreeMap ℕ UInt8) (definitions : List (ℕ × UInt8)) : Prop :=
  ∀ a, cells[a]? = definitions.lookup a

theorem addresses_append (xs ys : List (ℕ × UInt8)) :
    addresses (xs ++ ys) = addresses xs ++ addresses ys := List.map_append

theorem lookup_eq_none {definitions : List (ℕ × UInt8)} {a : ℕ} (h : a ∉ addresses definitions) :
    definitions.lookup a = none := by
  rw [List.lookup_eq_none_iff]
  intro entry hentry
  rw [bne_iff_ne]
  rintro rfl
  exact h (List.mem_map_of_mem hentry)

theorem Holds.insert {cells : Std.TreeMap ℕ UInt8} {definitions : List (ℕ × UInt8)}
    (h : Holds cells definitions) {a : ℕ} (ha : a ∉ addresses definitions) (b : UInt8) :
    cells.contains a = false ∧ Holds (cells.insert a b) (definitions ++ [(a, b)]) := by
  have hnone := lookup_eq_none ha
  constructor
  · rw [Std.TreeMap.contains_eq_isSome_getElem?, h a, hnone]
    rfl
  · intro other
    rw [Std.TreeMap.getElem?_insert, List.lookup_append]
    by_cases hsame : a = other
    · subst hsame
      rw [if_pos (Nat.compare_eq_eq.mpr rfl), hnone, Option.none_or, List.lookup_cons_self]
    · have hne : (other == a) = false := beq_eq_false_iff_ne.mpr (Ne.symm hsame)
      rw [if_neg (mt Nat.compare_eq_eq.mp hsame), h other, List.lookup_cons, hne,
        List.lookup_nil, Option.or_none]

theorem define_of_nodup {cells : Std.TreeMap ℕ UInt8} {definitions : List (ℕ × UInt8)}
    (h : Holds cells definitions) {address : ℕ} {content : Bytes}
    (hnodup : (addresses (definitions ++ placed address content)).Nodup) :
    ∃ after, (∀ line, Memory.define line cells address content = .ok after) ∧
      Holds after (definitions ++ placed address content) := by
  induction content generalizing cells definitions address with
  | nil =>
    rw [placed, List.append_nil]
    exact ⟨cells, fun _ => rfl, h⟩
  | cons b rest ih =>
    rw [placed, List.append_cons] at hnodup ⊢
    have hfresh : address ∉ addresses definitions := by
      intro hmem
      rw [addresses_append, addresses_append] at hnodup
      have hearlier := (List.nodup_append.mp hnodup).1
      exact (List.nodup_append.mp hearlier).2.2 address hmem address (List.mem_singleton_self _) rfl
    obtain ⟨hcontains, hinsert⟩ := h.insert hfresh b
    obtain ⟨after, hdefine, hafter⟩ := ih hinsert hnodup
    refine ⟨after, fun line => ?_, hafter⟩
    rw [Memory.define, hcontains]
    exact hdefine line

theorem defined_nil (offset : ℕ) : defined offset [] = [] := rfl

/-- What one statement does: it adds what it defines, and the rest is defined under the offset that
is then in force. -/
structure Follows (m next : Memory) (statement : Statement) (added : List (ℕ × UInt8)) : Prop where
  step : ∀ line, m.next line statement.record = .ok next
  defines : ∀ rest, defined m.offset (statement :: rest) = added ++ defined next.offset rest
  started : next.started = (m.started || statement.isStart)

/-- At most one start address, those already seen included. -/
def FewStarts (m : Memory) (statements : List Statement) : Prop :=
  statements.countP Statement.isStart + m.started.toNat ≤ 1

theorem FewStarts.not_started {m : Memory} {statement : Statement} {rest : List Statement}
    (h : FewStarts m (statement :: rest)) (hstart : statement.isStart = true) :
    m.started = false := by
  rw [FewStarts, List.countP_cons, hstart, if_pos rfl] at h
  rw [← Bool.toNat_eq_zero]
  omega

theorem Follows.fewStarts {m next : Memory} {statement : Statement} {added : List (ℕ × UInt8)}
    {rest : List Statement} (hnext : Follows m next statement added)
    (h : FewStarts m (statement :: rest)) : FewStarts next rest := by
  cases hstart : statement.isStart with
  | true =>
    have hseen := h.not_started hstart
    rw [FewStarts, List.countP_cons, hstart, if_pos rfl, hseen] at h
    rw [FewStarts, hnext.started, hstart, hseen]
    exact h
  | false =>
    rw [FewStarts, List.countP_cons, hstart, if_neg Bool.false_ne_true] at h
    rw [FewStarts, hnext.started, hstart, Bool.or_false]
    exact h

theorem follows_base {m : Memory} {statement : Statement} {offset : ℕ}
    (hrecord : statement.record = .base offset) (hstart : statement.isStart = false)
    (hdefines : ∀ rest, defined m.offset (statement :: rest) = defined offset rest) :
    Follows m { m with offset } statement [] where
  step := by
    intro line
    rw [hrecord, Memory.next]
  defines := hdefines
  started := by rw [hstart, Bool.or_false]

theorem follows_start {m : Memory} {statement : Statement} (hrecord : statement.record = .start)
    (hstart : statement.isStart = true) (hm : m.started = false)
    (hdefines : ∀ rest, defined m.offset (statement :: rest) = defined m.offset rest) :
    Follows m { m with started := true } statement [] where
  step := by
    intro line
    rw [hrecord, Memory.next, hm, if_neg Bool.false_ne_true]
  defines := hdefines
  started := by rw [hstart, Bool.or_true]

theorem next_statement {m : Memory} {before : List (ℕ × UInt8)} {statement : Statement}
    {rest : List Statement} (h : Holds m.cells before)
    (hnodup : (addresses (before ++ defined m.offset (statement :: rest))).Nodup)
    (hstarts : FewStarts m (statement :: rest)) :
    ∃ next added, Follows m next statement added ∧ Holds next.cells (before ++ added) := by
  have hsame : Holds m.cells (before ++ []) := by rwa [List.append_nil]
  have hbase (base upper : ℕ) (rest : List Statement) :
      defined (base * upper) rest = defined (upper * base) rest := by rw [Nat.mul_comm]
  cases statement with
  | data address content short =>
    rw [defined, pieces, List.flatMap_cons, ← List.append_assoc, addresses_append] at hnodup
    obtain ⟨after, hdefine, hafter⟩ := define_of_nodup h (List.nodup_append.mp hnodup).1
    refine ⟨{ m with cells := after }, _, ⟨fun line => ?_, fun rest => ?_, ?_⟩, hafter⟩
    · rw [Statement.record, Memory.next, Nat.add_comm, hdefine line]
      rfl
    · rw [defined, pieces, List.flatMap_cons, defined]
    · exact (Bool.or_false m.started).symm
  | segmentBase segment => exact ⟨_, [], follows_base rfl rfl (hbase 16 _), hsame⟩
  | linearBase upper => exact ⟨_, [], follows_base rfl rfl (hbase 65536 _), hsame⟩
  | startSegment segment pointer =>
    exact ⟨_, [], follows_start rfl rfl (hstarts.not_started rfl) fun _ => rfl, hsame⟩
  | startLinear pointer =>
    exact ⟨_, [], follows_start rfl rfl (hstarts.not_started rfl) fun _ => rfl, hsame⟩

/-- A line end completes a line. After a carriage return the rest may begin with a line feed, which
belongs to the line end and is no blank line. -/
theorem linesAfter_lineEnd (lineEnd : LineEnd) (begun text : List Char) :
    ∃ lines, Text.linesAfter begun (lineEnd.chars ++ text) = begun.reverse :: lines ∧
      (Text.linesAfter [] text = lines ∨ Text.linesAfter [] text = [] :: lines) := by
  cases lineEnd with
  | lf => exact ⟨_, Text.linesAfter_lf begun text, Or.inl rfl⟩
  | crlf => exact ⟨_, Text.linesAfter_crlf begun text, Or.inl rfl⟩
  | cr =>
    by_cases hlf : text.head? = some '\n'
    · obtain ⟨rest, rfl⟩ := List.head?_eq_some_iff.mp hlf
      exact ⟨_, Text.linesAfter_crlf begun rest, Or.inr (Text.linesAfter_lf [] rest)⟩
    · exact ⟨_, Text.linesAfter_cr begun hlf, Or.inl rfl⟩

theorem reads_lineEnd {m last : Memory} {text : List Char}
    (h : Reads m (Text.linesAfter [] text) last) (lineEnd : LineEnd) (begun : List Char) :
    ∃ lines, Text.linesAfter begun (lineEnd.chars ++ text) = begun.reverse :: lines ∧
      Reads m lines last := by
  obtain ⟨lines, hlines, hrest⟩ := linesAfter_lineEnd lineEnd begun text
  rcases hrest with hrest | hrest
  · exact ⟨lines, hlines, hrest ▸ h⟩
  · rw [hrest] at h
    exact ⟨lines, hlines, h.of_blank⟩

theorem linesAfter_record {digits : List Char} {bytes : Bytes} (h : Spells digits bytes)
    (rest : List Char) :
    Text.linesAfter [] (':' :: digits ++ rest) =
      Text.linesAfter (':' :: digits).reverse rest := by
  have hplain : ∀ c ∈ ':' :: digits, c ≠ '\r' ∧ c ≠ '\n' := by
    intro c hc
    rcases List.mem_cons.mp hc with rfl | hc
    · decide
    · exact (h.plain c hc).2
  rw [Text.linesAfter_of_plain [] hplain, List.append_nil]

theorem reads_record {m next last : Memory} {statement : Statement} {added : List (ℕ × UInt8)}
    {digits : List Char} (hdigits : Spells digits statement.wire)
    (hnext : Follows m next statement added) {lines : List (List Char)}
    (h : Reads next lines last) : Reads m ((':' :: digits) :: lines) last := by
  have hgoes : statement.record ≠ .endOfFile := by
    cases statement <;> exact Record.noConfusion
  exact .record (fun line => ofText_statement hdigits line) hgoes hnext.step h

theorem reads_of_states {text : List Char} {statements : List Statement}
    (h : States text statements) {m : Memory} {before : List (ℕ × UInt8)}
    (hm : Holds m.cells before)
    (hnodup : (addresses (before ++ defined m.offset statements)).Nodup)
    (hstarts : FewStarts m statements) :
    ∃ last, Reads m (Text.linesAfter [] text) last ∧
      Holds last.cells (before ++ defined m.offset statements) := by
  -- along the text; what the memory holds so far, and its offset, change with each statement
  induction h generalizing m before with
  | nil =>
    rw [defined_nil, List.append_nil]
    exact ⟨m, .blank (.nil m), hm⟩
  | blank lineEnd _ ih =>
    obtain ⟨last, hreads, hlast⟩ := ih hm hnodup hstarts
    obtain ⟨lines, hlines, hreads⟩ := reads_lineEnd hreads lineEnd []
    exact ⟨last, hlines ▸ .blank hreads, hlast⟩
  | @record statement digits lineEnd text rest hdigits _ ih =>
    obtain ⟨next, added, hnext, hholds⟩ := next_statement hm hnodup hstarts
    rw [hnext.defines, ← List.append_assoc before] at hnodup ⊢
    obtain ⟨last, hreads, hlast⟩ := ih hholds hnodup (hnext.fewStarts hstarts)
    obtain ⟨lines, hlines, hreads⟩ := reads_lineEnd hreads lineEnd (':' :: digits).reverse
    rw [linesAfter_record hdigits, hlines, List.reverse_reverse]
    exact ⟨last, reads_record hdigits hnext hreads, hlast⟩
  | @last statement digits hdigits =>
    obtain ⟨next, added, hnext, hholds⟩ := next_statement hm hnodup hstarts
    have hline : Text.linesAfter [] (':' :: digits) = [':' :: digits] := by
      have hrecord := linesAfter_record hdigits []
      rw [List.append_nil, Text.linesAfter, List.reverse_reverse] at hrecord
      exact hrecord
    rw [hnext.defines, defined_nil, List.append_nil, hline]
    exact ⟨next, reads_record hdigits hnext (.nil next), hholds⟩
  | @endOfFile address digits lineEnds hdigits =>
    have hlines : ∃ lines, Text.linesAfter [] (':' :: digits ++
        lineEnds.flatMap LineEnd.chars) = (':' :: digits) :: lines := by
      rw [linesAfter_record hdigits]
      cases lineEnds with
      | nil => exact ⟨[], by rw [List.flatMap_nil, Text.linesAfter, List.reverse_reverse]⟩
      | cons lineEnd rest =>
        obtain ⟨lines, hlines, _⟩ := linesAfter_lineEnd lineEnd (':' :: digits).reverse
          (rest.flatMap LineEnd.chars)
        exact ⟨lines, by rw [List.flatMap_cons, hlines, List.reverse_reverse]⟩
    obtain ⟨lines, hlines⟩ := hlines
    rw [hlines, defined_nil, List.append_nil]
    exact ⟨m, .endOfFile lines fun line => ofText_endOfFile hdigits line, hm⟩

variable {cells : Std.TreeMap ℕ UInt8} {definitions : List (ℕ × UInt8)}

theorem mem_addresses_iff {a : ℕ} :
    a ∈ addresses definitions ↔ (definitions.lookup a).isSome = true := by
  constructor
  · intro hmem
    cases hlookup : definitions.lookup a with
    | some b => rfl
    | none =>
      obtain ⟨entry, hentry, rfl⟩ := List.mem_map.mp hmem
      have hne := List.lookup_eq_none_iff.mp hlookup entry hentry
      rw [bne_self_eq_false] at hne
      cases hne
  · intro hsome
    by_contra hmem
    rw [lookup_eq_none hmem] at hsome
    cases hsome

theorem Holds.mem_iff (h : Holds cells definitions) {a : ℕ} :
    a ∈ cells ↔ a ∈ addresses definitions := by
  rw [Std.TreeMap.mem_iff_isSome_getElem?, h a, mem_addresses_iff]

theorem lookup_of_mem (hnodup : (addresses definitions).Nodup) {a : ℕ} {b : UInt8}
    (h : (a, b) ∈ definitions) : definitions.lookup a = some b := by
  induction definitions with
  | nil => cases h
  | cons entry rest ih =>
    obtain ⟨hfresh, hrest⟩ := List.nodup_cons.mp hnodup
    rcases List.mem_cons.mp h with rfl | h
    · exact List.lookup_cons_self
    · have hne : (a == entry.1) = false := by
        rw [beq_eq_false_iff_ne]
        rintro rfl
        exact hfresh (List.mem_map.mpr ⟨_, h, rfl⟩)
      rw [List.lookup_cons, hne]
      exact ih hrest h

theorem covers_payload {m : Memory} (h : Holds m.cells definitions)
    (hnodup : (addresses definitions).Nodup) (hne : definitions ≠ []) :
    ∃ low high, Covers m.payload definitions low high := by
  have hfull : ¬ m.cells.isEmpty = true := by
    obtain ⟨entry, hentry⟩ := List.exists_mem_of_ne_nil definitions hne
    intro hempty
    have hnone := Std.TreeMap.isEmpty_iff_forall_not_mem.mp hempty entry.1
    exact hnone (h.mem_iff.mpr (List.mem_map_of_mem hentry))
  obtain ⟨low, hlow⟩ : ∃ low, m.cells.minKey? = some low :=
    Option.ne_none_iff_exists'.mp (mt Std.TreeMap.minKey?_eq_none_iff.mp hfull)
  obtain ⟨high, hhigh⟩ : ∃ high, m.cells.maxKey? = some high :=
    Option.ne_none_iff_exists'.mp (mt Std.TreeMap.maxKey?_eq_none_iff.mp hfull)
  obtain ⟨hlowMem, hlowLe⟩ := Std.TreeMap.minKey?_eq_some_iff_mem_and_forall.mp hlow
  obtain ⟨hhighMem, hhighLe⟩ := Std.TreeMap.maxKey?_eq_some_iff_mem_and_forall.mp hhigh
  have hlowest : ∀ a ∈ addresses definitions, low ≤ a := fun a ha =>
    Nat.isLE_compare.mp (hlowLe a (h.mem_iff.mpr ha))
  have hhighest : ∀ a ∈ addresses definitions, a ≤ high := fun a ha =>
    Nat.isLE_compare.mp (hhighLe a (h.mem_iff.mpr ha))
  have hle : low ≤ high := hhighest low (h.mem_iff.mp hlowMem)
  have hpayload : m.payload = m.extent low high := by
    rw [Memory.payload, hlow, hhigh]
  have hlength : m.payload.length = high - low + 1 := by
    rw [hpayload, Memory.extent, List.length_map, List.length_range]
    omega
  have hbyte (i : ℕ) (hi : i < high - low + 1) :
      m.payload[i]? = some ((definitions.lookup (low + i)).getD 0xff) := by
    have hrange : i < high + 1 - low := by omega
    rw [hpayload, Memory.extent, List.getElem?_map, List.getElem?_range hrange, Option.map_some,
      Std.TreeMap.getD_eq_getD_getElem?, h (low + i)]
    rfl
  refine ⟨low, high, ⟨h.mem_iff.mp hlowMem, hlowest⟩, ⟨h.mem_iff.mp hhighMem, hhighest⟩,
    hlength, ?_, ?_⟩
  · intro i b hmem
    have hi := hhighest (low + i) (List.mem_map.mpr ⟨_, hmem, rfl⟩)
    rw [hbyte i (by omega), lookup_of_mem hnodup hmem, Option.getD_some]
  · intro i hi hundefined
    rw [hbyte i (by omega), lookup_eq_none hundefined, Option.getD_none]

theorem placed_append (address : ℕ) (xs ys : Bytes) :
    placed address (xs ++ ys) = placed address xs ++ placed (address + xs.length) ys := by
  induction xs generalizing address with
  | nil => rfl
  | cons b rest ih =>
    have hnext : address + (b :: rest).length = address + 1 + rest.length := by
      rw [List.length_cons]
      omega
    rw [List.cons_append, placed, placed, ih, hnext, List.cons_append]

theorem placed_flatten (address : ℕ) (cut : List Bytes) :
    placed address cut.flatten =
      (consecutive address cut).flatMap fun piece => placed piece.1 piece.2 := by
  induction cut generalizing address with
  | nil => rfl
  | cons piece rest ih =>
    rw [List.flatten_cons, placed_append, ih, consecutive, List.flatMap_cons]

theorem addresses_placed (address : ℕ) (bytes : Bytes) :
    addresses (placed address bytes) = List.range' address bytes.length := by
  induction bytes generalizing address with
  | nil => rfl
  | cons b rest ih =>
    rw [placed, List.length_cons, List.range'_succ, ← ih]
    rfl

theorem mem_placed {address i : ℕ} {bytes : Bytes} {b : UInt8} (h : bytes[i]? = some b) :
    (address + i, b) ∈ placed address bytes := by
  induction bytes generalizing address i with
  | nil => cases h
  | cons first rest ih =>
    cases i with
    | zero =>
      cases h
      exact List.mem_cons_self
    | succ i =>
      have hshift : address + (i + 1) = address + 1 + i := by omega
      rw [hshift]
      exact List.mem_cons_of_mem _ (ih h)

theorem Covers.eq_of_perm {payload bytes : Bytes} {address low high : ℕ}
    (h : Covers payload definitions low high) (hbytes : bytes ≠ [])
    (hperm : definitions.Perm (placed address bytes)) : payload = bytes := by
  have hmem (a : ℕ) : a ∈ addresses definitions ↔ address ≤ a ∧ a < address + bytes.length := by
    rw [addresses, (hperm.map Prod.fst).mem_iff, ← addresses, addresses_placed, List.mem_range'_1]
  have hpos := List.length_pos_of_ne_nil hbytes
  have hlow : low = address := by
    have hle := h.lowest.2 address ((hmem address).mpr (by omega))
    have hge := ((hmem low).mp h.lowest.1).1
    omega
  have hhigh : high = address + bytes.length - 1 := by
    have hge := h.highest.2 (address + bytes.length - 1) ((hmem _).mpr (by omega))
    have hlt := ((hmem high).mp h.highest.1).2
    omega
  have hlength : payload.length = bytes.length := by
    rw [h.length]
    omega
  apply List.ext_getElem hlength
  intro i hi hi'
  have hbyte := h.byte i bytes[i] (by
    rw [hlow]
    exact hperm.mem_iff.mpr (mem_placed (List.getElem?_eq_getElem hi')))
  rw [List.getElem?_eq_getElem hi, Option.some_inj] at hbyte
  exact hbyte

theorem isAscii_of_states {text : List Char} {statements : List Statement}
    (h : States text statements) : Text.IsAscii text := by
  have hend (lineEnd : LineEnd) : Text.IsAscii lineEnd.chars := by
    cases lineEnd <;> simp [Text.IsAscii, LineEnd.chars]
  have hrecord {digits : List Char} {bytes : Bytes} (hdigits : Spells digits bytes) :
      Text.IsAscii (':' :: digits) := by
    intro c hc
    rcases List.mem_cons.mp hc with rfl | hc
    · decide
    · exact (hdigits.plain c hc).1
  induction h with
  | nil =>
    intro c hc
    cases hc
  | blank lineEnd _ ih => exact (hend lineEnd).append ih
  | record lineEnd hdigits _ ih => exact (hrecord hdigits).append ((hend lineEnd).append ih)
  | last hdigits => exact hrecord hdigits
  | endOfFile address lineEnds hdigits =>
    apply (hrecord hdigits).append
    intro c hc
    obtain ⟨lineEnd, _, hc⟩ := List.mem_flatMap.mp hc
    exact hend lineEnd c hc

theorem ofBytes_of_states {file : String} {statements : List Statement}
    (h : States file.toList statements) (hnodup : (addresses (defined 0 statements)).Nodup)
    (hstarts : statements.countP Statement.isStart ≤ 1) :
    ∃ m, ofBytes (Bytes.ofText file) = .ok m ∧ Holds m.cells (defined 0 statements) := by
  have hascii := isAscii_of_states h
  have hbytes : Bytes.ofText file = Text.asciiBytes file.toList := by
    rw [← Text.ofText_ascii hascii, String.ofList_toList]
  have hblank : Holds ({} : Memory).cells [] := fun _ => Std.TreeMap.getElem?_emptyc
  obtain ⟨m, hreads, hm⟩ := reads_of_states h hblank hnodup hstarts
  refine ⟨m, ?_, hm⟩
  rw [hbytes, ofBytes_ascii hascii]
  exact Memory.outcome_of_reads hreads 1

variable {image : Image} {files : FileStore} {path : String}

theorem load_hex_eq (image : Image) {content : Bytes} (hpath : FileName.isHex path = true)
    (hread : files.read path = .ok content) (reportedSize : Option ℤ) :
    image.load files reportedSize path =
      match ofBytes content with
      | .error .notText => .error .notText
      | .error (.record cause) => .error (.malformedHex path cause)
      | .ok m => if m.payload.isEmpty = true then .error (.empty path)
        else .ok { image with source := some path, payload := m.payload } := by
  rw [Image.load]
  delta Image.readPayload
  rw [if_pos hpath, Image.readHex, hread]
  dsimp only
  cases ofBytes content with
  | error e => cases e <;> rfl
  | ok m =>
    by_cases hempty : m.payload.isEmpty = true
    · simp only [hempty, if_true, Except.map]
    · simp only [hempty, Bool.false_eq_true, if_false, Except.map]

theorem load_hex {content : Bytes} {m : Memory} (hpath : FileName.isHex path = true)
    (hread : files.read path = .ok content) (hmemory : ofBytes content = .ok m)
    (hpayload : m.payload ≠ []) (reportedSize : Option ℤ) :
    image.load files reportedSize path =
      .ok { image with source := some path, payload := m.payload } := by
  rw [load_hex_eq image hpath hread, hmemory]
  exact if_neg (mt List.isEmpty_iff.mp hpayload)

theorem load_hex_eq_ok {content : Bytes} {reportedSize : Option ℤ} {loaded : Image}
    (hpath : FileName.isHex path = true) (hread : files.read path = .ok content)
    (h : image.load files reportedSize path = .ok loaded) :
    ∃ m, ofBytes content = .ok m ∧ m.payload ≠ [] ∧
      loaded = { image with source := some path, payload := m.payload } := by
  rw [load_hex_eq image hpath hread] at h
  cases hmemory : ofBytes content with
  | error e =>
    rw [hmemory] at h
    cases e <;> cases h
  | ok m =>
    rw [hmemory] at h
    dsimp only at h
    by_cases hempty : m.payload.isEmpty = true
    · rw [if_pos hempty] at h
      cases h
    · rw [if_neg hempty] at h
      cases h
      exact ⟨m, rfl, mt List.isEmpty_iff.mpr hempty, rfl⟩

theorem load_binary {content : Bytes} (hpath : FileName.isHex path = false)
    (hread : files.read path = .ok content) (hcontent : content ≠ []) :
    image.load files none path =
      .ok { image with source := some path, payload := content } := by
  have hbinary : Image.readBinary files none path = .ok content := by
    rw [Image.readBinary, hread]
    exact if_pos rfl
  have hfull : content.isEmpty = false := List.isEmpty_eq_false_iff.mpr hcontent
  have hplain : ¬ FileName.isHex path = true := Bool.eq_false_iff.mp hpath
  rw [Image.load]
  delta Image.readPayload
  rw [if_neg hplain, hbinary]
  dsimp only
  rw [hfull]
  rfl

theorem load_covers (image : Image) {files : FileStore} (reportedSize : Option ℤ) {path : String}
    {file : String} {statements : List Statement} (hpath : FileName.isHex path = true)
    (hread : files.read path = .ok (Bytes.ofText file)) (hstates : States file.toList statements)
    (hstarts : statements.countP Statement.isStart ≤ 1)
    (hnodup : (addresses (defined 0 statements)).Nodup) (hne : defined 0 statements ≠ []) :
    ∃ payload low high,
      image.load files reportedSize path = .ok { image with source := some path, payload } ∧
      Covers payload (defined 0 statements) low high := by
  obtain ⟨m, hmemory, hm⟩ := ofBytes_of_states hstates hnodup hstarts
  obtain ⟨low, high, hcovers⟩ := covers_payload hm hnodup hne
  have hpayload : m.payload ≠ [] := by
    intro hempty
    have hlength := hcovers.length
    rw [hempty, List.length_nil] at hlength
    omega
  exact ⟨m.payload, low, high, load_hex hpath hread hmemory hpayload reportedSize, hcovers⟩

/-- Pieces that lie side by side, in whatever order, load as the bytes they are cut from. -/
theorem load_pieces (image : Image) {files : FileStore} (reportedSize : Option ℤ) {path : String}
    {file : String} {statements : List Statement} (hpath : FileName.isHex path = true)
    (hread : files.read path = .ok (Bytes.ofText file)) (hstates : States file.toList statements)
    (hstarts : statements.countP Statement.isStart ≤ 1) {bytes : Bytes} {address : ℕ}
    {cut : List Bytes} (hbytes : bytes ≠ []) (hcut : cut.flatten = bytes)
    (hpieces : (pieces 0 statements).Perm (consecutive address cut)) :
    image.load files reportedSize path =
      .ok { image with source := some path, payload := bytes } := by
  have hperm : (defined 0 statements).Perm (placed address bytes) := by
    rw [← hcut, placed_flatten, defined]
    exact hpieces.flatMap_right _
  have hnodup : (addresses (defined 0 statements)).Nodup := by
    rw [addresses, (hperm.map Prod.fst).nodup_iff, ← addresses, addresses_placed]
    exact List.nodup_range'
  have hne : defined 0 statements ≠ [] := by
    intro hempty
    obtain ⟨b, rest, rfl⟩ := List.exists_cons_of_ne_nil hbytes
    rw [hempty, placed] at hperm
    cases hperm.nil_eq
  obtain ⟨payload, low, high, hload, hcovers⟩ :=
    load_covers image reportedSize hpath hread hstates hstarts hnodup hne
  rw [hcovers.eq_of_perm hbytes hperm] at hload
  exact hload

/-- A file loads as the memory that it defines; if it defines a byte string in one piece, it loads
as a binary file that holds the byte string. -/
theorem load_states (image : Image) {files : FileStore} (reportedSize : Option ℤ) {path : String}
    {file : String} {statements : List Statement} (hpath : FileName.isHex path = true)
    (hread : files.read path = .ok (Bytes.ofText file)) (hstates : States file.toList statements)
    (hstarts : statements.countP Statement.isStart ≤ 1) :
    ((addresses (defined 0 statements)).Nodup → defined 0 statements ≠ [] →
      ∃ payload low high,
        image.load files reportedSize path = .ok { image with source := some path, payload } ∧
        Covers payload (defined 0 statements) low high) ∧
    ∀ (bytes : Bytes) (address : ℕ) (cut : List Bytes), bytes ≠ [] → cut.flatten = bytes →
      (pieces 0 statements).Perm (consecutive address cut) →
      image.load files reportedSize path =
        .ok { image with source := some path, payload := bytes } ∧
      ∀ (plainFiles : FileStore) (plainPath : String), FileName.isHex plainPath = false →
        plainFiles.read plainPath = .ok bytes →
        image.load plainFiles none plainPath =
          .ok { image with source := some plainPath, payload := bytes } := by
  constructor
  · exact load_covers image reportedSize hpath hread hstates hstarts
  · intro bytes address cut hbytes hcut hpieces
    exact ⟨load_pieces image reportedSize hpath hread hstates hstarts hbytes hcut hpieces,
      fun plainFiles plainPath hplain hplainRead => load_binary hplain hplainRead hbytes⟩

def fileOf (statements : List Statement) : String := String.ofList (text .crlf statements)

def storeOf (statements : List Statement) : FileStore :=
  { nodes := [(["a.hex"], .file (Bytes.ofText (fileOf statements)))] }

theorem read_storeOf (statements : List Statement) :
    (storeOf statements).read "a.hex" = .ok (Bytes.ofText (fileOf statements)) := by
  have hcomponents : FileName.components "a.hex" = ["a.hex"] := by decide +kernel
  have hstart : FileStore.start "a.hex" = [] := by decide +kernel
  have hshort : ¬ FileStore.pathLimit < "a.hex".utf8ByteSize := by decide +kernel
  have hstep : FileStore.stepInto [] "a.hex" = .ok ["a.hex"] := by decide +kernel
  have hresolve : (storeOf statements).resolve "a.hex" = .ok ["a.hex"] := by
    rw [FileStore.resolve, if_neg (by decide), if_neg hshort, hcomponents, hstart, FileStore.walk,
      FileStore.node?, if_pos (Or.inl rfl), hstep]
    rfl
  exact FileStore.read_eq_ok.mpr ⟨by decide +kernel, ["a.hex"], hresolve, rfl⟩

theorem states_fileOf (statements : List Statement) :
    States (fileOf statements).toList statements := by
  rw [fileOf, String.toList_ofList]
  exact states_text .crlf statements

def scattered : List Statement :=
  [.linearBase 0x0800, .data 4 [0xdd] (by decide), .data 0 [0xaa, 0xbb] (by decide)]

def shuffled : List Statement :=
  [.linearBase 0x0800, .data 2 [0xcc] (by decide), .data 0 [0xaa, 0xbb] (by decide)]

theorem load_scattered_shuffled :
    FileName.isHex "a.hex" = true ∧
    (∀ statements ∈ [scattered, shuffled],
      (storeOf statements).read "a.hex" = .ok (Bytes.ofText (fileOf statements)) ∧
      States (fileOf statements).toList statements ∧
      statements.countP Statement.isStart ≤ 1) ∧
    (∃ payload low high,
      Image.load { built := ⟨2024, 1, 2, 3, 4, 5⟩ } (storeOf scattered) none "a.hex" =
        .ok { built := ⟨2024, 1, 2, 3, 4, 5⟩, source := some "a.hex", payload } ∧
      Covers payload (defined 0 scattered) low high) ∧
    Image.load { built := ⟨2024, 1, 2, 3, 4, 5⟩ } (storeOf shuffled) none "a.hex" =
      .ok { built := ⟨2024, 1, 2, 3, 4, 5⟩, source := some "a.hex",
            payload := [0xaa, 0xbb, 0xcc] } := by
  have hpath : FileName.isHex "a.hex" = true := by decide
  have hscattered : scattered.countP Statement.isStart ≤ 1 := by decide
  have hshuffled : shuffled.countP Statement.isStart ≤ 1 := by decide
  have hpieces : (pieces 0 shuffled).Perm (consecutive 0x08000000 [[0xaa, 0xbb], [0xcc]]) := by
    decide
  refine ⟨hpath, ?_, ?_, ?_⟩
  · intro statements hmem
    refine ⟨read_storeOf statements, states_fileOf statements, ?_⟩
    rcases List.mem_cons.mp hmem with rfl | hmem
    · exact hscattered
    · rw [List.mem_singleton.mp hmem]
      exact hshuffled
  · exact (load_states _ none hpath (read_storeOf scattered) (states_fileOf scattered)
      hscattered).1 (by decide) (by decide)
  · exact ((load_states _ none hpath (read_storeOf shuffled) (states_fileOf shuffled)
      hshuffled).2 _ _ _ (by decide) rfl hpieces).1

end BootImage.HexFile
