import BootImage.Command.Run
import BootImage.Proofs.Command.Generating
import BootImage.Proofs.Digest.Agreement
import BootImage.Proofs.HexFile.Reading
import BootImage.Proofs.Image.Lifetime
import BootImage.Proofs.Listing.Initialization
import BootImage.Proofs.Text.Decoding

/-! Digests from the command line. Hexadecimal digits, eight words and plain bytes all decode to the
digest of the payload, on standard output and in a file; the words, packed the other way round, are
the message that signs a bootloader. Standard output has one line more when the payload is not whole
words: the warning of the load is printed there, ahead of the digest. -/

namespace BootImage.Command

def line? (bytes : Bytes) : Option (List Char) :=
  (Text.decodeUtf8 bytes).bind fun text =>
    match text.splitOn '\n' with
    | [line, []] => some line
    | _ => none

/-- The words of 32 bits in a line, with a space between them. -/
def printedWords? (bytes : Bytes) : Option (List ℕ) :=
  (line? bytes).bind fun line => (line.splitOn ' ').mapM Listing.word?

/-- The digest that was encoded; words are taken most significant byte first. -/
def decodeDigest? : Encoding → Bytes → Option Bytes
  | .raw, bytes => some bytes
  | .hex, bytes => (line? bytes).bind Text.hexBytes?
  | .words, bytes => (printedWords? bytes).bind fun ns =>
      Bytes.pack? (Bytes.ofNatBE 4) (ns.map Nat.cast)

theorem line?_ofText {line : List Char} (hascii : Text.IsAscii line) (hline : '\n' ∉ line) :
    line? (Bytes.ofText (String.ofList line ++ "\n")) = some line := by
  have hended : Text.IsAscii (line ++ ['\n']) := by
    apply hascii.append
    intro c hc
    rw [List.mem_singleton.mp hc]
    decide
  have htext : String.ofList line ++ "\n" = String.ofList (line ++ ['\n']) :=
    String.ofList_append.symm
  have hdecoded := Text.decodeUtf8_eq_some.mpr (Text.decodePart_ascii hended)
  have hsplit : (line ++ ['\n']).splitOn '\n' = [line, []] := by
    rw [List.splitOn_append_cons_self, List.splitOn_eq_singleton hline, List.splitOn_nil,
      List.singleton_append]
  rw [line?, htext, Text.ofText_ascii hended, hdecoded, Option.bind_some, hsplit]

theorem isAscii_separated (ws : List UInt32) : Text.IsAscii (Listing.separated ' ' ws) := by
  intro c hc
  rcases Listing.mem_intercalate hc with hspace | ⟨line, hline, hmem⟩
  · rw [List.mem_singleton.mp hspace]
    decide
  · obtain ⟨w, _, rfl⟩ := List.mem_map.mp hline
    exact Text.isAscii_hex 8 w.toNat c hmem

variable (payload : Bytes)

theorem decodeDigest?_hex :
    decodeDigest? .hex (encodeDigest .hex payload) = some (Digest.digest payload) := by
  have hspells := HexFile.spells_hexPair (Digest.digest payload)
  have hascii : Text.IsAscii ((Digest.digest payload).flatMap Bytes.hexPair) :=
    fun c hc => (hspells.plain c hc).1
  have hline : '\n' ∉ (Digest.digest payload).flatMap Bytes.hexPair :=
    fun hc => (hspells.plain _ hc).2.2 rfl
  rw [decodeDigest?, encodeDigest, Bytes.toHex, line?_ofText hascii hline, Option.bind_some,
    HexFile.hexBytes?_of_spells hspells]

theorem exists_digestWords :
    ∃ ws : List UInt32, ws.length = 8 ∧
      (Digest.words payload).toList = ws.map fun w => (w.toNat : ℤ) := by
  refine ⟨(Digest.Standard.hash (Digest.Standard.ofBytes payload)).words.map UInt32.ofBitVec,
    by simp [Digest.Standard.State.words], ?_⟩
  rw [Digest.words_eq_hash, Digest.toList_registers, List.map_map]
  rfl

variable {payload}

theorem intercalate_digestWords {ws : List UInt32}
    (h : (Digest.words payload).toList = ws.map fun w => (w.toNat : ℤ)) :
    String.intercalate " " ((Digest.words payload).toList.map fun w => Text.hex 8 w.toNat) =
      String.ofList (Listing.separated ' ' ws) := by
  have hline : (String.ofList (Listing.separated ' ' ws)).toList = Listing.separated ' ' ws :=
    String.toList_ofList
  apply String.toList_inj.mp
  rw [h, List.map_map, String.toList_intercalate, List.map_map, hline]
  rfl

variable (payload)

theorem printedWords?_encodeDigest :
    ∃ ns, printedWords? (encodeDigest .words payload) = some ns ∧ ns.length = 8 ∧
      ns.map Nat.cast = (Digest.words payload).toList := by
  obtain ⟨ws, hlen, hwords⟩ := exists_digestWords payload
  have hne : ws ≠ [] := by
    rintro rfl
    cases hlen
  have hline : '\n' ∉ Listing.separated ' ' ws :=
    Listing.not_mem_separated (by decide) (by decide) ws
  refine ⟨ws.map UInt32.toNat, ?_, ?_, ?_⟩
  · rw [printedWords?, encodeDigest, intercalate_digestWords hwords,
      line?_ofText (isAscii_separated ws) hline, Option.bind_some,
      Listing.splitOn_separated (by decide) hne]
    exact Listing.mapM_map_of_inverse Listing.word?_digits ws
  · rw [List.length_map, hlen]
  · rw [hwords, List.map_map]
    rfl

theorem decodeDigest?_encodeDigest (encoding : Encoding) :
    decodeDigest? encoding (encodeDigest encoding payload) = some (Digest.digest payload) := by
  cases encoding with
  | hex => exact decodeDigest?_hex payload
  | raw => rfl
  | words =>
    obtain ⟨ns, hprinted, _, hwords⟩ := printedWords?_encodeDigest payload
    rw [decodeDigest?, hprinted, Option.bind_some, hwords, Digest.pack?_words]
    rfl

/-- Packed least significant byte first, the printed words are what gets signed. -/
theorem pack?_printedWords :
    ∃ ns, printedWords? (encodeDigest .words payload) = some ns ∧ ns.length = 8 ∧
      Bytes.pack? (Bytes.ofNatLE 4) (ns.map Nat.cast) = some (Digest.wordMessage payload) := by
  obtain ⟨ns, hprinted, hlen, hwords⟩ := printedWords?_encodeDigest payload
  refine ⟨ns, hprinted, hlen, ?_⟩
  rw [hwords, Digest.pack?_words]
  rfl

end BootImage.Command

namespace BootImage

theorem Session.consulted_after_load {s : Session} {path : String} {payload : Bytes}
    (h : Image.readPayload s.files none path = .ok payload) (loading rendering : ProgramReply)
    (signer : Signer) :
    messages ((s.next loading (.load path none)).1.next rendering
      (.create "bld_vhd" (some signer) none)).2.consulted = [Digest.wordMessage payload] := by
  have hload : s.image.load s.files none path =
      .ok { s.image with source := some path, payload } := by
    rw [Image.load, h]
    rfl
  rw [consulted_bldVhd, Image.signatureFor_consulted, next_load, hload]
  rfl

namespace Command

variable {host : Host} {files saved : FileStore} {trace : Trace} {infile path : String}
  {payload : Bytes} {output : Option String} {encoding : Encoding}

theorem ends_loadPayload (h : Image.readPayload trace.files none infile = .ok payload) :
    Ends (loadImage host infile none) trace
      { built := host.clock, source := some infile, payload }
      { trace with printed := trace.printed ++ Bytes.ofText (Image.warning payload) } := by
  refine ends_loadImage.mpr ⟨?_, rfl⟩
  rw [Image.load, h]
  rfl

theorem ends_printDigest_shown (h : Image.readPayload trace.files none infile = .ok payload)
    (hname : output.getD "" = "") :
    Ends (printDigest host infile output encoding) trace ()
      { trace with
        printed := trace.printed ++ Bytes.ofText (Image.warning payload) ++
          encodeDigest encoding payload } := by
  refine ends_bind.mpr ⟨_, _, ends_loadPayload h, ?_⟩
  cases output with
  | none => exact ends_modify.mpr rfl
  | some path =>
    have hempty : path = "" := hname
    dsimp only
    rw [if_pos hempty]
    exact ends_modify.mpr rfl

theorem ends_printDigest_written (h : Image.readPayload trace.files none infile = .ok payload)
    (hname : path ≠ "")
    (hwrite : trace.files.write path (encodeDigest encoding payload) = .ok saved) :
    Ends (printDigest host infile (some path) encoding) trace ()
      { trace with
        files := saved, printed := trace.printed ++ Bytes.ofText (Image.warning payload) } := by
  refine ends_bind.mpr ⟨_, _, ends_loadPayload h, ?_⟩
  dsimp only
  rw [if_neg hname]
  exact ends_writeFile.mpr ⟨saved, hwrite, rfl⟩

def outputOption : OptionSpec := { short := some 'o', long := "output" }

def digestArguments (encoding : Option Encoding) (output : Option String) : List String :=
  (encoding.toList.flatMap fun e => ["-e", e.name]) ++
    output.toList.flatMap fun path => ["-o", path]

def digestScan (encoding : Option Encoding) (output : Option String) (infile : String) :
    Scanned where
  settings := (encoding.toList.map fun e => ⟨Command.encoding, e.name⟩) ++
    output.toList.map fun path => ⟨outputOption, path⟩
  operands := [infile]

/-- The arguments are read as this request for a digest. -/
structure AsksForDigest (arguments : List String) (scanned : Scanned) (infile : String)
    (output : Option String) (encoding : Encoding) : Prop where
  found : scan CommandName.digest.spec.options true none {} arguments = .ok scanned
  unhelped : scanned.isGiven "help" = false
  valid : scanned.check CommandName.digest.spec = .ok ()
  infile : (scanned.operand? 0).getD "" = infile
  output : scanned.value? "output" = output
  encoding : ((scanned.value? "encoding").bind Encoding.ofName?).getD .hex = encoding

theorem scan_encoding (encoding : Option Encoding) (seen : Scanned) (rest : List String) :
    scan CommandName.digest.spec.options true none seen
        ((encoding.toList.flatMap fun e => ["-e", e.name]) ++ rest) =
      scan CommandName.digest.spec.options true none
        { seen with
          settings := seen.settings ++ encoding.toList.map fun e => ⟨Command.encoding, e.name⟩ }
        rest := by
  cases encoding with
  | none => simp
  | some e => exact scan_value rfl (by decide) rfl e.name rest

theorem scan_output (output : Option String) (seen : Scanned) (rest : List String) :
    scan CommandName.digest.spec.options true none seen
        ((output.toList.flatMap fun path => ["-o", path]) ++ rest) =
      scan CommandName.digest.spec.options true none
        { seen with
          settings := seen.settings ++ output.toList.map fun path => ⟨outputOption, path⟩ }
        rest := by
  cases output with
  | none => simp
  | some path => exact scan_value rfl (by decide) rfl path rest

theorem asksForDigest {written : List String} (h : Spells written [infile])
    (encoding : Option Encoding) (output : Option String) :
    AsksForDigest (digestArguments encoding output ++ written)
      (digestScan encoding output infile) infile output (encoding.getD .hex) where
  found := by
    rw [digestArguments, List.append_assoc, scan_encoding, scan_output, scan_operands h]
    rfl
  unhelped := by cases encoding <;> cases output <;> rfl
  valid := by rcases encoding with _ | _ | _ | _ <;> cases output <;> rfl
  infile := rfl
  output := by cases encoding <;> cases output <;> rfl
  encoding := by rcases encoding with _ | _ | _ | _ <;> cases output <;> rfl

variable {arguments : List String} {scanned : Scanned}

theorem run_digest_of_ends (h : AsksForDigest arguments scanned infile output encoding)
    {after : Trace} (hends : Ends (printDigest host infile output encoding) { files } () after) :
    run host files ("digest" :: arguments) = { exitCode := 0, trace := after } := by
  have hoperand : IsOperand "digest" := isOperand_of_head? (by decide)
  have hname : CommandName.ofName? "digest" = some .digest := by decide
  rw [run_named hoperand hname, runCommand_of_scan h.found h.unhelped h.valid, perform, h.infile,
    h.output, h.encoding, hends, conclude]

/-- Runs that ask for the digest of a payload in a file. They show the same bytes on standard output
and in a file, but for a line that may come first on standard output; the bytes decode to the
digest, and as words also to what a signer of the file is given. -/
structure ShowsDigest (host : Host) (files : FileStore) (infile : String) (payload lead : Bytes)
    (shown : Encoding → Bytes) : Prop where
  printed : ∀ arguments scanned output encoding,
    AsksForDigest arguments scanned infile output encoding → output.getD "" = "" →
    run host files ("digest" :: arguments) =
      { exitCode := 0, trace := { files, printed := lead ++ shown encoding } }
  written : ∀ arguments scanned path encoding saved,
    AsksForDigest arguments scanned infile (some path) encoding → path ≠ "" →
    files.write path (shown encoding) = .ok saved →
    run host files ("digest" :: arguments) =
      { exitCode := 0, trace := { files := saved, printed := lead } } ∧
    saved.read path = .ok (shown encoding)
  decoded : ∀ encoding, decodeDigest? encoding (shown encoding) = some (Digest.digest payload)
  signed : ∃ ns message, printedWords? (shown .words) = some ns ∧ ns.length = 8 ∧
    Bytes.pack? (Bytes.ofNatLE 4) (ns.map Nat.cast) = some message ∧
    ∀ (s : Session) (loading rendering : ProgramReply) (signer : Signer), s.files = files →
      messages ((s.next loading (.load infile none)).1.next rendering
        (.create "bld_vhd" (some signer) none)).2.consulted = [message]
  aligned : payload.length % 4 = 0 → lead = []
  misaligned : payload.length % 4 ≠ 0 → lead = Bytes.ofText Image.misalignedWarning

/-- All encodings, in all places, are those of one digest. -/
theorem digests_agree (h : Image.readPayload files none infile = .ok payload) (host : Host) :
    ShowsDigest host files infile payload (Bytes.ofText (Image.warning payload))
      (fun encoding => encodeDigest encoding payload) where
  printed := by
    intro arguments scanned output encoding hasks hname
    exact run_digest_of_ends hasks (ends_printDigest_shown h hname)
  written := by
    intro arguments scanned path encoding saved hasks hname hwrite
    exact ⟨run_digest_of_ends hasks (ends_printDigest_written h hname hwrite),
      FileStore.read_of_write hwrite⟩
  decoded := decodeDigest?_encodeDigest payload
  signed := by
    obtain ⟨ns, hprinted, hlen, hpacked⟩ := pack?_printedWords payload
    refine ⟨ns, _, hprinted, hlen, hpacked, ?_⟩
    intro s loading rendering signer hfiles
    rw [← hfiles] at h
    exact Session.consulted_after_load h loading rendering signer
  aligned := by
    intro haligned
    rw [Image.warning, Word.size, if_pos haligned]
    rfl
  misaligned := by
    intro hmisaligned
    rw [Image.warning, Word.size, if_neg hmisaligned]

def digestFiles : FileStore where
  nodes := [(["a.bin"], .file [1, 0, 0, 0]), (["odd.bin"], .file [1])]

def digestHost : Host where
  clock := ⟨2024, 1, 2, 3, 4, 5⟩

theorem word_digest_shown :
    Image.readPayload digestFiles none "a.bin" = .ok [1, 0, 0, 0] ∧
    ShowsDigest digestHost digestFiles "a.bin" [1, 0, 0, 0] []
      (fun encoding => encodeDigest encoding [1, 0, 0, 0]) ∧
    run digestHost digestFiles ["digest", "-e", "words", "a.bin"] =
      { exitCode := 0
        trace := { files := digestFiles, printed := encodeDigest .words [1, 0, 0, 0] } } := by
  have hread : Image.readPayload digestFiles none "a.bin" = .ok [1, 0, 0, 0] := by decide +kernel
  have hshows := digests_agree hread digestHost
  rw [hshows.aligned (by decide)] at hshows
  have hspells : Spells ["a.bin"] ["a.bin"] := by
    refine Or.inr ⟨rfl, fun operand hmem => isOperand_of_head? ?_⟩
    rw [List.mem_singleton.mp hmem]
    decide
  have hasks := asksForDigest hspells (some .words) none
  exact ⟨hread, hshows, hshows.printed _ _ _ _ hasks rfl⟩

theorem odd_digest_follows_warning :
    (run digestHost digestFiles ["digest", "-o", "d", "odd.bin"]).trace.files.read "d" =
      .ok (encodeDigest .hex [1]) ∧
    (run digestHost digestFiles ["digest", "odd.bin"]).trace.printed ≠ encodeDigest .hex [1] ∧
    decodeDigest? .hex (run digestHost digestFiles ["digest", "odd.bin"]).trace.printed = none := by
  exact ⟨by decide +kernel, by decide +kernel, by decide +kernel⟩

end Command

end BootImage
