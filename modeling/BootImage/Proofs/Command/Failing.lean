import BootImage.Proofs.Command.Generating

/-! Generations that fail. Until the image is rendered no file is touched. After that two files are
written, one after the other and each in place. So a failed generation leaves the files as they
were, but for these: the image may be in its file in part, and it stays there as a whole when its
signature cannot be kept. -/

namespace BootImage

theorem Bytes.length_ofText (text : String) : (ofText text).length = text.utf8ByteSize := by
  rw [ofText, Array.length_toList, ByteArray.size_data, String.toUTF8_eq_toByteArray,
    String.size_toByteArray]

theorem Listing.five_le_size_entries (ws : List UInt32) :
    5 * ws.length ≤ (String.join (ws.map fun w => vhdlEntry w ++ ",\n")).utf8ByteSize := by
  have hentry (w : UInt32) : 5 ≤ (vhdlEntry w ++ ",\n").utf8ByteSize := by
    have hopening : "x\"".utf8ByteSize = 2 := by decide +kernel
    have hend : "\"".utf8ByteSize = 1 := by decide +kernel
    have hcomma : ",\n".utf8ByteSize = 2 := by decide +kernel
    simp only [vhdlEntry, String.utf8ByteSize_append, hopening, hend, hcomma]
    omega
  induction ws with
  | nil => exact Nat.zero_le _
  | cons w rest ih =>
    have hfirst := hentry w
    rw [List.map_cons, String.join_cons, String.utf8ByteSize_append, List.length_cons]
    omega

theorem Listing.le_size_secureBoot (signature : List UInt32) (codeWords : ℕ) :
    59 + 5 * signature.length ≤ (vhdlSecureBoot signature codeWords).utf8ByteSize := by
  have hopening :
      "constant bootloader_init_secure_boot_info_c : mem32_t := (\n".utf8ByteSize = 59 := by
    decide +kernel
  have hentries := Nat.add_le_add_left (five_le_size_entries signature) 59
  delta vhdlSecureBoot
  simp only [String.utf8ByteSize_append, hopening]
  exact Nat.le_add_right_of_le (Nat.le_add_right_of_le (Nat.le_add_right_of_le
    (Nat.le_add_right_of_le hentries)))

theorem Image.length_encode_le_bootloader (image : Image) {signature : Bytes}
    (h : signature.length = 256) :
    (Base64.encode signature).length ≤ (Bytes.ofText (image.bootloader signature)).length := by
  have hencode := Base64.length_encode_le signature
  have htable := Listing.le_size_secureBoot (Word.split signature) image.words.length
  rw [Listing.length_split_signature h] at htable
  rw [Bytes.length_ofText, bootloader, Listing.vhdlBootloader, String.utf8ByteSize_append,
    String.utf8ByteSize_append]
  omega

theorem Image.named_of_load {image loaded : Image} {files : FileStore} {reportedSize : Option ℤ}
    {path : String} (h : image.load files reportedSize path = .ok loaded) :
    loaded.project = image.project ∧ loaded.source = some path := by
  rw [load] at h
  cases hpayload : readPayload files reportedSize path with
  | error cause =>
    rw [hpayload] at h
    cases h
  | ok payload =>
    rw [hpayload] at h
    cases h
    exact ⟨rfl, rfl⟩

theorem Image.output_of_createAs {image created : Image} {format : Format} {reply : ProgramReply}
    {signer : Option Signer} {fixed : Option Bytes} {consulted : List Consultation}
    (h : image.createAs reply format signer fixed = (.ok created, consulted)) :
    ∃ signature output, { image with signature }.render format = some output ∧
      created.output = some output := by
  by_cases hsigned : format = .bldVhd
  · subst hsigned
    obtain ⟨signature, _, rfl⟩ := createAs_bldVhd_eq_ok.mp h
    exact ⟨some signature, _, rfl, rfl⟩
  · rw [createAs_unsigned hsigned] at h
    obtain ⟨output, hrender, rfl⟩ := emit_eq_ok (Prod.ext_iff.mp h).1
    exact ⟨image.signature, output, hrender, rfl⟩

namespace Command

variable {host : Host} {options : GenerateOptions}

/-- What an image that has been rendered comes from. -/
structure Rendered (host : Host) (files : FileStore) (options : GenerateOptions)
    (created : Image) : Prop where
  origin : ∃ image signer fixed consulted,
    ({ project := options.project, built := host.clock } : Image).load files none options.infile =
      .ok image ∧
    image.createAs host.program options.format signer fixed = (.ok created, consulted)
  kept : options.signatureOut ≠ none → options.format.isSigned = true

theorem rendered_of_ends {trace after : Trace} {created : Image}
    (h : Ends (renderImage host options) trace created after) :
    Rendered host trace.files options created ∧ after.files = trace.files := by
  refine ⟨?_, (prepares_renderImage host options).keeps.of_ends h⟩
  simp only [renderImage, ends_bind, ends_loadImage, ends_createImage] at h
  obtain ⟨_, between, hrefuse, image, _, ⟨hload, _⟩, source, _, _, consulted, hcreate, _⟩ := h
  unfold refuseSignatureOut at hrefuse
  by_cases hrefused : (options.signatureOut.isSome && !options.format.isSigned) = true
  · rw [if_pos hrefused] at hrefuse
    cases hrefuse
  · rw [if_neg hrefused] at hrefuse
    obtain ⟨_, rfl⟩ := ends_pure.mp hrefuse
    refine ⟨⟨image, source.1, source.2, consulted, hload, hcreate⟩, fun hkept => ?_⟩
    by_contra hunsigned
    apply hrefused
    rw [Option.isSome_iff_ne_none.mpr hkept, Bool.eq_false_iff.mpr hunsigned]
    rfl

/-- The image was rendered and its file opened, but not all of the output is there. -/
structure CutsImage (host : Host) (files : FileStore) (options : GenerateOptions)
    (cause : SaveError) (part : Bytes) (outcome : Outcome) : Prop where
  cut : ∃ created output, Rendered host files options created ∧ created.output = some output ∧
    output.CutShort files options.outfile cause part
  stray : cause = .unencodable →
    ∃ name ∈ options.project.toList ++ [options.infile], files.encodes name = false
  left : files.Rewrites options.outfile part outcome.trace.files
  failure : outcome.failure = some (.save cause)
  exitCode : outcome.exitCode = 1

/-- After the image, the signature is not in its file: it was not opened, or it holds a part. -/
inductive LosesSignature (files : FileStore) (outfile kept : String) (encoded : Bytes)
    (after : FileStore) : Prop where
  | unopened : files.ChangesOnly [outfile] after → LosesSignature files outfile kept encoded after
  | cut {part : Bytes} : FileStore.CutFrom part encoded → after.read kept = .ok part →
    files.ChangesOnly [outfile, kept] after → LosesSignature files outfile kept encoded after

/-- The image is in its file, and the signature that was to be kept is not, or not all of it. -/
structure StoresOnlyImage (host : Host) (files : FileStore) (options : GenerateOptions)
    (image : Image) (signature : Bytes) (outcome : Outcome) : Prop where
  signed : options.format = .bldVhd
  loaded : ({ project := options.project, built := host.clock } : Image).load files none
    options.infile = .ok image
  fits : signature.length = 256
  stored : outcome.trace.files.read options.outfile =
    .ok (Bytes.ofText (image.bootloader signature))
  unkept : ∃ kept cause, options.signatureOut = some kept ∧ outcome.failure = some (.file cause) ∧
    LosesSignature files options.outfile kept (Base64.encode signature) outcome.trace.files
  exitCode : outcome.exitCode = 1

theorem losesSignature_of_write {files saved : FileStore} {outfile kept : String}
    {bytes encoded : Bytes} {cause : FileError} (hout : files.write outfile bytes = .ok saved)
    (hkeep : saved.write kept encoded = .error cause) :
    LosesSignature files outfile kept encoded (saved.afterWrite kept encoded) := by
  have hsaved := FileStore.changesOnly_of_write hout
  rcases FileStore.afterWrite_of_write_error hkeep with ⟨_, hsame⟩ | ⟨_, part, hcut, hpart⟩
  · rw [hsame]
    exact .unopened hsaved
  · exact .cut hcut hpart.content (hsaved.trans hpart.others)

theorem stops_storeImage {trace after : Trace} {stop : Stop} {created : Image} {output : Output}
    (houtput : created.output = some output)
    (h : Stops (storeImage options created) trace stop after) :
    after.files = trace.files ∨
    (∃ cause part, output.CutShort trace.files options.outfile cause part ∧
      trace.files.Rewrites options.outfile part after.files ∧ stop = .failure (.save cause)) ∨
    ∃ kept saved cause, options.signatureOut = some kept ∧
      created.save trace.files options.outfile = (.ok (), saved) ∧
      saved.write kept (Base64.encode (created.signature.getD [])) = .error cause ∧
      after.files = saved.afterWrite kept (Base64.encode (created.signature.getD [])) ∧
      stop = .failure (.file cause) := by
  rw [storeImage, stops_bind] at h
  rcases h with hsave | ⟨_, between, hsave, hkeep⟩
  · obtain ⟨cause, files, hfailed, rfl, rfl⟩ := stops_saveImage.mp hsave
    cases hempty : trace.files.write options.outfile [] with
    | error fault =>
      rw [Image.save_of_unopened hempty] at hfailed
      cases hfailed
      exact Or.inl rfl
    | ok emptied =>
      rcases Image.save_of_opened houtput ⟨emptied, hempty⟩ with
        ⟨_, _, _, _, hsaved⟩ | ⟨cut, part, left, hcut, hpart, hsaved⟩
      · rw [hsaved] at hfailed
        cases hfailed
      · rw [hsaved] at hfailed
        cases hfailed
        exact Or.inr (Or.inl ⟨cause, part, hcut, hpart, rfl⟩)
  · obtain ⟨saved, hsaved, rfl⟩ := ends_saveImage.mp hsave
    unfold keepSignature at hkeep
    cases hkept : options.signatureOut with
    | none =>
      rw [hkept] at hkeep
      cases hkeep
    | some kept =>
      rw [hkept] at hkeep
      obtain ⟨cause, hfailed, rfl, rfl⟩ := stops_writeFile.mp hkeep
      exact Or.inr (Or.inr ⟨kept, saved, cause, rfl, hsaved, hfailed, rfl, rfl⟩)

theorem stops_generate {trace after : Trace} {stop : Stop} (usage path : String)
    (h : Stops (generate host options) trace stop after) :
    after.files = trace.files ∨
    (∃ cause part, CutsImage host trace.files options cause part
      (conclude usage path (.error stop, after))) ∨
    ∃ image signature, StoresOnlyImage host trace.files options image signature
      (conclude usage path (.error stop, after)) := by
  rw [generate_eq, stops_bind] at h
  rcases h with hrender | ⟨created, between, hrender, hstore⟩
  · exact Or.inl ((prepares_renderImage host options).keeps.of_stops hrender)
  obtain ⟨hrendered, hfiles⟩ := rendered_of_ends hrender
  obtain ⟨image, signer, fixed, consulted, hload, hcreate⟩ := hrendered.origin
  obtain ⟨_, output, hrendering, houtput⟩ := Image.output_of_createAs hcreate
  rw [← hfiles]
  rcases stops_storeImage houtput hstore with
    hsame | ⟨cause, part, hcut, hpart, rfl⟩ |
      ⟨kept, saved, cause, hkept, hsave, hfailed, hafter, rfl⟩
  · exact Or.inl hsame
  · right; left
    rw [hfiles] at hcut hpart ⊢
    refine ⟨cause, part, ⟨created, output, hrendered, houtput, hcut⟩, ?_, hpart, rfl, rfl⟩
    rintro rfl
    cases hcut with
    | unencodable hnone =>
      obtain ⟨hproject, hsource⟩ := Image.named_of_load hload
      obtain ⟨_, name, hname, hstray⟩ := (Image.bytes?_eq_none_iff hrendering).mp hnone
      rw [hproject, hsource] at hname
      exact ⟨name, hname, hstray⟩
  · right; right
    have hformat : options.format = .bldVhd :=
      eq_of_beq (hrendered.kept (by rw [hkept]; exact Option.some_ne_none kept))
    rw [hformat] at hcreate
    obtain ⟨signature, hsignature, rfl⟩ := Image.createAs_bldVhd_eq_ok.mp hcreate
    have hlength := Image.length_of_signatureFor (congrArg Prod.fst hsignature)
    have hwrite := (Image.save_signedAs.mp hsave).written
    have hstored := FileStore.read_afterWrite hwrite hfailed
      (image.length_encode_le_bootloader hlength)
    have hloses := losesSignature_of_write hwrite hfailed
    rw [hfiles] at hloses ⊢
    refine ⟨image, signature, hformat, hload, hlength, ?_, ⟨kept, cause, hkept, rfl, ?_⟩, rfl⟩
    · rw [← hstored, ← hafter]
      rfl
    · rw [← hafter] at hloses
      exact hloses

theorem typed_of_generate {typed : String} (h : CommandName.ofName? typed = some .generate) :
    typed = "generate" ∨ typed = "gen" := by
  rw [CommandName.ofName?] at h
  cases hfind : CommandName.all.find? fun command => command.name == typed with
  | some command =>
    rw [hfind] at h
    cases h
    have hnamed := List.find?_some hfind
    exact Or.inl (eq_of_beq hnamed).symm
  | none =>
    rw [hfind, CommandName.aliases] at h
    by_cases halias : typed = "gen"
    · exact Or.inr halias
    · have hother : (typed == "gen") = false := beq_eq_false_iff_ne.mpr halias
      simp only [Option.orElse_eq_orElse, Option.orElse_eq_or, Option.none_or, List.lookup_cons,
        hother, List.lookup_nil] at h
      cases h

theorem isOperand_of_generate {typed : String}
    (h : CommandName.ofName? typed = some .generate) : IsOperand typed := by
  rcases typed_of_generate h with rfl | rfl
  · exact isOperand_of_head? (by decide)
  · exact isOperand_of_head? (by decide)

variable {files : FileStore} {typed : String} {arguments : List String}

theorem runCommand_generate (host : Host) (trace : Trace) (typed : String)
    (arguments : List String) :
    (∃ message, (runCommand host .generate typed arguments).run.run trace =
      (.error (.usage message), trace)) ∨
    ((runCommand host .generate typed arguments).run.run trace).1 = .ok () ∨
    ∃ scanned, scan CommandName.generate.spec.options true none {} arguments = .ok scanned ∧
      (runCommand host .generate typed arguments).run.run trace =
        (generate host (generateOptions scanned)).run.run trace := by
  cases hscan : scan CommandName.generate.spec.options true none {} arguments with
  | error e =>
    left
    rw [runCommand, hscan]
    exact ⟨_, rfl⟩
  | ok scanned =>
    by_cases hhelp : scanned.isGiven "help" = true
    · right; left
      rw [runCommand, hscan, run_bind, run_orStop_ok]
      simp only [flag, hhelp, if_true, run_print]
    · cases hcheck : scanned.check CommandName.generate.spec with
      | error e =>
        left
        rw [runCommand, hscan, run_bind, run_orStop_ok]
        simp only [flag, hhelp, Bool.false_eq_true, if_false, run_bind, hcheck, run_orStop_error]
        exact ⟨_, rfl⟩
      | ok _ =>
        right; right
        exact ⟨scanned, rfl,
          runCommand_of_scan hscan (Bool.eq_false_iff.mpr hhelp) hcheck host typed trace⟩

/-- Two executables and a signature, and no directory. One of the files has no room for more than
two bytes. -/
def signedFiles : FileStore where
  nodes := [(["a.bin"], .file [1, 0, 0, 0]), (["b.bin"], .file [2, 0, 0, 0]),
    (["a.sig"], .file (Base64.encode (Bytes.zeros 256)))]
  limits := [(["b.bin"], ⟨2, ⟨28, "No space left on device", none⟩⟩)]

def signedHost : Host where
  clock := ⟨2024, 1, 2, 3, 4, 5⟩

def unkeptSignature : Outcome :=
  run signedHost signedFiles
    ["generate", "-f", "bld_vhd", "--fix-sig", "a.sig", "--sig-out", "d/x.sig", "a.bin", "a.vhd"]

def cutImage : Outcome :=
  run signedHost signedFiles ["generate", "-f", "raw_bin", "a.bin", "b.bin"]

/-- The project has a byte that is no text, and a letter stands for it. -/
def strayOptions : GenerateOptions where
  format := .appVhd
  infile := "a.bin"
  outfile := "b.bin"
  project := some "ÿ"

def strayImage : Outcome :=
  run signedHost { signedFiles with strays := ['ÿ'] }
    ["generate", "-f", "app_vhd", "a.bin", "b.bin", "ÿ"]

theorem strayImage_eq :
    strayImage.exitCode = 1 ∧ strayImage.trace.files.read "b.bin" = .ok [] := by
  have hasks : AsksFor ["-f", "app_vhd", "a.bin", "b.bin", "ÿ"]
      ⟨[⟨Command.format, "app_vhd"⟩], ["a.bin", "b.bin", "ÿ"]⟩ strayOptions :=
    ⟨by rfl, by rfl, by rfl, by rfl⟩
  let files : FileStore := { signedFiles with strays := ['ÿ'] }
  let loaded : Image :=
    { project := some "ÿ", built := signedHost.clock, source := some "a.bin",
      payload := [1, 0, 0, 0] }
  let text := Listing.vhdlApplication "ÿ/a.bin" loaded.built loaded.payload.length loaded.words
  have hload : ({ project := some "ÿ", built := signedHost.clock } : Image).load files none
      "a.bin" = .ok loaded := by decide +kernel
  have hrender : Ends (renderImage signedHost strayOptions) { files }
      { loaded with output := some (.text text) }
      { files, printed := Bytes.ofText (Image.warning loaded.payload) } := by
    simp only [renderImage, ends_bind, ends_loadImage, ends_createImage]
    exact ⟨(), _, ends_pure.mpr ⟨rfl, rfl⟩, loaded, _, ⟨hload, rfl⟩, (none, none), _,
      ends_pure.mpr ⟨rfl, rfl⟩, [], rfl, rfl⟩
  have hbytes : (Output.text text).bytes? files = none := by
    rw [Output.bytes?, Listing.encodes_vhdlApplication]
    decide +kernel
  have hopen : ∃ emptied, files.write "b.bin" [] = .ok emptied :=
    ⟨files.put ["b.bin"] (.file []), by decide +kernel⟩
  have houtput : ({ loaded with output := some (.text text) } : Image).output = some (.text text) :=
    rfl
  rcases Image.save_of_opened houtput hopen with
    ⟨_, _, hsome, _⟩ | ⟨cause, part, after, hcut, hpart, hsave⟩
  · cases hbytes.symm.trans hsome
  · rw [strayImage, run_of_stops hasks (stops_of_save hrender hsave)]
    cases hcut with
    | unencodable _ => exact ⟨rfl, hpart.content⟩
    | noRoom hsome => cases hbytes.symm.trans hsome

end Command

end BootImage
