import BootImage.Proofs.Command.Generating
import BootImage.Proofs.Signer

/-! Bootloaders with a signature from a file. A bootloader that was signed once can be made again
from its kept signature: at the same reading of the clock the two files are the same, and the second
run asks for no passphrase, reads no key and starts no program. When a file does not decode, or the
image cannot be written as a whole, the run neither uses nor refuses the signature. -/

namespace BootImage

namespace FileStore

variable {files saved last left : FileStore} {infile key kept outfile copy : String}
  {content text encoded : Bytes}

/-- Two files are written and a third may change after that. What was read before is read again,
what was written is read, and a path that could be opened at first takes what it has room for. -/
theorem stays_after_writes
    (happart : [infile, key, kept, outfile, copy].Pairwise fun p q =>
      files.resolve p ≠ files.resolve q)
    (hcopy : ∃ after, files.write copy [] = .ok after)
    (hread : files.read infile = .ok content) (hout : files.write outfile text = .ok saved)
    (hkeep : saved.write kept encoded = .ok last) (hleft : last.ChangesOnly [key] left) :
    left.read infile = .ok content ∧ left.read kept = .ok encoded ∧
      left.read outfile = .ok text ∧
      ∀ bytes, left.HasRoom copy bytes →
        ∃ final, left.write copy bytes = .ok final ∧ final.read outfile = .ok text := by
  simp only [List.pairwise_cons, List.mem_cons, List.not_mem_nil, or_false, forall_eq_or_imp,
    forall_eq] at happart
  obtain ⟨⟨hinkey, hinkept, hinout, -⟩, ⟨hkeykept, hkeyout, hkeycopy⟩, ⟨hkeptout, hkeptcopy⟩,
    houtcopy, -⟩ := happart
  have hsaved := changesOnly_of_write hout
  have hkept := changesOnly_of_write hkeep
  have hlast := hsaved.trans hkept
  have hall := hlast.trans hleft
  obtain ⟨outplace, houtplace⟩ := resolve_of_write hout
  obtain ⟨keptplace, hkeptplace⟩ := resolve_of_write hkeep
  have houtfile : left.read outfile = .ok text := by
    have hnotkept := hsaved.resolve_ne houtplace hkeptout.symm
    have hnotkey := hsaved.resolve_ne houtplace hkeyout.symm
    apply (hkept.trans hleft).read (read_of_write hout)
    simp [hnotkept, hnotkey]
  refine ⟨hall.read hread ?_, hleft.read (read_of_write hkeep) ?_, houtfile, fun bytes hroom => ?_⟩
  · simp [hinkey, hinkept, hinout]
  · simpa using hlast.resolve_ne (hsaved.resolve_iff.mp hkeptplace) hkeykept.symm
  · obtain ⟨place, hplace⟩ := opens_iff.mp hcopy
    have hagain : left.target copy = .ok place := by
      apply hall.target hplace
      simp [hkeycopy.symm, hkeptcopy.symm, houtcopy.symm]
    obtain ⟨final, hfinal⟩ := write_of_opens ⟨place, hagain⟩ hroom
    refine ⟨final, hfinal, (changesOnly_of_write hfinal).read houtfile ?_⟩
    simpa using hall.resolve_ne houtplace houtcopy

end FileStore

namespace Command

/-- What a run leaves that wrote a file a second time, and asked and consulted nobody for it. -/
structure CopiesUnasked (outcome : Outcome) (original copy : String) (content : Bytes) : Prop where
  exitCode : outcome.exitCode = 0
  original : outcome.trace.files.read original = .ok content
  copy : outcome.trace.files.read copy = .ok content
  prompts : outcome.trace.prompts = []
  consulted : outcome.trace.consulted = []

/-- When the paths lead to different places and the copy can be written, the kept signature gives
the same image again, on any host with the same clock and whatever becomes of the key. -/
theorem kept_signature_gives_same_image {host : Host} {files : FileStore}
    {infile key kept outfile copy : String} {useProgram : Bool} {project : Option String}
    {written rewritten : List String} {first : Outcome}
    (happart : [infile, keyFileOf (some key), kept, outfile, copy].Pairwise fun p q =>
      files.resolve p ≠ files.resolve q)
    (hcopy : ∃ after, files.write copy [] = .ok after)
    (hwritten : Spells written (generationOperands infile outfile project))
    (hrewritten : Spells rewritten (generationOperands infile copy project))
    (hfirst : run host files
      ("generate" :: (signingArguments key useProgram kept ++ written)) = first)
    (hsucceeds : first.exitCode = 0) :
    ∃ image, first.trace.files.read outfile = .ok image ∧
      ∀ (later : Host) (left : FileStore), later.clock = host.clock →
        first.trace.files.ChangesOnly [keyFileOf (some key)] left → left.HasRoom copy image →
        CopiesUnasked (run later left ("generate" :: (fixedArguments kept ++ rewritten)))
          outfile copy image := by
  subst hfirst
  have hasks : AsksFor (signingArguments key useProgram kept ++ written) _
      (signingOptions key useProgram kept infile outfile project) := asksFor_signing hwritten
  obtain ⟨after, hends⟩ := (exitCode_generate hasks).mp hsucceeds
  obtain ⟨image, signer, prompts, signature, consulted, saved, last, hload, -, hsignature, hout,
    hkeep, hafter⟩ := ends_signing.mp hends
  rw [run_generate_of_ends hasks hends, ← hafter]
  dsimp only
  obtain ⟨content, hread⟩ := Image.read_of_load hload
  obtain ⟨-, -, hlen⟩ := Image.signatureFor_eq_ok.mp (congrArg Prod.fst hsignature)
  obtain ⟨-, -, houtfile, -⟩ := FileStore.stays_after_writes happart hcopy hread hout.written hkeep
    (FileStore.changesOnly_refl last _)
  refine ⟨_, houtfile, fun later left hclock hleft hroom => ?_⟩
  obtain ⟨hinfile, hkept, -, hwrites⟩ :=
    FileStore.stays_after_writes happart hcopy hread hout.written hkeep hleft
  obtain ⟨final, hfinal, horiginal⟩ := hwrites _ hroom
  have hchanges := ((FileStore.changesOnly_of_write hout.written).trans
    (FileStore.changesOnly_of_write hkeep)).trans hleft
  have hencodes : left.encodes (image.bootloader signature) = true := by
    rw [hchanges.encodes, hout.encodes]
  have hreload : ({ project, built := later.clock } : Image).load left none infile = .ok image := by
    rw [hclock, ← hload]
    exact Image.load_congr (hinfile.trans hread.symm) _ _
  have hgiven : SignatureFile.load left kept = .ok signature := by
    rw [SignatureFile.load, hkept]
    dsimp only
    rw [Base64.decode_encode]
  have hagain : Ends (generate later (fixedOptions kept infile copy project)) { files := left } ()
      { files := final, printed := Bytes.ofText (Image.warning image.payload) } := by
    refine ends_fixed.mpr ⟨image, signature, final, hreload, hgiven, hlen, ⟨hencodes, hfinal⟩, ?_⟩
    rw [List.nil_append]
  rw [run_generate_of_ends (asksFor_fixed hrewritten) hagain]
  exact ⟨rfl, horiginal, FileStore.read_of_write hfinal, rfl, rfl⟩

def programHost : Host where
  clock := ⟨2024, 1, 2, 3, 4, 5⟩
  program := .ends (some (.file (Bytes.zeros 256))) 0 [] []

def keyedFiles : FileStore where
  nodes := [(["a.bin"], .file [1, 0, 0, 0]), (["k.pem"], .file [])]

def programSigned : Outcome :=
  run programHost keyedFiles
    ("generate" :: (signingArguments "k.pem" true "a.sig" ++ ["a.bin", "a.vhd", "demo"]))

theorem program_signature_gives_same_image :
    programSigned.exitCode = 0 ∧
    ∃ image, programSigned.trace.files.read "a.vhd" = .ok image ∧
      CopiesUnasked (run { clock := programHost.clock } programSigned.trace.files
        ("generate" :: (fixedArguments "a.sig" ++ ["--", "a.bin", "b.vhd", "demo"])))
        "a.vhd" "b.vhd" image := by
  have hsucceeds : programSigned.exitCode = 0 := by decide +kernel
  have happart : ["a.bin", keyFileOf (some "k.pem"), "a.sig", "a.vhd", "b.vhd"].Pairwise
      fun p q => keyedFiles.resolve p ≠ keyedFiles.resolve q := by decide +kernel
  have hcopy : ∃ after, keyedFiles.write "b.vhd" [] = .ok after :=
    ⟨keyedFiles.put ["b.vhd"] (.file []), by decide +kernel⟩
  have hoperands : ∀ operand ∈ generationOperands "a.bin" "a.vhd" (some "demo"),
      operand.toList.head? ≠ some '-' := by decide
  obtain ⟨image, himage, hagain⟩ := kept_signature_gives_same_image happart hcopy
    (.inr ⟨rfl, fun operand hmem => isOperand_of_head? (hoperands operand hmem)⟩) (.inl rfl) rfl
    hsucceeds
  have hroom : programSigned.trace.files.HasRoom "b.vhd" image :=
    FileStore.hasRoom_of_unlimited (by decide +kernel)
  exact ⟨hsucceeds, image, himage, hagain _ _ rfl (FileStore.changesOnly_refl _ _) hroom⟩

end Command

end BootImage

namespace BootImage.Command

/-- The image was written, and its table holds the signature. -/
structure WritesSigned (outcome : Outcome) (outfile : String) (signature : Bytes) : Prop where
  exitCode : outcome.exitCode = 0
  fits : signature.length = 256
  written : ∃ text, outcome.trace.files.read outfile = .ok (Bytes.ofText text) ∧
    Listing.CarriesSignature text signature

/-- The run ended with a message to its user, and no file was touched. -/
structure RefusesCleanly (files : FileStore) (outcome : Outcome) : Prop where
  told : ∃ message, (outcome.exitCode = 1 ∧ outcome.errorText = s!"Error: {message}\n") ∨
    outcome.exitCode = 2 ∧ ∃ usage path, outcome.errorText = usageText usage path message
  failure : outcome.failure = none
  untouched : outcome.trace.files = files

/-- The run ended with a failure that no message tells of. -/
structure FailsUntold (cause : Failure) (outcome : Outcome) : Prop where
  failure : outcome.failure = some cause
  exitCode : outcome.exitCode = 1
  silent : outcome.errorText = ""

/-- The signature in a file's content is used, or the run is refused. -/
def UsesOrRefuses (files : FileStore) (content : Bytes) (outfile : String) (outcome : Outcome) :
    Prop :=
  (∃ signature, Base64.decode content = .ok signature ∧
    WritesSigned outcome outfile signature) ∨ RefusesCleanly files outcome

variable {host : Host} {trace : Trace} {files : FileStore} {image : Image}
  {infile given outfile : String} {project : Option String} {written : List String}
  {options : GenerateOptions} {content signature : Bytes}

theorem createAs_fixed (image : Image) (reply : ProgramReply) (signature : Bytes) :
    image.createAs reply .bldVhd none (some signature) =
      (if signature.length = 256 then .ok (image.signedAs signature)
        else .error (.signing (.fixedLength signature.length)), []) := by
  by_cases hlen : signature.length = 256
  · simp [Image.createAs_bldVhd, Image.signatureFor, signatureSize, hlen, Except.map,
      Except.mapError]
  · simp [Image.createAs_bldVhd, Image.signatureFor, signatureSize, hlen, Except.map,
      Except.mapError]

theorem run_signatureSource_fixed (hfixed : options.fixedSignature = some given)
    (hkey : options.key = none) (host : Host) (trace : Trace) :
    (signatureSource host options).run.run trace =
      (match SignatureFile.load trace.files given with
        | .error cause => .error (.failure (.signatureFile cause))
        | .ok signature => .ok (none, some signature), trace) := by
  simp only [signatureSource, hfixed, hkey, Option.isSome_none, Bool.false_eq_true, if_false,
    run_bind, run_get]
  cases SignatureFile.load trace.files given with
  | error cause => rfl
  | ok signature => rfl

theorem run_createImage_fixed (host : Host) (image : Image) (signature : Bytes) (trace : Trace) :
    (createImage host image .bldVhd none (some signature)).run.run trace =
      (if signature.length = 256 then .ok (image.signedAs signature)
        else .error (.error (SigningError.fixedLength signature.length).message), trace) := by
  simp only [createImage, createAs_fixed, run_bind, run_modify, List.append_nil]
  by_cases hlen : signature.length = 256
  · simp only [hlen, if_true, run_orStop_ok]
  · simp only [hlen, if_false, run_orStop_error]
    rfl

theorem run_renderImage_fixed (hformat : options.format = .bldVhd)
    (hfixed : options.fixedSignature = some given) (hkey : options.key = none)
    (hload : ({ project := options.project, built := host.clock } : Image).load trace.files none
      options.infile = .ok image) :
    (renderImage host options).run.run trace =
      (match SignatureFile.load trace.files given with
        | .error cause => .error (.failure (.signatureFile cause))
        | .ok signature =>
          if signature.length = 256 then .ok (image.signedAs signature)
          else .error (.error (SigningError.fixedLength signature.length).message),
        { trace with printed := trace.printed ++ Bytes.ofText (Image.warning image.payload) }) := by
  have hsigned : Format.bldVhd.isSigned = true := rfl
  have hloaded : Ends (loadImage host options.infile options.project) trace image _ :=
    ends_loadImage.mpr ⟨hload, rfl⟩
  simp only [Ends] at hloaded
  simp only [renderImage, refuseSignatureOut, sourceIfSigned, hformat, hsigned, Bool.not_true,
    Bool.and_false, Bool.false_eq_true, if_false, if_true, pure_bind]
  rw [run_bind, hloaded]
  dsimp only
  rw [run_bind, run_signatureSource_fixed hfixed hkey]
  cases SignatureFile.load trace.files given with
  | error cause => rfl
  | ok signature => exact run_createImage_fixed host image signature _

theorem not_usesOrRefuses {cause : Failure} {outcome : Outcome} (h : FailsUntold cause outcome) :
    ¬ UsesOrRefuses files content outfile outcome := by
  rintro (⟨_, _, hwrites⟩ | hrefused)
  · cases hwrites.exitCode.symm.trans h.exitCode
  · cases hrefused.failure.symm.trans h.failure

section

variable
  (hload : ({ project, built := host.clock } : Image).load files none infile = .ok image)
  (hgiven : files.read given = .ok content)
  (hwritten : Spells written (generationOperands infile outfile project))

include hload hgiven hwritten

theorem writesSigned_of_fits (hdecode : Base64.decode content = .ok signature)
    (hfits : signature.length = 256)
    (htakes : ∃ saved, files.TakesText outfile (image.bootloader signature) saved) :
    WritesSigned (run host files ("generate" :: (fixedArguments given ++ written))) outfile
      signature := by
  obtain ⟨saved, hsaved⟩ := htakes
  have hsignature : SignatureFile.load files given = .ok signature := by
    rw [SignatureFile.load_of_read hgiven, hdecode, Except.mapError]
  have hends : Ends (generate host (fixedOptions given infile outfile project)) { files } () _ :=
    ends_fixed.mpr ⟨image, signature, saved, hload, hsignature, hfits, hsaved, rfl⟩
  rw [run_generate_of_ends (asksFor_fixed hwritten) hends]
  refine ⟨rfl, hfits, image.bootloader signature, FileStore.read_of_write hsaved.written, ?_⟩
  exact Listing.carriesSignature_bootloader _ _ _ _ hfits

theorem refusesCleanly_of_length (hdecode : Base64.decode content = .ok signature)
    (hlength : signature.length ≠ 256) :
    RefusesCleanly files (run host files ("generate" :: (fixedArguments given ++ written))) := by
  have hrender : (renderImage host (fixedOptions given infile outfile project)).run.run { files } =
      _ := run_renderImage_fixed rfl rfl rfl hload
  simp only [SignatureFile.load_of_read hgiven, hdecode, Except.mapError, hlength, if_false]
    at hrender
  rw [run_of_stops (asksFor_fixed hwritten) (stops_of_renderImage hrender)]
  exact ⟨⟨_, Or.inl ⟨rfl, rfl⟩⟩, rfl, rfl⟩

theorem failsUntold_of_undecoded {cause : Base64.Base64Error}
    (hdecode : Base64.decode content = .error cause) :
    FailsUntold (.signatureFile (.base64 cause))
        (run host files ("generate" :: (fixedArguments given ++ written))) ∧
      (run host files ("generate" :: (fixedArguments given ++ written))).trace.files = files := by
  have hrender : (renderImage host (fixedOptions given infile outfile project)).run.run { files } =
      _ := run_renderImage_fixed rfl rfl rfl hload
  simp only [SignatureFile.load_of_read hgiven, hdecode, Except.mapError] at hrender
  rw [run_of_stops (asksFor_fixed hwritten) (stops_of_renderImage hrender)]
  exact ⟨⟨rfl, rfl, rfl⟩, rfl⟩

/-- An image that its file does not take as a whole is left there in part. -/
theorem failsUntold_of_cut (hdecode : Base64.decode content = .ok signature)
    (hfits : signature.length = 256) (hout : ∃ after, files.write outfile [] = .ok after)
    (hcut : ∀ saved, ¬ files.TakesText outfile (image.bootloader signature) saved) :
    ∃ cause part,
      FailsUntold (.save cause)
        (run host files ("generate" :: (fixedArguments given ++ written))) ∧
      (Output.text (image.bootloader signature)).CutShort files outfile cause part ∧
      files.Rewrites outfile part
        (run host files ("generate" :: (fixedArguments given ++ written))).trace.files := by
  have hrender : (renderImage host (fixedOptions given infile outfile project)).run.run { files } =
      _ := run_renderImage_fixed rfl rfl rfl hload
  simp only [SignatureFile.load_of_read hgiven, hdecode, Except.mapError, hfits, if_true]
    at hrender
  have houtput : (image.signedAs signature).output = some (.text (image.bootloader signature)) :=
    rfl
  rcases Image.save_of_opened houtput hout with
    ⟨_, saved, _, _, hsave⟩ | ⟨cause, part, left, hpart, hrewrites, hsave⟩
  · exact absurd (Image.save_signedAs.mp hsave) (hcut saved)
  · rw [run_of_stops (asksFor_fixed hwritten) (stops_of_save hrender hsave)]
    exact ⟨cause, part, ⟨rfl, rfl, rfl⟩, hpart, hrewrites⟩

end

/-- For an executable that loads and a file that can be opened, a signature file is used or refused
where it decodes and the file takes the image. Else the failure is not told as a refusal: one to
decode touches nothing, and one to write leaves a part of the image. -/
theorem fixed_signature_used_or_refused
    (hload : ({ project, built := host.clock } : Image).load files none infile = .ok image)
    (hgiven : files.read given = .ok content)
    (hout : ∃ after, files.write outfile [] = .ok after)
    (hwritten : Spells written (generationOperands infile outfile project)) :
    (UsesOrRefuses files content outfile
        (run host files ("generate" :: (fixedArguments given ++ written))) ↔
      ∃ signature, Base64.decode content = .ok signature ∧
        (signature.length = 256 →
          ∃ saved, files.TakesText outfile (image.bootloader signature) saved)) ∧
    (∀ cause, Base64.decode content = .error cause →
      FailsUntold (.signatureFile (.base64 cause))
        (run host files ("generate" :: (fixedArguments given ++ written))) ∧
      (run host files ("generate" :: (fixedArguments given ++ written))).trace.files = files) ∧
    ∀ signature, Base64.decode content = .ok signature → signature.length = 256 →
      (∀ saved, ¬ files.TakesText outfile (image.bootloader signature) saved) →
      ∃ cause part,
        FailsUntold (.save cause)
          (run host files ("generate" :: (fixedArguments given ++ written))) ∧
        (Output.text (image.bootloader signature)).CutShort files outfile cause part ∧
        files.Rewrites outfile part
          (run host files ("generate" :: (fixedArguments given ++ written))).trace.files := by
  have hundecoded (cause : Base64.Base64Error) (hdecode : Base64.decode content = .error cause) :=
    failsUntold_of_undecoded hload hgiven hwritten hdecode
  refine ⟨?_, hundecoded, fun signature hdecode hfits =>
    failsUntold_of_cut hload hgiven hwritten hdecode hfits hout⟩
  cases hdecode : Base64.decode content with
  | ok signature =>
    simp only [Except.ok.injEq, exists_eq_left']
    by_cases hfits : signature.length = 256
    · by_cases htakes : ∃ saved, files.TakesText outfile (image.bootloader signature) saved
      · refine iff_of_true ?_ fun _ => htakes
        exact Or.inl ⟨signature, hdecode,
          writesSigned_of_fits hload hgiven hwritten hdecode hfits htakes⟩
      · obtain ⟨_, _, hfails, _⟩ := failsUntold_of_cut hload hgiven hwritten hdecode hfits hout
          (not_exists.mp htakes)
        exact iff_of_false (not_usesOrRefuses hfails) fun hneeds => htakes (hneeds hfits)
    · refine iff_of_true (Or.inr ?_) fun h => absurd h hfits
      exact refusesCleanly_of_length hload hgiven hwritten hdecode hfits
  | error cause =>
    refine iff_of_false (not_usesOrRefuses (hundecoded cause hdecode).1) ?_
    rintro ⟨_, hsignature, _⟩
    cases hsignature

def brokenText : Bytes := Base64.encode (Bytes.zeros 255) ++ 10 :: Base64.encode [7]

def signatureFiles : FileStore where
  nodes := [(["a.bin"], .file [1, 0, 0, 0]), (["a.sig"], .file brokenText),
    (["lone.sig"], .file [65])]

def signatureHost : Host where
  clock := ⟨2024, 1, 2, 3, 4, 5⟩

theorem broken_text_used :
    (∃ image, ({ built := signatureHost.clock } : Image).load signatureFiles none "a.bin" =
      .ok image) ∧
    signatureFiles.read "a.sig" = .ok brokenText ∧
    (∃ after, signatureFiles.write "a.vhd" [] = .ok after) ∧
    Spells ["a.bin", "a.vhd"] (generationOperands "a.bin" "a.vhd" none) ∧
    WritesSigned (run signatureHost signatureFiles
        ("generate" :: (fixedArguments "a.sig" ++ ["a.bin", "a.vhd"])))
      "a.vhd" (Bytes.zeros 255 ++ [7]) := by
  have hload : ({ built := signatureHost.clock } : Image).load signatureFiles none "a.bin" =
      .ok { built := signatureHost.clock, source := some "a.bin", payload := [1, 0, 0, 0] } := by
    decide +kernel
  have hgiven : signatureFiles.read "a.sig" = .ok brokenText := by decide +kernel
  have hout : ∃ after, signatureFiles.write "a.vhd" [] = .ok after :=
    ⟨signatureFiles.put ["a.vhd"] (.file []), by decide +kernel⟩
  have hwritten : Spells ["a.bin", "a.vhd"] (generationOperands "a.bin" "a.vhd" none) := by
    have hplain : ∀ operand ∈ ["a.bin", "a.vhd"], operand.toList.head? ≠ some '-' := by decide
    exact Or.inr ⟨rfl, fun operand hmem => isOperand_of_head? (hplain operand hmem)⟩
  have hdecode : Base64.decode brokenText = .ok (Bytes.zeros 255 ++ [7]) := by decide +kernel
  have hexit : (run signatureHost signatureFiles
      ("generate" :: (fixedArguments "a.sig" ++ ["a.bin", "a.vhd"]))).exitCode = 0 := by
    decide +kernel
  obtain ⟨_, hopen⟩ := hout
  obtain ⟨_, htakes⟩ := FileStore.write_of_write hopen (FileStore.hasRoom_of_unlimited rfl)
  refine ⟨⟨_, hload⟩, hgiven, ⟨_, hopen⟩, hwritten, ?_⟩
  rcases (fixed_signature_used_or_refused hload hgiven ⟨_, hopen⟩ hwritten).1.mpr
    ⟨_, hdecode, fun _ => ⟨_, rfl, htakes⟩⟩ with
    ⟨signature, hsignature, hwrites⟩ | hrefused
  · cases hdecode.symm.trans hsignature
    exact hwrites
  · obtain ⟨_, ⟨hone, -⟩ | ⟨htwo, -⟩⟩ := hrefused.told
    · rw [hexit] at hone
      cases hone
    · rw [hexit] at htwo
      cases htwo

theorem lone_letter_neither_used_nor_refused :
    signatureFiles.read "lone.sig" = .ok [65] ∧
    ¬ UsesOrRefuses signatureFiles [65] "a.vhd"
      (run signatureHost signatureFiles
        ("generate" :: (fixedArguments "lone.sig" ++ ["a.bin", "a.vhd"]))) := by
  have hread : signatureFiles.read "lone.sig" = .ok [65] := by decide +kernel
  have hfails : (run signatureHost signatureFiles
      ("generate" :: (fixedArguments "lone.sig" ++ ["a.bin", "a.vhd"]))).failure ≠ none := by
    decide +kernel
  refine ⟨hread, ?_⟩
  rintro (⟨signature, hsignature, -⟩ | hrefused)
  · cases hsignature
  · exact hfails hrefused.failure

end BootImage.Command
