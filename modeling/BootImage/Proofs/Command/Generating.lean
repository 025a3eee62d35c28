import BootImage.Proofs.Bytes
import BootImage.Proofs.Command.Running
import BootImage.Proofs.Image.Saving

/-! Generating a bootloader from the command line: a run that signs and keeps the signature, and a
run that is given a signature. What the first writes, the second writes again, and it consults
nobody for it. -/

namespace BootImage

namespace Image

variable {image loaded : Image} {path : String}

theorem load_congr {a b : FileStore} (h : a.read path = b.read path) (image : Image)
    (reportedSize : Option Int) :
    image.load a reportedSize path = image.load b reportedSize path := by
  unfold load readPayload readHex readBinary
  rw [h]

theorem read_of_load {files : FileStore} {reportedSize : Option Int}
    (h : image.load files reportedSize path = .ok loaded) :
    ∃ content, files.read path = .ok content := by
  cases hread : files.read path with
  | ok content => exact ⟨content, rfl⟩
  | error cause =>
    unfold load readPayload readHex readBinary at h
    simp [hread, Except.map] at h

theorem createAs_bldVhd_eq_ok {created : Image} {reply : ProgramReply} {signer : Option Signer}
    {fixed : Option Bytes} {consulted : List Consultation} :
    image.createAs reply .bldVhd signer fixed = (.ok created, consulted) ↔
      ∃ signature, image.signatureFor reply signer fixed = (.ok signature, consulted) ∧
        image.signedAs signature = created := by
  rw [createAs_bldVhd]
  rcases image.signatureFor reply signer fixed with ⟨_ | signature, consulted⟩
  · simp [Except.map, Except.mapError]
  · simp [Except.map, Except.mapError, and_comm]

theorem save_signedAs {files saved : FileStore} {signature : Bytes} :
    (image.signedAs signature).save files path = (.ok (), saved) ↔
      files.TakesText path (image.bootloader signature) saved :=
  save_text_eq_ok rfl

theorem signatureFor_fixed_eq_ok {reply : ProgramReply} {signer : Option Signer}
    {fixed signature : Bytes} {consulted : List Consultation} :
    image.signatureFor reply signer (some fixed) = (.ok signature, consulted) ↔
      signature = fixed ∧ fixed.length = 256 ∧ consulted = [] := by
  obtain ⟨hsilent, hsignature⟩ := signatureFor_fixed image reply signer fixed
  rw [Prod.ext_iff, hsignature, hsilent, and_assoc, eq_comm (b := consulted)]

end Image

namespace Command

variable {host : Host} {trace after : Trace} {project : Option String} {image : Image}
  {path : String}

theorem ends_loadImage :
    Ends (loadImage host path project) trace image after ↔
      ({ project, built := host.clock } : Image).load trace.files none path = .ok image ∧
        { trace with
          printed := trace.printed ++ Bytes.ofText (Image.warning image.payload) } = after := by
  simp only [loadImage, ends_get_bind, ends_orStop_bind, ends_print_bind, ends_pure]
  constructor
  · rintro ⟨_, hload, rfl, rfl⟩
    exact ⟨hload, rfl⟩
  · rintro ⟨hload, rfl⟩
    exact ⟨image, hload, rfl, rfl⟩

theorem ends_chosenSigner {options : GenerateOptions} {signer : Signer} :
    Ends (chosenSigner host options) trace signer after ↔
      ∃ prompts,
        selectSigner host trace.files options.key options.useProgram = (.ok signer, prompts) ∧
          { trace with prompts := trace.prompts ++ prompts } = after := by
  simp only [chosenSigner, ends_get_bind, ends_modify_bind, ends_orStop]
  rcases selectSigner host trace.files options.key options.useProgram with ⟨result, prompts⟩
  simp

theorem ends_createImage {created : Image} {format : Format} {signer : Option Signer}
    {fixed : Option Bytes} :
    Ends (createImage host image format signer fixed) trace created after ↔
      ∃ consulted,
        image.createAs host.program format signer fixed = (.ok created, consulted) ∧
          { trace with consulted := trace.consulted ++ consulted } = after := by
  simp only [createImage, ends_modify_bind, ends_orStop]
  rcases image.createAs host.program format signer fixed with ⟨result, consulted⟩
  simp

theorem ends_saveImage {u : Unit} :
    Ends (saveImage image path) trace u after ↔
      ∃ files, image.save trace.files path = (.ok (), files) ∧ { trace with files } = after := by
  simp only [saveImage, ends_get_bind, ends_modify_bind, ends_orStop]
  rcases image.save trace.files path with ⟨result, files⟩
  simp

theorem ends_writeFile {bytes : Bytes} {u : Unit} :
    Ends (writeFile path bytes) trace u after ↔
      ∃ files, trace.files.write path bytes = .ok files ∧ { trace with files } = after := by
  simp only [writeFile, ends_get_bind, ends_modify_bind, ends_discard_orStop]
  constructor
  · rintro ⟨files, hwrite, rfl⟩
    exact ⟨files, hwrite, by rw [FileStore.afterWrite_of_write hwrite]⟩
  · rintro ⟨files, hwrite, rfl⟩
    exact ⟨files, hwrite, by rw [FileStore.afterWrite_of_write hwrite]⟩

theorem stops_saveImage {stop : Stop} :
    Stops (saveImage image path) trace stop after ↔
      ∃ cause files, image.save trace.files path = (.error cause, files) ∧
        stop = .failure (.save cause) ∧ { trace with files } = after := by
  rw [Stops, saveImage, run_bind, run_get]
  dsimp only
  rcases image.save trace.files path with ⟨cause | _, files⟩
  · constructor
    · rintro ⟨⟩
      exact ⟨cause, files, rfl, rfl, rfl⟩
    · rintro ⟨_, _, ⟨⟩, rfl, rfl⟩
      rfl
  · refine iff_of_false (fun h => by cases h) ?_
    rintro ⟨_, _, h, _⟩
    cases h

theorem stops_writeFile {bytes : Bytes} {stop : Stop} :
    Stops (writeFile path bytes) trace stop after ↔
      ∃ cause, trace.files.write path bytes = .error cause ∧ stop = .failure (.file cause) ∧
        { trace with files := trace.files.afterWrite path bytes } = after := by
  rw [Stops, writeFile, run_bind, run_get]
  dsimp only
  rw [run_bind, run_modify]
  dsimp only
  cases trace.files.write path bytes with
  | ok _ =>
    refine iff_of_false (fun h => by cases h) ?_
    rintro ⟨_, h, _⟩
    cases h
  | error cause =>
    constructor
    · rintro ⟨⟩
      exact ⟨cause, rfl, rfl, rfl⟩
    · rintro ⟨_, ⟨⟩, rfl, rfl⟩
      rfl

theorem ends_signatureSource_fixed {options : GenerateOptions}
    {source : Option Signer × Option Bytes} (hfixed : options.fixedSignature = some path)
    (hkey : options.key = none) :
    Ends (signatureSource host options) trace source after ↔
      ∃ signature, SignatureFile.load trace.files path = .ok signature ∧
        (none, some signature) = source ∧ trace = after := by
  simp only [signatureSource, hfixed, hkey, Option.isSome_none, Bool.false_eq_true, if_false,
    ends_get_bind, ends_orStop_bind, ends_pure]

theorem ends_signatureSource_signer {options : GenerateOptions}
    {source : Option Signer × Option Bytes} (hfixed : options.fixedSignature = none) :
    Ends (signatureSource host options) trace source after ↔
      ∃ signer, Ends (chosenSigner host options) trace signer after ∧
        (some signer, none) = source := by
  simp only [signatureSource, hfixed, ends_bind, ends_pure]
  constructor
  · rintro ⟨signer, _, hsigner, rfl, rfl⟩
    exact ⟨signer, hsigner, rfl⟩
  · rintro ⟨signer, hsigner, rfl⟩
    exact ⟨signer, after, hsigner, rfl, rfl⟩

theorem ends_bootloader {options : GenerateOptions} (hformat : options.format = .bldVhd)
    {u : Unit} :
    Ends (generate host options) trace u after ↔
      ∃ image source middle signature consulted saved,
        ({ project := options.project, built := host.clock } : Image).load trace.files none
          options.infile = .ok image ∧
        Ends (signatureSource host options)
          { trace with printed := trace.printed ++ Bytes.ofText (Image.warning image.payload) }
          source middle ∧
        image.signatureFor host.program source.1 source.2 = (.ok signature, consulted) ∧
        middle.files.TakesText options.outfile (image.bootloader signature) saved ∧
        Ends (match options.signatureOut with
          | some path => writeFile path (Base64.encode signature)
          | none => pure ())
          { middle with files := saved, consulted := middle.consulted ++ consulted } u after := by
  have hsigned : Format.bldVhd.isSigned = true := rfl
  simp only [generate, refuseSignatureOut, hformat, hsigned, Bool.not_true, Bool.and_false,
    Bool.false_eq_true, if_false, if_true, pure_bind, ends_bind, ends_loadImage, ends_createImage,
    ends_saveImage]
  constructor
  · rintro ⟨image, _, ⟨hload, rfl⟩, source, middle, hsource, created, _, ⟨consulted, hcreate, rfl⟩,
      _, _, ⟨saved, hsave, rfl⟩, hkeep⟩
    obtain ⟨signature, hsignature, rfl⟩ := Image.createAs_bldVhd_eq_ok.mp hcreate
    exact ⟨image, source, middle, signature, consulted, saved, hload, hsource, hsignature,
      Image.save_signedAs.mp hsave, hkeep⟩
  · rintro ⟨image, source, middle, signature, consulted, saved, hload, hsource, hsignature, hwrite,
      hkeep⟩
    have hcreate := Image.createAs_bldVhd_eq_ok.mpr ⟨signature, hsignature, rfl⟩
    exact ⟨image, _, ⟨hload, rfl⟩, source, middle, hsource, image.signedAs signature, _,
      ⟨consulted, hcreate, rfl⟩, (), _, ⟨saved, Image.save_signedAs.mpr hwrite, rfl⟩, hkeep⟩

def signingOptions (key : String) (useProgram : Bool) (kept infile outfile : String)
    (project : Option String) : GenerateOptions where
  format := .bldVhd
  key := some key
  useProgram := useProgram
  signatureOut := some kept
  infile := infile
  outfile := outfile
  project := project

def fixedOptions (given infile outfile : String) (project : Option String) :
    GenerateOptions where
  format := .bldVhd
  fixedSignature := some given
  infile := infile
  outfile := outfile
  project := project

theorem ends_signing {key kept infile outfile : String} {useProgram : Bool} {u : Unit} :
    Ends (generate host (signingOptions key useProgram kept infile outfile project)) trace u after ↔
      ∃ image signer prompts signature consulted saved last,
        ({ project, built := host.clock } : Image).load trace.files none infile = .ok image ∧
        selectSigner host trace.files (some key) useProgram = (.ok signer, prompts) ∧
        image.signatureFor host.program (some signer) none = (.ok signature, consulted) ∧
        trace.files.TakesText outfile (image.bootloader signature) saved ∧
        saved.write kept (Base64.encode signature) = .ok last ∧
        { files := last
          printed := trace.printed ++ Bytes.ofText (Image.warning image.payload)
          prompts := trace.prompts ++ prompts
          consulted := trace.consulted ++ consulted } = after := by
  rw [ends_bootloader rfl]
  constructor
  · rintro ⟨image, source, middle, signature, consulted, saved, hload, hsource, hsignature, hwrite,
      hkeep⟩
    obtain ⟨signer, hsigner, rfl⟩ := (ends_signatureSource_signer rfl).mp hsource
    obtain ⟨prompts, hselect, rfl⟩ := ends_chosenSigner.mp hsigner
    obtain ⟨last, hlast, rfl⟩ := ends_writeFile.mp hkeep
    exact ⟨image, signer, prompts, signature, consulted, saved, last, hload, hselect, hsignature,
      hwrite, hlast, rfl⟩
  · rintro ⟨image, signer, prompts, signature, consulted, saved, last, hload, hselect, hsignature,
      hwrite, hlast, rfl⟩
    exact ⟨image, (some signer, none), _, signature, consulted, saved, hload,
      (ends_signatureSource_signer rfl).mpr
        ⟨signer, ends_chosenSigner.mpr ⟨prompts, hselect, rfl⟩, rfl⟩,
      hsignature, hwrite, ends_writeFile.mpr ⟨last, hlast, rfl⟩⟩

theorem ends_fixed {given infile outfile : String} {u : Unit} :
    Ends (generate host (fixedOptions given infile outfile project)) trace u after ↔
      ∃ image signature saved,
        ({ project, built := host.clock } : Image).load trace.files none infile = .ok image ∧
        SignatureFile.load trace.files given = .ok signature ∧ signature.length = 256 ∧
        trace.files.TakesText outfile (image.bootloader signature) saved ∧
        { trace with
          files := saved
          printed := trace.printed ++ Bytes.ofText (Image.warning image.payload) } = after := by
  rw [ends_bootloader rfl]
  constructor
  · rintro ⟨image, source, middle, signature, consulted, saved, hload, hsource, hsignature, hwrite,
      hkeep⟩
    obtain ⟨fixed, hgiven, rfl, rfl⟩ := (ends_signatureSource_fixed rfl rfl).mp hsource
    obtain ⟨rfl, hlen, rfl⟩ := Image.signatureFor_fixed_eq_ok.mp hsignature
    obtain ⟨-, rfl⟩ := ends_pure.mp hkeep
    rw [List.append_nil]
    exact ⟨image, signature, saved, hload, hgiven, hlen, hwrite, rfl⟩
  · rintro ⟨image, signature, saved, hload, hgiven, hlen, hwrite, rfl⟩
    refine ⟨image, (none, some signature), _, signature, [], saved, hload,
      (ends_signatureSource_fixed rfl rfl).mpr ⟨signature, hgiven, rfl, rfl⟩,
      Image.signatureFor_fixed_eq_ok.mpr ⟨rfl, hlen, rfl⟩, hwrite, ?_⟩
    rw [List.append_nil]
    exact ends_pure.mpr ⟨rfl, rfl⟩

/-- The source of the signature, if there is to be one. -/
def sourceIfSigned (host : Host) (options : GenerateOptions) :
    Task (Option Signer × Option Bytes) :=
  if options.format.isSigned then signatureSource host options else pure (none, none)

/-- Everything up to the image, which is then in memory only. -/
def renderImage (host : Host) (options : GenerateOptions) : Task Image := do
  refuseSignatureOut options
  let image ← loadImage host options.infile options.project
  let source ← sourceIfSigned host options
  createImage host image options.format source.1 source.2

def keepSignature (options : GenerateOptions) (image : Image) : Task Unit :=
  match options.signatureOut with
  | some path => writeFile path (Base64.encode (image.signature.getD []))
  | none => pure ()

/-- The image is saved, and then its signature if it is to be kept. -/
def storeImage (options : GenerateOptions) (image : Image) : Task Unit := do
  saveImage image options.outfile
  keepSignature options image

theorem generate_eq (host : Host) (options : GenerateOptions) :
    generate host options = renderImage host options >>= storeImage options := by
  unfold generate renderImage sourceIfSigned
  by_cases hsigned : options.format.isSigned = true
  · simp only [hsigned, if_true, bind_assoc]
    rfl
  · simp only [hsigned, Bool.false_eq_true, if_false, bind_assoc]
    rfl

theorem stops_of_renderImage {options : GenerateOptions} {stop : Stop}
    (h : Stops (renderImage host options) trace stop after) :
    Stops (generate host options) trace stop after := by
  rw [generate_eq, stops_bind]
  exact Or.inl h

theorem stops_of_save {options : GenerateOptions} {created : Image} {between : Trace}
    {cause : SaveError} {left : FileStore}
    (hrender : Ends (renderImage host options) trace created between)
    (hsave : created.save between.files options.outfile = (.error cause, left)) :
    Stops (generate host options) trace (.failure (.save cause))
      { between with files := left } := by
  rw [generate_eq, stops_bind]
  refine Or.inr ⟨created, between, hrender, ?_⟩
  rw [storeImage, stops_bind]
  exact Or.inl (stops_saveImage.mpr ⟨cause, left, hsave, rfl, rfl⟩)

theorem prepares_loadImage (host : Host) (path : String) (project : Option String) :
    Prepares (loadImage host path project) := by
  have hloud (e : LoadError) (code : Nat) : loadStop e ≠ .status code := by
    unfold loadStop
    split <;> simp
  exact prepares_get.bind fun _ => (prepares_orStop hloud _).bind fun _ =>
    (prepares_print _).bind fun _ => prepares_pure _

theorem prepares_chosenSigner (host : Host) (options : GenerateOptions) :
    Prepares (chosenSigner host options) := by
  have hloud (refusal : SignerRefusal) (code : Nat) : signerStop refusal ≠ .status code := by
    unfold signerStop
    split
    · simp
    · split <;> simp
  refine prepares_get.bind fun _ => Prepares.bind (prepares_modify _ ?_) fun _ =>
    prepares_orStop hloud _
  intro _
  rfl

theorem prepares_signatureSource (host : Host) (options : GenerateOptions) :
    Prepares (signatureSource host options) := by
  unfold signatureSource
  split
  · split
    · exact prepares_throw (by simp)
    · exact prepares_get.bind fun _ => (prepares_orStop (by simp) _).bind fun _ => prepares_pure _
  · exact (prepares_chosenSigner host options).bind fun _ => prepares_pure _

theorem prepares_createImage (host : Host) (image : Image) (format : Format)
    (signer : Option Signer) (fixed : Option Bytes) :
    Prepares (createImage host image format signer fixed) := by
  have hloud (e : CreateError) (code : Nat) : createStop e ≠ .status code := by
    unfold createStop
    split
    · split <;> simp
    · simp
  refine Prepares.bind (prepares_modify _ ?_) fun _ => prepares_orStop hloud _
  intro _
  rfl

theorem prepares_renderImage (host : Host) (options : GenerateOptions) :
    Prepares (renderImage host options) := by
  have hrefuse : Prepares (refuseSignatureOut options) := by
    unfold refuseSignatureOut
    split
    · exact prepares_throw (by simp)
    · exact prepares_pure _
  have hsource : Prepares (sourceIfSigned host options) := by
    unfold sourceIfSigned
    split
    · exact prepares_signatureSource host options
    · exact prepares_pure _
  exact hrefuse.bind fun _ => (prepares_loadImage host _ _).bind fun image =>
    hsource.bind fun source => prepares_createImage host image _ _ _

theorem stopsLoudly_saveImage (image : Image) (path : String) :
    StopsLoudly (saveImage image path) :=
  stopsLoudly_get.bind fun _ => (stopsLoudly_modify _).bind fun _ =>
    stopsLoudly_orStop (by simp) _

theorem stopsLoudly_writeFile (path : String) (bytes : Bytes) :
    StopsLoudly (writeFile path bytes) :=
  stopsLoudly_get.bind fun _ => (stopsLoudly_modify _).bind fun _ =>
    stopsLoudly_discard (stopsLoudly_orStop (by simp) _)

theorem stopsLoudly_generate (host : Host) (options : GenerateOptions) :
    StopsLoudly (generate host options) := by
  rw [generate_eq]
  refine (prepares_renderImage host options).loud.bind fun image =>
    (stopsLoudly_saveImage image _).bind fun _ => ?_
  unfold keepSignature
  split
  · exact stopsLoudly_writeFile _ _
  · exact stopsLoudly_pure _

def keyOption : OptionSpec := { short := some 'k', long := "key" }

def programOption : OptionSpec := { long := "openssl", takesValue := false }

def fixedOption : OptionSpec := { long := "fix-sig" }

def keptOption : OptionSpec := { long := "sig-out" }

/-- How a bootloader is asked for that a key signs, in-process or by the program, and whose
signature is kept. -/
def signingArguments (key : String) (useProgram : Bool) (kept : String) : List String :=
  ["-f", "bld_vhd", "-k", key] ++ (if useProgram then ["--openssl"] else []) ++ ["--sig-out", kept]

/-- How a bootloader is asked for that carries a given signature. -/
def fixedArguments (given : String) : List String := ["-f", "bld_vhd", "--fix-sig", given]

def generationOperands (infile outfile : String) (project : Option String) : List String :=
  [infile, outfile] ++ project.toList

/-- The arguments are read as these options of a generation. -/
structure AsksFor (arguments : List String) (scanned : Scanned) (options : GenerateOptions) :
    Prop where
  found : scan CommandName.generate.spec.options true none {} arguments = .ok scanned
  unhelped : scanned.isGiven "help" = false
  valid : scanned.check CommandName.generate.spec = .ok ()
  meaning : generateOptions scanned = options

def signingScan (key : String) (useProgram : Bool) (kept : String) (operands : List String) :
    Scanned where
  settings := [⟨Command.format, "bld_vhd"⟩, ⟨keyOption, key⟩] ++
    (if useProgram then [⟨programOption, ""⟩] else []) ++ [⟨keptOption, kept⟩]
  operands := operands

def fixedScan (given : String) (operands : List String) : Scanned where
  settings := [⟨Command.format, "bld_vhd"⟩, ⟨fixedOption, given⟩]
  operands := operands

def valueNames : List (String × OptionSpec) :=
  [("-f", Command.format), ("-k", keyOption), ("--fix-sig", fixedOption),
    ("--sig-out", keptOption)]

theorem scan_named {name : String} {option : OptionSpec} (h : (name, option) ∈ valueNames)
    {seen : Scanned} (value : String) (rest : List String) :
    scan CommandName.generate.spec.options true none seen (name :: value :: rest) =
      scan CommandName.generate.spec.options true none
        { seen with settings := seen.settings ++ [⟨option, value⟩] } rest := by
  simp only [valueNames, List.mem_cons, Prod.mk.injEq, List.not_mem_nil, or_false] at h
  rcases h with ⟨rfl, rfl⟩ | ⟨rfl, rfl⟩ | ⟨rfl, rfl⟩ | ⟨rfl, rfl⟩
  · exact scan_value rfl (by decide) rfl value rest
  · exact scan_value rfl (by decide) rfl value rest
  · exact scan_value rfl (by decide) rfl value rest
  · exact scan_value rfl (by decide) rfl value rest

theorem scan_program (useProgram : Bool) {seen : Scanned} (rest : List String) :
    scan CommandName.generate.spec.options true none seen
        ((if useProgram then ["--openssl"] else []) ++ rest) =
      scan CommandName.generate.spec.options true none
        { seen with
          settings := seen.settings ++ if useProgram then [⟨programOption, ""⟩] else [] } rest := by
  cases useProgram with
  | true => exact scan_option rfl (by decide) rfl rest
  | false => simp

variable {key kept given infile outfile : String} {useProgram : Bool} {written : List String}

theorem asksFor_signing (h : Spells written (generationOperands infile outfile project)) :
    AsksFor (signingArguments key useProgram kept ++ written)
      (signingScan key useProgram kept (generationOperands infile outfile project))
      (signingOptions key useProgram kept infile outfile project) where
  found := by
    have hformat : ("-f", Command.format) ∈ valueNames := by decide
    have hkey : ("-k", keyOption) ∈ valueNames := by decide
    have hkept : ("--sig-out", keptOption) ∈ valueNames := by decide
    simp only [signingArguments, List.append_assoc, List.cons_append, List.nil_append,
      scan_named hformat, scan_named hkey, scan_program, scan_named hkept, scan_operands h]
    rfl
  unhelped := by cases useProgram <;> rfl
  valid := by cases useProgram <;> cases project <;> rfl
  meaning := by cases useProgram <;> cases project <;> rfl

theorem asksFor_fixed (h : Spells written (generationOperands infile outfile project)) :
    AsksFor (fixedArguments given ++ written)
      (fixedScan given (generationOperands infile outfile project))
      (fixedOptions given infile outfile project) where
  found := by
    have hformat : ("-f", Command.format) ∈ valueNames := by decide
    have hfixed : ("--fix-sig", fixedOption) ∈ valueNames := by decide
    simp only [fixedArguments, List.cons_append, List.nil_append, scan_named hformat,
      scan_named hfixed, scan_operands h]
    rfl
  unhelped := rfl
  valid := by cases project <;> rfl
  meaning := by cases project <;> rfl

variable {arguments : List String} {scanned : Scanned} {options : GenerateOptions}

theorem run_generate (h : AsksFor arguments scanned options) (host : Host) (files : FileStore) :
    run host files ("generate" :: arguments) =
      conclude (CommandName.generate.spec.usage "generate") (programName ++ " " ++ "generate")
        ((generate host options).run.run { files }) := by
  have hoperand : IsOperand "generate" := isOperand_of_head? (by decide)
  have hname : CommandName.ofName? "generate" = some .generate := by decide
  rw [run_named hoperand hname, runCommand_of_scan h.found h.unhelped h.valid, perform, h.meaning]

theorem exitCode_generate {files : FileStore} (h : AsksFor arguments scanned options) :
    (run host files ("generate" :: arguments)).exitCode = 0 ↔
      ∃ after, Ends (generate host options) { files } () after := by
  rw [run_generate h, exitCode_eq_zero_iff,
    succeeds_iff_of_stopsLoudly (stopsLoudly_generate host options)]

theorem run_generate_of_ends {files : FileStore} (h : AsksFor arguments scanned options)
    (hends : Ends (generate host options) { files } () after) :
    run host files ("generate" :: arguments) = { exitCode := 0, trace := after } := by
  rw [run_generate h, hends, conclude]

theorem run_of_stops {files : FileStore} {stop : Stop} (h : AsksFor arguments scanned options)
    (hstops : Stops (generate host options) { files } stop after) :
    run host files ("generate" :: arguments) =
      conclude (CommandName.generate.spec.usage "generate") (programName ++ " " ++ "generate")
        (.error stop, after) := by
  rw [run_generate h, hstops]

end Command

end BootImage
