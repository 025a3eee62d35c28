import BootImage.Command.Arguments
import BootImage.Image.Basic
import BootImage.Image.Header
import BootImage.Image.Listing
import BootImage.Signer

/-! Running a command line against a file store. A run leaves a trace: the files, what was printed,
the prompts shown and the signers consulted. It stops early with a usage message, an error message,
a status, or a failure that no command turns into a message; the trace up to there stays. The
passphrase of a key is asked for at most once, and only when its file turns out to need one. -/

namespace BootImage.Command

/-- What a run finds around it: the clock, the typed passphrase, the signing program, and the
reader of key files. -/
structure Host where
  clock : DateTime
  passphrase : String := ""
  program : ProgramReply := .absent
  reader : Key.KeyReader := .pem

inductive SignerRefusal where
  | noKeyFile (path : String)
  | keyFileNotFound (path : String)
  | key (cause : Key.KeyError)
  | invalidPassphrase
  deriving DecidableEq, Repr

namespace SignerRefusal

def message : SignerRefusal → String
  | noKeyFile path => s!"Private key {path} not found, use --key or --fix-sig"
  | keyFileNotFound path => s!"Key file not found ({path})"
  | key cause => cause.message
  | invalidPassphrase => "Invalid passphrase"

def isUsage : SignerRefusal → Bool
  | key (.file _) => false
  | _ => true

def ofKeyError (path : String) : Key.KeyError → SignerRefusal
  | .file (.os cause) =>
    if cause.code = OsError.notFoundCode then keyFileNotFound path else key (.file (.os cause))
  | cause => key cause

end SignerRefusal

def passphrasePrompt : String := "Enter key passphrase: "

def loadWith (host : Host) (files : FileStore) (path : String) (passphrase : Option Bytes) :
    Except SignerRefusal (Option Key.RsaKey) :=
  match Key.load host.reader files path passphrase with
  | .ok key => .ok key
  | .error cause => .error (.ofKeyError path cause)

def loadKey (host : Host) (files : FileStore) (path : String) :
    Except SignerRefusal (Option Key.RsaKey) × List String :=
  match loadWith host files path none with
  | .error refusal => (.error refusal, [])
  | .ok (some key) => (.ok (some key), [])
  | .ok none =>
    (loadWith host files path (some (Bytes.ofText host.passphrase)), [passphrasePrompt])

/-- An empty name stands for the default key file. -/
def keyFileOf (key : Option String) : String :=
  match key with
  | none => defaultKeyFile
  | some path => if path = "" then defaultKeyFile else path

def selectSigner (host : Host) (files : FileStore) (key : Option String) (useProgram : Bool) :
    Except SignerRefusal Signer × List String :=
  let path := keyFileOf key
  if !files.has path then (.error (.noKeyFile path), [])
  else if useProgram then (.ok (.program { keyFile := path }), [])
  else match loadKey host files path with
  | (.error refusal, prompts) => (.error refusal, prompts)
  | (.ok none, prompts) => (.error .invalidPassphrase, prompts)
  | (.ok (some key), prompts) => (.ok (.rsa key), prompts)

inductive Failure where
  | load (cause : LoadError)
  | create (cause : CreateError)
  | save (cause : SaveError)
  | key (cause : Key.KeyError)
  | signatureFile (cause : SignatureFile.SignatureFileError)
  | file (cause : FileError)
  | inspection (cause : Inspection.InspectionError)
  deriving DecidableEq, Repr

def Failure.message : Failure → String
  | .load cause => cause.message
  | .create cause => cause.message
  | .save cause => cause.message
  | .key cause => cause.message
  | .signatureFile cause => cause.message
  | .file cause => cause.message
  | .inspection cause => cause.message

inductive Stop where
  | usage (message : String)
  | error (message : String)
  | status (code : Nat)
  | failure (cause : Failure)
  deriving DecidableEq, Repr

structure Trace where
  files : FileStore
  printed : Bytes := []
  prompts : List String := []
  consulted : List Consultation := []
  deriving DecidableEq, Repr

abbrev Task := ExceptT Stop (StateM Trace)

def print (text : String) : Task Unit :=
  modify fun t => { t with printed := t.printed ++ Bytes.ofText text }

def printBytes (bytes : Bytes) : Task Unit :=
  modify fun t => { t with printed := t.printed ++ bytes }

/-- Carries on with a value, or stops the way the error says. -/
def orStop {ε α : Type} (stop : ε → Stop) : Except ε α → Task α
  | .ok a => pure a
  | .error e => throw (stop e)

def loadStop (e : LoadError) : Stop :=
  if e.isInputError then .usage e.message else .failure (.load e)

def loadImage (host : Host) (path : String) (project : Option String) : Task Image := do
  let blank : Image := { project, built := host.clock }
  let image ← orStop loadStop (blank.load (← get).files none path)
  print (Image.warning image.payload)
  pure image

def writeFile (path : String) (bytes : Bytes) : Task Unit := do
  let before := (← get).files
  modify fun t => { t with files := before.afterWrite path bytes }
  discard (orStop (fun e => .failure (.file e)) (before.write path bytes))

structure GenerateOptions where
  format : Format
  key : Option String := none
  useProgram : Bool := false
  fixedSignature : Option String := none
  signatureOut : Option String := none
  infile : String
  outfile : String
  project : Option String := none
  deriving DecidableEq, Repr

def refuseSignatureOut (options : GenerateOptions) : Task Unit :=
  if options.signatureOut.isSome && !options.format.isSigned then
    throw (.usage ("--sig-out is only valid for signed formats: " ++
      String.intercalate ", " (Format.signed.map Format.name)))
  else pure ()

def keyAndSignature : String :=
  "Can not sign using key and provide fixed-signature at the same time"

def signerStop (refusal : SignerRefusal) : Stop :=
  if refusal.isUsage then .usage refusal.message
  else match refusal with
  | .key cause => .failure (.key cause)
  | _ => .usage refusal.message

def chosenSigner (host : Host) (options : GenerateOptions) : Task Signer := do
  let (signer, prompts) := selectSigner host (← get).files options.key options.useProgram
  modify fun t => { t with prompts := t.prompts ++ prompts }
  orStop signerStop signer

/-- Where the signature of a signed format comes from: a file, or a signer. -/
def signatureSource (host : Host) (options : GenerateOptions) :
    Task (Option Signer × Option Bytes) := do
  match options.fixedSignature with
  | some path =>
    if options.key.isSome then throw (.usage keyAndSignature)
    let signature ← orStop (fun e => .failure (.signatureFile e))
      (SignatureFile.load (← get).files path)
    pure (none, some signature)
  | none =>
    let signer ← chosenSigner host options
    pure (some signer, none)

def createStop (e : CreateError) : Stop :=
  match e with
  | .signing cause =>
    if cause.isSigningFailure then .error cause.message else .failure (.create e)
  | _ => .failure (.create e)

def createImage (host : Host) (image : Image) (format : Format) (signer : Option Signer)
    (fixed : Option Bytes) : Task Image := do
  let (created, consulted) := image.createAs host.program format signer fixed
  modify fun t => { t with consulted := t.consulted ++ consulted }
  orStop createStop created

def saveImage (image : Image) (path : String) : Task Unit := do
  let (outcome, files) := image.save (← get).files path
  modify fun t => { t with files }
  orStop (fun e => .failure (.save e)) outcome

def generate (host : Host) (options : GenerateOptions) : Task Unit := do
  refuseSignatureOut options
  let image ← loadImage host options.infile options.project
  let (signer, fixed) ←
    if options.format.isSigned then signatureSource host options else pure (none, none)
  let image ← createImage host image options.format signer fixed
  saveImage image options.outfile
  match options.signatureOut with
  | some path => writeFile path (Base64.encode (image.signature.getD []))
  | none => pure ()

def encodeDigest (encoding : Encoding) (payload : Bytes) : Bytes :=
  match encoding with
  | .raw => Digest.digest payload
  | .hex => Bytes.ofText ((Digest.digest payload).toHex ++ "\n")
  | .words =>
    let words := (Digest.words payload).toList.map fun w => Text.hex 8 w.toNat
    Bytes.ofText (String.intercalate " " words ++ "\n")

/-- An empty name for the output stands for standard output. -/
def printDigest (host : Host) (infile : String) (output : Option String) (encoding : Encoding) :
    Task Unit := do
  let image ← loadImage host infile none
  let text := encodeDigest encoding image.payload
  match output with
  | none => printBytes text
  | some path => if path = "" then printBytes text else writeFile path text

open Inspection in
def inspectionStop (e : InspectionError) : Stop :=
  match e with
  | .silentStatus code => .status code
  | .file _ => .failure (.inspection e)
  | _ => .usage e.message

def inspectFile (path : String) (outfile : Option String) (silent : Bool) : Task Unit := do
  let result := Inspection.inspect (← get).files path outfile silent
  modify fun t => { t with files := result.files }
  print result.printed
  let checks ← orStop inspectionStop result.outcome
  if checks.all then print "dumpinfo has run successfully\n"
  else throw (.error "Executable header is not valid")

def flag (scanned : Scanned) (name : String) : Bool := scanned.isGiven name

/-- The checks of the scan leave no other format than a known one. -/
def generateOptions (s : Scanned) : GenerateOptions where
  format := ((s.value? "format").bind Format.ofName?).getD .appBin
  key := s.value? "key"
  useProgram := flag s "openssl"
  fixedSignature := s.value? "fix-sig"
  signatureOut := s.value? "sig-out"
  infile := (s.operand? 0).getD ""
  outfile := (s.operand? 1).getD ""
  project := s.operand? 2

def perform (host : Host) (command : CommandName) (s : Scanned) : Task Unit :=
  match command with
  | .generate => generate host (generateOptions s)
  | .digest => printDigest host ((s.operand? 0).getD "") (s.value? "output")
      (((s.value? "encoding").bind Encoding.ofName?).getD .hex)
  | .dumpinfo => inspectFile ((s.operand? 0).getD "") (s.value? "outfile") (flag s "silent")
  | .version => print (versionText ++ "\n")

/-- Asking for help shows the usage line and ends the run. -/
def runCommand (host : Host) (command : CommandName) (typed : String) (arguments : List String) :
    Task Unit := do
  let scanned ← orStop (fun e => .usage (ArgumentError.message e))
    (scan command.spec.options true none {} arguments)
  if flag scanned "help" then print s!"Usage: {command.spec.usage typed}\n"
  else
    orStop (fun e => .usage (ArgumentError.message e)) (scanned.check command.spec)
    perform host command scanned

structure Outcome where
  exitCode : Nat
  errorText : String := ""
  failure : Option Failure := none
  trace : Trace
  deriving DecidableEq, Repr

def usageText (usage path message : String) : String :=
  s!"Usage: {usage}\nTry '{path} --help' for help.\n\nError: {message}\n"

def conclude (usage path : String) (result : Except Stop Unit × Trace) : Outcome :=
  match result with
  | (.ok (), trace) => { exitCode := 0, trace }
  | (.error (.usage message), trace) =>
    { exitCode := 2, errorText := usageText usage path message, trace }
  | (.error (.error message), trace) => { exitCode := 1, errorText := s!"Error: {message}\n", trace }
  | (.error (.status code), trace) => { exitCode := code, trace }
  | (.error (.failure cause), trace) => { exitCode := 1, failure := some cause, trace }

def stopped (files : FileStore) (e : ArgumentError) : Outcome :=
  conclude groupUsage programName (.error (.usage e.message), { files })

def usageShown (files : FileStore) (exitCode : Nat) : Outcome :=
  { exitCode, trace := { files, printed := Bytes.ofText s!"Usage: {groupUsage}\n" } }

/-- A name that selects no command is read once more, so an option stays an option even after the
end of the options. -/
def unknownCommand (files : FileStore) (typed : String) (rest : List String) : Outcome :=
  match scan [help] false none {} (typed :: rest) with
  | .error e => stopped files e
  | .ok scanned =>
    if flag scanned "help" then usageShown files 0
    else stopped files (.noSuchCommand typed (Text.closest typed CommandName.names))

def run (host : Host) (files : FileStore) (arguments : List String) : Outcome :=
  match scan [help] false none {} arguments with
  | .error e => stopped files e
  | .ok scanned =>
    if flag scanned "help" then usageShown files 0
    else match scanned.operands with
    | [] => usageShown files 2
    | typed :: rest =>
      match CommandName.ofName? typed with
      | none => unknownCommand files typed rest
      | some command =>
        conclude (command.spec.usage typed) (programName ++ " " ++ typed)
          ((runCommand host command typed rest).run.run { files })

end BootImage.Command
