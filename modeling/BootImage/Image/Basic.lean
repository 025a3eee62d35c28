import BootImage.HexFile
import BootImage.Image.Header
import BootImage.Image.Listing
import BootImage.Signer

/-! Images: an executable is loaded, signed, rendered in a format and saved. A failed step returns
no new image, so whatever it was about to change stays as it was. A session is an image beside a
file store; each step answers with a value or an error, and with what it printed and whom it
consulted. -/

namespace BootImage

inductive Output where
  | text (content : String)
  | binary (content : Bytes)
  deriving DecidableEq, Repr

/-- The bytes to be written, unless there is a stray in the text. -/
def Output.bytes? (files : FileStore) : Output → Option Bytes
  | .text content => if files.encodes content then some (Bytes.ofText content) else none
  | .binary content => some content

structure Image where
  project : Option String := none
  built : DateTime
  source : Option String := none
  payload : Bytes := []
  signature : Option Bytes := none
  output : Option Output := none
  deriving DecidableEq, Repr

inductive LoadError where
  | notFound (path : String)
  | malformedHex (path : String) (cause : HexFile.HexError)
  | unreadable (path : String) (cause : OsError)
  | shortRead (path : String) (read : Nat) (expected : Int)
  | empty (path : String)
  | notText
  | embeddedNul
  deriving DecidableEq, Repr

namespace LoadError

def message : LoadError → String
  | notFound path => s!"Input file not found ({path})"
  | malformedHex path cause => s!"Invalid Intel HEX file ({path}): {cause.message}"
  | unreadable path cause => s!"Input file error ({path}): {cause.message}"
  | shortRead path read expected =>
    s!"Unexpected input file end ({path}): read {read} of {expected} bytes"
  | empty path => s!"Input file is empty ({path})"
  | notText => ""
  | embeddedNul => "embedded null byte"

def isInputError : LoadError → Bool
  | notText => false
  | embeddedNul => false
  | _ => true

/-- A missing file is told apart from every other failure to read. -/
def ofFile (path : String) : FileError → LoadError
  | .embeddedNul => embeddedNul
  | .os cause => if cause.code = OsError.notFoundCode then notFound path else unreadable path cause

end LoadError

inductive CreateError where
  | unknownFormat (name : String)
  | signing (cause : SigningError)
  | sizeOverflow
  deriving DecidableEq, Repr

def CreateError.message : CreateError → String
  | .unknownFormat name => s!"Invalid operation '{name}'"
  | .signing cause => cause.message
  | .sizeOverflow => "'I' format requires 0 <= number <= 4294967295"

inductive SaveError where
  | file (cause : FileError)
  | nothingToSave
  | unencodable
  deriving DecidableEq, Repr

def SaveError.message : SaveError → String
  | .file cause => cause.message
  | .nothingToSave => "a bytes-like object is required, not 'NoneType'"
  | .unencodable => ""

namespace Image

/-- The executable in a file, which has to be as long as the system reports its size to be. -/
def readBinary (files : FileStore) (reportedSize : Option Int) (path : String) :
    Except LoadError Bytes :=
  match files.read path with
  | .error cause => .error (.ofFile path cause)
  | .ok content =>
    let expected := reportedSize.getD content.length
    if content.length = expected then .ok content
    else .error (.shortRead path content.length expected)

def readHex (files : FileStore) (path : String) : Except LoadError Bytes :=
  match files.read path with
  | .error cause => .error (.ofFile path cause)
  | .ok content =>
    match HexFile.ofBytes content with
    | .error .notText => .error .notText
    | .error (.record cause) => .error (.malformedHex path cause)
    | .ok memory => .ok memory.payload

def readPayload (files : FileStore) (reportedSize : Option Int) (path : String) :
    Except LoadError Bytes :=
  let content :=
    if FileName.isHex path then readHex files path else readBinary files reportedSize path
  match content with
  | .error e => .error e
  | .ok payload => if payload.isEmpty then .error (.empty path) else .ok payload

def load (image : Image) (files : FileStore) (reportedSize : Option Int) (path : String) :
    Except LoadError Image :=
  (readPayload files reportedSize path).map fun payload =>
    { image with source := some path, payload }

def misalignedWarning : String := "image.py: Warning: image size is not a multiple of 4 bytes!\n"

def warning (payload : Bytes) : String :=
  if payload.length % Word.size = 0 then "" else misalignedWarning

def words (image : Image) : List UInt32 := Word.split image.payload

def checksum (image : Image) : Nat := Word.sumComplement (Header.numbers image.words)

def digest (image : Image) : Bytes := Digest.digest image.payload

/-- What gets signed: the digest as the target holds it in memory. -/
def digestMessage (image : Image) : Bytes := Digest.wordMessage image.payload

def header? (image : Image) : Option Bytes := (Header.ofWords image.words).toBytes?

def orNone (text : Option String) : String := text.getD "None"

def sourceName? (image : Image) : Option String :=
  match image.project with
  | none => image.source
  | some project =>
    if project = "" then image.source else some (project ++ "/" ++ orNone image.source)

def describe (image : Image) : String :=
  s!"<Image source={orNone image.source}, project={orNone image.project}, size=0x" ++
    Text.hex 1 image.payload.length ++ s!", words={image.payload.length / Word.size}>"

def secureBootSize : Nat := signatureSize + Word.size

/-- A signature for the payload: the fixed one, else the signer's. -/
def signatureFor (image : Image) (reply : ProgramReply) (signer : Option Signer)
    (fixed : Option Bytes) : Except SigningError Bytes × List Consultation :=
  match fixed, signer with
  | some bytes, _ =>
    (if bytes.length = signatureSize then .ok bytes else .error (.fixedLength bytes.length), [])
  | none, none => (.error .noSource, [])
  | none, some signer =>
    match signer.checkedSign reply image.digestMessage with
    | (.error e, consulted) => (.error e, consulted)
    | (.ok bytes, consulted) =>
      if bytes.length = signatureSize then (.ok bytes, consulted)
      else match signer.name with
      | .error e => (.error e, consulted)
      | .ok name => (.error (.unsupportedLength name bytes.length), consulted)

def sign (image : Image) (reply : ProgramReply) (signer : Option Signer) (fixed : Option Bytes) :
    Except SigningError Image × List Consultation :=
  match image.signatureFor reply signer fixed with
  | (.error e, consulted) => (.error e, consulted)
  | (.ok bytes, consulted) => (.ok { image with signature := some bytes }, consulted)

/-- The rendering of the image in a format, with the signature it has. Only a header can fail. -/
def render (image : Image) : Format → Option Output
  | .appBin => image.header?.map fun header => .binary (header ++ Word.join image.words)
  | .appVhd => some (.text (Listing.vhdlApplication (orNone image.sourceName?) image.built
      image.payload.length image.words))
  | .bldVhd => some (.text (Listing.vhdlBootloader (orNone image.sourceName?) image.built
      (image.payload.length + secureBootSize) image.words
      (Word.split (image.signature.getD []))))
  | .rawHex => some (.text (Listing.hex image.words))
  | .rawBin => some (.binary image.payload)
  | .rawCoe => some (.text (Listing.coe image.words))
  | .rawMem => some (.text (Listing.mem image.words))
  | .rawMif => some (.text (Listing.mif image.words))

def emit (image : Image) (format : Format) : Except CreateError Image :=
  match image.render format with
  | some output => .ok { image with output := some output }
  | none => .error .sizeOverflow

def createAs (image : Image) (reply : ProgramReply) (format : Format) (signer : Option Signer)
    (fixed : Option Bytes) : Except CreateError Image × List Consultation :=
  if format.isSigned then
    match image.sign reply signer fixed with
    | (.error e, consulted) => (.error (.signing e), consulted)
    | (.ok image, consulted) => (image.emit format, consulted)
  else (image.emit format, [])

def create (image : Image) (reply : ProgramReply) (operation : String) (signer : Option Signer)
    (fixed : Option Bytes) : Except CreateError Image × List Consultation :=
  match Format.ofName? operation with
  | none => (.error (.unknownFormat operation), [])
  | some format => image.createAs reply format signer fixed

/-- The file is emptied before anything is known about the output, and a failed write stays in it as
far as it went. -/
def save (image : Image) (files : FileStore) (path : String) :
    Except SaveError Unit × FileStore :=
  match files.write path [] with
  | .error cause => (.error (.file cause), files)
  | .ok emptied =>
    match image.output with
    | none => (.error .nothingToSave, emptied)
    | some output =>
      match output.bytes? files with
      | none => (.error .unencodable, emptied)
      | some bytes =>
        match files.write path bytes with
        | .error cause => (.error (.file cause), files.afterWrite path bytes)
        | .ok files => (.ok (), files)

end Image

structure Session where
  image : Image
  files : FileStore
  deriving DecidableEq, Repr

inductive Step where
  | load (path : String) (reportedSize : Option Int)
  | sign (signer : Option Signer) (fixed : Option Bytes)
  | create (operation : String) (signer : Option Signer) (fixed : Option Bytes)
  | save (path : String)

inductive StepError where
  | load (cause : LoadError)
  | signing (cause : SigningError)
  | create (cause : CreateError)
  | save (cause : SaveError)
  deriving DecidableEq, Repr

def StepError.message : StepError → String
  | .load cause => cause.message
  | .signing cause => cause.message
  | .create cause => cause.message
  | .save cause => cause.message

inductive StepReply where
  | done
  | signature (bytes : Bytes)
  | output (output : Output)
  deriving DecidableEq, Repr

structure Answer where
  outcome : Except StepError StepReply
  printed : String := ""
  consulted : List Consultation := []

namespace Session

def next (s : Session) (reply : ProgramReply) : Step → Session × Answer
  | .load path reportedSize =>
    match s.image.load s.files reportedSize path with
    | .error e => (s, { outcome := .error (.load e) })
    | .ok image =>
      ({ s with image }, { outcome := .ok .done, printed := Image.warning image.payload })
  | .sign signer fixed =>
    match s.image.sign reply signer fixed with
    | (.error e, consulted) => (s, { outcome := .error (.signing e), consulted })
    | (.ok image, consulted) =>
      ({ s with image }, { outcome := .ok (.signature (image.signature.getD [])), consulted })
  | .create operation signer fixed =>
    match s.image.create reply operation signer fixed with
    | (.error e, consulted) => (s, { outcome := .error (.create e), consulted })
    | (.ok image, consulted) =>
      ({ s with image },
        { outcome := .ok (match image.output with | some o => .output o | none => .done), consulted })
  | .save path =>
    match s.image.save s.files path with
    | (.error e, files) => ({ s with files }, { outcome := .error (.save e) })
    | (.ok (), files) => ({ s with files }, { outcome := .ok .done })

/-- The states and answers of a run, each step with the program's reply to it. -/
def run (s : Session) : List (ProgramReply × Step) → Session × List Answer
  | [] => (s, [])
  | (reply, step) :: rest =>
    let (s, answer) := s.next reply step
    let (s, answers) := s.run rest
    (s, answer :: answers)

end Session

end BootImage
