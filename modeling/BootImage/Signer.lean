import BootImage.Bytes
import BootImage.FileStore
import BootImage.Key.Reader
import BootImage.Text.Characters
import BootImage.Text.Lines

/-! Signers of digest messages, and signature files in base64. A signer is asked for a signature
over a message and may refuse, answer with bytes of any length, run a program, or raise an error of
its own; each time it is asked leaves a record, and so does each run of a program. The program has
its files in a private directory, written `<tmp>`, that is in no file store. What it prints has to
be text, however it ends. -/

namespace BootImage.SignatureFile

inductive SignatureFileError where
  | file (cause : FileError)
  | base64 (cause : Base64.Base64Error)
  deriving DecidableEq, Repr

def SignatureFileError.message : SignatureFileError → String
  | .file cause => cause.message
  | .base64 cause => cause.message

def load (files : FileStore) (path : String) : Except SignatureFileError Bytes :=
  match files.read path with
  | .error cause => .error (.file cause)
  | .ok content =>
    match Base64.decode content with
    | .error cause => .error (.base64 cause)
    | .ok signature => .ok signature

def save (files : FileStore) (path : String) (signature : Bytes) : Except FileError FileStore :=
  files.write path (Base64.encode signature)

end BootImage.SignatureFile

namespace BootImage

inductive SigningError where
  | signatureLength (signer : String) (actual : Nat) (expected : Int)
  | unsupportedLength (signer : String) (actual : Nat)
  | fixedLength (actual : Nat)
  | refused (reason : String)
  | unavailable (reason : String)
  | cannotStart (program : String) (cause : OsError)
  | programFailed (status : Int) (diagnostics : String)
  | undecodable
  | file (cause : FileError)
  | raised (kind text : String)
  | undefined
  | noSource
  deriving DecidableEq, Repr

def signatureSize : Nat := 256

namespace SigningError

def message : SigningError → String
  | signatureLength signer actual expected =>
    s!"{signer} signature has {actual} bytes, expected {expected}"
  | unsupportedLength signer actual =>
    s!"{signer} produces {actual} byte signatures, expected {signatureSize}"
  | fixedLength actual => s!"Fixed signature has {actual} bytes, expected {signatureSize}"
  | refused reason => reason
  | unavailable reason => reason
  | cannotStart program cause => s!"Could not run {program}: {cause.message}"
  | programFailed status diagnostics =>
    s!"OpenSSL signing failed ({status}): {Text.strip diagnostics}"
  | undecodable => ""
  | file cause => cause.message
  | raised _ text => text
  | undefined => ""
  | noSource => "Signing requires a key or a fixed signature"

/-- Whether the error is about the signature, and not about how the signer was set up or called. -/
def isSigningFailure : SigningError → Bool
  | undecodable => false
  | file _ => false
  | raised _ _ => false
  | undefined => false
  | noSource => false
  | _ => true

end SigningError

/-- What became of a program, and what stands where its signature should be when it has ended. It is
not prepared when its directory cannot be made or filled, and not cleared when its directory cannot
be removed. -/
inductive ProgramReply where
  | unprepared (cause : OsError)
  | absent
  | failsToStart (cause : FileError)
  | ends (signature : Option Node) (status : Int) (output diagnostics : Bytes)
  | uncleared (cause : OsError)
  deriving DecidableEq, Repr

structure Invocation where
  command : List String
  message : Bytes
  deriving DecidableEq, Repr

inductive Consultation where
  | asked (message : Bytes)
  | ran (invocation : Invocation)
  deriving DecidableEq, Repr

structure ProgramSigner where
  keyFile : String
  program : String := "openssl"
  keyBits : Int := 2048
  deriving DecidableEq, Repr

/-- A signer of any behaviour; each of its answers may be an error. -/
structure CustomSigner where
  name : Except SigningError String
  signatureLength : Except SigningError Int
  respond : Bytes → Except SigningError Bytes

/-- An undefined signer answers no question. -/
inductive Signer where
  | rsa (key : Key.RsaKey)
  | program (signer : ProgramSigner)
  | custom (signer : CustomSigner)
  | undefined

namespace ProgramSigner

def messageFile : String := "<tmp>/sha256.bin"

def signatureFile : String := "<tmp>/sha256.sig"

def invocation (s : ProgramSigner) (message : Bytes) : Invocation where
  command := [s.program, "dgst", "-sha256", "-sign", s.keyFile, "-out", signatureFile, messageFile]
  message := message

def outcome (s : ProgramSigner) : ProgramReply → Except SigningError Bytes
  | .unprepared cause => .error (.file (.os cause))
  | .absent => .error (.cannotStart s.program (.notFound s.program))
  | .failsToStart (.os cause) => .error (.cannotStart s.program cause)
  | .failsToStart .embeddedNul => .error (.file .embeddedNul)
  | .ends signature status output diagnostics =>
    match Text.decodeUtf8 output, Text.decodeUtf8 diagnostics with
    | some _, some text =>
      if status ≠ 0 then .error (.programFailed status (String.ofList (Text.unified text)))
      else match Node.content signature with
      | .ok bytes => .ok bytes
      | .error fault => .error (.file (.os (fault.osError signatureFile)))
    | _, _ => .error .undecodable
  | .uncleared cause => .error (.file (.os cause))

def consultations (s : ProgramSigner) (reply : ProgramReply) (message : Bytes) :
    List Consultation :=
  match reply with
  | .unprepared _ => [.asked message]
  | _ => [.asked message, .ran (s.invocation message)]

end ProgramSigner

namespace Signer

def schemeName : String := "PKCS1_SHA256"

def name : Signer → Except SigningError String
  | .rsa _ => .ok "rsa"
  | .program _ => .ok "openssl"
  | .custom s => s.name
  | .undefined => .error .undefined

def scheme : Signer → Except SigningError String
  | .rsa _ => .ok schemeName
  | .program _ => .ok schemeName
  | .custom _ => .ok "TEST"
  | .undefined => .error .undefined

def signatureLength : Signer → Except SigningError Int
  | .rsa _ => .ok (Key.keyBits / 8 : Nat)
  | .program s => .ok (s.keyBits / 8)
  | .custom s => s.signatureLength
  | .undefined => .error .undefined

def sign (s : Signer) (reply : ProgramReply) (message : Bytes) :
    Except SigningError Bytes × List Consultation :=
  match s with
  | .rsa key => (.ok (key.sign message), [.asked message])
  | .program p => (p.outcome reply, p.consultations reply message)
  | .custom c => (c.respond message, [.asked message])
  | .undefined => (.error .undefined, [.asked message])

def checkLength (s : Signer) (signature : Bytes) : Except SigningError Bytes :=
  match s.signatureLength with
  | .error e => .error e
  | .ok expected =>
    if signature.length = expected then .ok signature
    else match s.name with
    | .error e => .error e
    | .ok name => .error (.signatureLength name signature.length expected)

def checkedSign (s : Signer) (reply : ProgramReply) (message : Bytes) :
    Except SigningError Bytes × List Consultation :=
  match s.sign reply message with
  | (.error e, consulted) => (.error e, consulted)
  | (.ok signature, consulted) => (s.checkLength signature, consulted)

end Signer

end BootImage
