import BootImage.FileStore
import BootImage.Key.Container
import BootImage.Text.Characters

/-! From a key file to a signing key. A private reading and a public reading of the same bytes are
separate. Only a private RSA key of 2048 bits signs; everything else that can be read is named in
the refusal. No key at all means that the passphrase did not fit. -/

namespace BootImage.Key

/-- A passphrase is mismatched when it is missing for an encrypted key or given for a bare one. -/
inductive PrivateReading where
  | key (key : PrivateKey)
  | passphraseMismatch
  | unreadable
  deriving DecidableEq, Repr

inductive PublicReading where
  | key (key : PublicKey)
  | unreadable
  deriving DecidableEq, Repr

structure KeyReader where
  readPrivate : Bytes → Option Bytes → PrivateReading
  readPublic : Bytes → PublicReading

namespace Pem

def privateLabels : List String :=
  ["PRIVATE KEY", "ENCRYPTED PRIVATE KEY", "RSA PRIVATE KEY", "EC PRIVATE KEY", "DSA PRIVATE KEY"]

def given (passphrase : Option Bytes) : Option Bytes := passphrase.filter fun p => p ≠ []

/-- A bare key refuses any passphrase, even an empty one. -/
def bare (passphrase : Option Bytes) : Option PrivateKey → PrivateReading
  | none => .unreadable
  | some key => if passphrase.isSome then .passphraseMismatch else .key key

def opened : Option PrivateKey → PrivateReading
  | none => .unreadable
  | some key => .key key

def containedPrivate? (label : String) (content : Bytes) : Option PrivateKey :=
  if label = "PRIVATE KEY" then wrappedPrivate? content
  else if label = "RSA PRIVATE KEY" then rsaPrivate? content
  else if label = "EC PRIVATE KEY" then ecPrivate? false content
  else none

def wrappedEncrypted (content : Bytes) (passphrase : Option Bytes) : PrivateReading :=
  match encryption? content with
  | none => .unreadable
  | some e =>
    match given passphrase with
    | none => .passphraseMismatch
    | some passphrase => opened (e.open? passphrase >>= wrappedPrivate?)

def headerCipher? (name : String) : Option Nat :=
  if name = "AES-128-CBC" then some 16
  else if name = "AES-192-CBC" then some 24
  else if name = "AES-256-CBC" then some 32
  else none

/-- The content decrypted as a header says: the cipher, a comma, and the vector in hexadecimal. -/
def headerOpen? (info : String) (content passphrase : Bytes) : Option Bytes := do
  let name := info.toList.takeWhile (· ≠ ',')
  let keyLength ← headerCipher? (String.ofList name)
  let iv ← Text.hexBytes? (info.toList.drop (name.length + 1))
  Cipher.Aes.decrypt? (Cipher.md5Key passphrase (iv.take 8) keyLength) iv content

def headerEncrypted (s : Section) (passphrase : Option Bytes) : PrivateReading :=
  match s.header? "DEK-Info" with
  | none => .unreadable
  | some info =>
    match given passphrase with
    | none => .passphraseMismatch
    | some passphrase =>
      opened (headerOpen? info s.content passphrase >>= containedPrivate? s.label)

def privateSection (s : Section) (passphrase : Option Bytes) : PrivateReading :=
  match s.header? "Proc-Type" with
  | some "4,ENCRYPTED" => headerEncrypted s passphrase
  | some _ => .unreadable
  | none =>
    if s.label = "ENCRYPTED PRIVATE KEY" then wrappedEncrypted s.content passphrase
    else bare passphrase (containedPrivate? s.label s.content)

def readPrivate (file : Bytes) (passphrase : Option Bytes) : PrivateReading :=
  match sections? file with
  | none => .unreadable
  | some sections =>
    match sections.find? fun s => privateLabels.contains s.label with
    | none => .unreadable
    | some s => privateSection s passphrase

def containedPublic? (label : String) (content : Bytes) : Option PublicKey :=
  if label = "RSA PUBLIC KEY" then rsaPublic? content <|> wrappedPublic? content
  else if label = "PUBLIC KEY" then wrappedPublic? content
  else none

def readPublic (file : Bytes) : PublicReading :=
  match first? file >>= fun s => containedPublic? s.label s.content with
  | some key => .key key
  | none => .unreadable

end Pem

def KeyReader.pem : KeyReader := ⟨Pem.readPrivate, Pem.readPublic⟩

def keyBits : Nat := 2048

inductive KeyError where
  | file (cause : FileError)
  | wrongPassphrase (path : String)
  | unparsable (path : String)
  | notPrivate
  | unsupportedKind (kind : KeyKind)
  | unsupportedSize (bits : Nat)
  deriving DecidableEq, Repr

def KeyKind.typeName : KeyKind → String
  | .ecPrivate => "cryptography.hazmat.bindings._rust.openssl.ec.ECPrivateKey"
  | .ecPublic => "cryptography.hazmat.bindings._rust.openssl.ec.ECPublicKey"
  | .ed25519Private => "cryptography.hazmat.bindings._rust.openssl.ed25519.Ed25519PrivateKey"
  | .ed25519Public => "cryptography.hazmat.bindings._rust.openssl.ed25519.Ed25519PublicKey"
  | .named typeName => typeName

def KeyError.message : KeyError → String
  | .file cause => cause.message
  | .wrongPassphrase path => s!"Invalid passphrase for key file {path}"
  | .unparsable path => s!"Unable to parse key file {path}"
  | .notPrivate => "Signing requires a private key"
  | .unsupportedKind kind => s!"Unsupported key type: <class '{kind.typeName}'>"
  | .unsupportedSize bits => s!"Unsupported RSA key size: {bits}"

/-- The word in a file that makes a failed reading a matter of the passphrase. -/
def encryptedMark : Bytes := Bytes.ofText "ENCRYPTED"

def containsMark : Bytes → Bool
  | [] => false
  | b :: rest => encryptedMark.isPrefixOf (b :: rest) || containsMark rest

def accept (key : RsaKey) : Except KeyError (Option RsaKey) :=
  if key.bits = keyBits then .ok (some key) else .error (.unsupportedSize key.bits)

/-- Decides on the private reading first; the public one only says why an unreadable file cannot
sign. -/
def select (reader : KeyReader) (path : String) (content : Bytes) (passphrase : Option Bytes) :
    Except KeyError (Option RsaKey) :=
  match reader.readPrivate content passphrase with
  | .key (.rsa key) => accept key
  | .key (.other kind) => .error (.unsupportedKind kind)
  | .passphraseMismatch => .ok none
  | .unreadable =>
    if passphrase.isSome && containsMark content then .error (.wrongPassphrase path)
    else match reader.readPublic content with
    | .key .rsa => .error .notPrivate
    | .key (.other kind) => .error (.unsupportedKind kind)
    | .unreadable => .error (.unparsable path)

def load (reader : KeyReader) (files : FileStore) (path : String) (passphrase : Option Bytes) :
    Except KeyError (Option RsaKey) :=
  match files.read path with
  | .error cause => .error (.file cause)
  | .ok content => select reader path content passphrase

end BootImage.Key
