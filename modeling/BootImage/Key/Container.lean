import BootImage.Bytes
import BootImage.Cipher
import BootImage.Key.Rsa
import BootImage.Text.Characters
import BootImage.Text.Lines

/-! What a key file contains. Armoured sections stand between a begin line and an end line; one bad
section spoils the file. Their content is a tree of elements in the distinguished encoding: RSA,
elliptic curve and Ed25519 keys, private or public, bare or wrapped with an algorithm name, and
private keys under a passphrase (PBES2 with HMAC-SHA256 and AES). Only RSA keys are read in full; of
the other kinds the outer form is checked. -/

namespace BootImage.Key.Der

def integerTag : UInt8 := 0x02
def bitStringTag : UInt8 := 0x03
def octetStringTag : UInt8 := 0x04
def nullTag : UInt8 := 0x05
def objectTag : UInt8 := 0x06
def sequenceTag : UInt8 := 0x30

def length? : Bytes → Option (Nat × Bytes)
  | [] => none
  | first :: rest =>
    if first < 0x80 then some (first.toNat, rest)
    else
      let count := first.toNat - 0x80
      let digits := rest.take count
      let n := Bytes.toNatBE digits
      if count = 0 ∨ 4 < count ∨ digits.length ≠ count ∨ digits.headD 0 = 0 ∨ n < 0x80 then none
      else some (n, rest.drop count)

/-- The content of the element at the front, if it has the tag, and what follows the element. -/
def element? (tag : UInt8) : Bytes → Option (Bytes × Bytes)
  | [] => none
  | first :: rest =>
    if first ≠ tag then none
    else match length? rest with
    | none => none
    | some (n, rest) => if rest.length < n then none else some (rest.take n, rest.drop n)

def only? (tag : UInt8) (input : Bytes) : Option Bytes :=
  match element? tag input with
  | some (content, []) => some content
  | _ => none

/-- A number that is not negative, in its shortest form. -/
def natural? (input : Bytes) : Option (Nat × Bytes) :=
  match element? integerTag input with
  | none => none
  | some (content, rest) =>
    match content with
    | [] => none
    | [b] => if b < 0x80 then some (b.toNat, rest) else none
    | a :: b :: _ =>
      if 0x80 ≤ a ∨ (a = 0 ∧ b < 0x80) then none else some (Bytes.toNatBE content, rest)

def naturals? : Nat → Bytes → Option (List Nat × Bytes)
  | 0, input => some ([], input)
  | count + 1, input => do
    let (n, rest) ← natural? input
    let (ns, rest) ← naturals? count rest
    pure (n :: ns, rest)

def wholeBits? (content : Bytes) : Option Bytes :=
  match content with
  | 0 :: bytes => some bytes
  | _ => none

end BootImage.Key.Der

namespace BootImage.Key.Pem

structure Section where
  label : String
  headers : List (String × String)
  content : Bytes
  deriving DecidableEq, Repr

structure RawSection where
  openLabel : Bytes
  headers : Bytes
  body : Bytes
  closeLabel : Bytes
  deriving DecidableEq, Repr

/-- Cuts the input at a marker: what stands before it and after it. `passed` is what was passed,
latest first, and `found` counts the bytes of the marker matched last. A mismatch starts the marker
afresh at the byte after it. -/
def cutAfter (marker passed : Bytes) (found : Nat) : Bytes → Option (Bytes × Bytes)
  | [] => none
  | b :: rest =>
    if marker[found]? = some b then
      if found + 1 = marker.length then some ((passed.drop found).reverse, rest)
      else cutAfter marker (b :: passed) (found + 1) rest
    else cutAfter marker (b :: passed) 0 rest

def cutAt (marker : String) (input : Bytes) : Option (Bytes × Bytes) :=
  cutAfter (Bytes.ofText marker) [] 0 input

def skipBlank (input : Bytes) : Bytes :=
  input.dropWhile fun b => b == 0x20 || b == 0x09 || b == 0x0a || b == 0x0d

/-- Headers end at the first empty line; without one there are none. -/
def splitHeaders (body : Bytes) : Bytes × Bytes :=
  match cutAt "\n\n" body with
  | some parts => parts
  | none => (cutAt "\r\n\r\n" body).getD ([], body)

def rawSection? (input : Bytes) : Option (RawSection × Bytes) := do
  let (_, input) ← cutAt "-----BEGIN " input
  let (openLabel, input) ← cutAt "-----" input
  let (body, input) ← cutAt "-----END " (skipBlank input)
  let (closeLabel, input) ← cutAt "-----" input
  let (headers, body) := splitHeaders body
  pure (⟨openLabel, headers, body, closeLabel⟩, skipBlank input)

/-- All sections, as long as the input gets shorter. -/
def rawSections (input : Bytes) : List RawSection :=
  match rawSection? input with
  | none => []
  | some (found, rest) =>
    if rest.length < input.length then found :: rawSections rest else [found]
termination_by input.length

def isTrailing (c : Char) : Bool := Text.isBlank c && !(0x1c ≤ c.toNat && c.toNat ≤ 0x1f)

def trimEnd (line : List Char) : List Char := (line.reverse.dropWhile isTrailing).reverse

def trim (line : List Char) : List Char := trimEnd (line.dropWhile isTrailing)

def textLines (text : List Char) : List (List Char) :=
  let lines := (text.splitOn '\n').map trimEnd
  if lines.getLast? = some [] then lines.dropLast else lines

def header? (line : List Char) : Option (String × String) :=
  if line.contains ':' then
    some (String.ofList (trim (line.takeWhile (· ≠ ':'))),
      String.ofList (trim (line.dropWhile (· ≠ ':')).tail))
  else none

namespace RawSection

def section? (raw : RawSection) : Option Section := do
  let label ← Text.decodeUtf8 raw.openLabel
  let closing ← Text.decodeUtf8 raw.closeLabel
  let body ← Text.decodeUtf8 raw.body
  let headers ← Text.decodeUtf8 raw.headers
  if label.isEmpty || label != closing then none
  else
    let content ← Base64.decodeStrict? (Bytes.ofText (String.ofList (textLines body).flatten))
    let headers ← (textLines headers).mapM header?
    pure ⟨String.ofList label, headers, content⟩

end RawSection

def sections? (file : Bytes) : Option (List Section) :=
  match rawSections file with
  | [] => none
  | raws => raws.mapM RawSection.section?

def first? (file : Bytes) : Option Section := do
  let (raw, _) ← rawSection? file
  raw.section?

def Section.header? (s : Section) (name : String) : Option String :=
  (s.headers.find? fun entry => entry.1 == name).map (·.2)

end BootImage.Key.Pem

namespace BootImage.Key

open Der

/-- Kinds of keys other than RSA, private or public. A reader that knows more of them than the ones
below gives the name of their type. -/
inductive KeyKind where
  | ecPrivate
  | ecPublic
  | ed25519Private
  | ed25519Public
  | named (typeName : String)
  deriving DecidableEq, Repr

inductive PrivateKey where
  | rsa (key : RsaKey)
  | other (kind : KeyKind)
  deriving DecidableEq, Repr

inductive PublicKey where
  | rsa
  | other (kind : KeyKind)
  deriving DecidableEq, Repr

namespace Object

def rsa : Bytes := [0x2a, 0x86, 0x48, 0x86, 0xf7, 0x0d, 0x01, 0x01, 0x01]
def ec : Bytes := [0x2a, 0x86, 0x48, 0xce, 0x3d, 0x02, 0x01]
def ed25519 : Bytes := [0x2b, 0x65, 0x70]
def pbes2 : Bytes := [0x2a, 0x86, 0x48, 0x86, 0xf7, 0x0d, 0x01, 0x05, 0x0d]
def pbkdf2 : Bytes := [0x2a, 0x86, 0x48, 0x86, 0xf7, 0x0d, 0x01, 0x05, 0x0c]
def hmacSha256 : Bytes := [0x2a, 0x86, 0x48, 0x86, 0xf7, 0x0d, 0x02, 0x09]

def aesCbc : List (Bytes × Nat) :=
  [([0x60, 0x86, 0x48, 0x01, 0x65, 0x03, 0x04, 0x01, 0x02], 16),
   ([0x60, 0x86, 0x48, 0x01, 0x65, 0x03, 0x04, 0x01, 0x16], 24),
   ([0x60, 0x86, 0x48, 0x01, 0x65, 0x03, 0x04, 0x01, 0x2a], 32)]

/-- The curves P-192, P-224, P-256, P-384, P-521 and K-256. -/
def curves : List Bytes :=
  [[0x2a, 0x86, 0x48, 0xce, 0x3d, 0x03, 0x01, 0x01], [0x2b, 0x81, 0x04, 0x00, 0x21],
   [0x2a, 0x86, 0x48, 0xce, 0x3d, 0x03, 0x01, 0x07], [0x2b, 0x81, 0x04, 0x00, 0x22],
   [0x2b, 0x81, 0x04, 0x00, 0x23], [0x2b, 0x81, 0x04, 0x00, 0x0a]]

end Object

def algorithm? (input : Bytes) : Option ((Bytes × Bytes) × Bytes) := do
  let (content, rest) ← element? sequenceTag input
  let (name, parameters) ← element? objectTag content
  pure ((name, parameters), rest)

def isNamedCurve (parameters : Bytes) : Bool :=
  match only? objectTag parameters with
  | some name => Object.curves.contains name
  | none => false

def isNullOrAbsent (parameters : Bytes) : Bool := parameters == [] || parameters == [nullTag, 0]

def rsaPrivate? (input : Bytes) : Option PrivateKey := do
  let content ← only? sequenceTag input
  let (version, content) ← natural? content
  let (ns, rest) ← naturals? 8 content
  match version, ns, rest with
  | 0, [modulus, publicExponent, privateExponent, p, q, exponentP, exponentQ, coefficient], [] =>
    let parts : RsaParts :=
      ⟨modulus, publicExponent, privateExponent, p, q, exponentP, exponentQ, coefficient⟩
    if parts.isConsistent then some (.rsa parts.key) else none
  | _, _, _ => none

def curveTag : UInt8 := 0xa0
def pointTag : UInt8 := 0xa1

/-- The curve may be named in the key or beside it. -/
def ecPrivate? (curveKnown : Bool) (input : Bytes) : Option PrivateKey := do
  let content ← only? sequenceTag input
  let (version, content) ← natural? content
  let (scalar, content) ← element? octetStringTag content
  let (named, content) := match element? curveTag content with
    | some (curve, rest) => (isNamedCurve curve, rest)
    | none => (curveKnown, content)
  let rest := match element? pointTag content with
    | some (_, rest) => rest
    | none => content
  if version = 1 ∧ named ∧ rest = [] ∧ Bytes.toNatBE scalar ≠ 0 then
    some (.other .ecPrivate)
  else none

def wrappedPrivate? (input : Bytes) : Option PrivateKey := do
  let content ← only? sequenceTag input
  let (version, content) ← natural? content
  let ((name, parameters), content) ← algorithm? content
  let (key, rest) ← element? octetStringTag content
  let attributesOnly := rest = [] ∨ (only? curveTag rest).isSome
  if version ≠ 0 ∨ ¬attributesOnly then none
  else if name = Object.rsa then
    if isNullOrAbsent parameters then rsaPrivate? key else none
  else if name = Object.ec then
    if isNamedCurve parameters then ecPrivate? true key else none
  else if name = Object.ed25519 then
    match parameters, only? octetStringTag key with
    | [], some seed => if seed.length = 32 then some (.other .ed25519Private) else none
    | _, _ => none
  else none

structure Encryption where
  salt : Bytes
  iterations : Nat
  keyLength : Nat
  iv : Bytes
  text : Bytes
  deriving DecidableEq, Repr

/-- Salt and iterations of a key derivation; a key length may be stated, and the keyed digest has
to be HMAC-SHA256. -/
def derivation? (parameters : Bytes) : Option (Bytes × Nat) := do
  let content ← only? sequenceTag parameters
  let (salt, content) ← element? octetStringTag content
  let (iterations, content) ← natural? content
  let content := match natural? content with
    | some (_, rest) => rest
    | none => content
  let ((name, parameters), rest) ← algorithm? content
  if name = Object.hmacSha256 ∧ isNullOrAbsent parameters ∧ rest = [] then
    some (salt, iterations)
  else none

def encryption? (input : Bytes) : Option Encryption := do
  let content ← only? sequenceTag input
  let ((scheme, parameters), content) ← algorithm? content
  let text ← only? octetStringTag content
  let parameters ← only? sequenceTag parameters
  let ((function, functionParameters), parameters) ← algorithm? parameters
  let ((cipher, cipherParameters), rest) ← algorithm? parameters
  let (salt, iterations) ← derivation? functionParameters
  let keyLength ← Object.aesCbc.lookup cipher
  let iv ← only? octetStringTag cipherParameters
  if scheme = Object.pbes2 ∧ function = Object.pbkdf2 ∧ rest = [] then
    some ⟨salt, iterations, keyLength, iv, text⟩
  else none

def Encryption.open? (e : Encryption) (passphrase : Bytes) : Option Bytes :=
  Cipher.Aes.decrypt? (Cipher.pbkdf2 passphrase e.salt e.iterations e.keyLength) e.iv e.text

def rsaPublic? (input : Bytes) : Option PublicKey := do
  let content ← only? sequenceTag input
  let (_, rest) ← naturals? 2 content
  if rest = [] then some .rsa else none

def wrappedPublic? (input : Bytes) : Option PublicKey := do
  let content ← only? sequenceTag input
  let ((name, parameters), content) ← algorithm? content
  let bits ← only? bitStringTag content
  let key ← wholeBits? bits
  if name = Object.rsa then
    if isNullOrAbsent parameters then rsaPublic? key else none
  else if name = Object.ec then
    if isNamedCurve parameters ∧ key ≠ [] then some (.other .ecPublic) else none
  else if name = Object.ed25519 then
    if parameters = [] ∧ key.length = 32 then some (.other .ed25519Public) else none
  else none

end BootImage.Key
