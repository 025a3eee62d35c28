import BootImage.Bytes
import BootImage.FileStore
import BootImage.Text.Characters

/-! The header of an executable: a magic number, the size of the words that follow, and the checksum
that brings their sum to zero, twelve bytes in all. An inspection reads the header of a file, checks
it against the payload, writes it to a file on request, and prints it unless it is silent; then the
command ends with a status instead of an answer. -/

namespace BootImage

structure Header where
  signature : Int
  size : Int
  checksum : Int
  deriving DecidableEq, Repr

structure Checks where
  signature : Bool
  size : Bool
  checksum : Bool
  deriving DecidableEq, Repr

namespace Header

def magic : Nat := 0x4788cafe

def byteSize : Nat := 12

def numbers (ws : List UInt32) : List Int := ws.map fun w => w.toNat

def ofWords (ws : List UInt32) : Header where
  signature := magic
  size := Word.size * ws.length
  checksum := Word.sumComplement (numbers ws)

def field? (n : Int) : Option Bytes :=
  if 0 ≤ n ∧ n < Word.modulus then some (Bytes.ofNatLE Word.size n.toNat) else none

def toBytes? (h : Header) : Option Bytes :=
  match field? h.signature, field? h.size, field? h.checksum with
  | some a, some b, some c => some (a ++ b ++ c)
  | _, _, _ => none

/-- The header at the front of a file, and the payload after it. -/
def ofBytes? (file : Bytes) : Option (Header × Bytes) :=
  if file.length < byteSize then none
  else
    let field := fun i => (Bytes.toNatLE ((file.drop (4 * i)).take 4) : Int)
    some (⟨field 0, field 1, field 2⟩, file.drop byteSize)

def wholeWords (payload : Bytes) : List UInt32 :=
  Word.split (payload.take (payload.length / 4 * 4))

def check (h : Header) (payload : Bytes) : Checks where
  signature := h.signature == magic
  size := h.size == payload.length
  checksum := (Word.total (numbers (wholeWords payload)) + h.checksum) % Word.modulus == 0

/-- The fields by name, in the order in which they stand and are printed. -/
def fields (h : Header) : List (String × Int) :=
  [("signature", h.signature), ("size", h.size), ("checksum", h.checksum)]

/-- Reads named fields; the first one missing is named. -/
def ofFields (field : String → Option Int) : Except String Header :=
  match field "signature" with
  | none => .error "signature"
  | some signature =>
    match field "size" with
    | none => .error "size"
    | some size =>
      match field "checksum" with
      | none => .error "checksum"
      | some checksum => .ok ⟨signature, size, checksum⟩

end Header

namespace Checks

def fields (c : Checks) : List (String × Bool) :=
  [("signature", c.signature), ("size", c.size), ("checksum", c.checksum)]

def all (c : Checks) : Bool := c.signature && c.size && c.checksum

end Checks

end BootImage

namespace BootImage.Inspection

inductive InspectionError where
  | notFound (path : String)
  | tooSmall
  | file (cause : FileError)
  | silentStatus (status : Nat)
  deriving DecidableEq, Repr

def InspectionError.message : InspectionError → String
  | .notFound path => s!"Image file not found ({path})"
  | .tooSmall => s!"File too small, no {Header.byteSize}-byte header present"
  | .file cause => cause.message
  | .silentStatus _ => ""

def rowWidth : Nat := 60

def row (text : String) : String :=
  let opening := "#### " ++ text ++ " "
  opening ++ String.ofList (List.replicate (rowWidth - opening.length) '#') ++ "\n"

def spaces (n : Nat) : String := String.ofList (List.replicate n ' ')

def fieldLine (name : String) (value : Int) (valid : Bool) : String :=
  name ++ ":" ++ spaces (19 - name.length) ++ "0x" ++ Text.hex 8 value.toNat ++ " " ++
    (if valid then "OK" else "INVALID") ++ "\n"

def report (path : String) (header : Header) (payload : Bytes) (checks : Checks) : String :=
  "Printing content of executable: " ++ FileName.baseName path ++ " \n\n" ++
  row "Executable header (offset: 0x0)" ++
  String.join ((header.fields.zip checks.fields).map fun entry =>
    fieldLine entry.1.1 entry.1.2 entry.2.2) ++
  String.ofList (List.replicate rowWidth '#') ++ "\n" ++
  row ("Payload (offset: 0x" ++ Text.hex 1 Header.byteSize ++ ")") ++
  "size:" ++ spaces 16 ++ "0x" ++ Text.hex 1 payload.length ++ "\n" ++
  (if payload.length % Word.size = 0 then ""
    else "Warning: payload size is not a multiple of 4 bytes!\n") ++
  row "End of Image"

def truth (b : Bool) : String := if b then "true" else "false"

/-- The header, the size of the payload and the checks as a YAML mapping. -/
def yaml (header : Header) (payload : Bytes) (checks : Checks) : String :=
  "header:\n" ++
  String.join (header.fields.map fun entry => s!"  {entry.1}: {entry.2}\n") ++
  s!"payload_size: {payload.length}\n" ++
  "checks:\n" ++
  String.join (checks.fields.map fun entry => s!"  {entry.1}: {truth entry.2}\n")

structure Result where
  outcome : Except InspectionError Checks
  printed : String := ""
  files : FileStore

def readHeader (files : FileStore) (path : String) : Except InspectionError (Header × Bytes) :=
  match files.read path with
  | .error .embeddedNul => .error (.file .embeddedNul)
  | .error (.os cause) =>
    if cause.code = OsError.notFoundCode then .error (.notFound path)
    else .error (.file (.os cause))
  | .ok content =>
    match Header.ofBytes? content with
    | none => .error .tooSmall
    | some parts => .ok parts

def conclude (files : FileStore) (path : String) (header : Header) (payload : Bytes)
    (silent : Bool) : Result :=
  let checks := header.check payload
  if silent then { outcome := .error (.silentStatus (if checks.all then 0 else 1)), files }
  else { outcome := .ok checks, printed := report path header payload checks, files }

def inspect (files : FileStore) (path : String) (outfile : Option String) (silent : Bool) : Result :=
  match readHeader files path with
  | .error e => { outcome := .error e, files }
  | .ok (header, payload) =>
    match outfile with
    | none => conclude files path header payload silent
    | some outfile =>
      let written := Bytes.ofText (yaml header payload (header.check payload))
      match files.write outfile written with
      | .error cause => { outcome := .error (.file cause), files := files.afterWrite outfile written }
      | .ok files => conclude files path header payload silent

end BootImage.Inspection
