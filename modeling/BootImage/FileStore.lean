import BootImage.Bytes
import BootImage.Text.Characters

/-! A store of files and directories under one working directory. A path is walked component by
component; each step needs a directory to stand in. A file that cannot be opened stays as it is; one
that is opened for writing is emptied first, and keeps what was written until its room was used up.
Links and permissions of directories are not modelled. -/

namespace BootImage.FileName

def components (path : String) : List String :=
  (path.toList.splitOn '/').map String.ofList

def baseName (path : String) : String := (components path).getLastD ""

/-- What follows the last dot of a reversed base name, if there is a dot after a name. -/
def extensionOf (reversedBase : List Char) : List Char :=
  match reversedBase.dropWhile (· ≠ '.') with
  | [] => []
  | _ :: reversedStem =>
    if reversedStem.all (· = '.') then [] else (reversedBase.takeWhile (· ≠ '.')).reverse

def extension (path : String) : String :=
  String.ofList (extensionOf (baseName path).toList.reverse)

def isHex (path : String) : Bool := (extension path).toList.map Char.toLower == ['h', 'e', 'x']

end BootImage.FileName

namespace BootImage

/-- A failure of the operating system; the path is missing when it is not about a file. -/
structure OsError where
  code : Int
  reason : String
  path : Option String := none
  deriving DecidableEq, Repr

namespace OsError

def message (e : OsError) : String :=
  let text := s!"[Errno {e.code}] {e.reason}"
  match e.path with
  | none => text
  | some path => text ++ ": " ++ Text.quoted path

def notFoundCode : Int := 2

def notFound (path : String) : OsError := ⟨notFoundCode, "No such file or directory", some path⟩

end OsError

inductive PathFault where
  | missing
  | denied
  | notDirectory
  | isDirectory
  | nameTooLong
  deriving DecidableEq, Repr

def PathFault.osError (path : String) : PathFault → OsError
  | .missing => .notFound path
  | .denied => ⟨13, "Permission denied", some path⟩
  | .notDirectory => ⟨20, "Not a directory", some path⟩
  | .isDirectory => ⟨21, "Is a directory", some path⟩
  | .nameTooLong => ⟨36, "File name too long", some path⟩

inductive FileError where
  | os (cause : OsError)
  | embeddedNul
  deriving DecidableEq, Repr

def FileError.message : FileError → String
  | .os cause => cause.message
  | .embeddedNul => "embedded null byte"

inductive Node where
  | file (content : Bytes)
  | directory
  | locked
  deriving DecidableEq, Repr

def Node.content : Option Node → Except PathFault Bytes
  | some (.file bytes) => .ok bytes
  | some .directory => .error .isDirectory
  | some .locked => .error .denied
  | none => .error .missing

/-- Where a node is: the names from the working directory on, or from the root after a slash. -/
abbrev Place := List String

/-- How much may be written to a file, and how a write fails that goes on after that: the disk is
full, or a quota is used up. -/
structure Limit where
  room : Nat
  cause : OsError
  deriving DecidableEq, Repr

/-- Some bytes of a name are no text. The strays are characters that stand for them, and that are in
no text otherwise. A text file cannot hold them. -/
structure FileStore where
  nodes : List (Place × Node) := []
  limits : List (Place × Limit) := []
  strays : List Char := []
  deriving DecidableEq, Repr

namespace FileStore

/-- Whether a text file can hold the text. A character of one byte is never a stray. -/
def encodes (store : FileStore) (text : String) : Bool :=
  store.strays.all fun c => c.toNat < 0x80 || !text.toList.contains c

def root : Place := ["/"]

def node? (store : FileStore) (place : Place) : Option Node :=
  if place = [] ∨ place = root then some .directory else store.nodes.lookup place

def nameLimit : Nat := 255

def pathLimit : Nat := 4095

def stepInto (place : Place) (name : String) : Except PathFault Place :=
  if name = "" ∨ name = "." then .ok place
  else if name = ".." then .ok (if place = root then root else place.dropLast)
  else if nameLimit < name.utf8ByteSize then .error .nameTooLong
  else .ok (place ++ [name])

/-- Where the components lead from a place; what is there at the end is not looked at. -/
def walk (store : FileStore) (place : Place) : List String → Except PathFault Place
  | [] => .ok place
  | name :: rest =>
    match store.node? place with
    | none => .error .missing
    | some .directory =>
      match stepInto place name with
      | .error fault => .error fault
      | .ok next => walk store next rest
    | some _ => .error .notDirectory

def start (path : String) : Place := if path.startsWith "/" then root else []

def resolve (store : FileStore) (path : String) : Except PathFault Place :=
  if path = "" then .error .missing
  else if pathLimit < path.utf8ByteSize then .error .nameTooLong
  else store.walk (start path) (FileName.components path)

def hasNul (path : String) : Bool := path.toList.contains (Char.ofNat 0)

def content (store : FileStore) (path : String) : Except PathFault Bytes :=
  match store.resolve path with
  | .error fault => .error fault
  | .ok place => Node.content (store.node? place)

def read (store : FileStore) (path : String) : Except FileError Bytes :=
  if hasNul path then .error .embeddedNul
  else match store.content path with
  | .ok bytes => .ok bytes
  | .error fault => .error (.os (fault.osError path))

def has (store : FileStore) (path : String) : Bool :=
  match store.resolve path with
  | .ok place => (store.node? place).isSome && !hasNul path
  | .error _ => false

def put (store : FileStore) (place : Place) (node : Node) : FileStore :=
  { store with nodes := (place, node) :: store.nodes.filter fun entry => entry.1 ≠ place }

def trimmed (names : List String) : List String := (names.reverse.dropWhile (· = "")).reverse

/-- A file to be written needs a name of its own, with nothing after it. -/
def isFileName (names : List String) : Bool :=
  let last := names.getLastD ""
  last ≠ "" && last ≠ "." && last ≠ ".."

def directoryOf (store : FileStore) (place : Place) (names : List String) :
    Except PathFault Place :=
  match store.walk place names.dropLast with
  | .error fault => .error fault
  | .ok parent =>
    match store.node? parent with
    | none => .error .missing
    | some .directory => .ok parent
    | some _ => .error .notDirectory

def writable (store : FileStore) (path : String) : Except PathFault Place :=
  let names := FileName.components path
  if path = "" then .error .missing
  else if pathLimit < path.utf8ByteSize then .error .nameTooLong
  else match store.directoryOf (start path) (trimmed names) with
  | .error fault => .error fault
  | .ok parent =>
    if !isFileName names then .error .isDirectory
    else match stepInto parent (names.getLastD "") with
    | .error fault => .error fault
    | .ok place =>
      match store.node? place with
      | some .directory => .error .isDirectory
      | some .locked => .error .denied
      | _ => .ok place

def target (store : FileStore) (path : String) : Except FileError Place :=
  if hasNul path then .error .embeddedNul
  else match store.writable path with
  | .ok place => .ok place
  | .error fault => .error (.os (fault.osError path))

def exceeded? (store : FileStore) (place : Place) (bytes : Bytes) : Option Limit :=
  (store.limits.lookup place).filter fun limit => limit.room < bytes.length

def write (store : FileStore) (path : String) (bytes : Bytes) : Except FileError FileStore :=
  match store.target path with
  | .error cause => .error cause
  | .ok place =>
    match store.exceeded? place bytes with
    | none => .ok (store.put place (.file bytes))
    | some limit => .error (.os limit.cause)

/-- What an attempt to write leaves, whether it succeeds or not. -/
def afterWrite (store : FileStore) (path : String) (bytes : Bytes) : FileStore :=
  match store.target path with
  | .error _ => store
  | .ok place =>
    match store.exceeded? place bytes with
    | none => store.put place (.file bytes)
    | some limit => store.put place (.file (bytes.take limit.room))

def changes (before after : FileStore) : List (Place × Bytes) :=
  after.nodes.filterMap fun entry =>
    match entry.2 with
    | .file bytes => if before.node? entry.1 = some (.file bytes) then none else some (entry.1, bytes)
    | _ => none

end FileStore

end BootImage
