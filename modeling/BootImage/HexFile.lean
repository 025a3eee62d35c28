import BootImage.Text.Characters
import BootImage.Text.Lines
import Std.Data.TreeMap

/-! Intel HEX records, one per line: a colon, then pairs of hexadecimal digits for a byte count, a
16-bit address, a record type, the content and a checksum that brings the sum of all bytes to zero.
The memory that a file describes has one byte per defined address. A file is read block by block, up
to its end-of-file record or to its last line. Addresses do not wrap. -/

namespace BootImage.HexFile

inductive HexError where
  | malformed (line : Nat)
  | length (line : Nat)
  | recordType (line : Nat)
  | checksum (line : Nat)
  | overlap (address line : Nat)
  | endOfFile
  | segmentBase (line : Nat)
  | linearBase (line : Nat)
  | startSegment (line : Nat)
  | startLinear (line : Nat)
  | startTwice (line : Nat)
  deriving DecidableEq, Repr

def HexError.message : HexError → String
  | .malformed line => s!"Hex file contains invalid record at line {line}"
  | .length line => s!"Record at line {line} has invalid length"
  | .recordType line => s!"Record at line {line} has invalid record type"
  | .checksum line => s!"Record at line {line} has invalid checksum"
  | .overlap address line =>
    "Hex file has data overlap at address 0x" ++
      String.ofList ((Nat.toDigits 16 address).map Char.toUpper) ++ s!" on line {line}"
  | .endOfFile => "File has invalid End-of-File record"
  | .segmentBase line => s!"Invalid Extended Segment Address Record at line {line}"
  | .linearBase line => s!"Invalid Extended Linear Address Record at line {line}"
  | .startSegment line => s!"Invalid Start Segment Address Record at line {line}"
  | .startLinear line => s!"Invalid Start Linear Address Record at line {line}"
  | .startTwice line => s!"Start Address Record appears twice at line {line}"

/-- A base is the offset in bytes that it adds to the addresses after it. -/
inductive Record where
  | data (address : Nat) (content : Bytes)
  | endOfFile
  | base (offset : Nat)
  | start
  deriving DecidableEq, Repr

namespace Record

def interpret (line kind address : Nat) (content : Bytes) : Except HexError Record :=
  match kind with
  | 0 => .ok (.data address content)
  | 1 => if content.isEmpty then .ok .endOfFile else .error .endOfFile
  | 2 =>
    if content.length = 2 ∧ address = 0 then .ok (.base (Bytes.toNatBE content * 16))
    else .error (.segmentBase line)
  | 3 => if content.length = 4 ∧ address = 0 then .ok .start else .error (.startSegment line)
  | 4 =>
    if content.length = 2 ∧ address = 0 then .ok (.base (Bytes.toNatBE content * 65536))
    else .error (.linearBase line)
  | _ => if content.length = 4 ∧ address = 0 then .ok .start else .error (.startLinear line)

def byteSum (bytes : Bytes) : Nat := (bytes.map UInt8.toNat).foldr (· + ·) 0

/-- The checks come in this order: length, type, checksum, then what the type asks for. -/
def ofBytes (line : Nat) : Bytes → Except HexError Record
  | count :: high :: low :: kind :: rest =>
    if rest.isEmpty then .error (.malformed line)
    else if rest.length ≠ count.toNat + 1 then .error (.length line)
    else if 5 < kind.toNat then .error (.recordType line)
    else if byteSum (count :: high :: low :: kind :: rest) % 256 ≠ 0 then .error (.checksum line)
    else interpret line kind.toNat (high.toNat * 256 + low.toNat) rest.dropLast
  | _ => .error (.malformed line)

def ofText (line : Nat) : List Char → Except HexError Record
  | ':' :: digits =>
    match Text.hexBytes? digits with
    | some bytes => ofBytes line bytes
    | none => .error (.malformed line)
  | _ => .error (.malformed line)

end Record

structure Memory where
  cells : Std.TreeMap Nat UInt8 := ∅
  offset : Nat := 0
  started : Bool := false

namespace Memory

def define (line : Nat) (cells : Std.TreeMap Nat UInt8) (address : Nat) :
    Bytes → Except HexError (Std.TreeMap Nat UInt8)
  | [] => .ok cells
  | b :: rest =>
    if cells.contains address then .error (.overlap address line)
    else define line (cells.insert address b) (address + 1) rest

def next (m : Memory) (line : Nat) : Record → Except HexError Memory
  | .data address content =>
    (define line m.cells (address + m.offset) content).map fun cells => { m with cells }
  | .endOfFile => .ok m
  | .base offset => .ok { m with offset }
  | .start => if m.started then .error (.startTwice line) else .ok { m with started := true }

/-- Whether reading goes on at a line number, or has met the end-of-file record. -/
inductive Progress where
  | reading (m : Memory) (line : Nat)
  | ended (m : Memory)

/-- Reads lines from a line number on; empty lines are passed over. -/
def readLines (m : Memory) (line : Nat) : List (List Char) → Except HexError Progress
  | [] => .ok (.reading m line)
  | text :: rest =>
    if text.isEmpty then readLines m (line + 1) rest
    else match Record.ofText line text with
    | .error e => .error e
    | .ok .endOfFile => .ok (.ended m)
    | .ok record =>
      match m.next line record with
      | .error e => .error e
      | .ok m => readLines m (line + 1) rest

/-- A file is at fault for not being text, or for one of its records. -/
inductive ReadError where
  | notText
  | record (cause : HexError)
  deriving DecidableEq, Repr

def readRest (m : Memory) (line : Nat) (intake : Text.Intake) : Except ReadError Memory :=
  match intake.close? with
  | none => .error .notText
  | some lines =>
    match readLines m line lines with
    | .error cause => .error (.record cause)
    | .ok (.ended m) => .ok m
    | .ok (.reading m _) => .ok m

def readBlocks (m : Memory) (line : Nat) (intake : Text.Intake) :
    List Bytes → Except ReadError Memory
  | [] => readRest m line intake
  | block :: rest =>
    match intake.take? block with
    | none => .error .notText
    | some (lines, intake) =>
      match readLines m line lines with
      | .error cause => .error (.record cause)
      | .ok (.ended m) => .ok m
      | .ok (.reading m line) => readBlocks m line intake rest

def filler : UInt8 := 0xff

def extent (m : Memory) (low high : Nat) : Bytes :=
  (List.range (high + 1 - low)).map fun i => m.cells.getD (low + i) filler

def payload (m : Memory) : Bytes :=
  match m.cells.minKey?, m.cells.maxKey? with
  | some low, some high => m.extent low high
  | _, _ => []

end Memory

def ofBytes (content : Bytes) : Except Memory.ReadError Memory :=
  Memory.readBlocks {} 1 {} (Bytes.groups Text.blockSize content)

end BootImage.HexFile
