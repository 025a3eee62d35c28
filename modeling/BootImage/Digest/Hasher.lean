import BootImage.Digest.Basic
import BootImage.Text.Characters

/-! What may be offered to a digest, and incremental digests. Only byte strings have a digest; any
other value is turned down with the word for its kind. A hasher keeps the state after the full
blocks it has been given, the tail that does not fill a block, and the number of bytes so far.
Reading the digest frames the tail and leaves the hasher as it was. -/

namespace BootImage.Digest

inductive Offer where
  | bytes (content : Bytes)
  | text (content : String)
  | integer (value : Int)
  | fraction (isZero : Bool)
  | truth (value : Bool)
  | nothing
  | list (isEmpty : Bool)
  | table (isEmpty : Bool)
  deriving DecidableEq, Repr

inductive Refusal where
  | notBytes (kind : String)
  | blockNotBytes (kind : String)
  | blockLength
  | tooFewRegisters (count : Nat)
  | tooManyRegisters
  | negativeShift
  | unknownHasher (name : String)
  deriving DecidableEq, Repr

namespace Offer

def kind : Offer → String
  | .bytes _ => "bytes"
  | .text _ => "str"
  | .integer _ => "int"
  | .fraction _ => "float"
  | .truth _ => "bool"
  | .nothing => "NoneType"
  | .list _ => "list"
  | .table _ => "dict"

/-- Blank offers stand for no data at all where data is optional. -/
def isBlank : Offer → Bool
  | .bytes content => content.isEmpty
  | .text content => content.isEmpty
  | .integer value => value == 0
  | .fraction isZero => isZero
  | .truth value => !value
  | .nothing => true
  | .list isEmpty => isEmpty
  | .table isEmpty => isEmpty

def bytes? : Offer → Except Refusal Bytes
  | .bytes content => .ok content
  | other => .error (.notBytes other.kind)

end Offer

def Refusal.message : Refusal → String
  | .notBytes kind => s!"memoryview: a bytes-like object is required, not '{kind}'"
  | .blockNotBytes kind => s!"a bytes-like object is required, not '{kind}'"
  | .blockLength => "unpack requires a buffer of 64 bytes"
  | .tooFewRegisters count => s!"not enough values to unpack (expected 8, got {count})"
  | .tooManyRegisters => "too many values to unpack (expected 8)"
  | .negativeShift => "negative shift count"
  | .unknownHasher name => Text.quoted name

/-- Rotation by any amount; both of its shifts have to be by at least zero. -/
def rotr? (x n : Int) : Except Refusal Int :=
  if 0 ≤ n ∧ n ≤ 32 then .ok (rotr x n.toNat) else .error .negativeShift

def schedule? : Offer → Except Refusal (List Int)
  | .bytes block => if block.length = blockSize then .ok (scheduleOf block) else .error .blockLength
  | other => .error (.blockNotBytes other.kind)

def compress? (state schedule : List Int) : Except Refusal Registers :=
  match Registers.ofList? state with
  | some r => .ok (compress r schedule)
  | none =>
    if state.length < 8 then .error (.tooFewRegisters state.length) else .error .tooManyRegisters

def blocks? (offer : Offer) : Except Refusal (List Bytes) := offer.bytes?.map blocks

def words? (offer : Offer) : Except Refusal Registers := offer.bytes?.map words

structure Hasher where
  registers : Registers := .initial
  pending : Bytes := []
  length : Nat := 0
  deriving DecidableEq, Repr

namespace Hasher

def algorithm : String := "sha256"

def update (h : Hasher) (data : Bytes) : Hasher :=
  let buffer := h.pending ++ data
  let full := buffer.length - buffer.length % blockSize
  { registers := (Bytes.groups blockSize (buffer.take full)).foldl absorb h.registers
    pending := buffer.drop full
    length := h.length + data.length }

def words (h : Hasher) : Registers :=
  (Bytes.groups blockSize (h.pending ++ pad h.length)).foldl absorb h.registers

def digest (h : Hasher) : Bytes := h.words.toBytes

end Hasher

abbrev Bench := String → Option Hasher

namespace Bench

def empty : Bench := fun _ => none

def set (bench : Bench) (name : String) (h : Hasher) : Bench :=
  fun other => if other = name then some h else bench other

end Bench

inductive HasherEvent where
  | create (name : String) (data : Option Offer)
  | update (name : String) (data : Offer)
  | copy (name target : String)
  | readDigest (name : String)
  | readHex (name : String)
  | readWords (name : String)
  | readAttributes (name : String)
  deriving DecidableEq, Repr

inductive HasherReply where
  | done
  | digest (bytes : Bytes)
  | hex (text : String)
  | words (registers : Registers)
  | attributes (algorithm : String) (digestSize blockSize : Nat)
  deriving DecidableEq, Repr

namespace Bench

def find (bench : Bench) (name : String) : Except Refusal Hasher :=
  match bench name with
  | some h => .ok h
  | none => .error (.unknownHasher name)

/-- A blank offer creates an empty hasher, whatever its kind. -/
def created (data : Option Offer) : Except Refusal Hasher :=
  match data with
  | none => .ok {}
  | some offer =>
    if offer.isBlank then .ok {} else offer.bytes?.map fun content => Hasher.update {} content

def stored (bench : Bench) : HasherEvent → Except Refusal (Option (String × Hasher))
  | .create name data => (created data).map fun h => some (name, h)
  | .update name data => do
    let h ← bench.find name
    let content ← data.bytes?
    pure (some (name, h.update content))
  | .copy name target => (bench.find name).map fun h => some (target, h)
  | _ => .ok none

def reply (bench : Bench) : HasherEvent → Except Refusal HasherReply
  | .readDigest name => (bench.find name).map fun h => .digest h.digest
  | .readHex name => (bench.find name).map fun h => .hex h.digest.toHex
  | .readWords name => (bench.find name).map fun h => .words h.words
  | .readAttributes name => (bench.find name).map fun _ =>
      .attributes Hasher.algorithm size blockSize
  | _ => .ok .done

/-- An event that fails leaves every hasher as it was. -/
def next (bench : Bench) (event : HasherEvent) : Bench × Except Refusal HasherReply :=
  match bench.stored event with
  | .error refusal => (bench, .error refusal)
  | .ok none => (bench, bench.reply event)
  | .ok (some (name, h)) => (bench.set name h, .ok .done)

end Bench

end BootImage.Digest
