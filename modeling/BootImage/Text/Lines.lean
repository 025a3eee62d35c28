import BootImage.Bytes

/-! Bytes read as UTF-8 text, and lines of a text that is read block by block. Overlong forms,
surrogates and code points past the last one are refused; the beginning of a character at the end is
left over. A line ends at a line feed, a carriage return, or both, and is handed out by the block
that completes it; so a block that is not text spoils only the lines that it and later blocks
complete. A carriage return that ends a block waits for the next one, which may start with the line
feed that belongs to it. -/

namespace BootImage.Text

def isContinuation (b : UInt8) : Bool := 0x80 ≤ b && b ≤ 0xbf

def width? (a : UInt8) : Option Nat :=
  if a < 0x80 then some 1
  else if 0xc2 ≤ a ∧ a ≤ 0xdf then some 2
  else if 0xe0 ≤ a ∧ a ≤ 0xef then some 3
  else if 0xf0 ≤ a ∧ a ≤ 0xf4 then some 4
  else none

def admitsSecond (a b : UInt8) : Bool :=
  isContinuation b && (a != 0xe0 || 0xa0 ≤ b) && (a != 0xed || b < 0xa0) &&
    (a != 0xf0 || 0x90 ≤ b) && (a != 0xf4 || b < 0x90)

/-- Whether the bytes after a first byte can follow it, as far as they go. -/
def admits (a : UInt8) : Bytes → Bool
  | [] => true
  | b :: rest => admitsSecond a b && rest.all isContinuation

def codePoint (width : Nat) (a : UInt8) (rest : Bytes) : Nat :=
  let lead := if width = 1 then a.toNat else a.toNat % Nat.pow 2 (7 - width)
  rest.foldl (fun code b => code * 64 + b.toNat % 64) lead

/-- The characters of the bytes, after those already read (latest first), and the beginning of a
character that is left over. -/
def decodeAfter (read : List Char) (bytes : Bytes) : Option (List Char × Bytes) :=
  match bytes with
  | [] => some (read.reverse, [])
  | a :: rest =>
    match width? a with
    | none => none
    | some width =>
      let following := rest.take (width - 1)
      if !admits a following then none
      else if following.length + 1 < width then some (read.reverse, a :: rest)
      else decodeAfter (Char.ofNat (codePoint width a following) :: read) (rest.drop (width - 1))
termination_by bytes.length
decreasing_by
  simp only [List.length_drop, List.length_cons]
  omega

def decodePart (bytes : Bytes) : Option (List Char × Bytes) := decodeAfter [] bytes

def decodeUtf8 (bytes : Bytes) : Option (List Char) :=
  match decodePart bytes with
  | some (text, []) => some text
  | _ => none

def blockSize : Nat := 8192

/-- The lines of a text, after the characters of a line already begun (latest first). The last of
them has no end. -/
def linesAfter (begun : List Char) : List Char → List (List Char)
  | [] => [begun.reverse]
  | '\r' :: '\n' :: rest => begun.reverse :: linesAfter [] rest
  | '\r' :: rest => begun.reverse :: linesAfter [] rest
  | '\n' :: rest => begun.reverse :: linesAfter [] rest
  | c :: rest => linesAfter (c :: begun) rest

theorem linesAfter_crlf (begun rest : List Char) :
    linesAfter begun ('\r' :: '\n' :: rest) = begun.reverse :: linesAfter [] rest := rfl

theorem linesAfter_cr (begun : List Char) {rest : List Char} (h : rest.head? ≠ some '\n') :
    linesAfter begun ('\r' :: rest) = begun.reverse :: linesAfter [] rest := by
  rw [linesAfter]
  rintro tail rfl
  exact h rfl

theorem linesAfter_lf (begun rest : List Char) :
    linesAfter begun ('\n' :: rest) = begun.reverse :: linesAfter [] rest := rfl

theorem linesAfter_char (begun : List Char) {c : Char} (hcr : c ≠ '\r') (hlf : c ≠ '\n')
    (rest : List Char) : linesAfter begun (c :: rest) = linesAfter (c :: begun) rest := by
  rw [linesAfter]
  · rintro tail rfl
    exact absurd rfl hcr
  · exact hcr
  · exact hlf

/-- The text with a line feed at the end of each line, whatever ended it. -/
def unified (text : List Char) : List Char := ['\n'].intercalate (linesAfter [] text)

/-- What has been read and not handed out: the beginning of a character, a waiting carriage return,
and the beginning of a line. -/
structure Intake where
  tail : Bytes := []
  waiting : Bool := false
  begun : List Char := []
  deriving DecidableEq, Repr

namespace Intake

def takeText (s : Intake) (text : List Char) (tail : Bytes) : List (List Char) × Intake :=
  if text.isEmpty then ([], { s with tail })
  else
    let waiting := text.getLast? == some '\r'
    let text := if s.waiting then '\r' :: text else text
    let lines := linesAfter s.begun.reverse (if waiting then text.dropLast else text)
    (lines.dropLast, { tail, waiting, begun := lines.getLastD [] })

def take? (s : Intake) (block : Bytes) : Option (List (List Char) × Intake) :=
  (decodePart (s.tail ++ block)).map fun part => s.takeText part.1 part.2

def close? (s : Intake) : Option (List (List Char)) :=
  if s.tail = [] then some [s.begun] else none

end Intake

end BootImage.Text
