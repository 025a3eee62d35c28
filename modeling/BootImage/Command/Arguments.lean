import BootImage.Image.Listing
import BootImage.Text.Characters

/-! Command line arguments. A command declares options and operands; its arguments are scanned from
left to right, options and operands mixed, and then checked: options in the order in which they were
given, operands, and last the options that were not given. A misspelt name gets suggestions, closest
first: two words are as similar as their common runs are long. -/

namespace BootImage.Text

def commonLength : List Char → List Char → Nat
  | a :: as, b :: bs => if a = b then commonLength as bs + 1 else 0
  | _, _ => 0

def longerRun (best next : Nat × Nat × Nat) : Nat × Nat × Nat := if best.1 < next.1 then next else best

/-- The longest common run: its length, and where it starts in either text. -/
def longestRun (as bs : List Char) : Nat × Nat × Nat :=
  ((List.range as.length).flatMap fun i => (List.range bs.length).map fun j =>
    (commonLength (as.drop i) (bs.drop j), i, j)).foldl longerRun (0, 0, 0)

/-- Characters in common runs; `fuel` bounds the runs taken. -/
def sharedCount : Nat → List Char → List Char → Nat
  | 0, _, _ => 0
  | fuel + 1, as, bs =>
    match longestRun as bs with
    | (0, _, _) => 0
    | (n, i, j) =>
      n + sharedCount fuel (as.take i) (bs.take j) + sharedCount fuel (as.drop (i + n)) (bs.drop (j + n))

def similarity (as bs : List Char) : Nat × Nat :=
  (2 * sharedCount as.length as bs, as.length + bs.length)

def isClose (score : Nat × Nat) : Bool := 6 * score.2 ≤ 10 * score.1

def goesBefore (x y : (Nat × Nat) × String) : Bool :=
  let left := x.1.1 * y.1.2
  let right := y.1.1 * x.1.2
  right < left || (left == right && y.2 ≤ x.2)

/-- At most three candidates close to a word, closest first. -/
def closest (word : String) (candidates : List String) : List String :=
  let scored := candidates.map fun c => (similarity c.toList word.toList, c)
  (((scored.filter fun entry => isClose entry.1).mergeSort goesBefore).take 3).map (·.2)

end BootImage.Text

namespace BootImage.Command

structure OptionSpec where
  short : Option Char := none
  long : String
  takesValue : Bool := true
  required : Bool := false
  choices : List String := []
  deriving DecidableEq, Repr

structure OperandSpec where
  name : String
  required : Bool := true
  deriving DecidableEq, Repr

structure CommandSpec where
  name : String
  options : List OptionSpec
  operands : List OperandSpec
  deriving DecidableEq, Repr

inductive ArgumentError where
  | noSuchOption (name : String) (close : List String)
  | needsValue (name : String)
  | takesNoValue (name : String)
  | missingOperand (name : String)
  | missingOption (option : OptionSpec)
  | invalidChoice (option : OptionSpec) (value : String)
  | extraOperands (operands : List String)
  | noSuchCommand (name : String) (close : List String)
  deriving DecidableEq, Repr

namespace OptionSpec

def longName (o : OptionSpec) : String := "--" ++ o.long

def names (o : OptionSpec) : List String :=
  match o.short with
  | some c => [String.ofList ['-', c], o.longName]
  | none => [o.longName]

def label (o : OptionSpec) : String :=
  String.intercalate " / " (o.names.map Text.quoted)

end OptionSpec

namespace ArgumentError

def quotedList (names : List String) : String :=
  String.intercalate ", " (names.map Text.quoted)

/-- Several suggestions are listed in order of their names. -/
def suggestion (close : List String) : String :=
  match close.mergeSort with
  | [] => ""
  | [name] => s!" Did you mean {Text.quoted name}?"
  | names => s!" (Did you mean one of: {quotedList names}?)"

def choiceLines (choices : List String) : String :=
  String.intercalate ",\n" (choices.map fun c => "\t" ++ c)

def message : ArgumentError → String
  | noSuchOption name close => s!"No such option {Text.quoted name}.{suggestion close}"
  | needsValue name => s!"Option {Text.quoted name} requires an argument."
  | takesNoValue name => s!"Option {Text.quoted name} does not take a value."
  | missingOperand name => s!"Missing argument '{name}'."
  | missingOption option =>
    if option.choices.isEmpty then s!"Missing option {option.label}."
    else s!"Missing option {option.label}. Choose from:\n{choiceLines option.choices}"
  | invalidChoice option value =>
    s!"Invalid value for {option.label}: {Text.quoted value} is not one of {quotedList option.choices}."
  | extraOperands [operand] => s!"Got unexpected extra argument ({operand})"
  | extraOperands operands =>
    "Got unexpected extra arguments (" ++ String.intercalate " " operands ++ ")"
  | noSuchCommand name close => s!"No such command {Text.quoted name}.{suggestion close}"

end ArgumentError

structure Setting where
  option : OptionSpec
  value : String := ""
  deriving DecidableEq, Repr

structure Scanned where
  settings : List Setting := []
  operands : List String := []
  deriving DecidableEq, Repr

structure Waiting where
  option : OptionSpec
  name : String
  deriving DecidableEq, Repr

abbrev Reading := List Setting × Option Waiting

/-- The letters after a single dash: flags, up to an option that takes the remaining letters or,
if there are none, the next argument as its value. -/
def readLetters (options : List OptionSpec) : List Char → Except ArgumentError Reading
  | [] => .ok ([], none)
  | c :: rest =>
    match options.find? fun o => o.short == some c with
    | none => .error (.noSuchOption (String.ofList ['-', c]) [])
    | some o =>
      if o.takesValue then
        if rest.isEmpty then .ok ([], some ⟨o, String.ofList ['-', c]⟩)
        else .ok ([⟨o, String.ofList rest⟩], none)
      else (readLetters options rest).map fun (settings, waiting) => (⟨o, ""⟩ :: settings, waiting)

def readLong (o : OptionSpec) (value : Option String) : Except ArgumentError Reading :=
  match o.takesValue, value with
  | true, some value => .ok ([⟨o, value⟩], none)
  | true, none => .ok ([], some ⟨o, o.longName⟩)
  | false, some _ => .error (.takesNoValue o.longName)
  | false, none => .ok ([⟨o, ""⟩], none)

def readOption (options : List OptionSpec) (argument : List Char) : Except ArgumentError Reading :=
  let name := String.ofList (argument.takeWhile (· ≠ '='))
  let value := if argument.contains '=' then
    some (String.ofList (argument.dropWhile (· ≠ '=')).tail) else none
  match options.find? fun o => o.longName == name with
  | some o => readLong o value
  | none =>
    match argument with
    | '-' :: '-' :: _ => .error (.noSuchOption name (Text.closest name (options.map (·.longName))))
    | _ => readLetters options argument.tail

/-- With `mixed` operands, options may follow operands; otherwise the first operand ends the
options, as the argument `--` always does. -/
def scan (options : List OptionSpec) (mixed : Bool) :
    Option Waiting → Scanned → List String → Except ArgumentError Scanned
  | none, seen, [] => .ok seen
  | some waiting, _, [] => .error (.needsValue waiting.name)
  | some waiting, seen, value :: rest =>
    scan options mixed none { seen with settings := seen.settings ++ [⟨waiting.option, value⟩] } rest
  | none, seen, argument :: rest =>
    if argument = "--" then .ok { seen with operands := seen.operands ++ rest }
    else match argument.toList with
    | '-' :: c :: cs =>
      match readOption options ('-' :: c :: cs) with
      | .error e => .error e
      | .ok (settings, waiting) =>
        scan options mixed waiting { seen with settings := seen.settings ++ settings } rest
    | _ =>
      if mixed then
        scan options mixed none { seen with operands := seen.operands ++ [argument] } rest
      else .ok { seen with operands := seen.operands ++ argument :: rest }

namespace Scanned

def value? (s : Scanned) (long : String) : Option String :=
  ((s.settings.reverse.find? fun setting => setting.option.long == long)).map (·.value)

def isGiven (s : Scanned) (long : String) : Bool :=
  s.settings.any fun setting => setting.option.long == long

def operand? (s : Scanned) (i : Nat) : Option String := s.operands[i]?

def checkGiven (s : Scanned) (setting : Setting) : Except ArgumentError Unit :=
  let value := (s.value? setting.option.long).getD ""
  if setting.option.choices.isEmpty || setting.option.choices.contains value then .ok ()
  else .error (.invalidChoice setting.option value)

def checkOperand (s : Scanned) (entry : OperandSpec × Nat) : Except ArgumentError Unit :=
  if entry.1.required ∧ (s.operand? entry.2).isNone then .error (.missingOperand entry.1.name)
  else .ok ()

def checkAbsent (s : Scanned) (option : OptionSpec) : Except ArgumentError Unit :=
  if option.required && !s.isGiven option.long then .error (.missingOption option) else .ok ()

def check (s : Scanned) (spec : CommandSpec) : Except ArgumentError Unit := do
  s.settings.forM s.checkGiven
  spec.operands.zipIdx.forM s.checkOperand
  spec.options.forM s.checkAbsent
  if spec.operands.length < s.operands.length then
    throw (.extraOperands (s.operands.drop spec.operands.length))

end Scanned

def programName : String := "neoimg"

def versionText : String := "1.0.0"

def defaultKeyFile : String := "rsa_private.pem"

inductive Encoding where
  | hex
  | raw
  | words
  deriving DecidableEq, Repr

namespace Encoding

def all : List Encoding := [hex, raw, words]

def name : Encoding → String
  | hex => "hex"
  | raw => "raw"
  | words => "words"

def ofName? (name : String) : Option Encoding := all.find? fun encoding => encoding.name == name

end Encoding

inductive CommandName where
  | generate
  | digest
  | dumpinfo
  | version
  deriving DecidableEq, Repr

namespace CommandName

def all : List CommandName := [generate, digest, dumpinfo, version]

def name : CommandName → String
  | generate => "generate"
  | digest => "digest"
  | dumpinfo => "dumpinfo"
  | version => "version"

def aliases : List (String × CommandName) := [("gen", generate)]

def ofName? (name : String) : Option CommandName :=
  (all.find? fun command => command.name == name) <|> aliases.lookup name

def names : List String := (all.map name ++ aliases.map (·.1)).mergeSort

end CommandName

def help : OptionSpec := { short := some 'h', long := "help", takesValue := false }

def format : OptionSpec :=
  { short := some 'f', long := "format", required := true, choices := Format.all.map Format.name }

def encoding : OptionSpec :=
  { short := some 'e', long := "encoding", choices := Encoding.all.map Encoding.name }

/-- Options and operands in the order in which they are checked. -/
def CommandName.spec (command : CommandName) : CommandSpec where
  name := command.name
  options := match command with
    | .generate =>
      [format, { short := some 'k', long := "key" }, { long := "openssl", takesValue := false },
        { long := "fix-sig" }, { long := "sig-out" }, help]
    | .digest => [{ short := some 'o', long := "output" }, encoding, help]
    | .dumpinfo =>
      [{ short := some 's', long := "silent", takesValue := false },
        { short := some 'o', long := "outfile" }, help]
    | .version => [help]
  operands := match command with
    | .generate => [⟨"INFILE", true⟩, ⟨"OUTFILE", true⟩, ⟨"PROJECT", false⟩]
    | .digest => [⟨"INFILE", true⟩]
    | .dumpinfo => [⟨"IMGFILE", true⟩]
    | .version => []

def OperandSpec.usage (o : OperandSpec) : String := if o.required then o.name else s!"[{o.name}]"

def CommandSpec.usage (spec : CommandSpec) (typed : String) : String :=
  String.intercalate " " ([programName, typed, "[OPTIONS]"] ++ spec.operands.map OperandSpec.usage)

def groupUsage : String := s!"{programName} [OPTIONS] COMMAND [ARGS]..."

end BootImage.Command
