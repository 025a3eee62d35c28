import BootImage.Command.Run
import Std.Time

/-! The program itself. The files that a command line may name are read into a store, the command
runs on the store, and the files it changed are written back. A passphrase is read only if the run
shows a prompt. No signing program is started. -/

namespace BootImage.Main

/-- Everything in an argument that may be a path: all of it, a value after an equals sign, and a
value after a short option. -/
def pathsIn (argument : String) : List String :=
  [argument, String.ofList (argument.toList.dropWhile (· ≠ '=')).tail,
    String.ofList (argument.toList.drop 2)]

/-- The path of a file and of every directory above it, outermost first. -/
def chain (path : String) : List String :=
  let names := FileName.components path
  (List.range names.length).map fun i => String.intercalate "/" (names.take (i + 1))

def pathOf (place : Place) : String :=
  match place with
  | "/" :: names => "/" ++ String.intercalate "/" names
  | names => String.intercalate "/" names

def nodeAt (path : String) : IO (Option Node) := do
  try
    return some (.file (← IO.FS.readBinFile path).data.toList)
  catch e =>
    match e with
    | .inappropriateType .. => return some .directory
    | .permissionDenied .. => return some .locked
    | _ => return none

def addNode (files : FileStore) (path : String) : IO FileStore := do
  match files.resolve path with
  | .error _ => return files
  | .ok place =>
    if (files.node? place).isSome then return files
    match ← nodeAt path with
    | some node => return files.put place node
    | none => return files

def readFiles (arguments : List String) : IO FileStore :=
  (Command.defaultKeyFile :: (arguments.flatMap pathsIn).flatMap chain).foldlM addNode {}

def clock : IO DateTime := do
  let now ← Std.Time.PlainDateTime.now
  return ⟨now.year.toInt.toNat, now.month.val.toNat, now.day.val.toNat, now.hour.val.toNat,
    now.minute.val.toNat, now.second.val.toNat⟩

def perform (arguments : List String) : IO (FileStore × Command.Outcome) := do
  let files ← readFiles arguments
  let host : Command.Host := { clock := ← clock }
  let outcome := Command.run host files arguments
  match outcome.trace.prompts with
  | [] => return (files, outcome)
  | prompt :: _ =>
    IO.eprint prompt
    let typed ← (← IO.getStdin).getLine
    let passphrase := String.ofList (typed.toList.takeWhile (· ≠ '\n'))
    return (files, Command.run { host with passphrase } files arguments)

end BootImage.Main

open BootImage in
def main (arguments : List String) : IO UInt32 := do
  let (files, outcome) ← Main.perform arguments
  for (place, bytes) in files.changes outcome.trace.files do
    IO.FS.writeBinFile (Main.pathOf place) ⟨bytes.toArray⟩
  (← IO.getStdout).write ⟨outcome.trace.printed.toArray⟩
  IO.eprint outcome.errorText
  match outcome.failure with
  | some failure => IO.eprintln failure.message
  | none => pure ()
  return outcome.exitCode.toUInt32
