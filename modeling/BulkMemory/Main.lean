import BulkMemory.Command.Arguments
import BulkMemory.Toml.Document
import BulkMemory.Tool

/-!
# The command line

The host of a machine with files, and the program on it.
-/

namespace BulkMemory
set_option autoImplicit false

/-- The file error behind an error of the system. -/
def FileError.ofSystem : IO.Error → FileError
  | .noFileOrDirectory .. => .notFound
  | .alreadyExists .. => .alreadyThere
  | .inappropriateType _ code _ => if code = 20 then .notDirectory else .isDirectory
  | .invalidArgument _ code reason => if code = 36 then .nameTooLong else .other reason
  | e => .other (toString e)

/-- Do something with files. -/
def withFiles {α : Type} (action : IO α) : IO (Except FileError α) := do
  try
    return .ok (← action)
  catch e =>
    return .error (.ofSystem e)

/-- The text of a file. -/
def readText (p : Path) : IO (Except FileError String) := do
  match ← withFiles (IO.FS.readBinFile p.text) with
  | .error e => return .error e
  | .ok bytes =>
    match String.fromUTF8? bytes with
    | some text => return .ok text
    | none => return .error .notText

/-- The host of the machine that the program runs on. -/
def machine : Host IO where
  read := readText
  createDirectories p := withFiles (IO.FS.createDirAll p.text)
  write p text := withFiles (IO.FS.writeBinFile p.text text.toUTF8)
  log e := IO.eprintln (e.level.name ++ " " ++ e.message)

end BulkMemory

open BulkMemory

/-- Run the program and say how it ended. -/
def main (words : List String) : IO UInt32 := do
  let environment ← IO.getEnv Tool.configVariable
  let result ← Tool.run machine Command.ofWords Toml.parse? Module.validate environment words
  IO.print result.output
  unless result.report.isEmpty do
    IO.eprintln result.report
  return result.code.toUInt32
