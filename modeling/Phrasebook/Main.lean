import Phrasebook.Program
import Phrasebook.Text.Width

/-!
# The command line

The program on the files of the machine and its standard streams. Copies of files get the default
permissions.
-/

namespace Phrasebook

namespace Main

/-- The reason behind a failed operation. -/
def osError : IO.Error → OsError
  | .noFileOrDirectory .. => .noEntry
  | .permissionDenied .. => .denied
  | .alreadyExists .. => .alreadyThere
  | .inappropriateType _ code _ => if code = 21 then .isDirectory else .notDirectory
  | error => .other (toString error)

/-- The result of an operation that may fail. -/
def attempt {α : Type} (action : IO α) : IO (Except OsError α) := do
  match ← action.toBaseIO with
  | .ok a => return .ok a
  | .error e => return .error (osError e)

/-- The kind of a file. -/
def entryKind : IO.FS.FileType → EntryKind
  | .file => .file
  | .dir => .directory
  | .symlink => .link
  | .other => .special

/-- Copies the bytes of a file; the target is emptied first. -/
def copyBytes (source target : String) : IO Unit := do
  let input ← IO.FS.Handle.mk source .read
  let output ← IO.FS.Handle.mk target .write
  output.write (← input.readBinToEnd)

/-- The names in a directory with their kinds. -/
def listNames (path : String) : IO (List (String × EntryKind)) := do
  let entries ← (System.mkFilePath [path]).readDir
  entries.toList.mapM fun entry => do
    return (entry.fileName, entryKind (← entry.path.symlinkMetadata).type)

instance : Storage IO where
  workingDirectory := do return ⟨(← IO.currentDir).toString⟩
  kind path := attempt do return entryKind (← (System.mkFilePath [path.text]).metadata).type
  entryKind path :=
    attempt do return entryKind (← (System.mkFilePath [path.text]).symlinkMetadata).type
  list path := attempt (listNames path.text)
  identify path := attempt do
    let _ ← IO.FS.Handle.mk path.text .read
    return ⟨(← IO.FS.realPath path.text).toString⟩
  canonical path := attempt do return ⟨(← IO.FS.realPath path.text).toString⟩
  read path := attempt (IO.FS.readBinFile path.text)
  write path bytes := attempt (IO.FS.writeBinFile path.text bytes)
  copy source target := attempt (copyBytes source.text target.text)
  makeDirectory path := attempt (IO.FS.createDir path.text)

/-- A line of the standard input. -/
def readLine : IO (Except InputError (Option String)) := do
  match ← (do (← IO.getStdin).getLine : IO String).toBaseIO with
  | .ok line => return .ok (if line.isEmpty then none else some line)
  | .error e => return .error (.other (toString e))

instance : Console IO where
  print text := do
    let output ← IO.getStdout
    output.putStr text
    output.flush
  printError text := do
    let output ← IO.getStderr
    output.putStr text
    output.flush
  readLine := readLine

/-- Colors are shown on a terminal, unless the environment says otherwise. -/
def theme : IO Theme := do
  if (← IO.getEnv "CLICOLOR_FORCE").any (· != "0") then
    return ⟨true⟩
  if (← IO.getEnv "NO_COLOR").isSome || (← IO.getEnv "CLICOLOR") = some "0" then
    return ⟨false⟩
  return ⟨← (← IO.getStdout).isTty⟩

end Main

end Phrasebook

/-- Runs the program with its arguments. -/
def main (arguments : List String) : IO UInt32 := do
  let status : Phrasebook.ExitStatus ←
    Phrasebook.Program.run Phrasebook.Text.displayWidth (← Phrasebook.Main.theme) arguments
  return status.code.toUInt32
