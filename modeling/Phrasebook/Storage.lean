import Phrasebook.Path

/-!
# Storage

The file operations the program is built from, as an interface that any monad can offer. The same
code then runs on a real disk and on the disks of `Phrasebook.Disk`.
-/

namespace Phrasebook

/-- Why a file operation failed. -/
inductive OsError where
  | noEntry
  | denied
  | alreadyThere
  | notDirectory
  | isDirectory
  | tooManyLinks
  | nameTooLong
  | other (text : String)
  deriving DecidableEq, Repr

/-- The wording of a failure, with the number of its code. -/
def OsError.message : OsError → String
  | noEntry => "No such file or directory (os error 2)"
  | denied => "Permission denied (os error 13)"
  | alreadyThere => "File exists (os error 17)"
  | notDirectory => "Not a directory (os error 20)"
  | isDirectory => "Is a directory (os error 21)"
  | tooManyLinks => "Too many levels of symbolic links (os error 40)"
  | nameTooLong => "File name too long (os error 36)"
  | other text => text

/-- What a directory entry is. -/
inductive EntryKind where
  | file
  | directory
  | link
  /-- Devices and the like, which hold no text and no entries. -/
  | special
  deriving DecidableEq, Repr

/-- Files and directories as a monad offers them. -/
class Storage (m : Type → Type) where
  /-- The directory that relative paths start from. -/
  workingDirectory : m Path
  /-- What the path leads to, a link at its end being followed. -/
  kind : Path → m (Except OsError EntryKind)
  /-- What stands at the path, a link at its end being an entry of its own. -/
  entryKind : Path → m (Except OsError EntryKind)
  /-- The entries of a directory in no particular order. -/
  list : Path → m (Except OsError (List (String × EntryKind)))
  /-- Opens what the path leads to for reading and tells which directory or file it is. -/
  identify : Path → m (Except OsError Path)
  /-- The absolute path without links and dots to what the path leads to. -/
  canonical : Path → m (Except OsError Path)
  /-- The bytes of a file. -/
  read : Path → m (Except OsError ByteArray)
  /-- Replaces the bytes of a file, which is made if it is not there. -/
  write : Path → ByteArray → m (Except OsError Unit)
  /-- Copies a file with its permissions. -/
  copy : Path → Path → m (Except OsError Unit)
  /-- Makes one directory, where nothing was before. -/
  makeDirectory : Path → m (Except OsError Unit)

namespace Storage

variable {m : Type → Type} [Monad m] [Storage m]

/-- The path leads to something. -/
def isPresent (path : Path) : m Bool := do
  return (← kind path) matches .ok _

/-- The path leads to a directory. -/
def isDirectory (path : Path) : m Bool := do
  return (← kind path) matches .ok .directory

/-- Makes the first of the paths that can be made, and returns those before it, which have still to
    be made. The paths go from a directory to its parents. -/
def makeTopmost : List Path → m (Except OsError (List Path))
  | [] => pure (.ok [])
  | path :: parents => do
    if path.isEmpty || path.parent?.isNone then
      return .ok []
    match ← makeDirectory path with
    | .ok () => return .ok []
    | .error .noEntry => return (← makeTopmost parents).map (path :: ·)
    | .error .alreadyThere =>
      if ← isDirectory path then return .ok [] else return .error .alreadyThere
    | .error e => return .error e

/-- Makes the directories in order; one that has appeared meanwhile will do. -/
def makeEach : List Path → m (Except OsError Unit)
  | [] => pure (.ok ())
  | path :: rest => do
    match ← makeDirectory path with
    | .ok () => makeEach rest
    | .error .alreadyThere =>
      if ← isDirectory path then makeEach rest else return .error .alreadyThere
    | .error e => return .error e

/-- Makes a directory and those of its parents that are missing. -/
def makeDirectories (path : Path) : m (Except OsError Unit) := do
  match ← makeTopmost path.ancestors with
  | .error e => return .error e
  | .ok missing => makeEach missing.reverse

end Storage

/-- A state on top of a storage leaves its files as they are. -/
instance {σ : Type} {m : Type → Type} [Monad m] [Storage m] : Storage (StateT σ m) where
  workingDirectory := StateT.lift Storage.workingDirectory
  kind path := StateT.lift (Storage.kind path)
  entryKind path := StateT.lift (Storage.entryKind path)
  list path := StateT.lift (Storage.list path)
  identify path := StateT.lift (Storage.identify path)
  canonical path := StateT.lift (Storage.canonical path)
  read path := StateT.lift (Storage.read path)
  write path bytes := StateT.lift (Storage.write path bytes)
  copy source target := StateT.lift (Storage.copy source target)
  makeDirectory path := StateT.lift (Storage.makeDirectory path)

end Phrasebook
