import Phrasebook.Config.Reader

/-!
# Finding configurations

The configuration of a directory is the nearest configuration file in it or in one of its parents.
The search does not go past a directory that holds a repository.
-/

namespace Phrasebook

namespace Config

variable {m : Type → Type} [Monad m] [Storage m]

/-- The first configuration file in the directories, which are searched up to a repository. -/
def findIn : List Path → m (Option Path)
  | [] => pure none
  | directory :: parents => do
    let file := directory.child fileName
    if ← Storage.isPresent file then
      return some file
    if ← Storage.isPresent (directory.child ".git") then
      return none
    findIn parents

/-- The configuration file for a directory. -/
def find (start : Path) : m (Option Path) :=
  findIn start.ancestors

/-- The text of a file. -/
def readTextFile (path : Path) : m (Except ReadError String) := do
  match ← Storage.read path with
  | .error e => return .error (.os e)
  | .ok bytes =>
    match String.fromUTF8? bytes with
    | some text => return .ok text
    | none => return .error .notUtf8

/-- The configuration for a directory, and whether it comes from a file. -/
structure Loaded where
  config : Config
  fromFile : Bool
  deriving DecidableEq, Repr

/-- Reads and checks a configuration file. -/
def loadFile (path : Path) : m (Except Failure Config) := do
  match ← readTextFile path with
  | .error e => return .error (.configUnreadable path e)
  | .ok text =>
    match parse text with
    | .error e => return .error (.configMalformed path e)
    | .ok config => return config.check.map fun _ => config

/-- The configuration for a directory: that of the nearest file, or the default if there is none. -/
def load (start : Path) : m (Except Failure Loaded) := do
  match ← find start with
  | none => return .ok ⟨default, false⟩
  | some path => return (← loadFile path).map (⟨·, true⟩)

end Config

end Phrasebook
