import Phrasebook.Console
import Phrasebook.Filter
import Phrasebook.Json.Basic
import Phrasebook.Storage
import Phrasebook.Text.Quoted

/-!
# Failures

What ends a command before its work is done.
-/

namespace Phrasebook

/-- Why a text file could not be read. -/
inductive ReadError where
  | os (error : OsError)
  | notUtf8
  deriving DecidableEq, Repr

/-- The wording of the failure. -/
def ReadError.message : ReadError → String
  | os error => error.message
  | notUtf8 => "stream did not contain valid UTF-8"

/-- A reason why a command cannot go on. -/
inductive Failure where
  /-- The name cannot be written before `.Lang` and `:GetLang`. -/
  | badTable (name : String)
  /-- The key cannot be written between quotes. -/
  | badLocale (locale : String)
  | badIgnore (bad : BadPattern)
  | configPattern (bad : BadPattern)
  | configTable (name : String)
  | configLocale (locale : String)
  | configUnreadable (path : Path) (error : ReadError)
  | configMalformed (path : Path) (error : Json.Error)
  | configUnwritable (path : Path) (error : OsError)
  /-- The path is no directory; the error says why, if something went wrong on the way. -/
  | badFolder (path : Path) (error : Option OsError)
  | emptyPath
  | unresolved (path : Path) (error : OsError)
  | outputInsideSource (output source : Path)
  | outputAroundSource (output source : Path)
  | outputNotDirectory (output : Path)
  | outputUnreadable (output : Path) (error : OsError)
  | outputNotEmpty (output : Path)
  | catalogInsideSource (catalog source : Path)
  | catalogIsDirectory (catalog : Path)
  | directoryNotMade (path : Path) (error : OsError)
  | catalogUnwritable (path : Path) (error : OsError)
  | noAnswer (question : String)
  | inputUnreadable (error : InputError)
  deriving DecidableEq, Repr

namespace Failure

/-- The wording of a table name that cannot be used. -/
def tableText (name : String) : String :=
  "\"" ++ name ++ "\" is not a valid table name (expected an identifier like MyAddon or GM.Hud)"

/-- The wording of a locale key that cannot be used. -/
def localeText (locale : String) : String :=
  "\"" ++ locale ++ "\" is not a valid locale key"

/-- The wording of a failure, from what was attempted to what went wrong. -/
def message : Failure → String
  | badTable name => tableText name
  | badLocale locale => localeText locale
  | badIgnore bad => "Invalid ignore pattern: \"" ++ bad.pattern ++ "\": " ++ bad.error.message
  | configPattern bad =>
    "Invalid glob pattern in 'ignores': \"" ++ bad.pattern ++ "\": " ++ bad.error.message
  | configTable name => "Invalid 'table' in config: " ++ tableText name
  | configLocale locale => "Invalid 'locale' in config: " ++ localeText locale
  | configUnreadable path error =>
    "Failed to read config file: " ++ Text.quoted path.text ++ ": " ++ error.message
  | configMalformed path error =>
    "Failed to parse config file: " ++ Text.quoted path.text ++ ": " ++ error.message
  | configUnwritable path error => "Failed to write " ++ path.text ++ ": " ++ error.message
  | badFolder path none => "Invalid folder path: " ++ path.text
  | badFolder path (some error) => "Invalid folder path: " ++ path.text ++ ": " ++ error.message
  | emptyPath => "Cannot resolve path: : cannot make an empty path absolute"
  | unresolved path error => "Cannot resolve path: " ++ path.text ++ ": " ++ error.message
  | outputInsideSource output source =>
    "Output directory " ++ output.text ++ " must not be inside the source folder " ++ source.text
  | outputAroundSource output source =>
    "Output directory " ++ output.text ++ " must not contain the source folder " ++ source.text
  | outputNotDirectory output => "Output path " ++ output.text ++ " is not a directory"
  | outputUnreadable output error =>
    "Cannot read output directory: " ++ output.text ++ ": " ++ error.message
  | outputNotEmpty output =>
    "Output directory " ++ output.text ++ " is not empty (use --force to write into it)"
  | catalogInsideSource catalog source =>
    "Catalog file " ++ catalog.text ++ " must not be inside the source folder " ++ source.text
  | catalogIsDirectory catalog => "Catalog path " ++ catalog.text ++ " is a directory"
  | directoryNotMade path error =>
    "Failed to create directory: " ++ path.text ++ ": " ++ error.message
  | catalogUnwritable path error =>
    "Failed to write catalog: " ++ path.text ++ ": " ++ error.message
  | noAnswer question => "No answer given to: " ++ question
  | inputUnreadable error => "Failed to read from stdin: " ++ error.message

/-- The kinds of failures. -/
inductive Kind where
  | pattern
  | io
  | json
  | plain
  deriving DecidableEq, Repr

/-- What a failure comes from. -/
def kind : Failure → Kind
  | badIgnore _ | configPattern _ => .pattern
  | configMalformed .. => .json
  | configUnreadable .. | configUnwritable .. | badFolder _ (some _) | emptyPath | unresolved ..
  | outputUnreadable .. | directoryNotMade .. | catalogUnwritable .. | inputUnreadable _ => .io
  | _ => .plain

end Failure

end Phrasebook
