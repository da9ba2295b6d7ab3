import Phrasebook.Failure
import Phrasebook.Json.Text

/-!
# Configurations

What a project says about itself in its configuration file, and which values can be used.
-/

namespace Phrasebook

/-- The settings of a project. -/
structure Config where
  /-- The table the catalog belongs to. -/
  table : Option String
  /-- The folder to fetch sentences from. -/
  sourceRoot : Option String
  outputDir : String
  catalogFile : String
  locale : String
  /-- Patterns of paths to ignore. -/
  ignores : List String
  /-- Extensions of files to accept; none means all. -/
  extensions : List String
  deriving DecidableEq, Repr

namespace Config

/-- The name of configuration files. -/
def fileName : String := ".langsweeprc.json"

/-- The settings of a project without a configuration file. -/
def default : Config where
  table := none
  sourceRoot := none
  outputDir := "./translated"
  catalogFile := "./languages.lua"
  locale := "en"
  ignores := []
  extensions := []

/-- The characters an identifier may start with. -/
def startsIdentifier (c : Char) : Bool :=
  c.isAlpha || c == '_'

/-- The characters an identifier may go on with. -/
def continuesIdentifier (c : Char) : Bool :=
  c.isAlphanum || c == '_'

/-- The text is a list of identifiers with dots between them. At the start of an identifier `fresh`
    is set. -/
def isDotted (fresh : Bool) : List Char → Bool
  | [] => !fresh
  | c :: cs =>
    if fresh then startsIdentifier c && isDotted false cs
    else if c = '.' then isDotted true cs
    else continuesIdentifier c && isDotted false cs

/-- The name can be written before `.Lang` and `:GetLang`. -/
def isTableName (name : String) : Bool :=
  isDotted true name.toList

/-- The key can be written between quotes. -/
def isLocale (locale : String) : Bool :=
  locale != "" &&
    locale.toList.all fun c => c != '"' && c != '\\' && c != '\n' && c != '\r'

/-- Refuses a table name that cannot be used. -/
def checkTable (name : String) : Except Failure Unit :=
  if isTableName name then .ok () else .error (.badTable name)

/-- Refuses a locale key that cannot be used. -/
def checkLocale (locale : String) : Except Failure Unit :=
  if isLocale locale then .ok () else .error (.badLocale locale)

/-- Refuses settings that cannot be used: first patterns, then the table, then the locale. -/
def check (config : Config) : Except Failure Unit :=
  match Filter.parsePatterns config.ignores with
  | .error bad => .error (.configPattern bad)
  | .ok _ =>
    match config.table.filter (! isTableName ·) with
    | some name => .error (.configTable name)
    | none => if isLocale config.locale then .ok () else .error (.configLocale config.locale)

/-- A list of strings, indented by two blanks. -/
def writeList : List String → String
  | [] => "[]"
  | first :: rest =>
    "[\n    " ++ Json.writeString first ++
    rest.foldr (fun item text => ",\n    " ++ Json.writeString item ++ text) "\n  ]"

/-- The fields that are written, each with its value. -/
def writtenFields (config : Config) : List (String × String) :=
  (config.table.map fun table => ("table", Json.writeString table)).toList ++
  (config.sourceRoot.map fun root => ("sourceRoot", Json.writeString root)).toList ++
  [("outputDir", Json.writeString config.outputDir),
   ("catalogFile", Json.writeString config.catalogFile),
   ("locale", Json.writeString config.locale),
   ("ignores", writeList config.ignores),
   ("extensions", writeList config.extensions)]

/-- A field with its value. -/
def writeField (field : String × String) : String :=
  "  \"" ++ field.1 ++ "\": " ++ field.2

/-- The text of a configuration file. -/
def render (config : Config) : String :=
  match config.writtenFields with
  | [] => "\x7b\x7d"
  | first :: rest =>
    "\x7b\n" ++ writeField first ++
    rest.foldr (fun field text => ",\n" ++ writeField field ++ text) "\n\x7d"

end Config

end Phrasebook
