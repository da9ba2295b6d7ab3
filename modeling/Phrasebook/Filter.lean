import Phrasebook.Glob
import Phrasebook.Path

/-!
# File filters

Which entries of a tree take part in a walk: patterns say what to ignore, and a list of extensions,
unless it is empty, says which files to accept.
-/

namespace Phrasebook

/-- Patterns to ignore, and extensions to accept in lower case. -/
structure Filter where
  ignores : List Glob
  extensions : List String
  deriving DecidableEq, Repr

/-- A pattern that could not be read. -/
structure BadPattern where
  pattern : String
  error : Glob.Error
  deriving DecidableEq, Repr

namespace Filter

/-- The text with its ASCII letters in lower case. -/
def lowerCase (s : String) : String :=
  String.ofList (s.toList.map Char.toLower)

/-- Reads patterns until one fails. -/
def parsePatterns : List String → Except BadPattern (List Glob)
  | [] => .ok []
  | pattern :: rest =>
    match Glob.parse pattern with
    | .error e => .error ⟨pattern, e⟩
    | .ok glob => (parsePatterns rest).map (glob :: ·)

/-- An extension as it is compared: without leading dots, in lower case. -/
def normalExtension (extension : String) : String :=
  lowerCase (String.ofList (extension.toList.dropWhile (· == '.')))

/-- The filter with the given patterns and extensions. -/
def ofLists (ignores extensions : List String) : Except BadPattern Filter :=
  (parsePatterns ignores).map (⟨·, extensions.map normalExtension⟩)

/-- One of the patterns matches the path, which is relative to the root of the walk. -/
def ignored (filter : Filter) (relative : Path) : Bool :=
  filter.ignores.any (·.matchesText relative.text)

/-- The file has one of the extensions, or there are none to choose from. -/
def accepts (filter : Filter) (relative : Path) : Bool :=
  filter.extensions.isEmpty ||
    relative.extension?.any fun e => filter.extensions.contains (lowerCase e)

end Filter

end Phrasebook
