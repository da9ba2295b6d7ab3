import Phrasebook.Text.Quoted

/-!
# JSON: errors and blanks

A reader takes the text that is left and returns a value with the text after it. What it wants is
known beforehand, so a value of the wrong kind is an error of its own.
-/

namespace Phrasebook.Json

/-- A value of a kind that was not asked for, as far as it is shown. -/
inductive Found where
  | null
  | bool (b : Bool)
  | integer (n : Int)
  | float (text : String)
  | string (text : String)
  | sequence
  | map
  deriving DecidableEq, Repr

/-- How a value is named in messages. -/
def Found.text : Found → String
  | null => "null"
  | bool b => "boolean `" ++ (if b then "true" else "false") ++ "`"
  | integer n => "integer `" ++ toString n ++ "`"
  | float text => "floating point `" ++ text ++ "`"
  | string text => "string " ++ Text.quoted text
  | sequence => "sequence"
  | map => "map"

/-- Why a text could not be read. -/
inductive Error where
  /-- The text ends too early. -/
  | truncated
  | malformed
  | wrongKind (found : Found) (expected : String)
  | repeatedField (name : String)
  deriving DecidableEq, Repr

/-- The wording of an error. -/
def Error.message : Error → String
  | truncated => "<eof>"
  | malformed => "<syntax>"
  | wrongKind found expected => "invalid type: " ++ found.text ++ ", expected " ++ expected
  | repeatedField name => "duplicate field `" ++ name ++ "`"

/-- The characters that may stand between tokens. -/
def isSpace (c : Char) : Bool :=
  c == ' ' || c == '\n' || c == '\t' || c == '\r'

/-- The text after the blanks at its beginning. -/
def skipSpace (cs : List Char) : List Char :=
  cs.dropWhile isSpace

/-- The text after the given word. -/
def word : List Char → List Char → Except Error (List Char)
  | [], cs => .ok cs
  | _ :: _, [] => .error .truncated
  | w :: ws, c :: cs => if w = c then word ws cs else .error .malformed

end Phrasebook.Json
