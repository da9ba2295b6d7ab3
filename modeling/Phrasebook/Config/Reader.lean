import Phrasebook.Config.Basic
import Phrasebook.Json.Skip

/-!
# Reading configurations

A configuration is a JSON object, whose unknown fields are passed over, or an array that gives the
fields in order. Fields that are missing have their default values.
-/

namespace Phrasebook

namespace Config

/-- The fields of a configuration. -/
inductive Field where
  | table
  | sourceRoot
  | outputDir
  | catalogFile
  | locale
  | ignores
  | extensions
  deriving DecidableEq, Repr

namespace Field

/-- The fields in the order in which an array gives them. -/
def all : List Field :=
  [table, sourceRoot, outputDir, catalogFile, locale, ignores, extensions]

/-- The key of a field. -/
def key : Field → String
  | table => "table"
  | sourceRoot => "sourceRoot"
  | outputDir => "outputDir"
  | catalogFile => "catalogFile"
  | locale => "locale"
  | ignores => "ignores"
  | extensions => "extensions"

/-- The field of a key. -/
def ofKey? (key : String) : Option Field :=
  all.find? (·.key = key)

end Field

open Json (Error)

/-- The error for a value of another kind than the expected one. -/
def wrongKind (expected : String) (cs : List Char) : Error :=
  let found : Except Error Json.Found :=
    match cs with
    | 'n' :: rest => (Json.word ['u', 'l', 'l'] rest).map fun _ => .null
    | 't' :: rest => (Json.word ['r', 'u', 'e'] rest).map fun _ => .bool true
    | 'f' :: rest => (Json.word ['a', 'l', 's', 'e'] rest).map fun _ => .bool false
    | '-' :: rest => (Json.number true rest).map (·.1)
    | '"' :: rest => (Json.string rest).map fun (text, _) => .string text
    | '[' :: _ => .ok .sequence
    | '\x7b' :: _ => .ok .map
    | c :: rest => if c.isDigit then (Json.number false (c :: rest)).map (·.1) else .error .malformed
    | [] => .error .truncated
  match found with
  | .ok found => .wrongKind found expected
  | .error e => e

/-- Reads a string. -/
def readText (cs : List Char) : Except Error (String × List Char) :=
  match Json.skipSpace cs with
  | '"' :: rest => Json.string rest
  | cs => .error (wrongKind "a string" cs)

/-- Reads a string or `null`. -/
def readOptional (cs : List Char) : Except Error (Option String × List Char) :=
  match Json.skipSpace cs with
  | 'n' :: rest => (Json.word ['u', 'l', 'l'] rest).map (none, ·)
  | cs => (readText cs).map fun (text, rest) => (some text, rest)

/-- Whether another element of an array follows, and the text from there. The comma before it has
    been read then. -/
def nextElement (first : Bool) (cs : List Char) : Except Error (Bool × List Char) :=
  match Json.skipSpace cs with
  | [] => .error .truncated
  | ']' :: rest => .ok (false, ']' :: rest)
  | c :: rest =>
    if first then .ok (true, c :: rest)
    else if c = ',' then
      match Json.skipSpace rest with
      | [] => .error .truncated
      | ']' :: _ => .error .malformed
      | rest => .ok (true, rest)
    else .error .malformed

/-- The text after the closing bracket of an array. -/
def endArray (cs : List Char) : Except Error (List Char) :=
  match Json.skipSpace cs with
  | [] => .error .truncated
  | ']' :: rest => .ok rest
  | _ => .error .malformed

/-- Reads the strings of an array, at most `fuel` of them. -/
def readElements : Nat → Bool → List Char → Except Error (List String × List Char)
  | 0, _, _ => .error .malformed
  | fuel + 1, first, cs => do
    let (more, cs) ← nextElement first cs
    if more then
      let (text, cs) ← readText cs
      let (texts, cs) ← readElements fuel false cs
      return (text :: texts, cs)
    else
      return ([], ← endArray cs)

/-- Reads an array of strings. No more strings fit into the text than it has characters. -/
def readTexts (cs : List Char) : Except Error (List String × List Char) :=
  match Json.skipSpace cs with
  | '[' :: rest => readElements (rest.length + 1) true rest
  | cs => .error (wrongKind "a sequence" cs)

/-- Reads the value of a field. -/
def readField (config : Config) (field : Field) (cs : List Char) :
    Except Error (Config × List Char) :=
  match field with
  | .table => (readOptional cs).map fun (table, rest) => ({ config with table }, rest)
  | .sourceRoot =>
    (readOptional cs).map fun (sourceRoot, rest) => ({ config with sourceRoot }, rest)
  | .outputDir => (readText cs).map fun (outputDir, rest) => ({ config with outputDir }, rest)
  | .catalogFile => (readText cs).map fun (catalogFile, rest) => ({ config with catalogFile }, rest)
  | .locale => (readText cs).map fun (locale, rest) => ({ config with locale }, rest)
  | .ignores => (readTexts cs).map fun (ignores, rest) => ({ config with ignores }, rest)
  | .extensions => (readTexts cs).map fun (extensions, rest) => ({ config with extensions }, rest)

/-- Reads the fields of an array in order, as far as there are elements. -/
def readPositional (config : Config) (first : Bool) :
    List Field → List Char → Except Error (Config × List Char)
  | [], cs => do return (config, ← endArray cs)
  | field :: fields, cs => do
    let (more, cs) ← nextElement first cs
    if more then
      let (config, cs) ← readField config field cs
      readPositional config false fields cs
    else
      return (config, ← endArray cs)

/-- Whether another member of an object follows, and the text after the opening quote of its key. -/
def nextKey (first : Bool) (cs : List Char) : Except Error (Option (List Char)) :=
  match Json.skipSpace cs with
  | [] => .error .truncated
  | '\x7d' :: _ => .ok none
  | c :: rest =>
    if first then
      if c = '"' then .ok (some rest) else .error .malformed
    else if c = ',' then
      match Json.skipSpace rest with
      | [] => .error .truncated
      | '"' :: rest => .ok (some rest)
      | _ => .error .malformed
    else .error .malformed

/-- The text after a colon. -/
def colon (cs : List Char) : Except Error (List Char) :=
  match Json.skipSpace cs with
  | [] => .error .truncated
  | ':' :: rest => .ok rest
  | _ => .error .malformed

/-- Reads the members of an object, at most `fuel` of them. A field that has been seen must not come
    again. -/
def readMembers : Nat → Config → List Field → Bool → List Char → Except Error (Config × List Char)
  | 0, _, _, _, _ => .error .malformed
  | fuel + 1, config, seen, first, cs => do
    match ← nextKey first cs with
    | none => return (config, (Json.skipSpace cs).tail)
    | some cs =>
      let (key, cs) ← Json.string cs
      match Field.ofKey? key with
      | none =>
        let cs ← Json.skipValue (← colon cs)
        readMembers fuel config seen false cs
      | some field =>
        if field ∈ seen then
          throw (.repeatedField field.key)
        let (config, cs) ← readField config field (← colon cs)
        readMembers fuel config (field :: seen) false cs

/-- Reads a configuration at the beginning of a text. -/
def readConfig (cs : List Char) : Except Error (Config × List Char) :=
  match Json.skipSpace cs with
  | '[' :: rest => readPositional default true Field.all rest
  | '\x7b' :: rest => readMembers (rest.length + 1) default [] true rest
  | cs => .error (wrongKind "struct Config" cs)

/-- Reads a configuration file. Only blanks may follow the configuration. -/
def parse (text : String) : Except Error Config := do
  let (config, rest) ← readConfig text.toList
  if (Json.skipSpace rest).isEmpty then return config else throw .malformed

end Config

end Phrasebook
