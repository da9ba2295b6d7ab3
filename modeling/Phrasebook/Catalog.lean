import Phrasebook.Literal

/-!
# Catalogs

A catalog numbers the approved sentences from 1 in the order they were approved. It is written as a
Lua chunk that fills `<table>.Lang` and defines the function that looks a number up.
-/

namespace Phrasebook

/-- A sentence the operator approved, with the place where it was first seen. -/
structure Approved where
  content : String
  place : Place
  deriving DecidableEq, Repr

/-- The approved sentence a literal becomes. -/
def Literal.approve (literal : Literal) : Approved :=
  ⟨literal.content, literal.place⟩

/-- A numbered sentence. -/
structure Catalog.Entry where
  /-- Numbers start at 1 and have no gaps. -/
  index : Nat
  sentence : Approved
  deriving DecidableEq, Repr

/-- The literal the entry stands for, as it is written in sources. -/
def Catalog.Entry.quoted (entry : Catalog.Entry) : String :=
  "\"" ++ entry.sentence.content ++ "\""

/-- The approved sentences in order; the sentence at position `i` has the number `i + 1`. -/
structure Catalog where
  sentences : List Approved
  deriving DecidableEq, Repr

/-- The call that looks up a number: `<table>:GetLang(<index>)`. -/
def lookupCall (table : String) (index : Nat) : String :=
  table ++ ":GetLang(" ++ toString index ++ ")"

namespace Catalog

/-- Numbers sentences from `first` on. -/
def number (first : Nat) : List Approved → List Entry
  | [] => []
  | sentence :: rest => ⟨first, sentence⟩ :: number (first + 1) rest

/-- The numbered sentences. -/
def entries (catalog : Catalog) : List Entry :=
  number 1 catalog.sentences

/-- The number of sentences. -/
def size (catalog : Catalog) : Nat :=
  catalog.sentences.length

/-- The entry with a number. There is none with the number 0. -/
def get? (catalog : Catalog) : Nat → Option Entry
  | 0 => none
  | index + 1 => catalog.sentences[index]?.map (⟨index + 1, ·⟩)

/-- The row of an entry in the Lua chunk. -/
def renderEntry (entry : Entry) : String :=
  "\t[" ++ toString entry.index ++ "] = \"" ++ entry.sentence.content ++ "\",\n"

/-- The Lua chunk that defines `<table>.Lang` for one locale and the lookup function. -/
def toLua (catalog : Catalog) (table locale : String) : String :=
  table ++ ".Lang = \x7b\x7d\n\n" ++
  table ++ ".Lang[\"" ++ locale ++ "\"] = \x7b\n" ++
  catalog.entries.foldr (renderEntry · ++ ·) "" ++
  "\x7d\n\n" ++
  "function " ++ table ++ ":GetLang(iIdx)\n" ++
  "\treturn self.Lang[\"" ++ locale ++ "\"][iIdx]\n" ++
  "end\n"

end Catalog

end Phrasebook
