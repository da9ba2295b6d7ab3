import Phrasebook.Text.Replace
import Phrasebook.Text.Upper
import Phrasebook.Text.Word

/-!
# Sentences

A literal reads like a sentence for people when it has a character with an upper-case form of its
own, holds no symbols, and has at least two words. One closing mark at the end and the placeholder
`%s` anywhere are allowed, and a placeholder counts as a word.
-/

namespace Phrasebook.Sentence

/-- The format placeholder that may stand in a sentence. -/
def placeholder : List Char := ['%', 's']

/-- The word a placeholder counts as. -/
def placeholderWord : List Char := "placeholder".toList

/-- The marks of which one may close a sentence. -/
def isClosingMark (c : Char) : Bool :=
  c ∈ ['.', '!', '?', ';']

/-- The symbols that betray keys, paths and format strings. -/
def isSymbol (c : Char) : Bool :=
  c ∈ ['~', '\x60', '!', '@', '#', '$', '%', '^', '&', '*', '(', ')', '-', '_', '=', '+', '[', ']',
    '\x7b', '\x7d', ';', ':', '"', '\\', '|', ',', '.', '<', '>', '/', '?']

/-- The text without one closing mark at its end. -/
def dropClosingMark (cs : List Char) : List Char :=
  if cs.getLast?.any isClosingMark then cs.dropLast else cs

/-- A symbol is left after one closing mark and all placeholders are gone. -/
def hasSymbols (cs : List Char) : Bool :=
  (Text.replace placeholder [] (dropClosingMark cs)).1.any isSymbol

/-- The number of words, a placeholder being one. -/
def wordCount (cs : List Char) : Nat :=
  Text.countWords false (Text.replace placeholder placeholderWord cs).1

/-- The text reads like a sentence. -/
def isSentenceText (cs : List Char) : Bool :=
  Text.upperCase cs != cs && !hasSymbols cs && 2 ≤ wordCount cs

end Phrasebook.Sentence

namespace Phrasebook

/-- The content of a literal reads like a sentence. -/
def isSentence (content : String) : Bool :=
  Sentence.isSentenceText content.toList

end Phrasebook
