/-!
# Lines of a text

A line break is `\r\n`, a lone `\r` or a lone `\n`. Offsets into a text count the bytes of its
UTF-8 form; columns count characters.
-/

namespace Phrasebook.Text

/-- The characters that end a line. -/
def isBreak (c : Char) : Bool :=
  c == '\n' || c == '\r'

/-- The character `c`, followed by `rest`, completes a line break: `\r\n` counts at its `\n`. -/
def endsLine (c : Char) (rest : List Char) : Bool :=
  c == '\n' || (c == '\r' && rest.head? != some '\n')

/-- The number of line breaks. -/
def countBreaks : List Char → Nat
  | [] => 0
  | c :: cs => (if endsLine c cs then 1 else 0) + countBreaks cs

/-- The number of bytes of the UTF-8 form. -/
def byteLength : List Char → Nat
  | [] => 0
  | c :: cs => c.utf8Size + byteLength cs

/-- Splits a text after its first `offset` bytes, or after the character that holds the last of
    them when the offset is not a boundary between characters. -/
def splitAtByte : Nat → List Char → List Char × List Char
  | 0, cs => ([], cs)
  | _ + 1, [] => ([], [])
  | offset + 1, c :: cs =>
    let (before, after) := splitAtByte (offset + 1 - c.utf8Size) cs
    (c :: before, after)

/-- The offset is a boundary between characters, or one of the two ends of the text. -/
def isBoundary : Nat → List Char → Bool
  | 0, _ => true
  | _ + 1, [] => false
  | offset + 1, c :: cs => c.utf8Size ≤ offset + 1 && isBoundary (offset + 1 - c.utf8Size) cs

/-- The part of a text after its last line-ending character. -/
def lastLine (before : List Char) : List Char :=
  (before.reverse.takeWhile (! isBreak ·)).reverse

/-- The line around a cut, without its line break. -/
def lineAround (before after : List Char) : List Char :=
  lastLine before ++ after.takeWhile (! isBreak ·)

/-- The column of what follows `before`, counted in characters from 1. -/
def columnAfter (before : List Char) : Nat :=
  (lastLine before).length + 1

/-- The line that contains the offset, without its line break. -/
def lineAt (text : List Char) (offset : Nat) : List Char :=
  let (before, after) := splitAtByte offset text
  lineAround before after

/-- The column of the offset within its line, counted in characters from 1. -/
def columnAt (text : List Char) (offset : Nat) : Nat :=
  columnAfter (splitAtByte offset text).1

end Phrasebook.Text
