import Phrasebook.Sentence
import Phrasebook.Text.Lines

/-!
# Quoted literals

A literal is a quote, units, and the same quote again, on one line. A unit is a character other
than the quote, the backslash and the line terminators, or a backslash and the character after it,
which must not be a terminator either. `scan` finds the literals of a text from left to right; a
quote that no literal starts at is passed over.
-/

namespace Phrasebook

/-- The two delimiters of literals. -/
inductive Quote where
  | double
  | single
  deriving DecidableEq, Repr

namespace Quote

/-- The character that opens and closes the literal. -/
def char : Quote → Char
  | double => '"'
  | single => '\x27'

/-- The delimiter a character stands for. -/
def ofChar? (c : Char) : Option Quote :=
  if c = '"' then some double else if c = '\x27' then some single else none

end Quote

/-- A line of a file, the file named relative to the root of its tree. -/
structure Place where
  file : String
  line : Nat
  deriving DecidableEq, Repr

/-- The place as `file:line`. -/
def Place.text (place : Place) : String :=
  place.file ++ ":" ++ toString place.line

/-- A literal found in a file. The content is what stands between the quotes, escapes as written. -/
structure Literal where
  content : String
  quote : Quote
  place : Place
  deriving DecidableEq, Repr

/-- An occurrence of a literal in a text. -/
structure Span where
  content : String
  quote : Quote
  /-- The line of the opening quote, counted from 1. -/
  line : Nat
  /-- The byte offset of the opening quote. -/
  start : Nat
  /-- The byte offset after the closing quote. -/
  stop : Nat
  deriving DecidableEq, Repr

namespace Span

/-- The literal as it is written, quotes included. -/
def quoted (span : Span) : String :=
  String.ofList (span.quote.char :: span.content.toList ++ [span.quote.char])

/-- The literal in a file. -/
def toLiteral (file : String) (span : Span) : Literal :=
  ⟨span.content, span.quote, ⟨file, span.line⟩⟩

end Span

namespace Literal

/-- The characters a literal must not contain. -/
def isTerminator (c : Char) : Bool :=
  c == '\n' || c == '\r' || c == '\u2028' || c == '\u2029'

/-- The content of the literal whose opening quote stands just before the text, if it is closed. -/
def close (quote : Char) : List Char → Option (List Char)
  | [] => none
  | c :: cs =>
    if c = quote then
      some []
    else if c = '\\' then
      match cs with
      | [] => none
      | escaped :: rest =>
        if isTerminator escaped then none else (close quote rest).map (c :: escaped :: ·)
    else if isTerminator c then
      none
    else
      (close quote cs).map (c :: ·)

/-- Scans a text that starts at byte `offset` of line `line`. The first `held` characters belong to
    the literal that has just been found. -/
def scanFrom (held offset line : Nat) : List Char → List Span
  | [] => []
  | c :: cs =>
    let offset' := offset + c.utf8Size
    let line' := if Text.endsLine c cs then line + 1 else line
    match held, Quote.ofChar? c with
    | held + 1, _ => scanFrom held offset' line' cs
    | 0, none => scanFrom 0 offset' line' cs
    | 0, some quote =>
      match close c cs with
      | none => scanFrom 0 offset' line' cs
      | some content =>
        { content := String.ofList content
          quote
          line
          start := offset
          stop := offset' + Text.byteLength content + c.utf8Size } ::
        scanFrom (content.length + 1) offset' line' cs

end Literal

/-- The literals of a text, from left to right. -/
def scan (text : String) : List Span :=
  Literal.scanFrom 0 0 1 text.toList

/-- A literal that reads like a sentence, with the line it stands on. -/
structure Candidate where
  literal : Literal
  sourceLine : String
  /-- The column of the opening quote, counted in characters from 1. -/
  column : Nat
  deriving DecidableEq, Repr

/-- The candidate an occurrence in a file gives. -/
def Span.toCandidate (file text : String) (span : Span) : Candidate where
  literal := span.toLiteral file
  sourceLine := String.ofList (Text.lineAt text.toList span.start)
  column := Text.columnAt text.toList span.start

/-- The candidates of one file from left to right, repeats included. -/
def candidatesIn (file text : String) : List Candidate :=
  ((scan text).filter (isSentence ·.content)).map (·.toCandidate file text)

end Phrasebook
