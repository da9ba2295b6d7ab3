import Phrasebook.Issue
import Phrasebook.Literal
import Phrasebook.Style

/-!
# Reports

How issues and candidates are shown. A candidate is shown with its source line and a caret under its
opening quote; the line numbers of one report share a column. How wide a text is on a terminal is
left to a measure. Texts cannot be padded without bound, so a report may be broken off.
-/

namespace Phrasebook

namespace Report

/-- The number of columns that a text takes up on a terminal. -/
abbrev Measure := List Char → Nat

/-- The greatest width that a text can be padded to. -/
def widthLimit : Nat := 65535

/-- A line, and the widths that texts in it are padded to. -/
structure Line where
  widths : List Nat
  text : String

/-- No text in the line is padded beyond the limit. -/
def Line.fits (line : Line) : Bool :=
  line.widths.all (· ≤ widthLimit)

/-- What has been written of a report, and whether that is all of it. -/
structure Written where
  text : String
  complete : Bool
  deriving DecidableEq, Repr

/-- A report that is written in any case. -/
def Written.whole (text : String) : Written := ⟨text, true⟩

/-- What follows is not written after a report that has been broken off. -/
def Written.followedBy (written : Written) (text : String) : Written :=
  if written.complete then .whole (written.text ++ text) else written

/-- Writes line by line. The report is broken off at the first line that does not fit, of which
    nothing is written. -/
def write : List Line → Written
  | [] => .whole ""
  | line :: lines =>
    if line.fits then
      let rest := write lines
      ⟨line.text ++ "\n" ++ rest.text, rest.complete⟩
    else
      ⟨"", false⟩

/-- The mark of success. -/
def successMark : String := "\u2713"

/-- The mark of failure. -/
def failureMark : String := "\u2718"

/-- A count with the noun in the right number. -/
def plural (count : Nat) (one many : String) : String :=
  toString count ++ " " ++ if count = 1 then one else many

/-- A row of blanks. -/
def blanks (width : Nat) : String :=
  String.ofList (List.replicate width ' ')

/-- A text with blanks before it, up to a width. -/
def alignRight (width : Nat) (text : String) : String :=
  blanks (width - text.length) ++ text

/-- One issue. -/
def issue (theme : Theme) (issue : Issue) : String :=
  let color := match issue.severity with
    | .error => .red
    | .warning => .yellow
  theme.paint .bold color issue.severity.text ++ ": " ++ issue.message ++ "  " ++
  theme.paint .dimmed .cyan issue.rule.text ++ "\n" ++
  "  " ++ theme.ink .blue "-->" ++ " " ++ issue.path ++ "\n\n"

/-- The number of issues by severity. -/
def problemCount (theme : Theme) (issues : List Issue) : String :=
  let errors := (issues.filter (·.severity = .error)).length
  let warnings := issues.length - errors
  theme.ink .red failureMark ++ " " ++ toString issues.length ++ " problems (" ++
  toString errors ++ " " ++ theme.ink .red (if errors = 1 then "error" else "errors") ++ ", " ++
  toString warnings ++ " " ++
  theme.ink .yellow (if warnings = 1 then "warning" else "warnings") ++ ")\n"

/-- All issues in order, and their number; nothing if there are none. -/
def issues (theme : Theme) (issues : List Issue) : String :=
  if issues.isEmpty then
    ""
  else
    let sorted := Issue.sort issues
    sorted.foldr (issue theme · ++ ·) "" ++ problemCount theme sorted

/-- The width of the column of line numbers: that of the greatest one. -/
def gutter (candidates : List Candidate) : Nat :=
  match (candidates.map (·.literal.place.line)).max? with
  | none => 1
  | some line => (toString line).length

/-- The part of the source line before the opening quote. -/
def beforeQuote (candidate : Candidate) : List Char :=
  candidate.sourceLine.toList.take (candidate.column - 1)

/-- The lines about one candidate, the line numbers being aligned to a width. -/
def candidate (measure : Measure) (theme : Theme) (width : Nat) (candidate : Candidate) :
    List Line :=
  let place := candidate.literal.place
  let bar := theme.ink .blue "|"
  let indent := measure (beforeQuote candidate)
  [⟨[], theme.paint .bold .cyan "candidate" ++ ": \"" ++ candidate.literal.content ++ "\"  " ++
      theme.paint .dimmed .cyan "sentence"⟩,
    ⟨[], "  " ++ theme.ink .blue "-->" ++ " " ++ place.text ++ ":" ++ toString candidate.column⟩,
    ⟨[width], blanks width ++ " " ++ bar⟩,
    ⟨[width], theme.ink .blue (alignRight width (toString place.line)) ++ " " ++ bar ++ " " ++
      candidate.sourceLine⟩,
    ⟨[width, indent], blanks width ++ " " ++ bar ++ " " ++ blanks indent ++ theme.ink .cyan "^"⟩,
    ⟨[], ""⟩]

/-- All candidates in order. -/
def candidates (measure : Measure) (theme : Theme) (candidates : List Candidate) : Written :=
  write (candidates.flatMap (candidate measure theme (gutter candidates)))

end Report

end Phrasebook
