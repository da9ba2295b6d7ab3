/-!
# Issues

Problems met on the way that do not end a run. Each names the path it is about.
-/

namespace Phrasebook

/-- How grave an issue is. -/
inductive Severity where
  | error
  | warning
  deriving DecidableEq, Repr

/-- The name of a severity in reports. -/
def Severity.text : Severity → String
  | .error => "error"
  | .warning => "warning"

/-- The kinds of issues, in the order in which reports list them for one path. -/
inductive Rule where
  | unlisted
  | unread
  | uncopied
  | unwritten
  deriving DecidableEq, Repr

/-- The name of a kind of issue in reports. -/
def Rule.text : Rule → String
  | .unlisted => "list-dir"
  | .unread => "read-file"
  | .uncopied => "copy-path"
  | .unwritten => "write-file"

/-- The position of a kind of issue among the kinds. -/
def Rule.rank : Rule → Nat
  | .unlisted => 0
  | .unread => 1
  | .uncopied => 2
  | .unwritten => 3

/-- A problem that concerns one path. -/
inductive Issue where
  /-- A directory could not be listed, so nothing below it was seen. -/
  | unlisted (path error : String)
  /-- A file could not be read and was passed over. -/
  | unread (path error : String)
  /-- A file or directory could not be copied. -/
  | uncopied (path target error : String)
  /-- A file could not be written back. -/
  | unwritten (path error : String)
  deriving DecidableEq, Repr

namespace Issue

/-- The path the issue is about. -/
def path : Issue → String
  | unlisted path _ | unread path _ | uncopied path _ _ | unwritten path _ => path

/-- The kind of the issue. -/
def rule : Issue → Rule
  | unlisted .. => .unlisted
  | unread .. => .unread
  | uncopied .. => .uncopied
  | unwritten .. => .unwritten

/-- Only a file that could not be written back is an error. -/
def severity : Issue → Severity
  | unwritten .. => .error
  | _ => .warning

/-- What went wrong. -/
def message : Issue → String
  | unlisted _ error => "cannot list directory: " ++ error
  | unread _ error => "cannot read file: " ++ error
  | uncopied _ target error => "cannot copy to " ++ target ++ ": " ++ error
  | unwritten _ error => "cannot write file: " ++ error

/-- Reports list issues by path, and by kind for one path. -/
def before (a b : Issue) : Bool :=
  a.path < b.path || (a.path == b.path && a.rule.rank < b.rule.rank)

/-- Puts an issue behind those that come before it or tie with it. -/
def insertSorted (issue : Issue) : List Issue → List Issue
  | [] => [issue]
  | other :: rest =>
    if issue.before other then issue :: other :: rest else other :: insertSorted issue rest

/-- The issues in report order; issues that tie keep their order. -/
def sort (issues : List Issue) : List Issue :=
  issues.foldl (fun sorted issue => insertSorted issue sorted) []

end Issue

end Phrasebook
