import Phrasebook.Catalog
import Phrasebook.Config.Basic
import Phrasebook.Report

/-!
# Outcomes of commands

What a command has done, as it is told to the operator.
-/

namespace Phrasebook

/-- How a command ends: it is done, it refused to act, it failed, or its report was broken off. -/
inductive ExitStatus where
  | success
  | refusal
  | failure
  | aborted
  deriving DecidableEq, Repr

/-- The exit code of the program. -/
def ExitStatus.code : ExitStatus → UInt8
  | success => 0
  | refusal => 1
  | failure => 2
  | aborted => 101

/-- What `run` has done. -/
structure RunSummary where
  catalog : Catalog
  catalogFile : Path
  outputDir : Path
  prompts : Nat
  filesScanned : Nat
  filesCopied : Nat
  filesChanged : Nat
  replacements : Nat
  /-- Files that are not UTF-8, counted in the survey and in the localization. -/
  binarySkipped : Nat
  deriving DecidableEq, Repr

/-- What `scan` has found. -/
structure ScanSummary where
  candidates : List Candidate
  /-- The number of different contents among the candidates. -/
  distinct : Nat
  filesScanned : Nat
  binarySkipped : Nat
  deriving DecidableEq, Repr

/-- What a command has done. -/
inductive Summary where
  | run (summary : RunSummary)
  | scan (summary : ScanSummary)
  | init (created : Bool)
  deriving DecidableEq, Repr

/-- What a command has done, and the issues it met with. -/
structure Outcome where
  summary : Summary
  issues : List Issue
  status : ExitStatus
  deriving DecidableEq, Repr

namespace Report

/-- A row of the catalog with the place of its sentence. -/
def catalogRow (theme : Theme) (entry : Catalog.Entry) : String :=
  "  [" ++ toString entry.index ++ "] " ++ entry.sentence.content ++ "  " ++
  theme.paint .dimmed .default entry.sentence.place.text ++ "\n"

/-- The report of `run`. -/
def run (theme : Theme) (verbose : Bool) (summary : RunSummary) : String :=
  (if verbose then summary.catalog.entries.foldr (catalogRow theme · ++ ·) "" else "") ++
  theme.ink .green successMark ++ " " ++
  theme.ink .green
    ("Cataloged " ++ plural summary.catalog.size "sentence" "sentences" ++ " from " ++
      plural summary.filesScanned "file" "files") ++ "\n" ++
  "  - prompts: " ++ toString summary.prompts ++ "\n" ++
  "  - copied: " ++ plural summary.filesCopied "file" "files" ++ " into " ++
  summary.outputDir.text ++ "\n" ++
  "  - rewritten: " ++ plural summary.filesChanged "file" "files" ++ " (" ++
  plural summary.replacements "replacement" "replacements" ++ ")\n" ++
  (if 0 < summary.binarySkipped then
    "  - skipped: " ++ plural summary.binarySkipped "file" "files" ++ " (not UTF-8)\n"
  else "") ++
  theme.paint .bold .green "Wrote" ++ " " ++ summary.catalogFile.text ++ "\n"

/-- The report of `scan`. -/
def scan (measure : Measure) (theme : Theme) (summary : ScanSummary) : Written :=
  let found :=
    "Found " ++ plural summary.candidates.length "candidate" "candidates" ++ " (" ++
    toString summary.distinct ++ " distinct) in " ++ plural summary.filesScanned "file" "files"
  (candidates measure theme summary.candidates).followedBy
    (theme.ink .green successMark ++ " " ++
    (if summary.candidates.isEmpty then theme.ink .green found else found) ++ "\n" ++
    (if 0 < summary.binarySkipped then
      theme.paint .bold .yellow "warning:" ++ " " ++
      plural summary.binarySkipped "file" "files" ++ " skipped (not UTF-8)\n"
    else ""))

/-- The report of `init` that has made a file. -/
def created (theme : Theme) : String :=
  theme.ink .green successMark ++ " " ++ theme.ink .green ("Created " ++ Config.fileName) ++ "\n"

/-- The complaint of `init` that has found a file. -/
def alreadyThere : String :=
  "Error: " ++ Config.fileName ++ " already exists\n"

/-- What an outcome writes to the standard output. -/
def output (measure : Measure) (theme : Theme) (verbose : Bool) (outcome : Outcome) : Written :=
  match outcome.summary with
  | .run summary => .whole (run theme verbose summary)
  | .scan summary => scan measure theme summary
  | .init true => .whole (created theme)
  | .init false => .whole ""

/-- What an outcome writes to the standard error output. -/
def errors (theme : Theme) (outcome : Outcome) : String :=
  (match outcome.summary with
  | .init false => alreadyThere
  | _ => "") ++
  issues theme outcome.issues

end Report

end Phrasebook
