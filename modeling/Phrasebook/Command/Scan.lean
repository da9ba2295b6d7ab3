import Phrasebook.Command.Outcome
import Phrasebook.CommandLine.Basic
import Phrasebook.Survey

/-!
# The command `scan`
-/

namespace Phrasebook

namespace Command

variable {m : Type → Type} [Monad m] [Storage m]

/-- The canonical path of a folder. -/
def openFolder (path : Path) : m (Except Failure Path) := do
  if path.isEmpty || !(← Storage.isDirectory path) then
    return .error (.badFolder path none)
  match ← Storage.canonical path with
  | .ok root => return .ok root
  | .error e => return .error (.badFolder path (some e))

/-- The number of different contents among candidates. -/
def distinctContents (candidates : List Candidate) : Nat :=
  (Asked.ofList (candidates.map (·.literal.content))).size

/-- Lists the candidates of a folder without asking or writing anything. The folder is the one given,
    the configured one or the working directory. -/
def scan (options : CommandLine.ScanOptions) (config : Config) : m (Except Failure Outcome) := do
  let source := (options.path <|> config.sourceRoot.map Path.mk).getD ⟨"."⟩
  match ← openFolder source with
  | .error failure => return .error failure
  | .ok root =>
    match Filter.ofLists config.ignores config.extensions with
    | .error bad => return .error (.badIgnore bad)
    | .ok filter =>
      let (candidates, tally) ← findCandidates root filter
      let summary : ScanSummary :=
        ⟨candidates, distinctContents candidates, tally.filesScanned, tally.binarySkipped⟩
      return .ok ⟨.scan summary, tally.issues, .success⟩

end Command

end Phrasebook
