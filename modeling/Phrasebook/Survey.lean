import Phrasebook.Filter
import Phrasebook.Issue
import Phrasebook.Review
import Phrasebook.Walk

/-!
# Surveys

A survey walks through a source tree, links followed, and hands each text file that passes a filter
to a visitor. Files that cannot be read and directories that cannot be listed become issues; files
that are not UTF-8 are counted.
-/

namespace Phrasebook

/-- What a survey has met with. -/
structure Tally where
  /-- Text files handed to the visitor. -/
  filesScanned : Nat
  /-- Files passed over because they are not UTF-8. -/
  binarySkipped : Nat
  issues : List Issue
  deriving DecidableEq, Repr

/-- Nothing has been met with. -/
def Tally.zero : Tally := ⟨0, 0, []⟩

namespace Survey

/-- The state of a survey: what the visitor keeps, the tally, and the failure that ended it. -/
structure State (τ ε : Type) where
  kept : τ
  tally : Tally
  failure : Option ε

namespace State

variable {τ ε : Type}

/-- Adds an issue. -/
def addIssue (state : State τ ε) (issue : Issue) : State τ ε :=
  { state with tally.issues := state.tally.issues ++ [issue] }

/-- Counts a file that is not UTF-8. -/
def addBinary (state : State τ ε) : State τ ε :=
  { state with tally.binarySkipped := state.tally.binarySkipped + 1 }

/-- Counts a file that is handed to the visitor. -/
def addScanned (state : State τ ε) : State τ ε :=
  { state with tally.filesScanned := state.tally.filesScanned + 1 }

end State

variable {m : Type → Type} [Monad m] [Storage m] {τ ε : Type}

/-- Reads a file and hands its text to the visitor, with its path relative to the root. -/
def scanFile (visit : τ → String → String → m (τ × Option ε)) (path relative : Path)
    (state : State τ ε) : m (State τ ε × Walk.Flow) := do
  match ← Storage.read path with
  | .error e => return (state.addIssue (.unread relative.text e.message), .enter)
  | .ok bytes =>
    match String.fromUTF8? bytes with
    | none => return (state.addBinary, .enter)
    | some text =>
      let (kept, failure) ← visit state.kept relative.text text
      return ({ state.addScanned with kept, failure }, if failure.isSome then .stop else .enter)

/-- What a survey does at an event of its walk. -/
def onEvent (root : Path) (filter : Filter) (visit : τ → String → String → m (τ × Option ε))
    (state : State τ ε) : Walk.Event → m (State τ ε × Walk.Flow)
  | .trouble trouble =>
    return (state.addIssue (.unlisted (trouble.issueText root) trouble.message), .enter)
  | .entry entry =>
    let relative := entry.path.relativeTo root
    if !relative.isEmpty && filter.ignored relative then
      return (state, .skip)
    else if entry.kind = .file && filter.accepts relative then
      scanFile visit entry.path relative state
    else
      return (state, .enter)

end Survey

section

variable {m : Type → Type} [Monad m] [Storage m] {τ ε : Type}

/-- Hands every text file below `root` that passes the filter to the visitor, with its path relative
    to `root`. A failure of the visitor ends the survey. -/
def survey (root : Path) (filter : Filter) (visit : τ → String → String → m (τ × Option ε))
    (kept : τ) : m (τ × Except ε Tally) := do
  let state : Survey.State τ ε := ⟨kept, .zero, none⟩
  let progress ← Walk.walk true root (Survey.onEvent root filter visit) state
  match progress.state.failure with
  | some e => return (progress.state.kept, .error e)
  | none => return (progress.state.kept, .ok progress.state.tally)

/-- The approved sentences of a tree, in the order of their first places. -/
structure Reviewed where
  sentences : List Approved
  prompts : Nat
  tally : Tally
  deriving DecidableEq, Repr

/-- Puts every candidate of a tree whose content is new to the operator. What has been asked is
    returned also if the operator fails. -/
def reviewTree (confirm : Request → m (Except ε Bool)) (root : Path) (filter : Filter)
    (asked : Asked) : m (Asked × Except ε Reviewed) := do
  let ((review, sentences), result) ←
    survey root filter
      (fun (review, sentences) file text => do
        let (review, result) ←
          review.literals confirm ((candidatesIn file text).map (·.literal))
        match result with
        | .ok approved => return ((review, sentences ++ approved), none)
        | .error e => return ((review, sentences), some e))
      (Review.start asked, [])
  return (review.asked, result.map fun tally => ⟨sentences, review.prompts, tally⟩)

/-- Every candidate of a tree, repeats included. -/
def findCandidates (root : Path) (filter : Filter) : m (List Candidate × Tally) := do
  let (candidates, result) ←
    survey root filter
      (fun candidates file text =>
        return (candidates ++ candidatesIn file text, (none : Option Empty)))
      []
  match result with
  | .ok tally => return (candidates, tally)
  | .error e => nomatch e

end

end Phrasebook
