import Phrasebook.Issue
import Phrasebook.Walk

/-!
# Copying a tree

A tree is copied, links followed, in two passes: the directories are made during the walk, then the
files are copied in the order of the walk. A directory that cannot be made loses all that is below
it, a file that cannot be copied only itself; both become issues.
-/

namespace Phrasebook

/-- What has been copied. -/
structure TreeCopied where
  filesCopied : Nat
  dirsCreated : Nat
  issues : List Issue
  deriving DecidableEq, Repr

namespace TreeCopy

/-- A file that is to be copied, and the path by which issues name it. -/
structure Job where
  source : Path
  target : Path
  shown : String
  deriving DecidableEq, Repr

/-- The state of the walk. -/
structure State where
  done : TreeCopied
  /-- The directories that could not be made, relative to the root. -/
  failed : List Path
  jobs : List Job
  deriving DecidableEq, Repr

/-- Adds an issue. -/
def State.addIssue (state : State) (issue : Issue) : State :=
  { state with done.issues := state.done.issues ++ [issue] }

/-- Where the copy of an entry goes. -/
def target (destination relative : Path) : Path :=
  if relative.isEmpty then destination else destination.join relative

variable {m : Type → Type} [Monad m] [Storage m]

/-- Makes the directory of an entry, or notes the file of an entry as a job. -/
def onEvent (source destination : Path) (state : State) :
    Walk.Event → m (State × Walk.Flow)
  | .trouble trouble =>
    return (state.addIssue (.unlisted (trouble.issueText source) trouble.message), .enter)
  | .entry entry => do
    let relative := entry.path.relativeTo source
    if state.failed.any relative.startsWith then
      return (state, .enter)
    let shown := Path.issueText source entry.path
    let copied := target destination relative
    match entry.kind with
    | .directory =>
      match ← Storage.makeDirectories copied with
      | .ok () =>
        return ({ state with done.dirsCreated := state.done.dirsCreated + 1 }, .enter)
      | .error e =>
        let state := state.addIssue (.uncopied shown copied.text e.message)
        return ({ state with failed := state.failed ++ [relative] }, .enter)
    | .file => return ({ state with jobs := state.jobs ++ [⟨entry.path, copied, shown⟩] }, .enter)
    | _ => return (state, .enter)

/-- Copies files one after the other. -/
def copyAll : List Job → TreeCopied → m TreeCopied
  | [], done => pure done
  | job :: rest, done => do
    match ← Storage.copy job.source job.target with
    | .ok () => copyAll rest { done with filesCopied := done.filesCopied + 1 }
    | .error e =>
      let issue := .uncopied job.shown job.target.text e.message
      copyAll rest { done with issues := done.issues ++ [issue] }

end TreeCopy

/-- Copies every file and directory of `source` into `destination`, which is made if needed. -/
def copyTree {m : Type → Type} [Monad m] [Storage m] (source destination : Path) :
    m TreeCopied := do
  let progress ←
    Walk.walk true source (TreeCopy.onEvent source destination) ⟨⟨0, 0, []⟩, [], []⟩
  TreeCopy.copyAll progress.state.jobs progress.state.done

end Phrasebook
