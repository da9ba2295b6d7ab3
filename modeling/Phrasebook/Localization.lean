import Phrasebook.Issue
import Phrasebook.Replacement
import Phrasebook.Walk

/-!
# Localization of a tree

In every text file of a tree the literals of a catalog are replaced by calls, links being left alone.
A file in which nothing is found is not written.
-/

namespace Phrasebook

/-- What has been localized. -/
structure Localized where
  filesVisited : Nat
  filesChanged : Nat
  replacements : Nat
  /-- Files left as they are because they are not UTF-8. -/
  binarySkipped : Nat
  issues : List Issue
  deriving DecidableEq, Repr

namespace Localization

/-- What became of one file. -/
inductive Outcome where
  | unchanged
  | changed (count : Nat)
  | binary
  | failed (issue : Issue)
  deriving DecidableEq, Repr

/-- Adds the outcome of one file. -/
def addOutcome (done : Localized) : Outcome → Localized
  | .unchanged => done
  | .changed count =>
    { done with
      filesChanged := done.filesChanged + 1
      replacements := done.replacements + count }
  | .binary => { done with binarySkipped := done.binarySkipped + 1 }
  | .failed issue => { done with issues := done.issues ++ [issue] }

variable {m : Type → Type} [Monad m] [Storage m]

/-- The issues and the files a walk has met with. -/
structure Found where
  issues : List Issue
  files : List Path
  deriving DecidableEq, Repr

/-- Notes the regular files of a tree. -/
def onEvent (root : Path) (found : Found) : Walk.Event → m (Found × Walk.Flow)
  | .trouble trouble =>
    let issue := .unlisted (trouble.issueText root) trouble.message
    return ({ found with issues := found.issues ++ [issue] }, .enter)
  | .entry entry =>
    if entry.kind = .file then
      return ({ found with files := found.files ++ [entry.path] }, .enter)
    else
      return (found, .enter)

/-- Localizes one file. -/
def localizeFile (root : Path) (replacements : List Replacement) (path : Path) : m Outcome := do
  let shown := (path.relativeTo root).text
  match ← Storage.read path with
  | .error e => return .failed (.unread shown e.message)
  | .ok bytes =>
    match String.fromUTF8? bytes with
    | none => return .binary
    | some text =>
      match localizeText text replacements with
      | (_, 0) => return .unchanged
      | (localized, count) =>
        match ← Storage.write path localized.toUTF8 with
        | .ok () => return .changed count
        | .error e => return .failed (.unwritten shown e.message)

/-- Localizes files one after the other. -/
def localizeAll (root : Path) (replacements : List Replacement) :
    List Path → Localized → m Localized
  | [], done => pure done
  | path :: rest, done => do
    let outcome ← localizeFile root replacements path
    localizeAll root replacements rest (addOutcome done outcome)

end Localization

/-- Localizes every file below `root` against a catalog. With an empty catalog the files are only
    counted. -/
def localizeTree {m : Type → Type} [Monad m] [Storage m] (root : Path) (catalog : Catalog)
    (table : String) : m Localized := do
  let progress ← Walk.walk false root (Localization.onEvent root) ⟨[], []⟩
  let found := progress.state
  let start : Localized := ⟨found.files.length, 0, 0, 0, found.issues⟩
  if catalog.sentences.isEmpty then
    return start
  Localization.localizeAll root (Replacement.ofCatalog catalog table) found.files start

end Phrasebook
