import Phrasebook.Storage

/-!
# Walking a tree

A walk goes through a directory tree and reports each entry to a visitor, a directory before what
it holds and the entries of a directory by name. The names in a directory are read once, when the
walk gets to it and before the visitor hears of it; trouble with reading them is reported after the
directory itself.

Links are followed or left alone. A link that is followed must not lead back to a directory the walk
is inside of, so that a walk comes to an end.
-/

namespace Phrasebook

namespace Walk

/-- An entry of the tree, as the walk sees it. -/
structure Entry where
  path : Path
  kind : EntryKind
  deriving DecidableEq, Repr

/-- Trouble on the way. -/
inductive Trouble where
  /-- An operation on a path failed. -/
  | failed (path : Path) (error : OsError)
  /-- A directory behind a link, or one around it, could not be opened. -/
  | unopened (error : OsError)
  /-- A link leads to a directory the walk is inside of. -/
  | loop (link ancestor : Path)
  deriving DecidableEq, Repr

namespace Trouble

/-- The path the trouble is about, if one is known. -/
def path? : Trouble → Option Path
  | failed path _ => some path
  | unopened _ => none
  | loop link _ => some link

/-- The wording of the trouble. -/
def message : Trouble → String
  | failed path error => "IO error for operation on " ++ path.text ++ ": " ++ error.message
  | unopened error => error.message
  | loop link ancestor =>
    "File system loop found: " ++ link.text ++ " points to an ancestor " ++ ancestor.text

/-- The path by which issues name the trouble. -/
def issueText (root : Path) (trouble : Trouble) : String :=
  match trouble.path? with
  | some path => Path.issueText root path
  | none => root.text

end Trouble

/-- What a walk reports. -/
inductive Event where
  | entry (entry : Entry)
  | trouble (trouble : Trouble)
  deriving DecidableEq, Repr

/-- How a walk goes on after an event. -/
inductive Flow where
  | enter
  /-- Go on, but leave out what the entry holds. -/
  | skip
  /-- End the walk. -/
  | stop
  deriving DecidableEq, Repr

/-- The state of a visitor, and whether the walk goes on. -/
structure Progress (σ : Type) where
  state : σ
  going : Bool

/-- Puts an entry of a directory behind those with a smaller name. -/
def insertByName (item : String × EntryKind) :
    List (String × EntryKind) → List (String × EntryKind)
  | [] => [item]
  | other :: rest =>
    if item.1 < other.1 then item :: other :: rest else other :: insertByName item rest

/-- The entries of a directory by name. -/
def sortByName (names : List (String × EntryKind)) : List (String × EntryKind) :=
  names.foldr insertByName []

variable {m : Type → Type} [Monad m] [Storage m] {σ : Type}

/-- The first of the directories, innermost first, that is the one called `target`. -/
def sameDirectory (target : Path) : List Path → m (Except OsError (Option Path))
  | [] => pure (.ok none)
  | ancestor :: rest => do
    match ← Storage.identify ancestor with
    | .error e => return .error e
    | .ok found => if found = target then return .ok (some ancestor) else sameDirectory target rest

/-- What a link leads to, unless that is one of the directories around it. -/
def followLink (ancestors : List Path) (link : Path) : m (Except Trouble EntryKind) := do
  match ← Storage.kind link with
  | .error e => return .error (.failed link e)
  | .ok .directory =>
    match ← Storage.identify link with
    | .error e => return .error (.unopened e)
    | .ok target =>
      match ← sameDirectory target ancestors with
      | .error e => return .error (.unopened e)
      | .ok (some ancestor) => return .error (.loop link ancestor)
      | .ok none => return .ok .directory
  | .ok kind => return .ok kind

/-- What the walk takes an entry for: a link that is followed is what it leads to. -/
def resolveKind (follow : Bool) (ancestors : List Path) (path : Path) (kind : EntryKind) :
    m (Except Trouble EntryKind) :=
  if follow && kind = .link then followLink ancestors path else pure (.ok kind)

/-- The walk goes into what stands at a path: a directory, or at the root a link to one. -/
def goesInto (ancestors : List Path) (path : Path) (kind : EntryKind) : m (Except OsError Bool) :=
  if kind = .directory then pure (.ok true)
  else if kind = .link && ancestors.isEmpty then do
    return (← Storage.kind path).map (· == .directory)
  else pure (.ok false)

/-- Visits in turn until one of the visits ends the walk. -/
def inTurn {α : Type} (visit : σ → α → m (Progress σ)) : List α → σ → m (Progress σ)
  | [], state => pure ⟨state, true⟩
  | item :: rest, state => do
    let progress ← visit state item
    if progress.going then inTurn visit rest progress.state else return progress

/-- Reports an event that nothing stands below. -/
def report (visit : σ → Event → m (σ × Flow)) (event : Event) (state : σ) : m (Progress σ) := do
  let (state, flow) ← visit state event
  return ⟨state, flow != .stop⟩

/-- Walks through what stands at a path, which has already been found to be of a kind. The walk goes
    at most `depth` directories deep, and a path of that many names is too long for any storage. -/
def walkEntry (follow : Bool) (visit : σ → Event → m (σ × Flow)) :
    Nat → List Path → Path → EntryKind → σ → m (Progress σ)
  | 0, _, path, _, state => report visit (.trouble (.failed path .nameTooLong)) state
  | depth + 1, ancestors, path, kind, state => do
    match ← resolveKind follow ancestors path kind with
    | .error trouble => report visit (.trouble trouble) state
    | .ok kind =>
      match ← goesInto ancestors path kind with
      | .error e => report visit (.trouble (.failed path e)) state
      | .ok false => report visit (.entry ⟨path, kind⟩) state
      | .ok true =>
        let names ← Storage.list path
        let (state, flow) ← visit state (.entry ⟨path, kind⟩)
        match flow, names with
        | .stop, _ => return ⟨state, false⟩
        | .skip, _ => return ⟨state, true⟩
        | .enter, .error e => report visit (.trouble (.failed path e)) state
        | .enter, .ok names =>
          inTurn
            (fun state (name, kind) =>
              walkEntry follow visit depth (path :: ancestors) (path.child name) kind state)
            (sortByName names) state

/-- The number of directories that a walk goes down at most. -/
def depthLimit : Nat := 4096

/-- Walks through the tree at `root`. If links are not followed, a root that is a link to a directory
    is walked through all the same. -/
def walk (follow : Bool) (root : Path) (visit : σ → Event → m (σ × Flow)) (state : σ) :
    m (Progress σ) := do
  match ← Storage.entryKind root with
  | .error e => report visit (.trouble (.failed root e)) state
  | .ok kind => walkEntry follow visit depthLimit [] root kind state

end Walk

end Phrasebook
