import Phrasebook.Storage

/-!
# Disks

A tree of files, directories and symbolic links in memory, with the permissions of its one owner.
Every node has a location, the list of names that leads to it from the root with the innermost name
first. It has no other: a file has one name, so what is written to it changes what stands at one
location only (there are no hard links). Paths are followed as a file system follows them: each
directory on the way must be one that may be entered, `..` leads to the parent of the directory that
has been reached, and at most forty links are followed.
-/

namespace Phrasebook

/-- The names from a node up to the root. The root itself has the empty location. -/
abbrev Location := List String

/-- The path without links and dots to a location. -/
def Location.path (location : Location) : Path :=
  ⟨"/" ++ Path.joinSlashes location.reverse⟩

/-- What the owner may do with a file or directory. -/
structure Access where
  read : Bool
  write : Bool
  /-- Directories only: reach the entries. -/
  enter : Bool
  deriving DecidableEq, Repr

/-- Everything is allowed. -/
def Access.full : Access := ⟨true, true, true⟩

/-- What stands at a location. -/
inductive Node where
  | file (content : ByteArray) (access : Access)
  | directory (access : Access)
  | link (target : String)
  | device

namespace Node

/-- The kind of entry a node is. -/
def kind : Node → EntryKind
  | file .. => .file
  | directory _ => .directory
  | link _ => .link
  | device => .special

/-- The node without restrictions. -/
def unlock : Node → Node
  | file content _ => file content .full
  | directory _ => directory .full
  | node => node

/-- The node with other permissions, where it has any. -/
def setAccess (access : Access) : Node → Node
  | file content _ => file content access
  | directory _ => directory access
  | node => node

/-- The node may be opened for reading. -/
def readable : Node → Bool
  | file _ access => access.read
  | directory access => access.read
  | _ => true

end Node

/-- The nodes by location, and the location that relative paths start from. -/
structure Disk where
  nodes : List (Location × Node)
  here : Location

/-- Where a path leads to. -/
inductive Spot where
  | occupied (location : Location) (node : Node)
  /-- Nothing has this name in the directory at `parent`. -/
  | vacant (parent : Location) (name : String)

/-- What is wanted of the last name of a path. -/
inductive Ending where
  /-- What the name leads to, through any links. -/
  | target
  /-- What has the name, be it a link. -/
  | entry
  /-- What the name leads to, opened for writing. It must not be asked to be a directory. -/
  | written
  /-- The place of a new directory or link. A slash behind the name says nothing. -/
  | made
  deriving DecidableEq, Repr

/-- A link that has the last name is not followed. -/
def Ending.keepsLink : Ending → Bool
  | entry | made => true
  | target | written => false

namespace Disk

/-- A disk that holds the root directory and nothing else. -/
def empty : Disk := ⟨[([], .directory .full)], []⟩

/-- The node at a location. -/
def get? (disk : Disk) (location : Location) : Option Node :=
  disk.nodes.lookup location

/-- Puts a node at a location, in place of what was there. -/
def insert (disk : Disk) (location : Location) (node : Node) : Disk :=
  { disk with nodes := (location, node) :: disk.nodes.filter (·.1 != location) }

/-- Removes the nodes at and below a location. -/
def erase (disk : Disk) (location : Location) : Disk :=
  { disk with nodes := disk.nodes.filter (! location.isSuffixOf ·.1) }

/-- The names in a directory, with what they stand for. -/
def names (disk : Disk) (location : Location) : List (String × EntryKind) :=
  disk.nodes.filterMap fun
    | (name :: parent, node) => if parent = location then some (name, node.kind) else none
    | ([], _) => none

/-- The longest name, in bytes. -/
def nameLimit : Nat := 255

/-- Paths must be shorter than this, in bytes. -/
def pathLimit : Nat := 4096

/-- How many links are followed on the way along one path. -/
def linkLimit : Nat := 40

/-- The names to follow along a path or link target. A slash at its end, which asks for a directory,
    is an empty name at the end. -/
def route (path : Path) : List String :=
  path.segments.filter (· != "") ++ if path.endsInSlash then [""] else []

/-- Follows names from a directory. A link on the way is handed to `follow`, and so is one at the end
    unless `ending` keeps it. -/
def trace (disk : Disk) (ending : Ending) (follow : Location → List String → Except OsError Spot) :
    Location → List String → Except OsError Spot
  | location, [] =>
    match disk.get? location with
    | some node => .ok (.occupied location node)
    | none => .error .noEntry
  | location, name :: rest =>
    match disk.get? location with
    | none => .error .noEntry
    | some (.directory access) =>
      if name = "" then disk.trace ending follow location rest
      else if !access.enter then .error .denied
      else if name = "." then disk.trace ending follow location rest
      else if name = ".." then disk.trace ending follow location.tail rest
      else if ending = .written ∧ rest = [""] then .error .isDirectory
      else if nameLimit < name.utf8ByteSize then .error .nameTooLong
      else
        match disk.get? (name :: location) with
        | none => if rest.isEmpty then .ok (.vacant location name) else .error .noEntry
        | some (.link target) =>
          if ending.keepsLink && rest.isEmpty then
            .ok (.occupied (name :: location) (.link target))
          else
            follow (if (Path.mk target).isAbsolute then [] else location)
              (route ⟨target⟩ ++ rest)
        | some _ => disk.trace ending follow (name :: location) rest
    | some _ => .error .notDirectory

/-- Follows names, and at most the given number of links. -/
def pursue (disk : Disk) (ending : Ending) :
    Nat → Location → List String → Except OsError Spot
  | 0 => disk.trace ending fun _ _ => .error .tooManyLinks
  | links + 1 => disk.trace ending (disk.pursue ending links)

/-- Where a path leads to. -/
def locate (disk : Disk) (ending : Ending) (path : Path) : Except OsError Spot :=
  if path.isEmpty then .error .noEntry
  else if pathLimit ≤ path.text.utf8ByteSize then .error .nameTooLong
  else
    disk.pursue ending linkLimit (if path.isAbsolute then [] else disk.here)
      (match ending with
      | .made => path.segments.filter (· != "")
      | _ => route path)

/-- The node a path leads to. -/
def find (disk : Disk) (ending : Ending) (path : Path) : Except OsError (Location × Node) :=
  match disk.locate ending path with
  | .error e => .error e
  | .ok (.vacant ..) => .error .noEntry
  | .ok (.occupied location node) => .ok (location, node)

/-- The kind of what a path leads to, a link at its end being followed. -/
def kind (disk : Disk) (path : Path) : Except OsError EntryKind :=
  (disk.find .target path).map (·.2.kind)

/-- The kind of what stands at a path, a link at its end being an entry of its own. -/
def entryKind (disk : Disk) (path : Path) : Except OsError EntryKind :=
  (disk.find .entry path).map (·.2.kind)

/-- The entries of a directory. -/
def list (disk : Disk) (path : Path) : Except OsError (List (String × EntryKind)) :=
  match disk.find .target path with
  | .error e => .error e
  | .ok (location, .directory access) =>
    if access.read then .ok (disk.names location) else .error .denied
  | .ok _ => .error .notDirectory

/-- Which node a path leads to, provided that it may be read. -/
def identify (disk : Disk) (path : Path) : Except OsError Path :=
  match disk.find .target path with
  | .error e => .error e
  | .ok (location, node) => if node.readable then .ok location.path else .error .denied

/-- The path without links and dots to what a path leads to. -/
def canonical (disk : Disk) (path : Path) : Except OsError Path :=
  (disk.find .target path).map (·.1.path)

/-- The bytes of a file. -/
def read (disk : Disk) (path : Path) : Except OsError ByteArray :=
  match disk.find .target path with
  | .error e => .error e
  | .ok (_, node) =>
    if !node.readable then .error .denied
    else
      match node with
      | .file content _ => .ok content
      | .directory _ => .error .isDirectory
      | _ => .ok .empty

/-- Adds a node to a directory that takes new entries. -/
def addEntry (disk : Disk) (parent : Location) (name : String) (node : Node) :
    Except OsError Disk :=
  match disk.get? parent with
  | some (.directory access) =>
    if access.write then .ok (disk.insert (name :: parent) node) else .error .denied
  | _ => .error .notDirectory

/-- Opens a path for writing and puts a new file there, which may depend on the location and the
    permissions of the file it replaces. -/
def store (disk : Disk) (path : Path) (new : Option (Location × Access) → Node) :
    Except OsError Disk :=
  match disk.locate .written path with
  | .error e => .error e
  | .ok (.vacant parent name) => disk.addEntry parent name (new none)
  | .ok (.occupied _ (.directory _)) => .error .isDirectory
  | .ok (.occupied location (.file _ access)) =>
    if access.write then .ok (disk.insert location (new (some (location, access))))
    else .error .denied
  | .ok (.occupied ..) => .ok disk

/-- Replaces the bytes of a file, which is made if it is not there. -/
def write (disk : Disk) (path : Path) (bytes : ByteArray) : Except OsError Disk :=
  disk.store path fun old => .file bytes ((old.map (·.2)).getD .full)

/-- Copies a file with its permissions. The target is emptied before the source is read, so a file
    that is copied onto itself ends up empty. -/
def copy (disk : Disk) (source target : Path) : Except OsError Disk :=
  match disk.find .target source with
  | .error e => .error e
  | .ok (location, node) =>
    if !node.readable then .error .denied
    else
      match node with
      | .file content access =>
        disk.store target fun old =>
          .file (if old.any (·.1 = location) then .empty else content) access
      | _ =>
        .error (.other
          "the source path is neither a regular file nor a symlink to a regular file")

/-- Makes one directory, where nothing was before. -/
def makeDirectory (disk : Disk) (path : Path) : Except OsError Disk :=
  match disk.locate .made path with
  | .error e => .error e
  | .ok (.occupied ..) => .error .alreadyThere
  | .ok (.vacant parent name) => disk.addEntry parent name (.directory .full)

/-- Makes a link, where nothing was before. -/
def makeLink (disk : Disk) (path : Path) (target : String) : Except OsError Disk :=
  match disk.locate .made path with
  | .error e => .error e
  | .ok (.occupied ..) => .error .alreadyThere
  | .ok (.vacant parent name) => disk.addEntry parent name (.link target)

/-- Removes what stands at a path, with everything below it. -/
def remove (disk : Disk) (path : Path) : Except OsError Disk :=
  (disk.find .entry path).map fun (location, _) => disk.erase location

/-- Lifts all restrictions at and below a location. -/
def unlock (disk : Disk) (location : Location) : Disk :=
  { disk with
    nodes := disk.nodes.map fun (place, node) =>
      (place, if location.isSuffixOf place then node.unlock else node) }

/-- Makes the directory that a path leads to the one that relative paths start from. -/
def enter (disk : Disk) (path : Path) : Except OsError Disk :=
  match disk.find .target path with
  | .error e => .error e
  | .ok (location, .directory _) => .ok { disk with here := location }
  | .ok _ => .error .notDirectory

/-- Puts a node behind those with a smaller location, compared name by name from the outside. -/
def insertSorted (item : List String × Node) : List (List String × Node) → List (List String × Node)
  | [] => [item]
  | other :: rest =>
    if item.1 < other.1 then item :: other :: rest else other :: insertSorted item rest

/-- The nodes below a location, each with the names that lead to it from there, parents before
    children and names in order. -/
def below (disk : Disk) (location : Location) : List (List String × Node) :=
  let inside := disk.nodes.filter fun (place, _) => location.isSuffixOf place && place != location
  (inside.map fun (place, node) =>
    ((place.take (place.length - location.length)).reverse, node)).foldr insertSorted []

end Disk

end Phrasebook
