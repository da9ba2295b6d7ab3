/-!
# Paths

A path keeps the text it was written with. Its meaning is its list of components: repeated and
trailing slashes and inner `.` segments carry none. Cutting a path at a component leaves the rest
as written.
-/

namespace Phrasebook

/-- A path as written. -/
structure Path where
  text : String
  deriving DecidableEq, Repr

/-- A meaningful part of a path. -/
inductive Component where
  /-- The slash an absolute path starts with. -/
  | root
  /-- The `.` a relative path may start with. -/
  | here
  /-- A `..`. -/
  | up
  | name (name : String)
  deriving DecidableEq, Repr

namespace Component

/-- The component a segment between slashes stands for; empty segments and `.` stand for none. -/
def ofSegment? (segment : String) : Option Component :=
  if segment = "" ∨ segment = "." then none
  else if segment = ".." then some up
  else some (name segment)

/-- The component as written. -/
def text : Component → String
  | root => "/"
  | here => "."
  | up => ".."
  | name written => written

end Component

namespace Path

/-- Splits a text at its slashes. There is always at least one segment. -/
def splitSlashes : List Char → List (List Char)
  | [] => [[]]
  | c :: cs =>
    if c = '/' then
      [] :: splitSlashes cs
    else
      match splitSlashes cs with
      | [] => [[c]]
      | segment :: rest => (c :: segment) :: rest

/-- Joins segments by slashes. -/
def joinSlashes : List String → String
  | [] => ""
  | [segment] => segment
  | segment :: rest => segment ++ "/" ++ joinSlashes rest

/-- The segments between the slashes of a path, as written. -/
def segments (path : Path) : List String :=
  (splitSlashes path.text.toList).map String.ofList

/-- The path has no text. -/
def isEmpty (path : Path) : Bool :=
  path.text.isEmpty

/-- The path starts at the root. -/
def isAbsolute (path : Path) : Bool :=
  path.text.toList.head? == some '/'

/-- The last character of the path is a slash, which asks for a directory. -/
def endsInSlash (path : Path) : Bool :=
  path.text.toList.getLast? == some '/'

/-- How a path begins, before its body of segments. -/
inductive Lead where
  | root
  | here
  | none
  deriving DecidableEq, Repr

/-- The components a lead stands for. -/
def Lead.components : Lead → List Component
  | root => [.root]
  | here => [.here]
  | none => []

/-- The lead and the body of a path. -/
def parts (path : Path) : Lead × List String :=
  match path.isAbsolute, path.segments with
  | true, segments => (.root, segments.tail)
  | false, "." :: rest => (.here, rest)
  | false, segments => (.none, segments)

/-- The path with a given lead and body. -/
def ofParts (lead : Lead) (body : List String) : Path :=
  match lead, body with
  | .root, body => ⟨"/" ++ joinSlashes body⟩
  | .here, [] => ⟨"."⟩
  | .here, body => ⟨"./" ++ joinSlashes body⟩
  | .none, body => ⟨joinSlashes body⟩

/-- The meaningful parts of a path. -/
def components (path : Path) : List Component :=
  let (lead, body) := path.parts
  lead.components ++ body.filterMap Component.ofSegment?

/-- The segment stands for no component. -/
def isIdle (segment : String) : Bool :=
  (Component.ofSegment? segment).isNone

/-- A body without the idle segments at its end. -/
def dropIdleEnd (body : List String) : List String :=
  (body.reverse.dropWhile isIdle).reverse

/-- The path without its last component, unless it is empty or the root. -/
def parent? (path : Path) : Option Path :=
  let (lead, body) := path.parts
  match lead, dropIdleEnd body with
  | .root, [] => none
  | .none, [] => none
  | .here, [] => some ⟨""⟩
  | lead, body => some (ofParts lead (dropIdleEnd body.dropLast))

/-- The path and its successive parents, at most `n + 1` of them. -/
def ancestorsUpTo : Nat → Path → List Path
  | 0, path => [path]
  | n + 1, path =>
    match path.parent? with
    | none => [path]
    | some parent => path :: ancestorsUpTo n parent

/-- The path and its successive parents, ending at the root or at the empty path. -/
def ancestors (path : Path) : List Path :=
  ancestorsUpTo path.components.length path

/-- The path is `base` or lies below it, compared by components. -/
def startsWith (path base : Path) : Bool :=
  base.components.isPrefixOf path.components

/-- A body without its first `n` components and the idle segments around the rest. -/
def dropComponents : Nat → List String → List String
  | 0, body => dropIdleEnd (body.dropWhile isIdle)
  | _ + 1, [] => []
  | n + 1, segment :: rest =>
    if isIdle segment then dropComponents (n + 1) rest else dropComponents n rest

/-- What is left of a path below `base`, as written. -/
def relativeTo? (path base : Path) : Option Path :=
  if path.startsWith base then
    let (lead, body) := path.parts
    match base.components.length, lead.components.length with
    | 0, _ => some (ofParts lead (dropIdleEnd body))
    | n, taken => some (ofParts .none (dropComponents (n - taken) body))
  else
    none

/-- The path below `base`, or the whole path if it does not lie there. -/
def relativeTo (path base : Path) : Path :=
  (path.relativeTo? base).getD path

/-- The path by which issues name `path`: relative to `root`, but `root` for the root itself. -/
def issueText (root path : Path) : String :=
  let relative := path.relativeTo root
  if relative.isEmpty then root.text else relative.text

/-- The path `other` seen from `path`; an absolute path stays as it is. -/
def join (path other : Path) : Path :=
  if other.isAbsolute then other
  else if path.isEmpty || path.endsInSlash then ⟨path.text ++ other.text⟩
  else ⟨path.text ++ "/" ++ other.text⟩

/-- The path of an entry of a directory. -/
def child (path : Path) (name : String) : Path :=
  path.join ⟨name⟩

/-- The name of what the path leads to, unless its last component is not a name. -/
def fileName? (path : Path) : Option String :=
  match path.components.getLast? with
  | some (.name name) => some name
  | _ => none

/-- What follows the last dot of a name, if something stands before that dot. -/
def extensionOfName? (name : String) : Option String :=
  let reversed := name.toList.reverse
  match reversed.dropWhile (· != '.') with
  | [] => none
  | [_] => none
  | _ :: _ :: _ => some (String.ofList (reversed.takeWhile (· != '.')).reverse)

/-- The extension of the file name. -/
def extension? (path : Path) : Option String :=
  path.fileName?.bind extensionOfName?

/-- The absolute form of a non-empty path, seen from the directory `base`. Idle segments go, `..`
    stays, and so does a slash at the end, which asks for a directory. Exactly two slashes at the
    start stay two. -/
def absolute (path base : Path) : Path :=
  let start : Path :=
    if path.isAbsolute then
      if (path.text.toList.takeWhile (· == '/')).length = 2 then ⟨"//"⟩ else ⟨"/"⟩
    else
      base
  let steps := path.components.filter fun c => c != .root && c != .here
  let whole := steps.foldl (fun whole c => whole.child c.text) start
  if path.endsInSlash then whole.join ⟨""⟩ else whole

end Path

end Phrasebook
