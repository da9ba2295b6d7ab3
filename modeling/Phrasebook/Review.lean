import Phrasebook.Catalog

/-!
# Review

Candidates are put to an operator one at a time. The contents asked about so far are remembered, so
that each content is asked about at most once, whatever the answer was.
-/

namespace Phrasebook

/-- The contents put to the operator so far, in the order they were first asked about. -/
structure Asked where
  contents : List String
  deriving DecidableEq, Repr

namespace Asked

/-- Nothing has been asked yet. -/
def empty : Asked := ⟨[]⟩

/-- The content has been asked about. -/
def contains (asked : Asked) (content : String) : Bool :=
  asked.contents.contains content

/-- Adds a content that is not there yet. -/
def insert (asked : Asked) (content : String) : Asked :=
  if asked.contains content then asked else ⟨asked.contents ++ [content]⟩

/-- The number of contents. -/
def size (asked : Asked) : Nat :=
  asked.contents.length

/-- The set of the contents of a list. -/
def ofList (contents : List String) : Asked :=
  contents.foldl insert empty

end Asked

/-- What the operator is asked about: a content and the place where it was found. -/
structure Request where
  file : String
  content : String
  line : Nat
  deriving DecidableEq, Repr

/-- The question about a literal. -/
def Literal.request (literal : Literal) : Request :=
  ⟨literal.place.file, literal.content, literal.place.line⟩

/-- The progress of a review: what has been asked, and how many requests were made. -/
structure Review where
  asked : Asked
  prompts : Nat
  deriving DecidableEq, Repr

namespace Review

/-- A review that starts with some contents asked about already. -/
def start (asked : Asked) : Review := ⟨asked, 0⟩

/-- The review after a request about a content. -/
def record (review : Review) (content : String) : Review :=
  ⟨review.asked.insert content, review.prompts + 1⟩

/-- Puts the literals whose content is new to the operator, in order, and returns the approved ones.
    The first failure ends the call; what has been asked by then stays asked. -/
def literals {m : Type → Type} [Monad m] {ε : Type} (confirm : Request → m (Except ε Bool)) :
    Review → List Literal → m (Review × Except ε (List Approved))
  | review, [] => pure (review, .ok [])
  | review, literal :: rest =>
    if review.asked.contains literal.content then
      literals confirm review rest
    else do
      let review := review.record literal.content
      match ← confirm literal.request with
      | .error e => pure (review, .error e)
      | .ok answer => do
        let (review, result) ← literals confirm review rest
        pure (review, result.map fun approved =>
          if answer then literal.approve :: approved else approved)

end Review

end Phrasebook
