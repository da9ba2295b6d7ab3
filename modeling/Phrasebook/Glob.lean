/-!
# Glob patterns

`?` stands for any character and `*` for any sequence, slashes included. `**` must be a whole path
component; together with the slash after it, it stands for nothing or for any text that ends in a
slash, and at the end of a pattern for any rest. `[…]` and `[!…]` stand for one character in or out
of a set, in which a `]` directly after the opening is literal. A pattern matches whole texts.
-/

namespace Phrasebook

namespace Glob

/-- A member of a character set: a single character or a closed range. -/
inductive CharSpec where
  | single (c : Char)
  | range (first last : Char)
  deriving DecidableEq, Repr

/-- The character is a member. -/
def CharSpec.admits (c : Char) : CharSpec → Bool
  | single x => x == c
  | range first last => first ≤ c && c ≤ last

/-- A part of a pattern. -/
inductive Token where
  | char (c : Char)
  | anyChar
  | anySequence
  | anyDirectories
  | within (specs : List CharSpec)
  | except (specs : List CharSpec)
  deriving DecidableEq, Repr

/-- Why a text is not a pattern. -/
inductive Fault where
  | tooManyStars
  | brokenComponent
  | badRange
  deriving DecidableEq, Repr

/-- The wording of a fault. -/
def Fault.message : Fault → String
  | tooManyStars => "wildcards are either regular `*` or recursive `**`"
  | brokenComponent => "recursive wildcards must form a single path component"
  | badRange => "invalid range pattern"

/-- A fault and the position, in characters, it is found at. -/
structure Error where
  position : Nat
  fault : Fault
  deriving DecidableEq, Repr

/-- The wording of an error. -/
def Error.message (error : Error) : String :=
  "Pattern syntax error near position " ++ toString error.position ++ ": " ++ error.fault.message

/-- Reads the inside of a set: `a-z` is a range where all three characters are there. -/
def charSpecs : List Char → List CharSpec
  | first :: '-' :: last :: rest => .range first last :: charSpecs rest
  | c :: rest => .single c :: charSpecs rest
  | [] => []

/-- The inside of a set, up to its closing bracket. The first character belongs to the set even if
    it is a `]`. -/
def setBody? : List Char → Option (List Char)
  | [] => none
  | first :: rest =>
    if rest.contains ']' then some (first :: rest.takeWhile (· != ']')) else none

/-- The set that opens just before the text, and its length after the opening bracket. -/
def set? : List Char → Option (Token × Nat)
  | '!' :: rest => (setBody? rest).map fun body => (.except (charSpecs body), body.length + 2)
  | rest => (setBody? rest).map fun body => (.within (charSpecs body), body.length + 1)

/-- Adds a `**`, of which two in a row are one unless they start the pattern. The tokens so far are
    in reverse order. -/
def pushDirectories : List Token → List Token
  | .anyDirectories :: other :: rest => .anyDirectories :: other :: rest
  | tokens => .anyDirectories :: tokens

/-- Reads the pattern from `position` on. `before` is the character before that position,
    `tokens` are the tokens so far in reverse order, and the first `held` characters have been
    read. -/
def tokensFrom (held position : Nat) (before : Option Char) (tokens : List Token) :
    List Char → Except Error (List Token)
  | [] => .ok tokens.reverse
  | c :: cs =>
    match held with
    | held + 1 => tokensFrom held (position + 1) (some c) tokens cs
    | 0 =>
      if c = '?' then
        tokensFrom 0 (position + 1) (some c) (.anyChar :: tokens) cs
      else if c = '*' then
        match (cs.takeWhile (· == '*')).length with
        | 0 => tokensFrom 0 (position + 1) (some c) (.anySequence :: tokens) cs
        | 1 =>
          if before.all (· == '/') then
            match cs.tail with
            | [] => tokensFrom 1 (position + 1) (some c) (pushDirectories tokens) cs
            | next :: _ =>
              if next = '/' then
                tokensFrom 2 (position + 1) (some c) (pushDirectories tokens) cs
              else
                .error ⟨position + 2, .brokenComponent⟩
          else
            .error ⟨position - 1, .brokenComponent⟩
        | _ => .error ⟨position + 2, .tooManyStars⟩
      else if c = '[' then
        match set? cs with
        | some (token, length) =>
          tokensFrom length (position + 1) (some c) (token :: tokens) cs
        | none => .error ⟨position, .badRange⟩
      else
        tokensFrom 0 (position + 1) (some c) (.char c :: tokens) cs

/-- For each end of a text, the text itself first and the empty end last, whether something matches
    it. -/
abbrev Row := List Bool

/-- The ends that are empty. -/
def emptyEnds (text : List Char) : Row :=
  text.map (fun _ => false) ++ [true]

/-- The ends that start with a character satisfying `p`, before an end of the row. -/
def afterOne (p : Char → Bool) : List Char → Row → Row
  | c :: cs, _ :: row => (p c && row.headD false) :: afterOne p cs row
  | _, _ => [false]

/-- The ends of the text that have an end of the row behind one of their characters satisfying
    `p`, or behind all of them. -/
def afterSome (p : Char → Bool) : List Char → Row → Row
  | c :: cs, _ :: row =>
    let later := afterSome p cs row
    (p c && row.headD false || later.headD false) :: later
  | _, row => row

/-- The ends of the text that the token and then the rest of a pattern match, from those that the
    rest of the pattern matches. -/
def Token.extend (text : List Char) (row : Row) : Token → Row
  | char c => afterOne (· == c) text row
  | anyChar => afterOne (fun _ => true) text row
  | within specs => afterOne (fun c => specs.any (·.admits c)) text row
  | except specs => afterOne (fun c => !specs.any (·.admits c)) text row
  | anySequence => List.zipWith or row (afterSome (fun _ => true) text row)
  | anyDirectories => List.zipWith or row (afterSome (· == '/') text row)

/-- The tokens, one after the other, match the whole text. -/
def matchesAll (tokens : List Token) (text : List Char) : Bool :=
  (tokens.foldr (fun token row => token.extend text row) (emptyEnds text)).headD false

end Glob

/-- A parsed pattern. -/
structure Glob where
  tokens : List Glob.Token
  deriving DecidableEq, Repr

namespace Glob

/-- Reads a pattern. -/
def parse (pattern : String) : Except Error Glob :=
  (tokensFrom 0 0 none [] pattern.toList).map Glob.mk

/-- The pattern matches the whole text. -/
def matchesText (glob : Glob) (text : String) : Bool :=
  matchesAll glob.tokens text.toList

end Glob

end Phrasebook
