import Phrasebook.Json.Number
import Phrasebook.Json.Text

/-!
# Passing over JSON values

A value that nobody asks for must still be well formed. It is passed over in one go, with the open
brackets around the present place on a stack, so that it may be nested to any depth.
-/

namespace Phrasebook.Json

/-- An open bracket. -/
inductive Bracket where
  | array
  | object
  deriving DecidableEq, Repr

/-- What may come next. -/
inductive Expecting where
  | value
  /-- A value, or the end of the array that has just been opened. -/
  | firstValue
  | key
  /-- A key, or the end of the object that has just been opened. -/
  | firstKey
  | colon
  /-- A comma, or the end of the innermost array or object. -/
  | commaOrEnd
  deriving DecidableEq, Repr

/-- What to do after a character: read on, `held` more characters having been read with it, or stop
    after that many. -/
inductive Move where
  | on (held : Nat) (expecting : Expecting) (stack : List Bracket)
  | done (held : Nat)
  deriving DecidableEq, Repr

/-- The move after the end of a value. -/
def Move.afterValue (held : Nat) : List Bracket → Move
  | [] => .done held
  | stack => .on held .commaOrEnd stack

/-- The move after a value that has a length. -/
def scalarMove (stack : List Bracket) (length : Except Error Nat) : Except Error Move :=
  length.map (Move.afterValue · stack)

/-- The length of the rest of a word. -/
def wordLength (w cs : List Char) : Except Error Nat :=
  (word w cs).map fun _ => w.length

/-- The move at the first character of a value. -/
def valueMove (stack : List Bracket) (c : Char) (cs : List Char) : Except Error Move :=
  if c = 'n' then scalarMove stack (wordLength ['u', 'l', 'l'] cs)
  else if c = 't' then scalarMove stack (wordLength ['r', 'u', 'e'] cs)
  else if c = 'f' then scalarMove stack (wordLength ['a', 'l', 's', 'e'] cs)
  else if c = '-' then scalarMove stack (numberLength cs)
  else if c.isDigit then scalarMove stack ((numberLength (c :: cs)).map (· - 1))
  else if c = '"' then scalarMove stack (stringLengthFrom 0 cs)
  else if c = '[' then .ok (.on 0 .firstValue (.array :: stack))
  else if c = '\x7b' then .ok (.on 0 .firstKey (.object :: stack))
  else .error .malformed

/-- The move at the opening quote of a key. -/
def keyMove (stack : List Bracket) (cs : List Char) : Except Error Move :=
  (stringLengthFrom 0 cs).map (.on · .colon stack)

/-- The move at a character that is not blank. -/
def move (expecting : Expecting) (stack : List Bracket) (c : Char) (cs : List Char) :
    Except Error Move :=
  match expecting with
  | .value => valueMove stack c cs
  | .firstValue =>
    if c = ']' then .ok (.afterValue 0 stack.tail) else valueMove stack c cs
  | .key => if c = '"' then keyMove stack cs else .error .malformed
  | .firstKey =>
    if c = '\x7d' then .ok (.afterValue 0 stack.tail)
    else if c = '"' then keyMove stack cs
    else .error .malformed
  | .colon => if c = ':' then .ok (.on 0 .value stack) else .error .malformed
  | .commaOrEnd =>
    match stack with
    | .array :: outer =>
      if c = ',' then .ok (.on 0 .value stack)
      else if c = ']' then .ok (.afterValue 0 outer)
      else .error .malformed
    | .object :: outer =>
      if c = ',' then .ok (.on 0 .key stack)
      else if c = '\x7d' then .ok (.afterValue 0 outer)
      else .error .malformed
    | [] => .error .malformed

/-- Passes over the rest of a value. -/
def skipFrom (held : Nat) (expecting : Expecting) (stack : List Bracket) :
    List Char → Except Error (List Char)
  | [] => .error .truncated
  | c :: cs =>
    match held with
    | held + 1 => skipFrom held expecting stack cs
    | 0 =>
      if isSpace c then
        skipFrom 0 expecting stack cs
      else
        match move expecting stack c cs with
        | .error e => .error e
        | .ok (.done held) => .ok (cs.drop held)
        | .ok (.on held expecting stack) => skipFrom held expecting stack cs

/-- The text after the value at its beginning. -/
def skipValue (cs : List Char) : Except Error (List Char) :=
  skipFrom 0 .value [] cs

end Phrasebook.Json
