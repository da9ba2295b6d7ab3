import Phrasebook.Json.Basic
import Phrasebook.Text.Lines

/-!
# JSON strings

Characters outside the basic plane are escaped as two halves, which must belong together in a string
that is read. In a string that is passed over only the form of the escapes counts.
-/

namespace Phrasebook.Json

/-- The value of a hexadecimal digit. -/
def hexValue? (c : Char) : Option Nat :=
  if '0' ≤ c ∧ c ≤ '9' then some (c.toNat - '0'.toNat)
  else if 'a' ≤ c ∧ c ≤ 'f' then some (c.toNat - 'a'.toNat + 10)
  else if 'A' ≤ c ∧ c ≤ 'F' then some (c.toNat - 'A'.toNat + 10)
  else none

/-- The value of the four hexadecimal digits at the beginning of a text. -/
def hex4 (cs : List Char) : Except Error Nat :=
  if Text.byteLength (cs.take 4) < 4 then
    .error .truncated
  else
    match cs.take 4 |>.mapM hexValue? with
    | some [a, b, c, d] => .ok (((a * 16 + b) * 16 + c) * 16 + d)
    | _ => .error .malformed

/-- The first half of a character outside the basic plane. -/
def isHighHalf (n : Nat) : Bool :=
  0xd800 ≤ n && n ≤ 0xdbff

/-- The second half of a character outside the basic plane. -/
def isLowHalf (n : Nat) : Bool :=
  0xdc00 ≤ n && n ≤ 0xdfff

/-- The character of two halves. -/
def joinHalves (high low : Nat) : Char :=
  Char.ofNat ((high - 0xd800) * 0x400 + (low - 0xdc00) + 0x10000)

/-- The character that an escape with one letter stands for. -/
def shortEscape? (c : Char) : Option Char :=
  [('"', '"'), ('\\', '\\'), ('/', '/'), ('b', '\x08'), ('f', '\x0c'), ('n', '\n'), ('r', '\r'),
    ('t', '\t')].lookup c

/-- The character of the escape whose backslash and `u` stand just before the text, and the length
    of the escape from there. -/
def unicodeEscape (cs : List Char) : Except Error (Char × Nat) := do
  let n ← hex4 cs
  if isLowHalf n then
    throw .malformed
  else if isHighHalf n then
    match cs.drop 4 with
    | [] => throw .truncated
    | ['\\'] => throw .truncated
    | '\\' :: 'u' :: rest =>
      let low ← hex4 rest
      if isLowHalf low then return (joinHalves n low, 10) else throw .malformed
    | _ => throw .malformed
  else
    return (Char.ofNat n, 4)

/-- The character of the escape whose backslash stands just before the text, and the length of the
    escape from there. -/
def escape : List Char → Except Error (Char × Nat)
  | [] => .error .truncated
  | 'u' :: rest => (unicodeEscape rest).map fun (c, length) => (c, length + 1)
  | c :: _ =>
    match shortEscape? c with
    | some decoded => .ok (decoded, 1)
    | none => .error .malformed

/-- Reads the string whose opening quote stands just before the text. The first `held` characters
    belong to an escape that has been read. -/
def stringFrom (held : Nat) : List Char → Except Error (List Char × List Char)
  | [] => .error .truncated
  | c :: cs =>
    match held with
    | held + 1 => stringFrom held cs
    | 0 =>
      if c = '"' then
        .ok ([], cs)
      else if c = '\\' then
        match escape cs with
        | .error e => .error e
        | .ok (decoded, length) =>
          (stringFrom length cs).map fun (text, rest) => (decoded :: text, rest)
      else if c < ' ' then
        .error .malformed
      else
        (stringFrom 0 cs).map fun (text, rest) => (c :: text, rest)

/-- Reads the string whose opening quote stands just before the text. -/
def string (cs : List Char) : Except Error (String × List Char) :=
  (stringFrom 0 cs).map fun (text, rest) => (String.ofList text, rest)

/-- The length of the escape whose backslash stands just before the text. -/
def escapeLength : List Char → Except Error Nat
  | [] => .error .truncated
  | 'u' :: rest => (hex4 rest).map fun _ => 5
  | c :: _ => if (shortEscape? c).isSome then .ok 1 else .error .malformed

/-- The length, closing quote included, of the string whose opening quote stands just before the
    text. The first `held` characters belong to an escape that has been passed over. -/
def stringLengthFrom (held : Nat) : List Char → Except Error Nat
  | [] => .error .truncated
  | c :: cs =>
    match held with
    | held + 1 => (stringLengthFrom held cs).map (· + 1)
    | 0 =>
      if c = '"' then
        .ok 1
      else if c = '\\' then
        match escapeLength cs with
        | .error e => .error e
        | .ok length => (stringLengthFrom length cs).map (· + 1)
      else if c < ' ' then
        .error .malformed
      else
        (stringLengthFrom 0 cs).map (· + 1)

/-- A character as it is written in a string: quotes, backslashes and controls are escaped. -/
def writtenChar (c : Char) : List Char :=
  match c with
  | '"' => ['\\', '"']
  | '\\' => ['\\', '\\']
  | '\x08' => ['\\', 'b']
  | '\x0c' => ['\\', 'f']
  | '\n' => ['\\', 'n']
  | '\r' => ['\\', 'r']
  | '\t' => ['\\', 't']
  | c =>
    if c < ' ' then
      ['\\', 'u', '0', '0', (c.toNat / 16).digitChar, (c.toNat % 16).digitChar]
    else
      [c]

/-- A text as a JSON string. -/
def writeString (text : String) : String :=
  String.ofList ('"' :: text.toList.flatMap writtenChar ++ ['"'])

end Phrasebook.Json
