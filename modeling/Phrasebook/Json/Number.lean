import Phrasebook.Decimal.Shortest
import Phrasebook.Json.Basic

/-!
# JSON numbers

Numbers are read only to be shown in messages or to be passed over. One without a fraction and an
exponent that fits 64 bits is an integer; any other is a double, which is made from at most 64 bits
of digits and a power of ten.
-/

namespace Phrasebook.Json

/-- Integers up to this one are kept exactly. -/
def digitLimit : Nat := Nat.pow 2 64 - 1

/-- The digits that have been read: their value, and the power of ten it is to be multiplied by. -/
structure Digits where
  value : Nat
  exponent : Int

/-- Reads whole digits. Once the value has become too large for another digit, digits only count. -/
def Digits.addWhole (digits : Digits) (full : Bool) : List Char → Digits × Bool
  | [] => (digits, full)
  | c :: cs =>
    let value := digits.value * 10 + (c.toNat - '0'.toNat)
    if full || digitLimit < value then
      Digits.addWhole { digits with exponent := digits.exponent + 1 } true cs
    else
      Digits.addWhole { digits with value } false cs

/-- Reads the digits of a fraction. Once the value has become too large for another digit, digits
    are dropped. -/
def Digits.addFraction (digits : Digits) : List Char → Digits
  | [] => digits
  | c :: cs =>
    let value := digits.value * 10 + (c.toNat - '0'.toNat)
    if digitLimit < value then digits
    else Digits.addFraction { value, exponent := digits.exponent - 1 } cs

/-- The largest power of ten of a double. -/
def tenLimit : Nat := 308

/-- The power of ten as a double. -/
def ten (n : Nat) : Float := Float.ofScientific 1 false n

/-- Divides by a power of ten, in steps that a double can hold. -/
def divideByTen (value : Float) (exponent : Nat) : Nat → Float
  | 0 => 0
  | steps + 1 =>
    if exponent ≤ tenLimit then value / ten exponent
    else divideByTen (value / ten tenLimit) (exponent - tenLimit) steps

/-- The double of some digits, unless it is too large. -/
def Digits.toFloat (digits : Digits) : Except Error Float :=
  let value := Float.ofNat digits.value
  if digits.exponent < 0 then
    .ok (divideByTen value digits.exponent.natAbs 4)
  else if digits.exponent.toNat ≤ tenLimit then
    let product := value * ten digits.exponent.toNat
    if product.isInf then .error .malformed else .ok product
  else if digits.value = 0 then
    .ok 0
  else
    .error .malformed

/-- Inserts the point after the first `n` digits. -/
def insertPoint (n : Nat) (digits : List Char) : List Char :=
  digits.take n ++ '.' :: digits.drop n

/-- A decimal as it is shown: positional from a hundred-thousandth up to below 10^16, else with an
    exponent that bears a sign. -/
def decimalText (decimal : Decimal) : List Char :=
  let digits := (toString decimal.digits).toList
  let point : Int := digits.length + decimal.exponent
  if decimal.digits = 0 then
    ['0', '.', '0']
  else if 0 ≤ decimal.exponent ∧ point ≤ 16 then
    digits ++ List.replicate decimal.exponent.toNat '0' ++ ['.', '0']
  else if 0 < point ∧ point ≤ 16 then
    insertPoint point.toNat digits
  else if -5 < point ∧ point ≤ 0 then
    ['0', '.'] ++ List.replicate (-point).toNat '0' ++ digits
  else
    let mantissa := if digits.length = 1 then digits else insertPoint 1 digits
    let sign := if 0 < point then '+' else '-'
    mantissa ++ 'e' :: sign :: (toString (point - 1).natAbs).toList

/-- A double as it is shown. -/
def floatText (negative : Bool) (magnitude : Float) : String :=
  let text := decimalText (Decimal.shortest magnitude.toBits.toNat)
  String.ofList (if negative then '-' :: text else text)

/-- The digits of an exponent, with their sign, and the text after them. -/
def exponentDigits (cs : List Char) : Bool × List Char × List Char :=
  let (negative, cs) := match cs with
    | '-' :: rest => (true, rest)
    | '+' :: rest => (false, rest)
    | cs => (false, cs)
  (negative, cs.takeWhile Char.isDigit, cs.dropWhile Char.isDigit)

/-- The value of a row of digits. -/
def digitsValue (digits : List Char) : Nat :=
  digits.foldl (fun n c => n * 10 + (c.toNat - '0'.toNat)) 0

/-- Something is missing at this point of a number. -/
def incomplete (cs : List Char) : Error :=
  if cs.isEmpty then .truncated else .malformed

/-- The exponent after an `e`. -/
def readExponent (digits : Digits) (cs : List Char) : Except Error (Float × List Char) := do
  let (negative, exponent, rest) := exponentDigits cs
  if exponent.isEmpty then throw (incomplete rest)
  let n := digitsValue exponent
  let shift : Int := if negative then -n else n
  return (← { digits with exponent := digits.exponent + shift : Digits }.toFloat, rest)

/-- The exponent, if there is one. -/
def readOptionalExponent (digits : Digits) : List Char → Except Error (Float × List Char)
  | 'e' :: rest => readExponent digits rest
  | 'E' :: rest => readExponent digits rest
  | cs => do return (← digits.toFloat, cs)

/-- The digits after the point, and the exponent if there is one. -/
def readFraction (digits : Digits) (cs : List Char) : Except Error (Float × List Char) :=
  let fraction := cs.takeWhile Char.isDigit
  let rest := cs.dropWhile Char.isDigit
  if fraction.isEmpty then .error (incomplete rest)
  else readOptionalExponent (digits.addFraction fraction) rest

/-- The whole digits of a number, and the text after them. A zero stands alone. -/
def wholeDigits : List Char → Except Error (List Char × List Char)
  | [] => .error .truncated
  | '0' :: rest => if rest.head?.any Char.isDigit then .error .malformed else .ok (['0'], rest)
  | c :: rest =>
    if c.isDigit then .ok (c :: rest.takeWhile Char.isDigit, rest.dropWhile Char.isDigit)
    else .error .malformed

/-- Reads a number, whose minus sign has been read if it is negative. -/
def number (negative : Bool) (cs : List Char) : Except Error (Found × List Char) := do
  let (whole, rest) ← wholeDigits cs
  let (digits, full) := Digits.addWhole ⟨0, 0⟩ false whole
  let float : Float × List Char → Found × List Char := fun (value, rest) =>
    (.float (floatText negative value), rest)
  match rest with
  | '.' :: rest => return float (← readFraction digits rest)
  | 'e' :: rest => return float (← readExponent digits rest)
  | 'E' :: rest => return float (← readExponent digits rest)
  | rest =>
    if full then
      return float (← digits.toFloat, rest)
    else if negative then
      if digits.value = 0 ∨ Nat.pow 2 63 < digits.value then
        return float (Float.ofNat digits.value, rest)
      else
        return (.integer (-digits.value), rest)
    else
      return (.integer digits.value, rest)

/-- The length of a row of digits that must not be empty. -/
def digitsLength (cs : List Char) : Except Error Nat :=
  match (cs.takeWhile Char.isDigit).length with
  | 0 => .error .malformed
  | n => .ok n

/-- The length of the exponent, if there is one. -/
def exponentLength : List Char → Except Error Nat
  | c :: rest =>
    if c = 'e' ∨ c = 'E' then
      match rest with
      | sign :: rest' =>
        if sign = '+' ∨ sign = '-' then (digitsLength rest').map (· + 2)
        else (digitsLength rest).map (· + 1)
      | [] => .error .malformed
    else
      .ok 0
  | [] => .ok 0

/-- The length of the fraction and the exponent, if there are any. -/
def fractionLength : List Char → Except Error Nat
  | '.' :: rest => do
    let n ← digitsLength rest
    return n + 1 + (← exponentLength (rest.drop n))
  | cs => exponentLength cs

/-- The length of a number without its sign. Nothing but its form counts. -/
def numberLength (cs : List Char) : Except Error Nat := do
  match wholeDigits cs with
  | .error _ => throw .malformed
  | .ok (whole, rest) => return whole.length + (← fractionLength rest)

end Phrasebook.Json
