/-!
# The shortest decimal of a floating point number

A finite double is `m * 2 ^ q`. Of the decimals that round to it, the shortest is the one with the
fewest digits, and of several of that length the nearest.
-/

namespace Phrasebook

/-- The non-negative number `digits * 10 ^ exponent`. -/
structure Decimal where
  digits : Nat
  exponent : Int
  deriving DecidableEq, Repr

namespace Decimal

/-- A non-negative rational number. -/
structure Ratio where
  num : Nat
  den : Nat

/-- The number `n * 2 ^ e`. -/
def Ratio.scale2 (n : Nat) (e : Int) : Ratio :=
  if 0 ≤ e then ⟨n * Nat.pow 2 e.toNat, 1⟩ else ⟨n, Nat.pow 2 (-e).toNat⟩

/-- The number divided by `10 ^ e`. -/
def Ratio.shift10 (r : Ratio) (e : Int) : Ratio :=
  if 0 ≤ e then ⟨r.num, r.den * Nat.pow 10 e.toNat⟩ else ⟨r.num * Nat.pow 10 (-e).toNat, r.den⟩

/-- The numbers that round to a double: from `low` to `high` in quarters of its last place, the ends
    included if `closed` is set. -/
structure Interval where
  low : Nat
  value : Nat
  high : Nat
  scale : Int
  closed : Bool

/-- The interval of the double `m * 2 ^ q`. Below a power of two the doubles are denser. -/
def Interval.ofDouble (m : Nat) (q : Int) (lowest : Bool) : Interval where
  low := if m = Nat.pow 2 52 && !lowest then 4 * m - 1 else 4 * m - 2
  value := 4 * m
  high := 4 * m + 2
  scale := q - 2
  closed := m % 2 = 0

/-- The decimal lies in the interval. -/
def Interval.admits (interval : Interval) (digits : Nat) (exponent : Int) : Bool :=
  let low := (Ratio.scale2 interval.low interval.scale).shift10 exponent
  let high := (Ratio.scale2 interval.high interval.scale).shift10 exponent
  if interval.closed then low.num ≤ digits * low.den && digits * high.den ≤ high.num
  else low.num < digits * low.den && digits * high.den < high.num

/-- The multiple of `10 ^ exponent` nearest to the value among those in the interval. -/
def Interval.nearest? (interval : Interval) (exponent : Int) : Option Nat :=
  let value := (Ratio.scale2 interval.value interval.scale).shift10 exponent
  let below := value.num / value.den
  let above := below + 1
  let belowIsNearer :=
    if 2 * (value.num % value.den) = value.den then below % 2 = 0
    else 2 * (value.num % value.den) < value.den
  match interval.admits below exponent && below != 0, interval.admits above exponent with
  | true, true => some (if belowIsNearer then below else above)
  | true, false => some below
  | false, true => some above
  | false, false => none

/-- The first of `count` falling exponents at which a decimal lies in the interval. -/
def Interval.search (interval : Interval) (exponent : Int) : Nat → Decimal
  | 0 => ⟨0, 0⟩
  | count + 1 =>
    match interval.nearest? exponent with
    | some digits => ⟨digits, exponent⟩
    | none => interval.search (exponent - 1) count

/-- A decimal without the zeros at its end, of which at most `count` are dropped. -/
def dropZeros (decimal : Decimal) : Nat → Decimal
  | 0 => decimal
  | count + 1 =>
    if decimal.digits ≠ 0 ∧ decimal.digits % 10 = 0 then
      dropZeros ⟨decimal.digits / 10, decimal.exponent + 1⟩ count
    else
      decimal

/-- The shortest decimal of the magnitude of a finite double, given by its bits. -/
def shortest (bits : Nat) : Decimal :=
  let fraction : Nat := bits % Nat.pow 2 52
  let biased : Nat := bits / Nat.pow 2 52 % Nat.pow 2 11
  let m := if biased = 0 then fraction else fraction + Nat.pow 2 52
  let q : Int := if biased = 0 then -1074 else biased - 1075
  if m = 0 then
    ⟨0, 0⟩
  else
    ((Interval.ofDouble m q (biased ≤ 1)).search 310 700).dropZeros 400

end Decimal

end Phrasebook
