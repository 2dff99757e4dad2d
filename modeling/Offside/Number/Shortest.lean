import Offside.Number.Binary64

/-!
The shortest decimals that read back as a floating-point number, and the texts made of them.

A number is read from every decimal between the midpoints to its two neighbours. The shortest
decimal is found on the first decimal grid that has a point between them.
-/

namespace Offside

/-- A decimal `digits · 10 ^ place`. -/
structure Decimal where
  digits : Nat
  place : Int
deriving DecidableEq, Repr, Inhabited

namespace Decimal

/-- The number of decimal digits of a whole number; zero has none. -/
def digitCount (value : Nat) : Nat :=
  if value = 0 then 0 else (Nat.toDigits 10 value).length

/-- The position of the decimal point of a positive quotient: the quotient is less than
`10 ^ point` and at least a tenth of it. -/
def pointOf (numerator denominator : Nat) : Int :=
  if denominator ≤ numerator then digitCount (numerator / denominator)
  else 1 - digitCount ((denominator + numerator - 1) / numerator - 1)

/-- The bounds of what reads as a number, and the number itself, over one denominator. The
bounds themselves read as it only if its significand is even. -/
structure Interval where
  low : Nat
  value : Nat
  high : Nat
  denominator : Nat
  closed : Bool
deriving Repr, Inhabited

namespace Interval

/-- Whether `numerator / scale` lies in the interval once that is multiplied by `factor`. -/
def holds (interval : Interval) (factor numerator scale : Nat) : Bool :=
  let point := numerator * interval.denominator * scale
  if interval.closed then interval.low * factor ≤ point && point ≤ interval.high * factor
  else interval.low * factor < point && point < interval.high * factor

/-- The point of the grid of `10 ^ place` in the interval that is nearest to the value, the upper
one of two equally near. -/
def gridPoint? (interval : Interval) (place : Int) : Option Nat :=
  let factor := Nat.pow 10 (-place).toNat
  let scale := Nat.pow 10 place.toNat
  let numerator := interval.value * factor
  let step := interval.denominator * scale
  let below := numerator / step
  let lower := interval.holds factor below scale
  let upper := interval.holds factor (below + 1) scale
  if upper && (!lower || step ≤ 2 * (numerator % step)) then some (below + 1)
  else if lower then some below
  else none

/-- The first decimal found on grids that grow finer, starting with that of `10 ^ place`. -/
def firstPoint (interval : Interval) : Nat → Int → Decimal
  | 0, place => ⟨interval.value / interval.denominator, place⟩
  | finer + 1, place =>
    match interval.gridPoint? place with
    | some digits => ⟨digits, place⟩
    | none => interval.firstPoint finer (place - 1)

end Interval

/-- The interval of the decimals that read as a finite number. The gap below a power of two is
half the gap above it. -/
def intervalOf (number : Binary64) : Interval :=
  let significand := number.significand
  let halfGapBelow := if significand = hiddenBit ∧ -1074 < number.exponent then 1 else 2
  let unit := number.exponent - 2
  let factor := Nat.pow 2 unit.toNat
  { low := (4 * significand - halfGapBelow) * factor
    value := 4 * significand * factor
    high := (4 * significand + 2) * factor
    denominator := Nat.pow 2 (-unit).toNat
    closed := significand % 2 = 0 }

/-- The shortest decimal that reads back as a finite number other than zero. Seventeen digits
always suffice. -/
def shortest (number : Binary64) : Decimal :=
  let interval := intervalOf number
  interval.firstPoint 17 (pointOf interval.value interval.denominator - 1)

/-- The digits without the zeros at their end. -/
def significantDigits (decimal : Decimal) : List Char :=
  ((Nat.toDigits 10 decimal.digits).reverse.dropWhile (· = '0')).reverse

def point (decimal : Decimal) : Int :=
  decimal.place + digitCount decimal.digits

end Decimal

namespace Binary64

/-- Which decimals are written out in full: those whose point is neither far before their first
digit nor far after it. -/
structure Layout where
  lowestPoint : Int
  highestPoint : Int

/-- Numbers from 0.0001 up to 10 ^ 16 are written out, all others with an exponent. -/
def layout : Layout :=
  ⟨-3, 16⟩

/-- Digits written out in full, with at least one on each side of the point. -/
def positional (digits : List Char) (point : Int) : List Char :=
  if point ≤ 0 then '0' :: '.' :: (List.replicate (-point).toNat '0' ++ digits)
  else
    let before := point.toNat
    if digits.length ≤ before then
      digits ++ List.replicate (before - digits.length) '0' ++ ['.', '0']
    else digits.take before ++ '.' :: digits.drop before

/-- Digits with one of them before the point, followed by the exponent. -/
def exponential (digits : List Char) (point : Int) : List Char :=
  let fraction := digits.drop 1
  digits.take 1 ++ (if fraction.isEmpty then [] else '.' :: fraction) ++
    'e' :: (toString (point - 1)).toList

/-- The text of a number: the shortest digits that read back. -/
def text (number : Binary64) : String :=
  let sign := if number.negative then ['-'] else []
  let body :=
    if number.isInfinite then ['i', 'n', 'f']
    else if number.magnitude = 0 then positional ['0'] 1
    else
      let decimal := Decimal.shortest number
      let digits := decimal.significantDigits
      let point := decimal.point
      if layout.lowestPoint ≤ point && point ≤ layout.highestPoint then positional digits point
      else exponential digits point
  String.ofList (sign ++ body)

end Binary64

end Offside
