/-!
Binary floating-point numbers of 64 bits, by sign and magnitude. A decimal is read to the
nearest number, and a tie goes to the even neighbour; all arithmetic is on natural numbers.
-/

namespace Offside

/-- The value of the leading bit of a significand, which is not stored: the number of fractions
that share an exponent. -/
def hiddenBit : Nat :=
  Nat.pow 2 52

/-- The magnitude that stands for infinity: the largest exponent with an empty fraction. -/
def infiniteMagnitude : Nat :=
  2047 * hiddenBit

/-- A floating-point number that is not a NaN. The magnitude holds the exponent field above the
52 bits of the fraction, so magnitudes are ordered as the numbers are. -/
structure Binary64 where
  negative : Bool
  magnitude : Nat
  magnitude_le : magnitude ≤ infiniteMagnitude := by decide
deriving DecidableEq, Repr

namespace Binary64

instance : Inhabited Binary64 :=
  ⟨⟨false, 0, by decide⟩⟩

/-- The whole number nearest to a quotient, a tie going to the even one. -/
def nearest (numerator denominator : Nat) : Nat :=
  let quotient := numerator / denominator
  let double := 2 * (numerator % denominator)
  if denominator < double ∨ (double = denominator ∧ quotient % 2 = 1) then quotient + 1
  else quotient

/-- The quotient of `numerator` by `denominator · 2 ^ exponent`, as a fraction. -/
def scaled (numerator denominator : Nat) (exponent : Int) : Nat × Nat :=
  if 0 ≤ exponent then (numerator, denominator * Nat.pow 2 exponent.toNat)
  else (numerator * Nat.pow 2 (-exponent).toNat, denominator)

/-- The exponent of the last place kept of a positive quotient: 53 bits stay above it, or fewer
where the smallest exponent is reached. -/
def lastPlace (numerator denominator : Nat) : Int :=
  let guess : Int := numerator.log2 - denominator.log2 - 53
  let (scaledNumerator, scaledDenominator) := scaled numerator denominator guess
  max (-1074) (if 2 * hiddenBit ≤ scaledNumerator / scaledDenominator then guess + 1 else guess)

def magnitudeOf (numerator denominator : Nat) : Nat :=
  if numerator = 0 then 0
  else
    let exponent := lastPlace numerator denominator
    let (scaledNumerator, scaledDenominator) := scaled numerator denominator exponent
    min infiniteMagnitude
      ((exponent + 1074).toNat * hiddenBit + nearest scaledNumerator scaledDenominator)

theorem magnitudeOf_le (numerator denominator : Nat) :
    magnitudeOf numerator denominator ≤ infiniteMagnitude := by
  unfold magnitudeOf
  split
  · exact Nat.zero_le _
  · exact Nat.min_le_left _ _

/-- The number nearest to `digits / 10 ^ places`, with the given sign. -/
def ofDecimal (negative : Bool) (digits places : Nat) : Binary64 :=
  ⟨negative, magnitudeOf digits (Nat.pow 10 places), magnitudeOf_le _ _⟩

/-- The interchange format: the sign bit above the magnitude. -/
def bits (number : Binary64) : Nat :=
  (if number.negative then Nat.pow 2 63 else 0) + number.magnitude

def isInfinite (number : Binary64) : Bool :=
  number.magnitude = infiniteMagnitude

/-- The significand and the exponent of its last place: a finite number has the absolute value
`significand · 2 ^ exponent`. -/
def significand (number : Binary64) : Nat :=
  if number.magnitude < hiddenBit then number.magnitude
  else number.magnitude % hiddenBit + hiddenBit

@[inherit_doc significand]
def exponent (number : Binary64) : Int :=
  if number.magnitude < hiddenBit then -1074 else (number.magnitude / hiddenBit : Nat) - 1075

end Binary64

end Offside
