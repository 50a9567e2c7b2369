/-
This file holds the non-negative numbers of the sixty-four-bit binary format,
exactly: a significand of at most fifty-three bits times a power of two. The
quotient of two whole numbers is rounded to the nearest such number, a tie to
the even significand. A quotient too large for the format has no value here.
-/

namespace ByteStack

/-- The number `significand * 2 ^ exponent`. -/
structure Binary64 where
  significand : Nat
  exponent : Int
deriving DecidableEq

namespace Binary64

/-- The exponent of the smallest numbers. -/
def leastExponent : Int := -1074

/-- The exponent of the largest numbers. -/
def greatestExponent : Int := 971

/-- The bits of a significand. -/
def precision : Nat := 53

def zero : Binary64 := ⟨0, leastExponent⟩

def isZero (number : Binary64) : Bool :=
  number.significand == 0

/-- A quotient rounded to the nearest whole number, a tie to the even one. -/
def roundedQuotient (numerator denominator : Nat) : Nat :=
  let quotient := numerator / denominator
  let twice := 2 * (numerator % denominator)
  if denominator < twice || (denominator == twice && quotient % 2 == 1) then quotient + 1
  else quotient

/-- The quotient times a power of two, as a quotient again. -/
def scale (numerator denominator : Nat) (power : Int) : Nat × Nat :=
  (numerator * Nat.pow 2 power.toNat, denominator * Nat.pow 2 (-power).toNat)

/-- The greatest power of two that is not above a positive quotient. -/
def floorLog (numerator denominator : Nat) : Int :=
  let guess : Int := numerator.log2 - denominator.log2
  let (above, below) := scale numerator denominator (-guess)
  if below ≤ above then guess else guess - 1

/-- The number nearest to a quotient. -/
def ofRatio? (numerator denominator : Nat) : Option Binary64 :=
  if numerator = 0 then some zero
  else
    let exponent := max (floorLog numerator denominator - (precision - 1)) leastExponent
    let (above, below) := scale numerator denominator (-exponent)
    let significand := roundedQuotient above below
    let rounded : Binary64 :=
      if significand = Nat.pow 2 precision then ⟨Nat.pow 2 (precision - 1), exponent + 1⟩
      else ⟨significand, exponent⟩
    if greatestExponent < rounded.exponent then none else some rounded

/-- The number nearest to a whole number. -/
def ofNat? (value : Nat) : Option Binary64 :=
  ofRatio? value 1

/-- The rounded product. -/
def times? (left right : Binary64) : Option Binary64 :=
  let (above, below) :=
    scale (left.significand * right.significand) 1 (left.exponent + right.exponent)
  ofRatio? above below

/-- The rounded quotient by a number other than zero. -/
def dividedBy? (left right : Binary64) : Option Binary64 :=
  let (above, below) :=
    scale left.significand right.significand (left.exponent - right.exponent)
  ofRatio? above below

end Binary64

end ByteStack
