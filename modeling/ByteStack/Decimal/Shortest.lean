/-
This file writes numbers of the sixty-four-bit binary format in decimal, with
the fewest digits that read back as the same number. Of several such decimals
the nearest one is taken, and of two that are equally near the even one.

A decimal reads back as a number when it lies in the interval of the reals that
round to it. The ends of the interval belong to it when the significand is
even, because ties go to the even neighbour. If any decimal with a given number
of digits lies in the interval, then so does one of the two neighbours of the
number on that grid, so only these two are tried.
-/

import ByteStack.Decimal.Binary64

namespace ByteStack

/-! ### Digits -/

/-- The number `digits * 10 ^ exponent`. -/
structure Decimal where
  digits : Nat
  exponent : Int
deriving DecidableEq

namespace Decimal

/-- A positive number between the ends of its interval. All three are multiples of one
quarter of its unit in the last place, over a common denominator. -/
structure Interval where
  lower : Nat
  value : Nat
  upper : Nat
  denominator : Nat
  /-- Whether the ends belong to the interval. -/
  closed : Bool

namespace Interval

/-- The interval of a positive number. Below a power of two the numbers lie closer together,
except at the bottom of the format. -/
def ofBinary64 (number : Binary64) : Interval :=
  let isPower := number.significand == Nat.pow 2 (Binary64.precision - 1)
    && Binary64.leastExponent < number.exponent
  let power := number.exponent - 2
  let unit := Nat.pow 2 power.toNat
  { lower := (4 * number.significand - (if isPower then 1 else 2)) * unit
    value := 4 * number.significand * unit
    upper := (4 * number.significand + 2) * unit
    denominator := Nat.pow 2 (-power).toNat
    closed := number.significand % 2 == 0 }

/-- A decimal as a multiple of the common denominator, and what it has to be divided by. -/
def scaled (interval : Interval) (decimal : Decimal) : Nat × Nat :=
  (decimal.digits * Nat.pow 10 decimal.exponent.toNat * interval.denominator,
    Nat.pow 10 (-decimal.exponent).toNat)

/-- Whether a decimal reads back as the number. -/
def contains (interval : Interval) (decimal : Decimal) : Bool :=
  let (above, below) := interval.scaled decimal
  if interval.closed then interval.lower * below ≤ above && above ≤ interval.upper * below
  else interval.lower * below < above && above < interval.upper * below

/-- The greatest decimal with this exponent that is not above the number. -/
def floor (interval : Interval) (exponent : Int) : Decimal :=
  let digits := interval.value * Nat.pow 10 (-exponent).toNat
    / (interval.denominator * Nat.pow 10 exponent.toNat)
  ⟨digits, exponent⟩

/-- Of two neighbours on a grid, around the number, the one to write, if there is one. -/
def choose? (interval : Interval) (low high : Decimal) : Option Decimal :=
  match interval.contains low, interval.contains high with
  | false, false => none
  | true, false => some low
  | false, true => some high
  | true, true =>
    let (lowAbove, lowBelow) := interval.scaled low
    let (highAbove, highBelow) := interval.scaled high
    let down := interval.value * lowBelow - lowAbove
    let up := highAbove - interval.value * highBelow
    if down < up || (down == up && low.digits % 2 == 0) then some low else some high

/-- Tries the grids from coarse to fine. On the last one the number itself is taken. -/
def shortestFrom (interval : Interval) : Nat → Int → Decimal
  | 0, exponent => interval.floor exponent
  | finer + 1, exponent =>
    let low := interval.floor exponent
    match interval.choose? low ⟨low.digits + 1, exponent⟩ with
    | some decimal => decimal
    | none => shortestFrom interval finer (exponent - 1)

end Interval

/-- The greatest power of ten that is not above a positive quotient, searched from `guess`
upward. -/
def floorLogTen (numerator denominator : Nat) : Nat → Int → Int
  | 0, guess => guess
  | left + 1, guess =>
    let next := guess + 1
    if denominator * Nat.pow 10 next.toNat ≤ numerator * Nat.pow 10 (-next).toNat then
      floorLogTen numerator denominator left next
    else guess

/-- The shortest decimal of a positive number. Seventeen digits are always enough. -/
def shortest (number : Binary64) : Decimal :=
  let interval := Interval.ofBinary64 number
  interval.shortestFrom 17 (floorLogTen interval.value interval.denominator 700 (-330))

/-! ### Layout -/

/-- How decimals are laid out. -/
structure Layout where
  /-- The least power of ten of a first digit that is written without an exponent. -/
  leastPositional : Int
  /-- The greatest such power. -/
  greatestPositional : Int

/-- The digits of a number without zeros at the end. -/
def significantDigits (digits : Nat) : List Char :=
  ((Nat.toDigits 10 digits).reverse.dropWhile (· = '0')).reverse

/-- Digits whose first one stands for `10 ^ power`, with a point between them. A whole number
has one zero behind the point. -/
def positional (digits : List Char) (power : Int) : List Char :=
  if power < 0 then ['0', '.'] ++ List.replicate ((-power).toNat - 1) '0' ++ digits
  else
    let whole := power.toNat + 1
    let front := digits.take whole
    let behind := digits.drop whole
    front ++ List.replicate (whole - front.length) '0' ++ ['.']
      ++ (if behind.isEmpty then ['0'] else behind)

/-- Digits with a point behind the first one if others follow, and an exponent that always has
its sign and no zeros in front. -/
def scientific (digits : List Char) (power : Int) : List Char :=
  digits.take 1 ++ (if digits.length ≤ 1 then [] else '.' :: digits.drop 1)
    ++ ['e', if power < 0 then '-' else '+'] ++ Nat.toDigits 10 power.natAbs

/-- The text of a number. Zero is written positionally. -/
def text (layout : Layout) (negative : Bool) (number : Binary64) : String :=
  let body :=
    if number.isZero then ['0', '.', '0']
    else
      let decimal := shortest number
      let digits := significantDigits decimal.digits
      let power := decimal.exponent + (Nat.toDigits 10 decimal.digits).length - 1
      if layout.leastPositional ≤ power ∧ power ≤ layout.greatestPositional then
        positional digits power
      else scientific digits power
  String.ofList (if negative then '-' :: body else body)

end Decimal

end ByteStack
