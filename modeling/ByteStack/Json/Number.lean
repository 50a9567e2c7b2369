/-
This file reads JSON numbers. A number without a fraction and an exponent is an
integer if it fits into sixty-four bits, unsigned or, with a minus sign, signed.
Every other number, and also a zero with a minus sign, is a floating one.

A floating number is made of the digits that fit into an unsigned
sixty-four-bit significand and of a power of ten. Both are rounded to the binary
format and then multiplied or divided, so the last bit may differ from that of
the exact value. A number beyond the binary format has no value, which matters
only to a reader who needs it.
-/

import ByteStack.Decimal.Shortest
import ByteStack.Json.Defect
import ByteStack.Text.Decimal

namespace ByteStack.Json

/-! ### Spelling -/

/-- The part of a numeral behind its `e`. -/
structure Exponent where
  /-- The sign, if there is one. A plus sign is `false`. -/
  sign? : Option Bool
  digits : List Char
deriving DecidableEq

/-- A number as it is spelled. -/
structure Numeral where
  negative : Bool
  /-- The digits in front of the point. -/
  whole : List Char
  /-- The digits behind the point, if there is one. -/
  fraction? : Option (List Char)
  exponent? : Option Exponent
deriving DecidableEq

namespace Numeral

/-- The digits in front of the point: one zero, or digits that begin with another one. -/
def scanWhole (text : List Char) : Except Break (List Char) :=
  match text with
  | [] => .error .unfinishedNumber
  | '0' :: rest =>
    match rest.takeWhile Char.isDigit with
    | [] => .ok ['0']
    | _ => .error .malformed
  | text =>
    match text.takeWhile Char.isDigit with
    | [] => .error .malformed
    | digits => .ok digits

/-- At least one digit. -/
def scanDigits (text : List Char) : Except Break (List Char) :=
  match text.takeWhile Char.isDigit with
  | [] => .error (if text.isEmpty then .unfinishedNumber else .malformed)
  | digits => .ok digits

/-- A point and digits, if the text begins with a point. -/
def scanFraction (text : List Char) : Except Break (Option (List Char)) :=
  match text with
  | '.' :: rest => (scanDigits rest).map some
  | _ => .ok none

/-- A sign, if the text begins with one, and what follows. -/
def splitSign (text : List Char) : Option Bool × List Char :=
  match text with
  | '+' :: rest => (some false, rest)
  | '-' :: rest => (some true, rest)
  | _ => (none, text)

/-- An `e` and an exponent, if the text begins with an `e`. -/
def scanExponent (text : List Char) : Except Break (Option Exponent) :=
  match text with
  | mark :: rest =>
    if mark = 'e' || mark = 'E' then
      let (sign?, rest) := splitSign rest
      (scanDigits rest).map fun digits => some ⟨sign?, digits⟩
    else .ok none
  | [] => .ok none

/-- How many characters a fraction takes, with its point. -/
def fractionLength : Option (List Char) → Nat
  | some digits => digits.length + 1
  | none => 0

/-- How many characters an exponent takes, with its `e`. -/
def exponentLength : Option Exponent → Nat
  | some ⟨some _, digits⟩ => digits.length + 2
  | some ⟨none, digits⟩ => digits.length + 1
  | none => 0

/-- The numeral at the front of a text. -/
def scan (text : List Char) : Except Break Numeral := do
  let (negative, unsigned) := match text with
    | '-' :: rest => (true, rest)
    | _ => (false, text)
  let whole ← scanWhole unsigned
  let behindWhole := unsigned.drop whole.length
  let fraction? ← scanFraction behindWhole
  let exponent? ← scanExponent (behindWhole.drop (fractionLength fraction?))
  return ⟨negative, whole, fraction?, exponent?⟩

/-- How many characters a numeral takes. -/
def length (numeral : Numeral) : Nat :=
  (if numeral.negative then 1 else 0) + numeral.whole.length
    + fractionLength numeral.fraction? + exponentLength numeral.exponent?

end Numeral

/-! ### Values -/

inductive Number where
  | integer (value : Int)
  /-- A floating number: its sign and its magnitude. -/
  | floating (negative : Bool) (magnitude : Binary64)
deriving DecidableEq

namespace Number

/-- The greatest significand. -/
def greatestSignificand : Nat := 0xFFFFFFFFFFFFFFFF

/-- Takes digits into a significand as long as it stays small enough. Gives the digits that
are left. -/
def absorb (significand : Nat) : List Char → Nat × List Char
  | [] => (significand, [])
  | digit :: rest =>
    let next := significand * 10 + (digit.toNat - '0'.toNat)
    if next ≤ greatestSignificand then absorb next rest else (significand, digit :: rest)

/-- The greatest power of ten that one multiplication or division uses. -/
def greatestPower : Nat := 308

/-- Adding a step brings a number closer to zero that lies more than the step below it. -/
theorem natAbs_add_lt {power : Int} {step : Nat} (far : ¬power.natAbs ≤ step)
    (below : ¬0 ≤ power) (moves : 0 < step) : (power + step).natAbs < power.natAbs := by
  omega

/-- A power of ten in the binary format. -/
def powerOfTen? (power : Nat) : Option Binary64 :=
  Binary64.ofNat? (Nat.pow 10 power)

/-- `magnitude * 10 ^ power`, rounded after each operation. Large negative powers are divided
out in steps, until the power is small enough or nothing is left. -/
def timesPowerOfTen? (magnitude : Binary64) (power : Int) : Option Binary64 :=
  if power.natAbs ≤ greatestPower then
    (powerOfTen? power.natAbs).bind fun factor =>
      if 0 ≤ power then magnitude.times? factor else magnitude.dividedBy? factor
  else if magnitude.isZero then some magnitude
  else if 0 ≤ power then none
  else
    (powerOfTen? greatestPower).bind fun factor =>
      (magnitude.dividedBy? factor).bind fun smaller =>
        timesPowerOfTen? smaller (power + greatestPower)
termination_by power.natAbs
decreasing_by exact natAbs_add_lt (by assumption) (by assumption) (by decide)

/-- The greatest exponent that is looked at closely. -/
def greatestExponent : Nat := 2147483647

/-- The power of ten that an exponent stands for. Greater ones than `greatestExponent` are all
taken for the next one. -/
def powerOf : Option Exponent → Int
  | none => 0
  | some ⟨sign?, digits⟩ =>
    let magnitude : Int := Text.valueUpTo greatestExponent 10 digits
    if sign? = some true then -magnitude else magnitude

/-- The floating value of a numeral with this significand, whose last digit stands for
`10 ^ power` before the exponent is applied. -/
def floatingOf? (numeral : Numeral) (significand : Nat) (power : Int) : Option Number :=
  let exponent := powerOf numeral.exponent?
  if greatestExponent < exponent.natAbs then
    if significand ≠ 0 ∧ 0 ≤ exponent then none
    else some (.floating numeral.negative .zero)
  else
    ((Binary64.ofNat? significand).bind fun magnitude =>
      timesPowerOfTen? magnitude (power + exponent)).map (.floating numeral.negative)

/-- The greatest magnitude of a negative integer. -/
def greatestNegative : Nat := 0x8000000000000000

/-- The value of a numeral, if it has one. -/
def ofNumeral? (numeral : Numeral) : Option Number :=
  let (significand, beyond) := absorb 0 numeral.whole
  match numeral.fraction?, numeral.exponent? with
  | none, none =>
    if beyond.isEmpty && !numeral.negative then some (.integer significand)
    else if beyond.isEmpty && 0 < significand && significand ≤ greatestNegative then
      some (.integer (-(significand : Int)))
    else floatingOf? numeral significand beyond.length
  | none, some _ => floatingOf? numeral significand beyond.length
  | some fraction, _ =>
    let (significand, ignored) := absorb significand fraction
    let absorbed := fraction.length - ignored.length
    floatingOf? numeral significand ((beyond.length : Int) - absorbed)

/-- Floating numbers are written positionally from the fifth place behind the point up to
sixteen places in front of it. -/
def layout : Decimal.Layout := ⟨-5, 15⟩

end Number

end ByteStack.Json
