/-
This file holds the decimal texts of the library: natural numbers and signed
bytes written in base ten, columns padded to a width, lists of signed bytes in
brackets, and the two readers of whole numbers. A reader takes an optional sign
and at least one digit, and refuses a value outside its range. Digits are the
ten ASCII digits only.
-/

namespace ByteStack.Text

/-! ### Writing -/

/-- The decimal digits of a number, with no leading zero. -/
def natural (value : Nat) : String :=
  String.ofList (Nat.toDigits 10 value)

/-- A whole number in decimal, with a minus sign when it is negative. -/
def integer (value : Int) : String :=
  if value < 0 then "-" ++ natural value.natAbs else natural value.natAbs

/-- A number in decimal with zeros in front, up to the given width. -/
def zeroPadded (width value : Nat) : String :=
  let digits := Nat.toDigits 10 value
  String.ofList (List.replicate (width - digits.length) '0' ++ digits)

/-- A text with blanks behind it, up to the given width. -/
def padded (width : Nat) (text : String) : String :=
  text ++ String.ofList (List.replicate (width - text.length) ' ')

/-- Signed bytes between brackets, with a comma and a blank between neighbours. -/
def bracketed (values : List Int8) : String :=
  "[" ++ ", ".intercalate (values.map fun value => integer value.toInt) ++ "]"

/-! ### Reading -/

/-- The number that a run of digits denotes in the given base. -/
def valueOf (base : Nat) (digits : List Char) : Nat :=
  Nat.ofDigitChars base digits 0

/-- The number that a run of digits denotes, or `limit + 1` if that is beyond the limit. However
many digits there are, no number on the way grows much larger than the limit. -/
def valueUpTo (limit base : Nat) (digits : List Char) : Nat :=
  digits.foldl (fun value digit => min (limit + 1) (base * value + (digit.toNat - '0'.toNat))) 0

/-- Cutting numbers off on the way is the same as cutting off the result. -/
theorem valueUpTo_eq_min (limit base : Nat) (positive : 0 < base) (digits : List Char) :
    valueUpTo limit base digits = min (limit + 1) (valueOf base digits) := by
  have step : ∀ value : Nat,
      digits.foldl (fun value digit => min (limit + 1) (base * value + (digit.toNat - '0'.toNat)))
          (min (limit + 1) value) =
        min (limit + 1) (Nat.ofDigitChars base digits value) := by
    induction digits with
    | nil => intro value; rfl
    | cons digit rest inductionHypothesis =>
      intro value
      have cut : min (limit + 1) (base * min (limit + 1) value + (digit.toNat - '0'.toNat)) =
          min (limit + 1) (base * value + (digit.toNat - '0'.toNat)) := by
        by_cases small : value ≤ limit + 1
        · rw [Nat.min_eq_right small]
        · have large : limit + 1 ≤ value := by omega
          have first : limit + 1 ≤ base * (limit + 1) := Nat.le_mul_of_pos_left _ positive
          have second : base * (limit + 1) ≤ base * value := Nat.mul_le_mul_left _ large
          rw [Nat.min_eq_left large, Nat.min_eq_left (by omega), Nat.min_eq_left (by omega)]
      rw [List.foldl_cons, cut, inductionHypothesis, Nat.ofDigitChars_cons]
  simpa [valueUpTo, valueOf] using step 0

/-- A number from zero to `limit`: at least one digit and nothing else. -/
def magnitude? (limit : Nat) (digits : List Char) : Option Nat :=
  if !digits.isEmpty && digits.all Char.isDigit then
    let value := valueUpTo limit 10 digits
    if value ≤ limit then some value else none
  else none

/-- A number from zero to `limit`: digits, with one plus sign allowed in front. -/
def unsigned? (limit : Nat) (text : String) : Option Nat :=
  match text.toList with
  | '+' :: digits => magnitude? limit digits
  | digits => magnitude? limit digits

/-- A signed byte: digits, with one plus or minus sign allowed in front. -/
def signedByte? (text : String) : Option Int8 :=
  match text.toList with
  | '-' :: digits => (magnitude? 128 digits).map fun value => Int8.ofInt (-value)
  | '+' :: digits => (magnitude? 127 digits).map fun value => Int8.ofNat value
  | digits => (magnitude? 127 digits).map fun value => Int8.ofNat value

end ByteStack.Text
