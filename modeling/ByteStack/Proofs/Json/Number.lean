/-
This file is the grammar of JSON numbers: a minus sign or none, one zero or
digits that begin with another one, and perhaps a fraction and an exponent. A
numeral is found at the front of a text when what follows does not go on with
it, and only numerals are found.

A whole number is written as such a numeral, and read back as the same number.
-/

import ByteStack.Json.Number
import ByteStack.Proofs.Source.Segment
import ByteStack.Proofs.Success
import Mathlib.Data.List.Basic

namespace ByteStack.Json

/-! ### The grammar -/

/-- Digits, at least one. -/
structure IsDigits (digits : List Char) : Prop where
  nonempty : digits ≠ []
  each : ∀ digit ∈ digits, digit.isDigit

/-- The digits in front of the point. -/
inductive WholeLetters : List Char → Prop where
  | zero : WholeLetters ['0']
  | digits {first : Char} {rest : List Char} (nonzero : first ≠ '0')
      (digits : IsDigits (first :: rest)) : WholeLetters (first :: rest)

/-- A point and digits, or nothing. -/
inductive FractionLetters : Option (List Char) → List Char → Prop where
  | missing : FractionLetters none []
  | digits {digits : List Char} (isDigits : IsDigits digits) :
      FractionLetters (some digits) ('.' :: digits)

/-- An exponent behind an `e` of either case, or nothing. -/
inductive ExponentLetters : Option Exponent → List Char → Prop where
  | missing : ExponentLetters none []
  | unsigned {mark : Char} {digits : List Char} (isMark : mark = 'e' ∨ mark = 'E')
      (isDigits : IsDigits digits) : ExponentLetters (some ⟨none, digits⟩) (mark :: digits)
  | positive {mark : Char} {digits : List Char} (isMark : mark = 'e' ∨ mark = 'E')
      (isDigits : IsDigits digits) :
      ExponentLetters (some ⟨some false, digits⟩) (mark :: '+' :: digits)
  | negative {mark : Char} {digits : List Char} (isMark : mark = 'e' ∨ mark = 'E')
      (isDigits : IsDigits digits) :
      ExponentLetters (some ⟨some true, digits⟩) (mark :: '-' :: digits)

/-- The letters of a numeral. -/
structure NumeralLetters (numeral : Numeral) (letters : List Char) : Prop where
  whole : WholeLetters numeral.whole
  parts : ∃ fraction exponent, FractionLetters numeral.fraction? fraction ∧
    ExponentLetters numeral.exponent? exponent ∧
    letters = (if numeral.negative then ['-'] else []) ++ (numeral.whole ++ (fraction ++ exponent))

/-- The text does not begin with a digit. -/
def NoDigit (text : List Char) : Prop :=
  ∀ next ∈ text.head?, ¬next.isDigit

/-- The text does not go on with a numeral. -/
structure EndsNumeral (text : List Char) : Prop where
  noDigit : NoDigit text
  noPoint : text.head? ≠ some '.'
  noMark : ∀ next ∈ text.head?, next ≠ 'e' ∧ next ≠ 'E'

namespace Numeral

variable {digits whole letters text more : List Char} {fraction? : Option (List Char)}
  {exponent? : Option Exponent} {numeral : Numeral}

/-! ### Digits -/

theorem takeWhile_digits (isDigits : IsDigits digits) (ends : NoDigit more) :
    (digits ++ more).takeWhile Char.isDigit = digits :=
  LongestRun.takeWhile_append ⟨isDigits.nonempty, isDigits.each, ends⟩

theorem scanDigits_append (isDigits : IsDigits digits) (ends : NoDigit more) :
    scanDigits (digits ++ more) = .ok digits := by
  rw [scanDigits, takeWhile_digits isDigits ends]
  cases digits with
  | nil => exact absurd rfl isDigits.nonempty
  | cons first rest => rfl

theorem exists_of_takeWhile {first : Char} {rest : List Char}
    (found : text.takeWhile Char.isDigit = first :: rest) :
    ∃ more, text = first :: rest ++ more ∧ IsDigits (first :: rest) := by
  have run := LongestRun.exists_split (show text.takeWhile Char.isDigit ≠ [] by rw [found]; nofun)
  rw [found] at run
  refine ⟨text.dropWhile Char.isDigit, ?_, run.nonempty, run.each⟩
  rw [← found, List.takeWhile_append_dropWhile]

theorem exists_of_scanDigits (found : scanDigits text = .ok digits) :
    ∃ more, text = digits ++ more ∧ IsDigits digits := by
  unfold scanDigits at found
  split at found
  · exact nomatch found
  · next some =>
    obtain rfl := Except.ok.inj found
    cases taken : text.takeWhile Char.isDigit with
    | nil => exact absurd taken some
    | cons first rest => exact exists_of_takeWhile taken

/-! ### In front of the point -/

theorem scanWhole_append (spelled : WholeLetters whole) (ends : NoDigit more) :
    scanWhole (whole ++ more) = .ok whole := by
  cases spelled with
  | zero =>
    have none : more.takeWhile Char.isDigit = [] := by
      cases more with
      | nil => rfl
      | cons next rest => exact List.takeWhile_cons_of_neg (ends next rfl)
    rw [List.cons_append, List.nil_append, scanWhole, none]
  | @digits first rest nonzero digits =>
    have found := takeWhile_digits digits ends
    unfold scanWhole
    split
    · next none => exact nomatch none
    · next same => exact absurd (List.cons.inj same).1 nonzero
    · rw [found]

theorem exists_of_scanWhole (found : scanWhole text = .ok whole) :
    ∃ more, text = whole ++ more ∧ WholeLetters whole := by
  unfold scanWhole at found
  split at found
  · exact nomatch found
  · next rest =>
    split at found
    · obtain rfl := Except.ok.inj found
      exact ⟨rest, rfl, .zero⟩
    · exact nomatch found
  · next nonempty nonzero =>
    split at found
    · exact nomatch found
    · next some =>
      obtain rfl := Except.ok.inj found
      cases taken : text.takeWhile Char.isDigit with
      | nil => exact absurd taken some
      | cons first rest =>
        obtain ⟨more, rfl, digits⟩ := exists_of_takeWhile taken
        exact ⟨more, rfl, .digits (fun same => nonzero (rest ++ more) (same ▸ rfl)) digits⟩

/-! ### Behind the point -/

theorem scanFraction_append (spelled : FractionLetters fraction? letters) (noDigit : NoDigit more)
    (noPoint : more.head? ≠ some '.') : scanFraction (letters ++ more) = .ok fraction? := by
  cases spelled with
  | missing =>
    rw [List.nil_append]
    unfold scanFraction
    split
    · exact absurd rfl noPoint
    · rfl
  | digits isDigits =>
    rw [List.cons_append, scanFraction, scanDigits_append isDigits noDigit]
    rfl

theorem exists_of_scanFraction (found : scanFraction text = .ok fraction?) :
    ∃ letters more, text = letters ++ more ∧ FractionLetters fraction? letters := by
  unfold scanFraction at found
  split at found
  · obtain ⟨digits, scanned, rfl⟩ := map_eq_ok.mp found
    obtain ⟨more, rfl, isDigits⟩ := exists_of_scanDigits scanned
    exact ⟨_, more, rfl, .digits isDigits⟩
  · obtain rfl := Except.ok.inj found
    exact ⟨[], text, rfl, .missing⟩

theorem length_fraction (spelled : FractionLetters fraction? letters) :
    letters.length = fractionLength fraction? := by
  cases spelled <;> rfl

/-! ### Exponents -/

theorem splitSign_digits (isDigits : IsDigits digits) (more : List Char) :
    splitSign (digits ++ more) = (none, digits ++ more) := by
  cases digits with
  | nil => exact absurd rfl isDigits.nonempty
  | cons first rest =>
    have digit := isDigits.each first List.mem_cons_self
    unfold splitSign
    split
    · next same => exact absurd ((List.cons.inj same).1 ▸ digit) (by decide)
    · next same => exact absurd ((List.cons.inj same).1 ▸ digit) (by decide)
    · rfl

theorem scanExponent_mark {mark : Char} (isMark : mark = 'e' ∨ mark = 'E') (text : List Char) :
    scanExponent (mark :: text) =
      (scanDigits (splitSign text).2).map fun digits => some ⟨(splitSign text).1, digits⟩ := by
  rw [scanExponent, if_pos]
  rw [Bool.or_eq_true, decide_eq_true_eq, decide_eq_true_eq]
  exact isMark

theorem scanExponent_of_ne {first : Char} (other : ¬(first = 'e' ∨ first = 'E'))
    (rest : List Char) : scanExponent (first :: rest) = .ok none := by
  rw [scanExponent, if_neg]
  rw [Bool.or_eq_true, decide_eq_true_eq, decide_eq_true_eq]
  exact other

theorem scanExponent_append (spelled : ExponentLetters exponent? letters) (noDigit : NoDigit more)
    (noMark : ∀ next ∈ more.head?, next ≠ 'e' ∧ next ≠ 'E') :
    scanExponent (letters ++ more) = .ok exponent? := by
  cases spelled with
  | missing =>
    rw [List.nil_append]
    cases more with
    | nil => rfl
    | cons next rest =>
      exact scanExponent_of_ne (not_or.mpr (noMark next rfl)) rest
  | unsigned isMark isDigits =>
    rw [List.cons_append, scanExponent_mark isMark, splitSign_digits isDigits,
      scanDigits_append isDigits noDigit]
    rfl
  | positive isMark isDigits =>
    rw [List.cons_append, scanExponent_mark isMark, List.cons_append, splitSign,
      scanDigits_append isDigits noDigit]
    rfl
  | negative isMark isDigits =>
    rw [List.cons_append, scanExponent_mark isMark, List.cons_append, splitSign,
      scanDigits_append isDigits noDigit]
    rfl

theorem exists_of_splitSign {mark : Char} (isMark : mark = 'e' ∨ mark = 'E')
    (isDigits : IsDigits digits) (behind : (splitSign text).2 = digits ++ more) :
    ∃ letters, mark :: text = letters ++ more ∧
      ExponentLetters (some ⟨(splitSign text).1, digits⟩) letters := by
  unfold splitSign at behind ⊢
  split at behind
  · obtain rfl : _ = digits ++ more := behind
    exact ⟨_, rfl, .positive isMark isDigits⟩
  · obtain rfl : _ = digits ++ more := behind
    exact ⟨_, rfl, .negative isMark isDigits⟩
  · obtain rfl : text = digits ++ more := behind
    exact ⟨_, rfl, .unsigned isMark isDigits⟩

theorem exists_of_scanExponent (found : scanExponent text = .ok exponent?) :
    ∃ letters more, text = letters ++ more ∧ ExponentLetters exponent? letters := by
  cases text with
  | nil => exact ⟨[], [], rfl, Except.ok.inj found ▸ .missing⟩
  | cons first rest =>
    by_cases isMark : first = 'e' ∨ first = 'E'
    · rw [scanExponent_mark isMark] at found
      obtain ⟨digits, scanned, rfl⟩ := map_eq_ok.mp found
      obtain ⟨more, behind, isDigits⟩ := exists_of_scanDigits scanned
      obtain ⟨letters, same, spelled⟩ := exists_of_splitSign isMark isDigits behind
      exact ⟨letters, more, same, spelled⟩
    · rw [scanExponent_of_ne isMark] at found
      exact ⟨[], _, rfl, Except.ok.inj found ▸ .missing⟩

theorem length_exponent (spelled : ExponentLetters exponent? letters) :
    letters.length = exponentLength exponent? := by
  cases spelled <;> rfl

/-! ### Numerals -/

theorem noDigit_exponent (spelled : ExponentLetters exponent? letters) (noDigit : NoDigit more) :
    NoDigit (letters ++ more) := by
  cases spelled with
  | missing => exact noDigit
  | unsigned isMark _ | positive isMark _ | negative isMark _ =>
    rintro _ ⟨⟩
    rcases isMark with rfl | rfl <;> decide

theorem noPoint_exponent (spelled : ExponentLetters exponent? letters)
    (noPoint : more.head? ≠ some '.') : (letters ++ more).head? ≠ some '.' := by
  cases spelled with
  | missing => exact noPoint
  | unsigned isMark _ | positive isMark _ | negative isMark _ =>
    rintro ⟨⟩
    exact absurd isMark (by decide)

theorem noDigit_fraction (spelled : FractionLetters fraction? letters) (noDigit : NoDigit more) :
    NoDigit (letters ++ more) := by
  cases spelled with
  | missing => exact noDigit
  | digits _ =>
    rintro _ ⟨⟩
    decide

theorem length_letters (spelled : NumeralLetters numeral letters) :
    letters.length = numeral.length := by
  obtain ⟨fraction, exponent, hasFraction, hasExponent, rfl⟩ := spelled.parts
  rw [Numeral.length, ← length_fraction hasFraction, ← length_exponent hasExponent]
  cases numeral.negative <;> simp <;> omega

/-- The numeral behind its sign. -/
def scanUnsigned (negative : Bool) (text : List Char) : Except Break Numeral := do
  let whole ← scanWhole text
  let behindWhole := text.drop whole.length
  let fraction? ← scanFraction behindWhole
  let exponent? ← scanExponent (behindWhole.drop (fractionLength fraction?))
  return ⟨negative, whole, fraction?, exponent?⟩

theorem scan_minus (text : List Char) : scan ('-' :: text) = scanUnsigned true text := rfl

theorem scan_of_ne {first : Char} (unsigned : first ≠ '-') (rest : List Char) :
    scan (first :: rest) = scanUnsigned false (first :: rest) := by
  unfold scan
  split
  next sign =>
    split at sign
    · next same => exact absurd (List.cons.inj same).1 unsigned
    · obtain ⟨rfl, rfl⟩ := Prod.mk.inj sign
      rfl

theorem scanUnsigned_append {fraction exponent : List Char} (negative : Bool)
    (hasWhole : WholeLetters whole) (hasFraction : FractionLetters fraction? fraction)
    (hasExponent : ExponentLetters exponent? exponent) (ends : EndsNumeral more) :
    scanUnsigned negative (whole ++ (fraction ++ (exponent ++ more))) =
      .ok ⟨negative, whole, fraction?, exponent?⟩ := by
  have behindFraction := noDigit_exponent hasExponent ends.noDigit
  have behindWhole := noDigit_fraction hasFraction behindFraction
  have third := scanFraction_append hasFraction behindFraction
    (noPoint_exponent hasExponent ends.noPoint)
  have last := scanExponent_append hasExponent ends.noDigit ends.noMark
  refine bind_eq_ok.mpr ⟨_, scanWhole_append hasWhole behindWhole, ?_⟩
  dsimp only
  rw [List.drop_left]
  refine bind_eq_ok.mpr ⟨_, third, ?_⟩
  rw [← length_fraction hasFraction, List.drop_left]
  exact bind_eq_ok.mpr ⟨_, last, rfl⟩

theorem exists_of_scanUnsigned {negative : Bool}
    (found : scanUnsigned negative text = .ok numeral) :
    numeral.negative = negative ∧ WholeLetters numeral.whole ∧ ∃ fraction exponent more,
      FractionLetters numeral.fraction? fraction ∧ ExponentLetters numeral.exponent? exponent ∧
      text = numeral.whole ++ (fraction ++ (exponent ++ more)) := by
  obtain ⟨whole, foundWhole, found⟩ := bind_eq_ok.mp found
  obtain ⟨behindWhole, rfl, hasWhole⟩ := exists_of_scanWhole foundWhole
  dsimp only at found
  rw [List.drop_left] at found
  obtain ⟨fraction?, foundFraction, found⟩ := bind_eq_ok.mp found
  obtain ⟨fraction, behindFraction, rfl, hasFraction⟩ := exists_of_scanFraction foundFraction
  rw [← length_fraction hasFraction, List.drop_left] at found
  obtain ⟨exponent?, foundExponent, whole⟩ := bind_eq_ok.mp found
  obtain ⟨exponent, more, rfl, hasExponent⟩ := exists_of_scanExponent foundExponent
  obtain rfl := Except.ok.inj whole
  exact ⟨rfl, hasWhole, fraction, exponent, more, hasFraction, hasExponent, rfl⟩

/-- A whole numeral does not begin with a minus sign. -/
theorem ne_minus (hasWhole : WholeLetters whole) (more : List Char) :
    ∃ first rest, whole ++ more = first :: rest ∧ first ≠ '-' ∧ first.isDigit := by
  cases hasWhole with
  | zero => exact ⟨'0', more, rfl, by decide, by decide⟩
  | @digits first rest _ digits =>
    have digit := digits.each first List.mem_cons_self
    refine ⟨first, rest ++ more, rfl, ?_, digit⟩
    rintro rfl
    exact absurd digit (by decide)

/-- A numeral is found where it stands. -/
theorem scan_append (spelled : NumeralLetters numeral letters) (ends : EndsNumeral more) :
    scan (letters ++ more) = .ok numeral := by
  obtain ⟨fraction, exponent, hasFraction, hasExponent, rfl⟩ := spelled.parts
  have found := scanUnsigned_append numeral.negative spelled.whole hasFraction hasExponent ends
  simp only [List.append_assoc]
  cases sign : numeral.negative with
  | true =>
    rw [if_pos rfl, List.cons_append, List.nil_append, scan_minus, ← sign]
    exact found
  | false =>
    obtain ⟨first, rest, same, unsigned, _⟩ :=
      ne_minus spelled.whole (fraction ++ (exponent ++ more))
    rw [if_neg Bool.false_ne_true, List.nil_append]
    rw [same] at found ⊢
    rw [scan_of_ne unsigned, ← sign]
    exact found

/-- What is found is a numeral. -/
theorem exists_of_scan (found : scan text = .ok numeral) :
    ∃ letters more, text = letters ++ more ∧ NumeralLetters numeral letters := by
  have parts {negative : Bool} {text : List Char}
      (found : scanUnsigned negative text = .ok numeral) :
      ∃ letters more, (if negative then ['-'] else []) ++ text = letters ++ more ∧
        NumeralLetters numeral letters := by
    obtain ⟨rfl, hasWhole, fraction, exponent, more, hasFraction, hasExponent, rfl⟩ :=
      exists_of_scanUnsigned found
    exact ⟨_, more, by simp only [List.append_assoc],
      hasWhole, fraction, exponent, hasFraction, hasExponent, rfl⟩
  match text with
  | [] => exact nomatch found
  | first :: rest =>
    by_cases minus : first = '-'
    · subst minus
      exact @parts true rest (scan_minus rest ▸ found)
    · exact @parts false (first :: rest) (scan_of_ne minus rest ▸ found)

end Numeral

/-! ### Whole numbers -/

theorem wholeLetters_toDigits (value : Nat) : WholeLetters (Nat.toDigits 10 value) := by
  have isDigits (value : Nat) : IsDigits (Nat.toDigits 10 value) :=
    ⟨Nat.toDigits_ne_nil, fun _ member =>
      Nat.isDigit_of_mem_toDigits (by decide) (by decide) member⟩
  rcases Nat.eq_zero_or_pos value with rfl | positive
  · exact .zero
  -- A number with several digits begins as the number without the last one.
  have first : (Nat.toDigits 10 value).head? ≠ some '0' := by
    induction value using Nat.strong_induction_on with
    | h value inductionHypothesis =>
      rcases Nat.lt_or_ge value 10 with small | large
      · rw [Nat.toDigits_of_lt_base small]
        have nonzero : ∀ digit < 10, 0 < digit → [Nat.digitChar digit].head? ≠ some '0' := by decide
        exact nonzero value small positive
      · rw [Nat.toDigits_of_base_le (by decide) large,
          List.head?_append_of_ne_nil _ Nat.toDigits_ne_nil]
        exact inductionHypothesis _ (by omega) (by omega)
  have digits := isDigits value
  cases letters : Nat.toDigits 10 value with
  | nil => exact absurd letters Nat.toDigits_ne_nil
  | cons digit rest =>
    rw [letters] at digits first
    exact .digits (fun zero => first (zero ▸ rfl)) digits

/-- The numeral of a whole number. -/
def Numeral.ofInteger (value : Int) : Numeral :=
  ⟨decide (value < 0), Nat.toDigits 10 value.natAbs, none, none⟩

theorem numeralLetters_integer (value : Int) :
    NumeralLetters (.ofInteger value) (Text.integer value).toList := by
  refine ⟨wholeLetters_toDigits _, [], [], .missing, .missing, ?_⟩
  rw [Text.integer, Text.natural, Numeral.ofInteger, List.append_nil, List.append_nil]
  dsimp only
  by_cases negative : value < 0
  · rw [if_pos negative, decide_eq_true negative, if_pos rfl, String.toList_append]
    exact congrArg (['-'] ++ ·) String.toList_ofList
  · rw [if_neg negative, decide_eq_false negative, if_neg Bool.false_ne_true, List.nil_append,
      String.toList_ofList]

namespace Number

theorem le_ofDigitChars (digits : List Char) (value : Nat) :
    value ≤ Nat.ofDigitChars 10 digits value := by
  induction digits generalizing value with
  | nil => exact Nat.le_refl _
  | cons digit rest inductionHypothesis =>
    rw [Nat.ofDigitChars_cons]
    exact Nat.le_trans (by omega) (inductionHypothesis _)

/-- All digits of a number that is small enough are taken. -/
theorem absorb_eq {digits : List Char} {significand : Nat}
    (small : Nat.ofDigitChars 10 digits significand ≤ greatestSignificand) :
    absorb significand digits = (Nat.ofDigitChars 10 digits significand, []) := by
  induction digits generalizing significand with
  | nil => rfl
  | cons digit rest inductionHypothesis =>
    rw [Nat.ofDigitChars_cons, Nat.mul_comm] at small ⊢
    rw [absorb, if_pos (Nat.le_trans (le_ofDigitChars rest _) small), inductionHypothesis small]

/-- A whole number in the range of the integers is read back from its numeral. -/
theorem ofNumeral?_ofInteger {value : Int} (least : -(greatestNegative : Int) ≤ value)
    (greatest : value ≤ greatestSignificand) :
    ofNumeral? (.ofInteger value) = some (.integer value) := by
  have bounds : greatestNegative ≤ greatestSignificand := by decide
  have digits : Nat.ofDigitChars 10 (Nat.toDigits 10 value.natAbs) 0 = value.natAbs :=
    Nat.ofDigitChars_ten_toDigits
  have taken : absorb 0 (Nat.toDigits 10 value.natAbs) = (value.natAbs, []) := by
    rw [absorb_eq] <;> rw [digits]
    omega
  rw [ofNumeral?, Numeral.ofInteger]
  dsimp only
  rw [taken]
  dsimp only
  by_cases negative : value < 0
  · have written : decide (value < 0) = true := decide_eq_true negative
    have second : decide (0 < value.natAbs) = true := decide_eq_true (by omega)
    have third : decide (value.natAbs ≤ greatestNegative) = true := decide_eq_true (by omega)
    rw [written, if_neg (by decide), second, third, if_pos (by decide)]
    exact congrArg (fun value => some (integer value)) (by omega)
  · rw [decide_eq_false negative, if_pos (by decide)]
    exact congrArg (fun value => some (integer value)) (by omega)

end Number

end ByteStack.Json
