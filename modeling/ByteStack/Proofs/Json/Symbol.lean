/-
This file says how symbols are spelled: each by letters of its own, with blanks
in front of them, between them and behind them. The symbols of a text are found
by their letters. Only a number needs something behind it that is no number, for
two numbers would run together.

Symbols as they are written are spelled so, and are found again.
-/

import ByteStack.Proofs.Json.Number
import ByteStack.Proofs.Json.Quoted
import ByteStack.Json.Symbol
import Mathlib.Data.List.Chain

namespace ByteStack.Json

namespace Symbol

/-! ### The grammar -/

/-- The letters of a symbol. -/
inductive Letters : Symbol → List Char → Prop where
  | openArray : Letters .openArray ['[']
  | closeArray : Letters .closeArray [']']
  | openObject : Letters .openObject ['\x7b']
  | closeObject : Letters .closeObject ['\x7d']
  | comma : Letters .comma [',']
  | colon : Letters .colon [':']
  | null : Letters .null ['n', 'u', 'l', 'l']
  | wordTrue : Letters (.boolean true) ['t', 'r', 'u', 'e']
  | wordFalse : Letters (.boolean false) ['f', 'a', 'l', 's', 'e']
  | number {numeral : Numeral} {letters : List Char} (spelled : NumeralLetters numeral letters) :
      Letters (.number (Number.ofNumeral? numeral)) letters
  | string {letters : List Char} {parts : List StringPart} (quoted : QuotedLetters letters parts) :
      Letters (.string ((StringPart.text? parts).map String.ofList)) ('"' :: (letters ++ ['"']))

/-- The text spells the symbols. -/
inductive Spelled : List Symbol → List Char → Prop where
  | nil {blanks : List Char} (blank : ∀ character ∈ blanks, isBlank character) : Spelled [] blanks
  | cons {blanks letters text : List Char} {symbol : Symbol} {symbols : List Symbol}
      (blank : ∀ character ∈ blanks, isBlank character) (spelled : Letters symbol letters)
      (rest : Spelled symbols text) : Spelled (symbol :: symbols) (blanks ++ (letters ++ text))

def isNumber : Symbol → Bool
  | .number _ => true
  | _ => false

/-- No number stands directly behind another one. -/
def Spaced (symbols : List Symbol) : Prop :=
  symbols.IsChain fun first second => first.isNumber → ¬second.isNumber

variable {symbol : Symbol} {symbols : List Symbol} {letters text more rest : List Char}
  {first : Char}

/-! ### Finding a symbol -/

theorem ne_of_isDigit {other : Char} (digit : first.isDigit) (noDigit : other.isDigit = false) :
    first ≠ other := by
  rintro rfl
  exact absurd digit (noDigit ▸ Bool.false_ne_true)

theorem scan_digit (digit : first.isDigit) (rest : List Char) :
    scan first rest = scanNumber first rest := by
  have ne {other : Char} := @ne_of_isDigit first other digit
  rw [scan, if_neg (ne rfl), if_neg (ne rfl), if_neg (ne rfl), if_neg (ne rfl), if_neg (ne rfl),
    if_neg (ne rfl), if_neg (ne rfl), if_neg (ne rfl), if_neg (ne rfl), if_neg (ne rfl), if_pos]
  rw [digit, Bool.or_true]

theorem scan_minus (rest : List Char) : scan '-' rest = scanNumber '-' rest := rfl

/-- A numeral begins with a digit or a minus sign. -/
theorem numeral_begins {numeral : Numeral} (spelled : NumeralLetters numeral letters) :
    ∃ first rest, letters = first :: rest ∧ (first = '-' ∨ first.isDigit) := by
  obtain ⟨fraction, exponent, _, _, rfl⟩ := spelled.parts
  cases numeral.negative with
  | true => exact ⟨'-', _, rfl, .inl rfl⟩
  | false =>
    obtain ⟨first, rest, same, _, digit⟩ := Numeral.ne_minus spelled.whole (fraction ++ exponent)
    exact ⟨first, rest, same, .inr digit⟩

theorem scanNumber_append {numeral : Numeral} (spelled : NumeralLetters numeral (first :: rest))
    (ends : EndsNumeral more) :
    scanNumber first (rest ++ more) = ⟨.number (Number.ofNumeral? numeral), rest.length⟩ := by
  have found := Numeral.scan_append spelled ends
  rw [List.cons_append] at found
  rw [scanNumber, found]
  dsimp only
  rw [← Numeral.length_letters spelled]
  rfl

theorem scanString_append {parts : List StringPart} (quoted : QuotedLetters letters parts)
    (more : List Char) :
    scanString (letters ++ '"' :: more) =
      ⟨.string ((StringPart.text? parts).map String.ofList), letters.length + 1⟩ := by
  have skipped := quoted.skip 0 more
  have read := quoted.read [] more
  rw [Nat.zero_add] at skipped
  rw [scanString, skipQuoted, skipped, readQuoted]
  cases result : readFrom [] (letters ++ '"' :: more) with
  | ok text =>
    rw [result] at read
    have stands : StringPart.text? parts = some text := by
      cases known : StringPart.text? parts with
      | none => rw [known] at read; exact nomatch read
      | some other => rw [known] at read; exact read.symm
    rw [stands]
    rfl
  | error defect =>
    rw [result] at read
    have lacks : StringPart.text? parts = none := Option.map_eq_none_iff.mp read.symm
    rw [lacks]
    rfl

theorem scanLetters_append (letters more : List Char) :
    scanLetters letters (letters ++ more) = .ok () := by
  induction letters with
  | nil => rfl
  | cons letter rest inductionHypothesis =>
    rw [List.cons_append, scanLetters, if_pos rfl, inductionHypothesis]

theorem scanWord_append (letters more : List Char) (word : Symbol) :
    scanWord letters word (letters ++ more) = ⟨word, letters.length⟩ := by
  rw [scanWord, scanLetters_append]

/-- A symbol is found where its letters stand. -/
theorem scan_append (spelled : Letters symbol (first :: rest))
    (ends : symbol.isNumber → EndsNumeral more) :
    scan first (rest ++ more) = ⟨symbol, rest.length⟩ := by
  generalize whole : first :: rest = letters at spelled
  cases spelled with
  | openArray | closeArray | openObject | closeObject | comma | colon =>
    obtain ⟨rfl, rfl⟩ := List.cons.inj whole
    rfl
  | null =>
    obtain ⟨rfl, rfl⟩ := List.cons.inj whole
    exact scanWord_append ['u', 'l', 'l'] more .null
  | wordTrue =>
    obtain ⟨rfl, rfl⟩ := List.cons.inj whole
    exact scanWord_append ['r', 'u', 'e'] more (.boolean true)
  | wordFalse =>
    obtain ⟨rfl, rfl⟩ := List.cons.inj whole
    exact scanWord_append ['a', 'l', 's', 'e'] more (.boolean false)
  | number spelled =>
    obtain ⟨_, _, same, begins⟩ := numeral_begins spelled
    obtain ⟨rfl, rfl⟩ := List.cons.inj (whole.trans same)
    rw [← scanNumber_append (whole ▸ spelled) (ends rfl)]
    rcases begins with rfl | digit
    · exact scan_minus _
    · exact scan_digit digit _
  | string quoted =>
    obtain ⟨rfl, rfl⟩ := List.cons.inj whole
    rw [List.append_assoc, List.length_append]
    exact scanString_append quoted more

theorem endsNumeral_cons (noDigit : first.isDigit = false) (noPoint : first ≠ '.')
    (notSmall : first ≠ 'e') (notLarge : first ≠ 'E') : EndsNumeral (first :: rest) where
  noDigit := by
    rintro _ ⟨⟩
    exact Bool.eq_false_iff.mp noDigit
  noPoint := by
    rintro ⟨⟩
    exact noPoint rfl
  noMark := by
    rintro _ ⟨⟩
    exact ⟨notSmall, notLarge⟩

/-- The first letter of a symbol is no blank, and does not go on with a number unless the symbol is
one itself. -/
theorem Letters.begins (spelled : Letters symbol letters) :
    ∃ first rest, letters = first :: rest ∧ isBlank first = false ∧
      (¬symbol.isNumber → ∀ more, EndsNumeral (letters ++ more)) := by
  cases spelled with
  | openArray | closeArray | openObject | closeObject | comma | colon | null | wordTrue
  | wordFalse | string =>
    exact ⟨_, _, rfl, rfl, fun _ _ => endsNumeral_cons rfl (by decide) (by decide) (by decide)⟩
  | number spelled =>
    obtain ⟨first, rest, rfl, begins⟩ := numeral_begins spelled
    refine ⟨first, rest, rfl, ?_, fun other => absurd rfl other⟩
    rcases begins with rfl | digit
    · rfl
    · have ne {other : Char} := @ne_of_isDigit first other digit
      rw [isBlank, decide_eq_false (ne rfl), decide_eq_false (ne rfl), decide_eq_false (ne rfl),
        decide_eq_false (ne rfl)]
      rfl

theorem Letters.isBroken (spelled : Letters symbol letters) : symbol.isBroken = false := by
  cases spelled <;> rfl

/-! ### The symbols of a text -/

theorem isBlank_ends (blank : isBlank first) : EndsNumeral (first :: rest) := by
  rw [isBlank, Bool.or_eq_true, Bool.or_eq_true, Bool.or_eq_true, decide_eq_true_eq,
    decide_eq_true_eq, decide_eq_true_eq, decide_eq_true_eq] at blank
  rcases blank with ((rfl | rfl) | rfl) | rfl <;>
    exact endsNumeral_cons rfl (by decide) (by decide) (by decide)

/-- A text does not go on with a number unless one comes next. -/
theorem Spelled.ends (spelled : Spelled symbols text)
    (other : ∀ symbol ∈ symbols.head?, ¬symbol.isNumber) : EndsNumeral text := by
  cases spelled with
  | nil blank =>
    cases text with
    | nil => exact ⟨nofun, nofun, nofun⟩
    | cons first rest => exact isBlank_ends (blank first List.mem_cons_self)
  | @cons blanks _ _ _ _ blank spelled _ =>
    cases blanks with
    | nil =>
      obtain ⟨_, _, _, _, ends⟩ := spelled.begins
      exact ends (other _ rfl) _
    | cons first rest => exact isBlank_ends (blank first List.mem_cons_self)

/-- Blanks in front of a text are left out. -/
theorem ofText_blanks {blanks : List Char} (blank : ∀ character ∈ blanks, isBlank character)
    (text : List Char) : ofText (blanks ++ text) = ofText text := by
  induction blanks with
  | nil => rfl
  | cons first rest inductionHypothesis =>
    rw [List.cons_append, ofText, if_pos (blank first List.mem_cons_self),
      inductionHypothesis fun character member => blank character (List.mem_cons_of_mem _ member)]

theorem ofText_letters (spelled : Letters symbol letters)
    (ends : symbol.isNumber → EndsNumeral text) :
    ofText (letters ++ text) = symbol :: ofText text := by
  obtain ⟨first, rest, rfl, notBlank, _⟩ := spelled.begins
  have broken : ¬symbol.isBroken := by
    rw [spelled.isBroken]
    exact Bool.false_ne_true
  rw [List.cons_append, ofText, notBlank, if_neg Bool.false_ne_true, scan_append spelled ends]
  dsimp only
  rw [if_neg broken, List.drop_left]

/-- The symbols that a text spells are found in it. -/
theorem ofText_of_spelled (spelled : Spelled symbols text) (spaced : Spaced symbols) :
    ofText text = symbols := by
  induction spelled with
  | @nil blanks blank =>
    have none := ofText_blanks blank []
    rw [List.append_nil] at none
    rw [none, ofText]
  | @cons blanks letters text symbol symbols blank letter rest inductionHypothesis =>
    have ends : symbol.isNumber → EndsNumeral text := fun isNumber =>
      rest.ends fun next member => (List.isChain_cons.mp spaced).1 next member isNumber
    rw [ofText_blanks blank, ofText_letters letter ends,
      inductionHypothesis (List.isChain_cons.mp spaced).2]

/-! ### What is found -/

theorem exists_of_scanLetters (found : scanLetters letters text = .ok ()) :
    ∃ more, text = letters ++ more := by
  induction letters generalizing text with
  | nil => exact ⟨text, rfl⟩
  | cons letter rest inductionHypothesis =>
    cases text with
    | nil => exact nomatch found
    | cons first others =>
      rw [scanLetters] at found
      split at found
      · next same =>
        obtain ⟨more, rfl⟩ := inductionHypothesis found
        exact ⟨more, same ▸ rfl⟩
      · exact nomatch found

/-- The symbol that was found has letters at the front of the text. -/
def Found (scanned : Scanned) (text : List Char) : Prop :=
  ∃ letters more, text = letters ++ more ∧ Letters scanned.symbol letters ∧
    letters.length = scanned.more + 1

theorem found_word {word : Symbol} (spelled : Letters word (first :: letters))
    (whole : (scanWord letters word rest).symbol.isBroken = false) :
    Found (scanWord letters word rest) (first :: rest) := by
  unfold scanWord at whole ⊢
  cases scanned : scanLetters letters rest with
  | ok =>
    obtain ⟨more, rfl⟩ := exists_of_scanLetters scanned
    exact ⟨first :: letters, more, rfl, spelled, rfl⟩
  | error defect =>
    rw [scanned] at whole
    exact nomatch whole

theorem found_number (whole : (scanNumber first rest).symbol.isBroken = false) :
    Found (scanNumber first rest) (first :: rest) := by
  unfold scanNumber at whole ⊢
  cases scanned : Numeral.scan (first :: rest) with
  | ok numeral =>
    obtain ⟨letters, more, same, spelled⟩ := Numeral.exists_of_scan scanned
    obtain ⟨_, _, rfl, _⟩ := numeral_begins spelled
    refine ⟨_, more, same, .number spelled, ?_⟩
    dsimp only
    rw [← Numeral.length_letters spelled]
    rfl
  | error place =>
    rw [scanned] at whole
    exact nomatch whole

theorem found_string (whole : (scanString rest).symbol.isBroken = false) :
    Found (scanString rest) ('"' :: rest) := by
  have skipped : ∃ length, skipQuoted rest = .ok length := by
    unfold scanString at whole
    cases skipped : skipQuoted rest with
    | ok length => exact ⟨length, rfl⟩
    | error defect =>
      rw [skipped] at whole
      cases read : readQuoted rest <;> rw [read] at whole <;> exact nomatch whole
  obtain ⟨length, skipped⟩ := skipped
  obtain ⟨letters, parts, behind, rfl, quoted, _⟩ := exists_of_skipFrom skipped
  refine ⟨'"' :: (letters ++ ['"']), behind, by simp, ?_, ?_⟩
  all_goals rw [scanString_append quoted]
  · exact .string quoted
  · simp

theorem found_scan (whole : (scan first rest).symbol.isBroken = false) :
    Found (scan first rest) (first :: rest) := by
  by_cases openArray : first = '['
  · subst openArray; exact ⟨['['], rest, rfl, .openArray, rfl⟩
  by_cases closeArray : first = ']'
  · subst closeArray; exact ⟨[']'], rest, rfl, .closeArray, rfl⟩
  by_cases openObject : first = '\x7b'
  · subst openObject; exact ⟨['\x7b'], rest, rfl, .openObject, rfl⟩
  by_cases closeObject : first = '\x7d'
  · subst closeObject; exact ⟨['\x7d'], rest, rfl, .closeObject, rfl⟩
  by_cases comma : first = ','
  · subst comma; exact ⟨[','], rest, rfl, .comma, rfl⟩
  by_cases colon : first = ':'
  · subst colon; exact ⟨[':'], rest, rfl, .colon, rfl⟩
  by_cases null : first = 'n'
  · subst null; exact found_word .null whole
  by_cases wordTrue : first = 't'
  · subst wordTrue; exact found_word .wordTrue whole
  by_cases wordFalse : first = 'f'
  · subst wordFalse; exact found_word .wordFalse whole
  by_cases quote : first = '"'
  · subst quote; exact found_string whole
  unfold scan at whole ⊢
  rw [if_neg openArray, if_neg closeArray, if_neg openObject, if_neg closeObject, if_neg comma,
    if_neg colon, if_neg null, if_neg wordTrue, if_neg wordFalse, if_neg quote] at whole ⊢
  by_cases begins : (first = '-' || first.isDigit) = true
  · rw [if_pos begins] at whole ⊢
    exact found_number whole
  · rw [if_neg begins] at whole
    exact nomatch whole

theorem Spelled.blank (spelled : Spelled symbols text) (blank : isBlank first) :
    Spelled symbols (first :: text) := by
  have more {blanks : List Char} (others : ∀ character ∈ blanks, isBlank character) :
      ∀ character ∈ first :: blanks, isBlank character :=
    List.forall_mem_cons.mpr ⟨blank, others⟩
  cases spelled with
  | nil others => exact .nil (more others)
  | cons others letter rest => exact .cons (more others) letter rest

/-- A text without broken symbols spells the symbols that are found in it. -/
theorem spelled_ofText (whole : ∀ symbol ∈ ofText text, symbol.isBroken = false) :
    Spelled (ofText text) text := by
  fun_induction ofText text with
  | case1 => exact .nil nofun
  | case2 first rest blank inductionHypothesis =>
    exact (inductionHypothesis whole).blank blank
  | case3 first rest notBlank scanned broken =>
    exact absurd broken (by rw [whole _ List.mem_cons_self]; exact Bool.false_ne_true)
  | case4 first rest notBlank scanned broken inductionHypothesis =>
    obtain ⟨here, behind⟩ := List.forall_mem_cons.mp whole
    obtain ⟨letters, more, same, spelled, length⟩ := found_scan here
    have left : rest.drop scanned.more = more := by
      have dropped := congrArg (List.drop letters.length) same
      rw [List.drop_left, length, List.drop_succ_cons] at dropped
      exact dropped
    rw [same]
    rw [left] at inductionHypothesis behind ⊢
    exact @Spelled.cons [] letters more _ _ (List.forall_mem_nil _) spelled
      (inductionHypothesis behind)

/-! ### Writing -/

/-- What has a written form. -/
inductive Writable : Symbol → Prop where
  | openArray : Writable .openArray
  | closeArray : Writable .closeArray
  | openObject : Writable .openObject
  | closeObject : Writable .closeObject
  | comma : Writable .comma
  | colon : Writable .colon
  | null : Writable .null
  | integer {value : Int} (least : -(Number.greatestNegative : Int) ≤ value)
      (greatest : value ≤ Number.greatestSignificand) : Writable (.number (some (.integer value)))
  | text (text : String) : Writable (.string (some text))

theorem Writable.spelled (writable : Writable symbol) : Letters symbol symbol.written := by
  cases writable with
  | openArray => exact .openArray
  | closeArray => exact .closeArray
  | openObject => exact .openObject
  | closeObject => exact .closeObject
  | comma => exact .comma
  | colon => exact .colon
  | null => exact .null
  | @integer value least greatest =>
    have letters := Letters.number (numeralLetters_integer value)
    rw [Number.ofNumeral?_ofInteger least greatest] at letters
    exact letters
  | text text =>
    obtain ⟨parts, quoted, stands⟩ := exists_quotedLetters text.toList
    have letters := Letters.string quoted
    rw [stands, Option.map_some, String.ofList_toList] at letters
    exact letters

/-- Symbols as they are written are spelled so. -/
theorem spelled_written (writable : ∀ symbol ∈ symbols, Writable symbol) :
    Spelled symbols (symbols.flatMap written) := by
  induction symbols with
  | nil => exact .nil (List.forall_mem_nil _)
  | cons symbol rest inductionHypothesis =>
    obtain ⟨here, behind⟩ := List.forall_mem_cons.mp writable
    exact @Spelled.cons [] _ _ _ _ (List.forall_mem_nil _) here.spelled (inductionHypothesis behind)

end Symbol

end ByteStack.Json
