/-
This file is the grammar of words, stated as a relation between characters: a
stretch of a text is a segment when it is a run of blanks, a comment, or one
token, and the characters behind it do not belong to it. Runs of blanks, letters
and digits are as long as they can be, so a segment depends on the character that
follows it, and on nothing further behind.

The scanner finds the segment that begins at a character, and meets a fault
exactly where no segment begins.
-/

import ByteStack.Source.Lexer
import Mathlib.Data.List.TakeWhile

namespace ByteStack

/-! ### Segments -/

/-- Characters that pass a test, at least one of them. What follows is the end of the text or a
character that does not pass. -/
structure LongestRun (test : Char → Bool) (run behind : List Char) : Prop where
  nonempty : run ≠ []
  each : ∀ character ∈ run, test character
  ends : ∀ next ∈ behind.head?, ¬test next

/-- The first list is one segment of a text in capitals in which the second list stands behind it.
A segment is layout, or it is a token with a kind and a literal. -/
inductive Segment : List Char → List Char → Option (TokenKind × List Char) → Prop where
  | blanks {run behind : List Char} (longest : LongestRun isLayout run behind) :
      Segment run behind none
  | comment {words behind : List Char} (inside : ∀ character ∈ words, character ≠ '\n') :
      Segment (';' :: (words ++ ['\n'])) behind none
  /-- A comment in the last line, which has no line feed. -/
  | lastComment {words : List Char} (inside : ∀ character ∈ words, character ≠ '\n') :
      Segment (';' :: words) [] none
  | mnemonic {letters behind : List Char} (longest : LongestRun Char.isUpper letters behind) :
      Segment letters behind (some (.mnemonic, letters))
  | label {letters behind : List Char} (longest : LongestRun Char.isUpper letters behind) :
      Segment ('#' :: letters) behind (some (.label, letters))
  | register {digit : Char} {behind : List Char} (isDigit : digit.isDigit)
      (alone : ∀ next ∈ behind.head?, ¬next.isUpper ∧ ¬next.isDigit) :
      Segment ['&', digit] behind (some (.register, [digit]))
  | decimal {digits behind : List Char} (longest : LongestRun Char.isDigit digits behind)
      (small : Text.valueOf 10 digits ≤ 65535) :
      Segment digits behind (some (.number, Nat.toDigits 10 (Text.valueOf 10 digits)))
  | hex {digits behind : List Char} (longest : LongestRun Char.isDigit digits behind)
      (small : Text.valueOf 16 digits ≤ 65535) :
      Segment ('$' :: digits) behind (some (.number, Nat.toDigits 10 (Text.valueOf 16 digits)))

/-- The text does not begin with a segment. -/
def BeginsNoSegment (text : List Char) : Prop :=
  ∀ letters behind token?, text = letters ++ behind → ¬Segment letters behind token?

/-- What is wrong where no segment begins, which the first character decides. Behind a `$` there
may be no digit, or a number that is too large. -/
def LexicalFault.at (first : Char) (rest : List Char) : LexicalFault :=
  if first = '#' then .invalidLabel
  else if first = '&' then .invalidRegister
  else if first.isDigit then
    .invalidNumber (String.ofList (first :: rest.takeWhile Char.isDigit))
  else if first = '$' then
    if rest.takeWhile Char.isDigit = [] then .invalidHex
    else .invalidNumber (String.ofList (rest.takeWhile Char.isDigit))
  else .unexpectedCharacter first

variable {test : Char → Bool} {first : Char} {letters behind rest : List Char}
  {token? : Option (TokenKind × List Char)}

/-! ### Runs -/

namespace LongestRun

/-- A character that passes begins a run. -/
theorem of_cons (passes : test first) (rest : List Char) :
    LongestRun test (first :: rest.takeWhile test) (rest.dropWhile test) where
  nonempty := List.cons_ne_nil _ _
  each := by
    intro character member
    rcases List.mem_cons.mp member with rfl | later
    · exact passes
    · exact List.mem_takeWhile_imp later
  ends := by
    intro next member
    have stops := List.head?_dropWhile_not test rest
    rw [Option.mem_def.mp member] at stops
    exact Bool.not_eq_true _ ▸ stops

/-- A text that begins with a character that passes splits behind its first run. -/
theorem exists_split (some : rest.takeWhile test ≠ []) :
    LongestRun test (rest.takeWhile test) (rest.dropWhile test) := by
  cases rest with
  | nil => exact absurd rfl some
  | cons first others =>
    by_cases passes : test first
    · rw [List.takeWhile_cons_of_pos passes, List.dropWhile_cons_of_pos passes]
      exact of_cons passes others
    · rw [List.takeWhile_cons_of_neg passes] at some
      exact absurd rfl some

theorem passes (longest : LongestRun test (first :: letters) behind) : test first :=
  longest.each first List.mem_cons_self

theorem takeWhile_append (longest : LongestRun test letters behind) :
    (letters ++ behind).takeWhile test = letters := by
  have none : behind.takeWhile test = [] := by
    cases behind with
    | nil => rfl
    | cons next others => exact List.takeWhile_cons_of_neg (longest.ends next rfl)
  rw [List.takeWhile_append_of_pos longest.each, none, List.append_nil]

/-- The run behind its first character. -/
theorem takeWhile_tail (longest : LongestRun test (first :: letters) behind) :
    (letters ++ behind).takeWhile test = letters := by
  have whole := longest.takeWhile_append
  rw [List.cons_append, List.takeWhile_cons_of_pos longest.passes] at whole
  exact (List.cons.inj whole).2

/-- A run is as long as before when the text behind it is cut short. -/
theorem cut {front : List Char} (longest : LongestRun test letters (front ++ rest)) :
    LongestRun test letters front where
  nonempty := longest.nonempty
  each := longest.each
  ends := by
    cases front with
    | nil => exact nofun
    | cons next others => exact longest.ends

end LongestRun

/-- A segment stays one when the text behind it is cut short. -/
theorem Segment.cut {front : List Char} (segment : Segment letters (front ++ rest) token?) :
    Segment letters front token? := by
  generalize whole : front ++ rest = behind at segment
  cases segment with
  | blanks longest => exact .blanks (whole ▸ longest).cut
  | comment inside => exact .comment inside
  | lastComment inside =>
    obtain ⟨rfl, _⟩ := List.append_eq_nil_iff.mp whole
    exact .lastComment inside
  | mnemonic longest => exact .mnemonic (whole ▸ longest).cut
  | label longest => exact .label (whole ▸ longest).cut
  | register isDigit alone =>
    subst whole
    refine .register isDigit ?_
    cases front with
    | nil => exact nofun
    | cons next others => exact alone
  | decimal longest small => exact .decimal (whole ▸ longest).cut small
  | hex longest small => exact .hex (whole ▸ longest).cut small

/-- Every segment has a first character. -/
theorem Segment.ne_nil (segment : Segment letters behind token?) : letters ≠ [] := by
  cases segment with
  | blanks longest => exact longest.nonempty
  | mnemonic longest => exact longest.nonempty
  | decimal longest small => exact longest.nonempty
  | _ => exact List.cons_ne_nil _ _

/-! ### The scanner, by its first character -/

/-- Two characters are different when a test tells them apart. -/
theorem ne_of_test (passes : test first) {other : Char} (fails : test other = false) :
    first ≠ other := by
  rintro rfl
  exact Bool.noConfusion (passes.symm.trans fails)

/-- A character of a class that no layout belongs to is not layout. -/
theorem not_isLayout (passes : test first)
    (fails : [' ', '\t', '\r', '\n'].all fun blank => !test blank) : ¬isLayout first := by
  intro layout
  have listed : first ∈ [' ', '\t', '\r', '\n'] := by
    simpa [isLayout, or_assoc] using layout
  have failed := List.all_eq_true.mp fails first listed
  rw [passes] at failed
  exact Bool.noConfusion failed

namespace Lexeme

theorem scan_layout (layout : isLayout first) (rest : List Char) :
    scan first rest = .layout (rest.takeWhile isLayout).length :=
  if_pos layout

theorem scan_comment (rest : List Char) :
    scan ';' rest = .layout ((rest.takeWhile (· ≠ '\n')).length + 1) := rfl

theorem scan_upper (upper : first.isUpper) (rest : List Char) :
    scan first rest = .token .mnemonic (first :: rest.takeWhile Char.isUpper)
      (rest.takeWhile Char.isUpper).length := by
  rw [scan, if_neg (not_isLayout upper (by decide)), if_neg (ne_of_test upper (by decide)),
    if_pos upper]

theorem scan_label (rest : List Char) : scan '#' rest = label rest := rfl

theorem scan_register (rest : List Char) : scan '&' rest = register rest := rfl

theorem scan_digit (digit : first.isDigit) (rest : List Char) :
    scan first rest = number 10 (first :: rest.takeWhile Char.isDigit)
      (rest.takeWhile Char.isDigit).length := by
  have notUpper : ¬first.isUpper := by
    intro upper
    have low : 'A'.val ≤ first.val := (of_decide_eq_true upper).1
    have high : first.val ≤ '9'.val := of_decide_eq_true (Bool.and_eq_true_iff.mp digit).2
    exact absurd (UInt32.le_trans low high) (by decide)
  rw [scan, if_neg (not_isLayout digit (by decide)), if_neg (ne_of_test digit (by decide)),
    if_neg notUpper, if_neg (ne_of_test digit (by decide)), if_neg (ne_of_test digit (by decide)),
    if_pos digit]

theorem scan_hex (rest : List Char) : scan '$' rest = hexNumber rest := rfl

theorem number_of_le {base : Nat} (positive : 0 < base) {digits : List Char}
    (small : Text.valueOf base digits ≤ 65535) (more : Nat) :
    number base digits more =
      .token .number (Nat.toDigits 10 (Text.valueOf base digits)) more := by
  have value : Text.valueUpTo largestNumber base digits = Text.valueOf base digits := by
    rw [Text.valueUpTo_eq_min _ _ positive]
    exact Nat.min_eq_right (Nat.le_succ_of_le small)
  rw [number, value]
  exact if_pos small

theorem number_of_lt {base : Nat} (positive : 0 < base) {digits : List Char}
    (large : 65535 < Text.valueOf base digits) (more : Nat) :
    number base digits more = .fault (.invalidNumber (String.ofList digits)) (more + 1) := by
  have value : Text.valueUpTo largestNumber base digits = largestNumber + 1 := by
    rw [Text.valueUpTo_eq_min _ _ positive]
    exact Nat.min_eq_left large
  rw [number, value]
  exact if_neg (Nat.not_succ_le_self _)

end Lexeme

/-! ### Segments are scanned -/

/-- Layout is scanned as layout. A comment that no line feed ends counts one character more. -/
theorem Segment.scan_layout (segment : Segment (first :: letters) behind none) :
    ∃ more, Lexeme.scan first (letters ++ behind) = .layout more ∧
      (letters ++ behind).drop more = behind ∧
      (more = letters.length ∨
        more = letters.length + 1 ∧ first = ';' ∧ '\n' ∉ letters ∧ behind = []) := by
  generalize whole : first :: letters = stretch at segment
  cases segment with
  | blanks longest =>
    subst whole
    refine ⟨letters.length, ?_, List.drop_left, Or.inl rfl⟩
    rw [Lexeme.scan_layout longest.passes, longest.takeWhile_tail]
  | @comment words _ inside =>
    obtain ⟨rfl, rfl⟩ := List.cons.inj whole
    have longest : (words ++ ['\n'] ++ behind).takeWhile (· ≠ '\n') = words := by
      rw [List.append_assoc, List.takeWhile_append_of_pos (by simpa using inside)]
      simp
    refine ⟨(words ++ ['\n']).length, ?_, List.drop_left, Or.inl rfl⟩
    rw [Lexeme.scan_comment, longest, List.length_append]
    rfl
  | lastComment inside =>
    obtain ⟨rfl, rfl⟩ := List.cons.inj whole
    have longest : letters.takeWhile (· ≠ '\n') = letters :=
      List.takeWhile_eq_self_iff.mpr (by simpa using inside)
    refine ⟨letters.length + 1, ?_, ?_, Or.inr ⟨rfl, rfl, fun member => inside _ member rfl, rfl⟩⟩
    · rw [List.append_nil, Lexeme.scan_comment, longest]
    · rw [List.append_nil]
      exact List.drop_of_length_le (Nat.le_succ _)

/-- A token is scanned with its kind and literal, to its last character. -/
theorem Segment.scan_token {kind : TokenKind} {literal : List Char}
    (segment : Segment (first :: letters) behind (some (kind, literal))) :
    Lexeme.scan first (letters ++ behind) = .token kind literal letters.length := by
  generalize whole : first :: letters = stretch at segment
  cases segment with
  | mnemonic longest =>
    subst whole
    rw [Lexeme.scan_upper longest.passes, longest.takeWhile_tail]
  | label longest =>
    obtain ⟨rfl, rfl⟩ := List.cons.inj whole
    rw [Lexeme.scan_label, Lexeme.label, longest.takeWhile_append]
    cases letters with
    | nil => exact absurd rfl longest.nonempty
    | cons next others => rfl
  | @register digit _ isDigit alone =>
    obtain ⟨rfl, rfl⟩ := List.cons.inj whole
    rw [Lexeme.scan_register]
    cases behind with
    | nil =>
      exact if_pos isDigit
    | cons next others =>
      have apart : (next.isUpper || next.isDigit) = false := by
        simpa using alone next rfl
      show (if !digit.isDigit then _ else if next.isUpper || next.isDigit then _ else _) = _
      rw [isDigit, apart]
      rfl
  | decimal longest small =>
    subst whole
    rw [Lexeme.scan_digit longest.passes, longest.takeWhile_tail,
      Lexeme.number_of_le (by decide) small]
  | hex longest small =>
    obtain ⟨rfl, rfl⟩ := List.cons.inj whole
    rw [Lexeme.scan_hex, Lexeme.hexNumber, longest.takeWhile_append,
      ← Lexeme.number_of_le (by decide) small]
    cases letters with
    | nil => exact absurd rfl longest.nonempty
    | cons next others => rfl

/-! ### Where no segment begins -/

/-- Where the scanner meets a fault, no segment begins. -/
theorem beginsNoSegment_of_scan {fault : LexicalFault} {taken : Nat}
    (met : Lexeme.scan first rest = .fault fault taken) : BeginsNoSegment (first :: rest) := by
  intro letters behind token? whole segment
  cases letters with
  | nil => exact segment.ne_nil rfl
  | cons other others =>
    obtain ⟨rfl, rfl⟩ := List.cons.inj whole
    cases token? with
    | none =>
      obtain ⟨more, scanned, _⟩ := segment.scan_layout
      exact nomatch met.symm.trans scanned
    | some token => exact nomatch met.symm.trans segment.scan_token

/-- The text begins with a segment, or the scanner meets the fault that its beginning decides. -/
def Scannable (first : Char) (rest : List Char) : Prop :=
  (∃ letters behind token?, first :: rest = letters ++ behind ∧ Segment letters behind token?) ∨
    ∃ taken, Lexeme.scan first rest = .fault (LexicalFault.at first rest) taken

namespace Scannable

/-- A segment that reaches to the end of a run. -/
theorem of_segment (before : List Char)
    (segment : Segment (first :: (before ++ rest.takeWhile test)) (rest.dropWhile test) token?) :
    Scannable first (before ++ rest) := by
  refine Or.inl ⟨_, _, _, ?_, segment⟩
  rw [List.cons_append, List.append_assoc, List.takeWhile_append_dropWhile]

theorem layout (isBlank : isLayout first) (rest : List Char) : Scannable first rest :=
  of_segment [] (.blanks (.of_cons isBlank rest))

theorem comment (rest : List Char) : Scannable ';' rest := by
  have inside : ∀ character ∈ rest.takeWhile (· ≠ '\n'), character ≠ '\n' := by
    intro character member
    simpa using List.mem_takeWhile_imp member
  have split := List.takeWhile_append_dropWhile (p := (· ≠ '\n')) (l := rest)
  have stops := List.head?_dropWhile_not (· ≠ '\n') rest
  cases shape : rest.dropWhile (· ≠ '\n') with
  | nil =>
    rw [shape, List.append_nil] at split
    rw [split] at inside
    exact Or.inl ⟨';' :: rest, [], none, (List.append_nil _).symm, .lastComment inside⟩
  | cons next behind =>
    rw [shape] at split stops
    obtain rfl : next = '\n' := by simpa using stops
    refine Or.inl ⟨_, behind, none, ?_, .comment inside⟩
    rw [List.cons_append, List.append_assoc, List.singleton_append, split]

theorem mnemonic (upper : first.isUpper) (rest : List Char) : Scannable first rest :=
  of_segment [] (.mnemonic (.of_cons upper rest))

theorem label (rest : List Char) : Scannable '#' rest := by
  by_cases none : rest.takeWhile Char.isUpper = []
  · refine Or.inr ⟨1, ?_⟩
    rw [Lexeme.scan_label, Lexeme.label, none]
    rfl
  · exact of_segment [] (.label (.exists_split none))

theorem register (rest : List Char) : Scannable '&' rest := by
  rcases rest with _ | ⟨digit, behind⟩
  · exact Or.inr ⟨1, rfl⟩
  by_cases isDigit : digit.isDigit
  · by_cases alone : ∀ next ∈ behind.head?, ¬next.isUpper ∧ ¬next.isDigit
    · exact Or.inl ⟨['&', digit], behind, _, rfl, .register isDigit alone⟩
    · refine Or.inr ⟨2, ?_⟩
      cases behind with
      | nil => exact absurd nofun alone
      | cons next others =>
        have joined : (next.isUpper || next.isDigit) = true := by
          simpa [or_iff_not_imp_left] using alone
        show (if !digit.isDigit then _ else if next.isUpper || next.isDigit then _ else _) = _
        rw [isDigit, joined]
        rfl
  · refine Or.inr ⟨1, ?_⟩
    have wrong : digit.isDigit = false := Bool.not_eq_true _ ▸ isDigit
    cases behind with
    | nil =>
      show (if digit.isDigit then _ else _) = _
      rw [wrong]
      rfl
    | cons next others =>
      show (if !digit.isDigit then _ else _) = _
      rw [wrong]
      rfl

theorem decimal (digit : first.isDigit) (rest : List Char) : Scannable first rest := by
  by_cases small : Text.valueOf 10 (first :: rest.takeWhile Char.isDigit) ≤ 65535
  · exact of_segment [] (.decimal (.of_cons digit rest) small)
  · refine Or.inr ⟨(rest.takeWhile Char.isDigit).length + 1, ?_⟩
    rw [Lexeme.scan_digit digit, Lexeme.number_of_lt (by decide) (Nat.lt_of_not_le small),
      LexicalFault.at, if_neg (ne_of_test digit (by decide)),
      if_neg (ne_of_test digit (by decide)), if_pos digit]

theorem hex (rest : List Char) : Scannable '$' rest := by
  have decided : LexicalFault.at '$' rest =
      if rest.takeWhile Char.isDigit = [] then .invalidHex
      else .invalidNumber (String.ofList (rest.takeWhile Char.isDigit)) := rfl
  by_cases none : rest.takeWhile Char.isDigit = []
  · refine Or.inr ⟨1, ?_⟩
    rw [decided, if_pos none, Lexeme.scan_hex, Lexeme.hexNumber, none]
  · by_cases small : Text.valueOf 16 (rest.takeWhile Char.isDigit) ≤ 65535
    · exact of_segment [] (.hex (.exists_split none) small)
    · refine Or.inr ⟨(rest.takeWhile Char.isDigit).length + 1, ?_⟩
      have large := Lexeme.number_of_lt (show 0 < 16 by decide) (Nat.lt_of_not_le small)
      rw [decided, if_neg none, ← large, Lexeme.scan_hex, Lexeme.hexNumber]
      split
      · next empty => exact absurd empty none
      · rfl

end Scannable

/-- The scanner decides whether a segment begins, by the first character. -/
theorem scannable (first : Char) (rest : List Char) : Scannable first rest := by
  by_cases isBlank : isLayout first
  · exact .layout isBlank rest
  by_cases semicolon : first = ';'
  · exact semicolon ▸ .comment rest
  by_cases upper : first.isUpper
  · exact .mnemonic upper rest
  by_cases hash : first = '#'
  · exact hash ▸ .label rest
  by_cases ampersand : first = '&'
  · exact ampersand ▸ .register rest
  by_cases digit : first.isDigit
  · exact .decimal digit rest
  by_cases dollar : first = '$'
  · exact dollar ▸ .hex rest
  -- No word begins with the character.
  refine Or.inr ⟨0, ?_⟩
  rw [Lexeme.scan, if_neg isBlank, if_neg semicolon, if_neg upper, if_neg hash, if_neg ampersand,
    if_neg digit, if_neg dollar, LexicalFault.at, if_neg hash, if_neg ampersand, if_neg digit,
    if_neg dollar]

end ByteStack
