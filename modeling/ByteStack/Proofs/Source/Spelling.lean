/-
This file writes tokens down as a program would spell them, with one blank
between neighbours, and reads that text again. The sign in front of a label or
of a register comes back with it, and a number is written in decimal whichever
base it had. The letters are capitals already, so that reading in capitals
changes nothing.

A blank ends every token: it is neither a letter nor a digit. So each token is
read back as it was written, and stands behind those in front of it and their
blanks.
-/

import ByteStack.Proofs.Source.Relayout

namespace ByteStack

variable {letters behind : List Char} {token : Token} {tokens : List Token} {position : Nat}

/-! ### Texts of tokens -/

/-- The tokens as a program would spell them, with one blank between neighbours. -/
def respelt (tokens : List Token) : String :=
  " ".intercalate (tokens.map Token.text)

/-- The tokens where they stand with one blank between neighbours, the first at the position. -/
def standing (position : Nat) : List Token → List Token
  | [] => []
  | token :: rest =>
    { token with position } :: standing (position + token.text.length + 1) rest

/-- A token stands behind the texts of all tokens in front of it, and a blank behind each. -/
theorem position_standing (tokens : List Token) (position place : Nat)
    (found : (standing position tokens)[place]? = some token) :
    token.position =
      position + ((tokens.take place).map fun token => token.text.length + 1).sum := by
  induction tokens generalizing position place with
  | nil => exact nomatch found
  | cons first rest inductionHypothesis =>
    cases place with
    | zero =>
      obtain rfl := Option.some.inj found
      rfl
    | succ place =>
      rw [inductionHypothesis _ place found, List.take_succ_cons, List.map_cons, List.sum_cons,
        Nat.add_assoc, Nat.add_assoc, Nat.add_assoc]

/-! ### Tokens in front of a blank -/

theorem toUpper_of_isDigit {character : Char} (digit : character.isDigit) :
    character.toUpper = character := by
  have bound : character.val ≤ '9'.val := of_decide_eq_true (Bool.and_eq_true_iff.mp digit).2
  exact toUpper_of_lt (UInt32.lt_of_le_of_lt bound (by decide))

/-- The characters of a token in capitals are themselves. -/
theorem Segment.map_toUpper {found : TokenKind × List Char}
    (segment : Segment letters behind (some found)) : letters.map Char.toUpper = letters := by
  have run {test : Char → Bool} {letters : List Char} (longest : LongestRun test letters behind)
      (kept : ∀ {character : Char}, test character → character.toUpper = character) :
      letters.map Char.toUpper = letters :=
    (List.map_congr_left fun character member => kept (longest.each character member)).trans
      (List.map_id' letters)
  cases segment with
  | mnemonic longest => exact run longest toUpper_of_isUpper
  | label longest => exact congrArg ('#' :: ·) (run longest toUpper_of_isUpper)
  | register isDigit alone => exact congrArg (['&', ·]) (toUpper_of_isDigit isDigit)
  | decimal longest small => exact run longest toUpper_of_isDigit
  | hex longest small => exact congrArg ('$' :: ·) (run longest toUpper_of_isDigit)

/-- The text of a token is a segment with just this token in front of a blank, and at the end. -/
theorem Token.WellSpelt.segment (spelt : token.WellSpelt)
    (blank : ∀ next ∈ behind.head?, isLayout next) :
    Segment token.text.toList behind (some (token.kind, token.literal.toList)) := by
  obtain ⟨kind, literal, position⟩ := token
  have ends : ∀ next ∈ behind.head?, ¬next.isUpper ∧ ¬next.isDigit :=
    fun next member => not_isUpper_of_isLayout (blank next member)
  cases kind with
  | mnemonic => exact .mnemonic ⟨spelt.1, spelt.2, fun next member => (ends next member).1⟩
  | label =>
    rw [Token.text, String.toList_append]
    exact .label ⟨spelt.1, spelt.2, fun next member => (ends next member).1⟩
  | register =>
    obtain ⟨digit, isDigit, rfl⟩ := spelt
    rw [Token.text, String.toList_append, show "&".toList = ['&'] from rfl, String.toList_ofList]
    exact .register isDigit ends
  | number =>
    obtain ⟨value, small, rfl⟩ := spelt
    have digits : (Text.natural value).toList = Nat.toDigits 10 value := String.toList_ofList
    have same : Text.valueOf 10 (Nat.toDigits 10 value) = value := Nat.ofDigitChars_ten_toDigits
    have longest : LongestRun Char.isDigit (Nat.toDigits 10 value) behind :=
      ⟨Nat.toDigits_ne_nil,
        fun _ member => Nat.isDigit_of_mem_toDigits (by decide) (by decide) member,
        fun next member => (ends next member).2⟩
    have segment := Segment.decimal longest (same.symm ▸ small)
    rw [same] at segment
    rw [Token.text, digits]
    exact segment

/-! ### Reading the text of tokens -/

/-- The text of the first token stands in front, and the other texts behind a blank. -/
theorem toList_respelt_cons (token : Token) (tokens : List Token) :
    (respelt (token :: tokens)).toList = token.text.toList ++
      if tokens = [] then [] else ' ' :: (respelt tokens).toList := by
  simp only [respelt, String.toList_intercalate]
  cases tokens with
  | nil => simp
  | cons next rest =>
    rw [if_neg (List.cons_ne_nil _ _), List.map_cons, List.map_cons, List.map_cons, List.map_cons,
      List.intercalate_cons_cons, List.append_assoc]
    rfl

theorem outcome_respelt (spelt : ∀ token ∈ tokens, token.WellSpelt) (position : Nat) :
    (Reading.ofText position ((respelt tokens).toList.map Char.toUpper)).outcome =
      .ok (standing position tokens) := by
  induction tokens generalizing position with
  | nil => exact Reading.outcome_nil position
  | cons token rest inductionHypothesis =>
    have first : ∀ {behind : List Char}, (∀ next ∈ behind.head?, isLayout next) →
        Segment token.text.toList behind (some (token.kind, token.literal.toList)) :=
      (spelt token List.mem_cons_self).segment
    have later :=
      inductionHypothesis fun token member => spelt token (List.mem_cons_of_mem _ member)
    have final := @first [] fun _ none => nomatch none
    rw [toList_respelt_cons, List.map_append, final.map_toUpper]
    by_cases last : rest = []
    · subst last
      rw [if_pos rfl, List.map_nil, Reading.outcome_token final, Reading.outcome_nil,
        String.ofList_toList]
      rfl
    · rw [if_neg last, List.map_cons]
      have blank : ∀ next ∈ (' '.toUpper :: (respelt rest).toList.map Char.toUpper).head?,
          isLayout next := by
        intro next member
        obtain rfl := Option.some.inj member
        decide
      rw [Reading.outcome_token (first blank), Reading.outcome_blank (by decide), later,
        String.ofList_toList, String.length_toList]
      rfl

/-- Tokens as the lexer makes them are read back from the text that spells them, and stand behind
each other with one blank between neighbours. -/
theorem tokensOf_respelt (spelt : ∀ token ∈ tokens, token.WellSpelt) :
    tokensOf (respelt tokens) = .ok (standing 0 tokens) :=
  outcome_respelt spelt 0

end ByteStack
