/-
This file reads texts once more, one character at a time. A scanner stands at a
position and moves on by single characters. It remembers where the word began
that it is reading, and counts lines. When it has passed a word it looks back and
cuts the word out of the text, and this has no result when the piece does not lie
inside the text. A word that takes no characters has no result either, since the
scanner would read it for ever.

The lexer takes whole words and cuts nothing. The two agree: a scanner always has
a result, and finds what a lexer finds that stands at the same position. Where its
last word began and how many lines it has counted makes no difference.
-/

import ByteStack.Proofs.Source.Segmentation

namespace ByteStack

/-! ### One character at a time -/

/-- A scanner of a text, which is given apart from it. -/
structure Scanner where
  /-- Where the word begins that is being read. -/
  start : Nat
  position : Nat
  /-- How many lines have been begun. -/
  line : Nat

/-- What a scanner finds at a position. -/
inductive Word where
  | layout
  | token (token : Token)
  | fault (error : LexicalError)
deriving DecidableEq

namespace Scanner

variable (text : List Char)

def current? (scanner : Scanner) : Option Char :=
  text[scanner.position]?

def isAt (test : Char → Bool) (scanner : Scanner) : Bool :=
  (scanner.current? text).any test

def advance (scanner : Scanner) : Scanner where
  start := scanner.start
  position := scanner.position + 1
  line := if scanner.current? text = some '\n' then scanner.line + 1 else scanner.line

theorem lt_length_of_isAt {text : List Char} {test : Char → Bool} {scanner : Scanner}
    (found : scanner.isAt text test = true) : scanner.position < text.length := by
  refine Nat.lt_of_not_le fun past => ?_
  rw [isAt, current?, List.getElem?_eq_none past] at found
  exact Bool.noConfusion found

def advanceWhile (test : Char → Bool) (scanner : Scanner) : Scanner :=
  if _found : scanner.isAt text test = true then advanceWhile test (scanner.advance text)
  else scanner
termination_by text.length - scanner.position
decreasing_by
  have := lt_length_of_isAt _found
  simp only [advance]
  omega

/-- Moves on behind the next line feed. At the end of the text it moves on, too, and then stops. -/
def passLine (scanner : Scanner) : Scanner :=
  if _found : scanner.isAt text (· ≠ '\n') = true then passLine (scanner.advance text)
  else scanner.advance text
termination_by text.length - scanner.position
decreasing_by
  have := lt_length_of_isAt _found
  simp only [advance]
  omega

/-- The characters from a position up to that of the scanner. -/
def slice? (first : Nat) (scanner : Scanner) : Option (List Char) :=
  if first ≤ scanner.position ∧ scanner.position ≤ text.length then
    some ((text.drop first).take (scanner.position - first))
  else none

/-! ### Words -/

def token (kind : TokenKind) (literal : List Char) (scanner : Scanner) : Word × Scanner :=
  (.token ⟨kind, String.ofList literal, scanner.start⟩, scanner)

def fault (fault : LexicalFault) (scanner : Scanner) : Word × Scanner :=
  (.fault ⟨fault, scanner.start⟩, scanner)

def mnemonic? (scanner : Scanner) : Option (Word × Scanner) := do
  let behind := scanner.advanceWhile text Char.isUpper
  let letters ← behind.slice? text behind.start
  some (behind.token .mnemonic letters)

def label? (scanner : Scanner) : Option (Word × Scanner) :=
  let sign := scanner.advance text
  if sign.isAt text Char.isUpper then do
    let behind := sign.advanceWhile text Char.isUpper
    let letters ← behind.slice? text (behind.start + 1)
    some (behind.token .label letters)
  else some (sign.fault .invalidLabel)

def register (scanner : Scanner) : Word × Scanner :=
  let sign := scanner.advance text
  match sign.current? text with
  | none => sign.fault .invalidRegister
  | some digit =>
    if digit.isDigit then
      let behind := sign.advance text
      if behind.isAt text fun next => next.isUpper || next.isDigit then
        behind.fault .invalidRegister
      else behind.token .register [digit]
    else sign.fault .invalidRegister

def number (base : Nat) (digits : List Char) (scanner : Scanner) : Word × Scanner :=
  let value := Text.valueUpTo largestNumber base digits
  if value ≤ largestNumber then scanner.token .number (Nat.toDigits 10 value)
  else scanner.fault (.invalidNumber (String.ofList digits))

def decimal? (scanner : Scanner) : Option (Word × Scanner) := do
  let behind := scanner.advanceWhile text Char.isDigit
  let digits ← behind.slice? text behind.start
  some (behind.number 10 digits)

def hexNumber? (scanner : Scanner) : Option (Word × Scanner) :=
  let sign := scanner.advance text
  if sign.isAt text Char.isDigit then do
    let behind := sign.advanceWhile text Char.isDigit
    let digits ← behind.slice? text (behind.start + 1)
    some (behind.number 16 digits)
  else some (sign.fault .invalidHex)

/-- The word that begins with this character, at which the scanner stands. -/
def word? (first : Char) (scanner : Scanner) : Option (Word × Scanner) :=
  if isLayout first then some (.layout, scanner.advanceWhile text isLayout)
  else if first = ';' then some (.layout, scanner.passLine text)
  else if first.isUpper then scanner.mnemonic? text
  else if first = '#' then scanner.label? text
  else if first = '&' then some (scanner.register text)
  else if first.isDigit then scanner.decimal? text
  else if first = '$' then scanner.hexNumber? text
  else some (scanner.fault (.unexpectedCharacter first))

/-- Reads words to the end of the text or to the first fault. -/
def tokenize? (scanner : Scanner) : Option (Except LexicalError (List Token) × Scanner) :=
  match _found : scanner.current? text with
  | none => some (.ok [], scanner)
  | some first =>
    match word? text first { scanner with start := scanner.position } with
    | none => none
    | some (.fault error, next) => some (.error error, next)
    | some (.layout, next) =>
      if _moves : scanner.position < next.position then tokenize? next else none
    | some (.token token, next) =>
      if _moves : scanner.position < next.position then
        (tokenize? next).map fun (outcome, last) => (outcome.map (token :: ·), last)
      else none
termination_by text.length - scanner.position
decreasing_by
  all_goals
    have := (List.getElem?_eq_some_iff.mp _found).1
    omega

/-! ### What a scanner passes -/

variable {text : List Char} {test : Char → Bool} {scanner : Scanner} {first : Char}
  {letters rest : List Char}

theorem drop_of_drop {position : Nat} (here : text.drop position = letters ++ rest) :
    text.drop (position + letters.length) = rest := by
  rw [← List.drop_drop, here, List.drop_left]

theorem current?_of_drop (here : text.drop scanner.position = first :: rest) :
    scanner.current? text = some first := by
  rw [current?, ← List.head?_drop, here, List.head?_cons]

theorem current?_of_drop_nil (here : text.drop scanner.position = []) :
    scanner.current? text = none := by
  rw [current?, ← List.head?_drop, here, List.head?_nil]

theorem isAt_of_drop (here : text.drop scanner.position = first :: rest) :
    scanner.isAt text test = test first := by
  rw [isAt, current?_of_drop here, Option.any_some]

theorem isAt_of_drop_nil (here : text.drop scanner.position = []) :
    scanner.isAt text test = false := by
  rw [isAt, current?_of_drop_nil here, Option.any_none]

theorem drop_advance (here : text.drop scanner.position = first :: rest) :
    text.drop (scanner.advance text).position = rest := by
  have led : text.drop scanner.position = [first] ++ rest := here
  exact drop_of_drop led

theorem start_advanceWhile (scanner : Scanner) :
    (scanner.advanceWhile text test).start = scanner.start := by
  fun_induction advanceWhile text test scanner with
  | case1 scanner found inductionHypothesis => exact inductionHypothesis
  | case2 => rfl

/-- A scanner passes what a lexer takes. -/
theorem position_advanceWhile (scanner : Scanner) :
    (scanner.advanceWhile text test).position =
      scanner.position + ((text.drop scanner.position).takeWhile test).length := by
  fun_induction advanceWhile text test scanner with
  | case1 scanner found inductionHypothesis =>
    cases here : text.drop scanner.position with
    | nil => exact Bool.noConfusion ((isAt_of_drop_nil here).symm.trans found)
    | cons first rest =>
      rw [isAt_of_drop here] at found
      rw [inductionHypothesis, drop_advance here, List.takeWhile_cons_of_pos found,
        List.length_cons, advance]
      dsimp only
      rw [Nat.add_assoc, Nat.add_comm 1]
  | case2 scanner stands =>
    cases here : text.drop scanner.position with
    | nil => rfl
    | cons first rest =>
      rw [isAt_of_drop here] at stands
      rw [List.takeWhile_cons_of_neg stands]
      rfl

/-- A comment takes its line feed, and counts one also at the end of the text. -/
theorem position_passLine (scanner : Scanner) :
    (scanner.passLine text).position =
      scanner.position + ((text.drop scanner.position).takeWhile (· ≠ '\n')).length + 1 := by
  fun_induction passLine text scanner with
  | case1 scanner found inductionHypothesis =>
    cases here : text.drop scanner.position with
    | nil => exact Bool.noConfusion ((isAt_of_drop_nil here).symm.trans found)
    | cons first rest =>
      rw [isAt_of_drop here] at found
      rw [inductionHypothesis, drop_advance here,
        List.takeWhile_cons_of_pos (p := (· ≠ '\n')) found, List.length_cons, advance]
      dsimp only
      rw [Nat.add_assoc _ 1, Nat.add_comm 1]
  | case2 scanner stands =>
    cases here : text.drop scanner.position with
    | nil => rfl
    | cons first rest =>
      rw [isAt_of_drop here] at stands
      rw [List.takeWhile_cons_of_neg (p := (· ≠ '\n')) stands]
      rfl

/-- Looking back over what has been passed stays inside the text. -/
theorem slice?_eq_some {start : Nat} (nonempty : letters ≠ [])
    (here : text.drop start = letters ++ rest)
    (passed : scanner.position = start + letters.length) :
    scanner.slice? text start = some letters := by
  have length := congrArg List.length here
  have positive := List.length_pos_iff.mpr nonempty
  rw [List.length_drop, List.length_append] at length
  rw [slice?, if_pos ⟨by omega, by omega⟩, here, passed, Nat.add_sub_cancel_left, List.take_left]

end Scanner

/-! ### Words are lexemes -/

namespace Lexeme

/-- The word that a lexeme is at a position. -/
def word (position : Nat) : Lexeme → Word
  | .layout _ => .layout
  | .token kind literal _ => .token ⟨kind, String.ofList literal, position⟩
  | .fault reason _ => .fault ⟨reason, position⟩

/-- How many characters are taken. -/
def taken : Lexeme → Nat
  | .layout more => more + 1
  | .token _ _ more => more + 1
  | .fault _ count => count

theorem register_of_not_isDigit {digit : Char} (wrong : digit.isDigit = false)
    (others : List Char) : register (digit :: others) = .fault .invalidRegister 1 := by
  cases others with
  | nil => exact if_neg (Bool.eq_false_iff.mp wrong)
  | cons next rest => rw [register, wrong, Bool.not_false, if_pos rfl]

/-- The character behind the digit of a register decides. -/
theorem register_of_isDigit {digit : Char} (isDigit : digit.isDigit = true)
    (others : List Char) :
    register (digit :: others) =
      if others.head?.any (fun next => next.isUpper || next.isDigit) then .fault .invalidRegister 2
      else .token .register [digit] 1 := by
  cases others with
  | nil => exact if_pos isDigit
  | cons next rest =>
    rw [register, isDigit, Bool.not_true, if_neg Bool.false_ne_true, List.head?_cons,
      Option.any_some]

end Lexeme

namespace Scanner

variable {text : List Char} {test : Char → Bool} {scanner : Scanner} {first : Char}
  {letters rest : List Char}

/-- Reading a word gives what the lexeme says, and the scanner stands behind it. -/
def Finds (lexeme : Lexeme) (scanner : Scanner) (found? : Option (Word × Scanner)) : Prop :=
  ∃ next, found? = some (lexeme.word scanner.position, next) ∧
    next.position = scanner.position + lexeme.taken

/-- The run that begins where the scanner stands is cut out whole. -/
theorem slice?_run (here : text.drop scanner.position = rest)
    (nonempty : rest.takeWhile test ≠ []) :
    (scanner.advanceWhile text test).slice? text scanner.position =
      some (rest.takeWhile test) := by
  refine slice?_eq_some nonempty (here.trans List.takeWhile_append_dropWhile.symm) ?_
  rw [position_advanceWhile, here]

theorem finds_mnemonic (begun : scanner.start = scanner.position)
    (here : text.drop scanner.position = first :: rest) (upper : first.isUpper) :
    Finds (.token .mnemonic (first :: rest.takeWhile Char.isUpper)
      (rest.takeWhile Char.isUpper).length) scanner (scanner.mnemonic? text) := by
  have run : (first :: rest).takeWhile Char.isUpper = first :: rest.takeWhile Char.isUpper :=
    List.takeWhile_cons_of_pos upper
  have cut := slice?_run here (run ▸ List.cons_ne_nil _ _)
  refine ⟨scanner.advanceWhile text Char.isUpper, ?_, ?_⟩
  · rw [mnemonic?, start_advanceWhile, begun, cut, run, Option.bind_eq_bind, Option.bind_some,
      token, start_advanceWhile, begun]
    rfl
  · rw [position_advanceWhile, here, run]
    rfl

theorem finds_number {base : Nat} {more : Nat} {behind : Scanner} (digits : List Char)
    (begun : behind.start = scanner.position)
    (passed : behind.position = scanner.position + (more + 1)) :
    Finds (Lexeme.number base digits more) scanner (some (behind.number base digits)) := by
  refine ⟨behind, ?_, ?_⟩
  · rw [number, Lexeme.number]
    split
    · rw [token, begun]
      rfl
    · rw [fault, begun]
      rfl
  · rw [passed, Lexeme.number]
    split <;> rfl

theorem finds_decimal (begun : scanner.start = scanner.position)
    (here : text.drop scanner.position = first :: rest) (digit : first.isDigit) :
    Finds (.number 10 (first :: rest.takeWhile Char.isDigit)
      (rest.takeWhile Char.isDigit).length) scanner (scanner.decimal? text) := by
  have run : (first :: rest).takeWhile Char.isDigit = first :: rest.takeWhile Char.isDigit :=
    List.takeWhile_cons_of_pos digit
  have cut := slice?_run here (run ▸ List.cons_ne_nil _ _)
  rw [decimal?, start_advanceWhile, begun, cut, run, Option.bind_eq_bind, Option.bind_some]
  refine finds_number _ ((start_advanceWhile scanner).trans begun) ?_
  rw [position_advanceWhile, here, run]
  rfl

theorem isAt_eq (here : text.drop scanner.position = rest) :
    scanner.isAt text test = !(rest.takeWhile test).isEmpty := by
  cases rest with
  | nil => exact isAt_of_drop_nil here
  | cons next others =>
    rw [isAt_of_drop here]
    cases passes : test next with
    | true => rw [List.takeWhile_cons_of_pos passes]; rfl
    | false => rw [List.takeWhile_cons_of_neg (Bool.eq_false_iff.mp passes)]; rfl

theorem finds_label (begun : scanner.start = scanner.position)
    (here : text.drop scanner.position = first :: rest) :
    Finds (.label rest) scanner (scanner.label? text) := by
  have behind := drop_advance here
  have sign : (scanner.advance text).start = scanner.position := begun
  rw [label?, Lexeme.label, isAt_eq behind]
  cases run : rest.takeWhile Char.isUpper with
  | nil =>
    refine ⟨scanner.advance text, ?_, rfl⟩
    rw [fault, sign]
    rfl
  | cons letter letters =>
    have cut := slice?_run behind (run ▸ List.cons_ne_nil _ _)
    refine ⟨(scanner.advance text).advanceWhile text Char.isUpper, ?_, ?_⟩
    · rw [List.isEmpty_cons, Bool.not_false, if_pos rfl]
      dsimp only
      rw [start_advanceWhile, sign,
        show scanner.position + 1 = (scanner.advance text).position from rfl, cut, run,
        Option.bind_eq_bind, Option.bind_some, token, start_advanceWhile, sign]
      rfl
    · rw [position_advanceWhile, behind, run, Lexeme.taken, advance]
      dsimp only
      omega

theorem finds_hexNumber (begun : scanner.start = scanner.position)
    (here : text.drop scanner.position = first :: rest) :
    Finds (.hexNumber rest) scanner (scanner.hexNumber? text) := by
  have behind := drop_advance here
  have sign : (scanner.advance text).start = scanner.position := begun
  rw [hexNumber?, Lexeme.hexNumber, isAt_eq behind]
  cases run : rest.takeWhile Char.isDigit with
  | nil =>
    refine ⟨scanner.advance text, ?_, rfl⟩
    rw [fault, sign]
    rfl
  | cons digit digits =>
    have cut := slice?_run behind (run ▸ List.cons_ne_nil _ _)
    rw [List.isEmpty_cons, Bool.not_false, if_pos rfl]
    dsimp only
    rw [start_advanceWhile, sign,
      show scanner.position + 1 = (scanner.advance text).position from rfl, cut, run,
      Option.bind_eq_bind, Option.bind_some]
    refine finds_number _ ((start_advanceWhile _).trans sign) ?_
    rw [position_advanceWhile, behind, run, advance]
    dsimp only
    omega

theorem finds_register (begun : scanner.start = scanner.position)
    (here : text.drop scanner.position = first :: rest) :
    Finds (.register rest) scanner (some (scanner.register text)) := by
  have behind := drop_advance here
  have sign : (scanner.advance text).start = scanner.position := begun
  rw [register]
  cases rest with
  | nil =>
    rw [current?_of_drop_nil behind]
    exact ⟨scanner.advance text, congrArg some (by rw [fault, sign]; rfl), rfl⟩
  | cons digit others =>
    have last := drop_advance behind
    rw [current?_of_drop behind]
    dsimp only
    cases isDigit : digit.isDigit with
    | false =>
      rw [Lexeme.register_of_not_isDigit isDigit]
      exact ⟨scanner.advance text, congrArg some (by rw [if_neg nofun, fault, sign]; rfl), rfl⟩
    | true =>
      have passed : ((scanner.advance text).advance text).start = scanner.position := begun
      rw [Lexeme.register_of_isDigit isDigit, if_pos rfl, isAt, current?, ← List.head?_drop, last]
      cases others.head?.any fun next => next.isUpper || next.isDigit with
      | true => exact ⟨_, congrArg some (by rw [if_pos rfl, if_pos rfl, fault, passed]; rfl), rfl⟩
      | false =>
        exact ⟨_, congrArg some (by rw [if_neg nofun, if_neg nofun, token, passed]; rfl), rfl⟩

/-- A scanner finds the lexeme at which it stands. -/
theorem finds_word (begun : scanner.start = scanner.position)
    (here : text.drop scanner.position = first :: rest) :
    Finds (.scan first rest) scanner (scanner.word? text first) := by
  rw [word?, Lexeme.scan]
  by_cases blank : isLayout first
  · rw [if_pos blank, if_pos blank]
    refine ⟨_, rfl, ?_⟩
    rw [position_advanceWhile, here, List.takeWhile_cons_of_pos blank]
    rfl
  rw [if_neg blank, if_neg blank]
  by_cases semicolon : first = ';'
  · rw [if_pos semicolon, if_pos semicolon]
    refine ⟨_, rfl, ?_⟩
    rw [position_passLine, here, semicolon]
    rfl
  rw [if_neg semicolon, if_neg semicolon]
  by_cases upper : first.isUpper
  · rw [if_pos upper, if_pos upper]
    exact finds_mnemonic begun here upper
  rw [if_neg upper, if_neg upper]
  by_cases hash : first = '#'
  · rw [if_pos hash, if_pos hash]
    exact finds_label begun here
  rw [if_neg hash, if_neg hash]
  by_cases ampersand : first = '&'
  · rw [if_pos ampersand, if_pos ampersand]
    exact finds_register begun here
  rw [if_neg ampersand, if_neg ampersand]
  by_cases digit : first.isDigit
  · rw [if_pos digit, if_pos digit]
    exact finds_decimal begun here digit
  rw [if_neg digit, if_neg digit]
  by_cases dollar : first = '$'
  · rw [if_pos dollar, if_pos dollar]
    exact finds_hexNumber begun here
  rw [if_neg dollar, if_neg dollar]
  exact ⟨scanner, by rw [fault, begun]; rfl, rfl⟩

/-! ### Whole texts -/

/-- A scanner reads what a lexer reads that stands at the same position, and stops where it stops.
Nothing else about it matters, and it never looks outside the text. -/
theorem tokenize?_eq (scanner : Scanner) :
    ∃ last, scanner.tokenize? text =
        some ((Reading.ofText scanner.position (text.drop scanner.position)).outcome, last) ∧
      last.position = (Reading.ofText scanner.position (text.drop scanner.position)).stop := by
  induction size : text.length - scanner.position using Nat.strong_induction_on generalizing scanner
    with
  | _ left inductionHypothesis =>
    cases here : text.drop scanner.position with
    | nil =>
      rw [Reading.ofText_nil]
      refine ⟨scanner, ?_, rfl⟩
      rw [tokenize?]
      split
      · rfl
      · next first found => exact nomatch (current?_of_drop_nil here).symm.trans found
    | cons first rest =>
      have found := current?_of_drop here
      have inside := (List.getElem?_eq_some_iff.mp found).1
      let begun : Scanner := { scanner with start := scanner.position }
      have starts : begun.start = begun.position := rfl
      obtain ⟨next, word, moved⟩ := finds_word starts here
      simp only [begun] at word moved
      -- What follows a word that takes characters is read by a scanner with less in front of it.
      have goesOn (more : Nat) (taken : (Lexeme.scan first rest).taken = more + 1) :
          scanner.position < next.position ∧
            ∃ last, next.tokenize? text =
                some ((Reading.ofText (scanner.position + (more + 1)) (rest.drop more)).outcome,
                  last) ∧
              last.position =
                (Reading.ofText (scanner.position + (more + 1)) (rest.drop more)).stop := by
        have stands : next.position = scanner.position + (more + 1) := by omega
        have behind : text.drop next.position = rest.drop more := by
          rw [stands, Nat.add_comm more, ← List.drop_drop, here, ← List.drop_drop, List.drop_one,
            List.tail_cons]
        have reads := inductionHypothesis (text.length - next.position) (by omega) next rfl
        rw [behind, stands] at reads
        exact ⟨by omega, reads⟩
      rw [tokenize?]
      split
      · next none => exact nomatch found.symm.trans none
      · next other same =>
        obtain rfl := Option.some.inj (found.symm.trans same)
        rw [word]
        cases scanned : Lexeme.scan first rest with
        | layout more =>
          obtain ⟨moves, last, read, stop⟩ := goesOn more (scanned ▸ rfl)
          rw [Reading.ofText_layout scanned]
          refine ⟨last, ?_, stop⟩
          dsimp only [Lexeme.word]
          rw [dif_pos moves, read]
        | token kind literal more =>
          obtain ⟨moves, last, read, stop⟩ := goesOn more (scanned ▸ rfl)
          rw [Reading.ofText_token scanned, Reading.outcome_cons, Reading.stop_cons]
          refine ⟨last, ?_, stop⟩
          dsimp only [Lexeme.word]
          rw [dif_pos moves, read]
          rfl
        | fault reason count =>
          rw [Reading.ofText_fault scanned]
          rw [scanned] at moved
          exact ⟨next, rfl, moved⟩

end Scanner

end ByteStack
