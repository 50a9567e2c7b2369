/-
This file is about a lexer that is asked again and again. It keeps nothing but its
position. Each time it reads what a fresh lexer would read in the rest of the
text, and only the positions are shifted.

A success leaves nothing to read, so every later call succeeds with no tokens.
After a fault the lexer goes on behind the characters that the faulty word had
already taken, which the fault and the text there decide. An unexpected character
is not taken and so is met for ever.

The position never lies further than one character behind the text, and it lies
there only after a comment that no line feed ends. The scanner, which cuts its
words out of the text, has a result all the same: no piece that it cuts out lies
outside the text.
-/

import ByteStack.Proofs.Source.Scanner

namespace ByteStack

variable {text letters behind rest words : List Char} {position distance : Nat}
  {tokens : List Token} {fault : LexicalFault}

/-! ### Shifted positions -/

def Token.shift (distance : Nat) (token : Token) : Token :=
  { token with position := distance + token.position }

def LexicalError.shift (distance : Nat) (error : LexicalError) : LexicalError :=
  { error with position := distance + error.position }

/-- What was read, when `distance` other characters stand in front of the text. -/
def shiftOutcome (distance : Nat) :
    Except LexicalError (List Token) → Except LexicalError (List Token)
  | .ok tokens => .ok (tokens.map (Token.shift distance))
  | .error error => .error (error.shift distance)

def Reading.shift (distance : Nat) (reading : Reading) : Reading :=
  ⟨shiftOutcome distance reading.outcome, distance + reading.stop⟩

namespace Reading

theorem shift_cons (distance : Nat) (token : Token) (reading : Reading) :
    (reading.cons token).shift distance = (reading.shift distance).cons (token.shift distance) := by
  unfold cons shift
  cases reading.outcome <;> rfl

/-- Reading depends on the position of the text only in the positions that it gives. -/
theorem ofText_add (distance position : Nat) (text : List Char) :
    ofText (distance + position) text = (ofText position text).shift distance := by
  fun_induction ofText position text with
  | case1 position => rw [ofText_nil]; rfl
  | case2 position first rest more scanned inductionHypothesis =>
    rw [ofText_layout scanned, Nat.add_assoc distance]
    exact inductionHypothesis
  | case3 position first rest kind literal more scanned inductionHypothesis =>
    rw [ofText_token scanned, shift_cons, ← inductionHypothesis, Nat.add_assoc distance]
    rfl
  | case4 position first rest fault taken scanned =>
    rw [ofText_fault scanned, shift, shiftOutcome, LexicalError.shift, Nat.add_assoc]

end Reading

/-! ### Behind a fault -/

/-- How many characters of the text count as read when the fault is met at its front. -/
inductive LexicalFault.Takes : LexicalFault → List Char → Nat → Prop where
  | unexpectedCharacter {character : Char} {rest : List Char} :
      Takes (.unexpectedCharacter character) (character :: rest) 0
  | invalidLabel {rest : List Char} : Takes .invalidLabel ('#' :: rest) 1
  | invalidHex {rest : List Char} : Takes .invalidHex ('$' :: rest) 1
  | noDigit {rest : List Char} (other : ∀ next ∈ rest.head?, ¬next.isDigit) :
      Takes .invalidRegister ('&' :: rest) 1
  | digit {digit : Char} {rest : List Char} (isDigit : digit.isDigit) :
      Takes .invalidRegister ('&' :: digit :: rest) 2
  | decimal {digits behind : List Char} (longest : LongestRun Char.isDigit digits behind) :
      Takes (.invalidNumber (String.ofList digits)) (digits ++ behind) digits.length
  | hex {digits behind : List Char} (longest : LongestRun Char.isDigit digits behind) :
      Takes (.invalidNumber (String.ofList digits)) ('$' :: (digits ++ behind))
        (digits.length + 1)

theorem Lexeme.eq_of_number {base more taken : Nat} {digits : List Char}
    (met : number base digits more = .fault fault taken) :
    fault = .invalidNumber (String.ofList digits) ∧ taken = more + 1 := by
  rw [number] at met
  split at met
  · cases met
  · obtain ⟨rfl, rfl⟩ := Lexeme.fault.inj met
    exact ⟨rfl, rfl⟩

theorem takes_of_register {taken : Nat} (met : Lexeme.register rest = .fault fault taken) :
    fault.Takes ('&' :: rest) taken := by
  cases rest with
  | nil =>
    obtain ⟨rfl, rfl⟩ := Lexeme.fault.inj met
    refine .noDigit fun next member => ?_
    cases member
  | cons digit others =>
    cases isDigit : digit.isDigit with
    | false =>
      rw [Lexeme.register_of_not_isDigit isDigit] at met
      obtain ⟨rfl, rfl⟩ := Lexeme.fault.inj met
      refine .noDigit fun next member => ?_
      obtain rfl := Option.some.inj member
      exact Bool.eq_false_iff.mp isDigit
    | true =>
      rw [Lexeme.register_of_isDigit isDigit] at met
      split at met
      · obtain ⟨rfl, rfl⟩ := Lexeme.fault.inj met
        exact .digit isDigit
      · cases met

/-- A fault takes what its word had taken. -/
theorem takes_of_scan {first : Char} {taken : Nat}
    (met : Lexeme.scan first rest = .fault fault taken) : fault.Takes (first :: rest) taken := by
  by_cases blank : isLayout first
  · cases (Lexeme.scan_layout blank rest).symm.trans met
  by_cases semicolon : first = ';'
  · subst semicolon
    cases (Lexeme.scan_comment rest).symm.trans met
  by_cases upper : first.isUpper
  · cases (Lexeme.scan_upper upper rest).symm.trans met
  by_cases hash : first = '#'
  · subst hash
    rw [Lexeme.scan_label, Lexeme.label] at met
    split at met
    · obtain ⟨rfl, rfl⟩ := Lexeme.fault.inj met
      exact .invalidLabel
    · cases met
  by_cases ampersand : first = '&'
  · subst ampersand
    rw [Lexeme.scan_register] at met
    exact takes_of_register met
  by_cases digit : first.isDigit
  · rw [Lexeme.scan_digit digit] at met
    obtain ⟨rfl, rfl⟩ := Lexeme.eq_of_number met
    have longest := LongestRun.of_cons digit rest
    have takes := LexicalFault.Takes.decimal longest
    rw [List.cons_append, List.takeWhile_append_dropWhile] at takes
    exact takes
  by_cases dollar : first = '$'
  · subst dollar
    rw [Lexeme.scan_hex, Lexeme.hexNumber] at met
    split at met
    · obtain ⟨rfl, rfl⟩ := Lexeme.fault.inj met
      exact .invalidHex
    · next some =>
      obtain ⟨rfl, rfl⟩ := Lexeme.eq_of_number met
      have takes := LexicalFault.Takes.hex (LongestRun.exists_split some)
      rw [List.takeWhile_append_dropWhile] at takes
      exact takes
  rw [Lexeme.scan, if_neg blank, if_neg semicolon, if_neg upper, if_neg hash, if_neg ampersand,
    if_neg digit, if_neg dollar] at met
  obtain ⟨rfl, rfl⟩ := Lexeme.fault.inj met
  exact .unexpectedCharacter

theorem LexicalFault.Takes.le_length {taken : Nat} (takes : fault.Takes text taken) :
    taken ≤ text.length := by
  cases takes with
  | unexpectedCharacter => exact Nat.zero_le _
  | digit isDigit => exact Nat.le_add_left 2 _
  | decimal longest => exact List.length_append ▸ Nat.le_add_right _ _
  | hex longest => exact Nat.succ_le_succ (List.length_append ▸ Nat.le_add_right _ _)
  | _ => exact Nat.le_add_left 1 _

namespace Reading

/-- A fault is met inside the text, and reading stops behind what was taken there. -/
theorem stop_of_error {error : LexicalError}
    (failed : (ofText position text).outcome = .error error) :
    ∃ passed first rest taken, error.position = position + passed ∧
      text.drop passed = first :: rest ∧ Lexeme.scan first rest = .fault error.fault taken ∧
      (ofText position text).stop = error.position + taken := by
  have behind (first : Char) (rest : List Char) (more passed : Nat) :
      (first :: rest).drop (more + 1 + passed) = (rest.drop more).drop passed := by
    rw [← List.drop_drop, List.drop_succ_cons]
  fun_induction ofText position text with
  | case1 position => exact nomatch failed
  | case2 position first rest more scanned inductionHypothesis =>
    obtain ⟨passed, next, others, taken, place, there, met, stop⟩ := inductionHypothesis failed
    exact ⟨more + 1 + passed, next, others, taken, by omega, (behind ..).trans there, met, stop⟩
  | case3 position first rest kind literal more scanned inductionHypothesis =>
    have earlier : (ofText (position + more + 1) (rest.drop more)).outcome = .error error := by
      rw [outcome_cons] at failed
      cases outcome : (ofText (position + more + 1) (rest.drop more)).outcome with
      | ok tokens => exact nomatch outcome ▸ failed
      | error other => rw [outcome] at failed; exact failed
    obtain ⟨passed, next, others, taken, place, there, met, stop⟩ := inductionHypothesis earlier
    exact ⟨more + 1 + passed, next, others, taken, by omega, (behind ..).trans there, met,
      (stop_cons _ _).trans stop⟩
  | case4 position first rest fault taken scanned =>
    obtain rfl := Except.error.inj failed
    exact ⟨0, first, rest, taken, rfl, rfl, scanned, rfl⟩

end Reading

/-! ### At the end of the text -/

/-- The text ends in a comment that no line feed ends. -/
def EndsInComment (text : List Char) : Prop :=
  ∃ tokens words, Segmented 0 text tokens (';' :: words) ∧ '\n' ∉ words

namespace Reading

/-- Reading goes on behind the segments at the front, and stops where that stops. -/
theorem stop_segmented (segmented : Segmented position text tokens rest) (left : rest ≠ []) :
    (ofText position text).stop =
      (ofText (position + (text.length - rest.length)) rest).stop := by
  have whole {letters behind rest : List Char} (split : ∃ before, behind = before ++ rest)
      (place : Nat) : place + letters.length + (behind.length - rest.length) =
        place + ((letters ++ behind).length - rest.length) := by
    obtain ⟨before, rfl⟩ := split
    simp only [List.length_append]
    omega
  induction segmented with
  | @stop position rest =>
    rw [Nat.sub_self]
    rfl
  | @layout position letters behind rest tokens segment more inductionHypothesis =>
    obtain ⟨before, split, _⟩ := more.front
    rcases ofText_layoutSegment segment position with passed | ⟨rfl, _⟩
    · rw [passed, inductionHypothesis left, whole ⟨before, split⟩]
    · exact absurd (List.append_eq_nil_iff.mp split.symm).2 left
  | @token position letters behind rest tokens kind literal segment more inductionHypothesis =>
    obtain ⟨before, split, _⟩ := more.front
    rw [ofText_tokenSegment segment, stop_cons, inductionHypothesis left, whole ⟨before, split⟩]

/-- Reading to the end stops there, or one character behind it when the text ends in a comment. -/
theorem stop_whole (segmented : Segmented position text tokens []) :
    (ofText position text).stop = position + text.length ∨
      (ofText position text).stop = position + text.length + 1 ∧
        ∃ tokens words, Segmented position text tokens (';' :: words) ∧ '\n' ∉ words := by
  generalize last : ([] : List Char) = rest at segmented
  induction segmented with
  | @stop position rest => exact Or.inl (by rw [← last, ofText_nil]; rfl)
  | @layout position letters behind rest tokens segment more inductionHypothesis =>
    rcases ofText_layoutSegment segment position with passed | ⟨rfl, ⟨words, rfl, clear⟩, passed⟩
    · rw [passed, List.length_append, ← Nat.add_assoc]
      refine (inductionHypothesis last).imp_right ?_
      rintro ⟨stop, tokens, words, split, clear⟩
      exact ⟨stop, tokens, words, .layout segment split, clear⟩
    · rw [passed, List.append_nil]
      exact Or.inr ⟨rfl, [], words, .stop, clear⟩
  | @token position letters behind rest tokens kind literal segment more inductionHypothesis =>
    rw [ofText_tokenSegment segment, stop_cons, List.length_append, ← Nat.add_assoc]
    refine (inductionHypothesis last).imp_right ?_
    rintro ⟨stop, tokens, words, split, clear⟩
    exact ⟨stop, _, words, .token segment split, clear⟩

/-- Reading stops behind the end of a text that ends in a comment, and only then. -/
theorem stop_eq_iff (read : (ofText 0 text).outcome = .ok tokens) :
    text.length ≤ (ofText 0 text).stop ∧ (ofText 0 text).stop ≤ text.length + 1 ∧
      ((ofText 0 text).stop = text.length + 1 ↔ EndsInComment text) := by
  have stops := stop_whole (segmented_of_outcome read)
  simp only [Nat.zero_add] at stops
  refine ⟨by omega, by omega, ⟨fun past => ?_, ?_⟩⟩
  · exact (stops.resolve_left (by omega)).2
  · rintro ⟨found, words, split, clear⟩
    obtain ⟨before, whole, _⟩ := split.front
    have longest : words.takeWhile (· ≠ '\n') = words :=
      List.takeWhile_eq_self_iff.mpr fun character member =>
        decide_eq_true fun same => clear (same ▸ member)
    have length := congrArg List.length whole
    rw [List.length_append, List.length_cons] at length
    rw [stop_segmented split (List.cons_ne_nil _ _), ofText_layout (Lexeme.scan_comment words),
      longest, List.drop_of_length_le (Nat.le_succ _), ofText_nil, List.length_cons]
    dsimp only
    omega

end Reading

/-! ### Calls -/

namespace Lexer

variable {source : String} {lexer : Lexer}

/-- The lexer after so many calls. -/
def again (lexer : Lexer) : Nat → Lexer
  | 0 => lexer
  | calls + 1 => lexer.tokenize.2.again calls

theorem tokenize_eq (lexer : Lexer) :
    lexer.tokenize =
      ((Reading.ofText lexer.position (lexer.characters.drop lexer.position)).outcome,
        ⟨lexer.characters,
          (Reading.ofText lexer.position (lexer.characters.drop lexer.position)).stop⟩) := rfl

/-- A lexer at the end of its text, or behind it, finds nothing and stays there. -/
theorem tokenize_of_le (past : lexer.characters.length ≤ lexer.position) :
    lexer.tokenize = (.ok [], lexer) := by
  rw [tokenize_eq, List.drop_of_length_le past, Reading.ofText_nil]

/-- A call that leaves the lexer where it is gives the same ever after. -/
theorem tokenize_again {outcome : Except LexicalError (List Token)}
    (stays : lexer.tokenize = (outcome, lexer)) (calls : Nat) :
    (lexer.again calls).tokenize = (outcome, lexer) := by
  have same : lexer.again calls = lexer := by
    induction calls with
    | zero => rfl
    | succ calls inductionHypothesis => rw [again, stays, inductionHypothesis]
  rw [same, stays]

/-- How a lexer of this source goes on, whatever was read before. -/
structure Resumes (source : String) (lexer : Lexer) : Prop where
  characters : lexer.characters = source.toList.map Char.toUpper
  position_le : lexer.position ≤ source.length + 1
  /-- It reads what a fresh lexer reads in the rest of the source. -/
  fresh : ∃ rest, rest = Lexer.ofSource (String.ofList (source.toList.drop lexer.position)) ∧
    lexer.tokenize.1 = shiftOutcome lexer.position rest.tokenize.1 ∧
    lexer.tokenize.2 = ⟨lexer.characters, lexer.position + rest.tokenize.2.position⟩
  /-- A success leaves nothing to read. -/
  finished : ∀ tokens, lexer.tokenize.1 = .ok tokens →
    source.length ≤ lexer.tokenize.2.position ∧
    (lexer.position ≤ source.length → (lexer.tokenize.2.position = source.length + 1 ↔
      EndsInComment (lexer.characters.drop lexer.position))) ∧
    ∀ calls, (lexer.tokenize.2.again calls).tokenize = (.ok [], lexer.tokenize.2)
  /-- A fault is met inside the text, and the next call begins behind what it takes. -/
  failed : ∀ fault position, lexer.tokenize.1 = .error ⟨fault, position⟩ →
    position < source.length ∧ ∃ taken, fault.Takes (lexer.characters.drop position) taken ∧
      lexer.tokenize.2.position = position + taken
  /-- An unexpected character is met again by every later call. -/
  stuck : ∀ character position,
    lexer.tokenize.1 = .error ⟨.unexpectedCharacter character, position⟩ →
    ∀ calls, (lexer.tokenize.2.again calls).tokenize =
      (.error ⟨.unexpectedCharacter character, position⟩, lexer.tokenize.2)
  /-- The scanner that cuts its words out of the text does the same, and always has a result. -/
  inside : ∀ start line, ∃ last,
    Scanner.tokenize? lexer.characters ⟨start, lexer.position, line⟩ =
      some (lexer.tokenize.1, last) ∧
    last.position = lexer.tokenize.2.position

/-- The lexer belongs to the source and stands in it, or at most one character behind it. -/
def Placed (source : String) (lexer : Lexer) : Prop :=
  lexer.characters = source.toList.map Char.toUpper ∧ lexer.position ≤ source.length + 1

namespace Placed

theorem length (placed : Placed source lexer) : lexer.characters.length = source.length := by
  rw [placed.1, List.length_map, String.length_toList]

theorem ofSource_rest (placed : Placed source lexer) :
    ofSource (String.ofList (source.toList.drop lexer.position)) =
      ⟨lexer.characters.drop lexer.position, 0⟩ := by
  rw [ofSource, String.toList_ofList, placed.1, List.map_drop]

/-- A success stops at the end of the text, or behind it after a comment that nothing ends. -/
theorem finished (placed : Placed source lexer) {tokens : List Token}
    (read : lexer.tokenize.1 = .ok tokens) :
    source.length ≤ lexer.tokenize.2.position ∧
      lexer.tokenize.2.position ≤ source.length + 1 ∧
      (lexer.position ≤ source.length → (lexer.tokenize.2.position = source.length + 1 ↔
        EndsInComment (lexer.characters.drop lexer.position))) := by
  have length := placed.length
  have bound := placed.2
  have left : (lexer.characters.drop lexer.position).length = source.length - lexer.position := by
    rw [List.length_drop, length]
  have shifted := Reading.ofText_add lexer.position 0 (lexer.characters.drop lexer.position)
  have stop : lexer.tokenize.2.position = lexer.position +
      (Reading.ofText 0 (lexer.characters.drop lexer.position)).stop :=
    congrArg Reading.stop shifted
  have outcome : lexer.tokenize.1 = shiftOutcome lexer.position
      (Reading.ofText 0 (lexer.characters.drop lexer.position)).outcome :=
    congrArg Reading.outcome shifted
  rw [outcome] at read
  cases fresh : (Reading.ofText 0 (lexer.characters.drop lexer.position)).outcome with
  | error error => exact nomatch fresh ▸ read
  | ok tokens =>
    obtain ⟨low, high, open_iff⟩ := Reading.stop_eq_iff fresh
    rw [left] at low high open_iff
    refine ⟨by omega, ?_, fun within => ?_⟩
    · by_cases past : source.length < lexer.position
      · have gone := List.drop_of_length_le (Nat.le_of_lt (length.symm ▸ past))
        rw [stop, gone, Reading.ofText_nil]
        exact bound
      · omega
    · rw [← open_iff, stop]
      omega

/-- A fault is met inside the text, and the next call begins behind what it takes. -/
theorem failed (placed : Placed source lexer) {error : LexicalError}
    (met : lexer.tokenize.1 = .error error) :
    ∃ first rest taken, lexer.characters.drop error.position = first :: rest ∧
      Lexeme.scan first rest = .fault error.fault taken ∧
      lexer.tokenize.2.position = error.position + taken ∧ error.position < source.length ∧
      lexer.tokenize.2.position ≤ source.length := by
  obtain ⟨passed, first, rest, taken, place, there, scanned, stop⟩ := Reading.stop_of_error met
  rw [List.drop_drop, ← place] at there
  have inside := congrArg List.length there
  have within := (takes_of_scan scanned).le_length
  rw [List.length_drop, placed.length] at inside
  rw [List.length_cons] at inside within
  refine ⟨first, rest, taken, there, scanned, stop, by omega, ?_⟩
  rw [tokenize_eq]
  dsimp only
  omega

theorem tokenize (placed : Placed source lexer) : Placed source lexer.tokenize.2 := by
  refine ⟨placed.1, ?_⟩
  cases outcome : lexer.tokenize.1 with
  | ok tokens => exact (placed.finished outcome).2.1
  | error error =>
    obtain ⟨_, _, _, _, _, _, _, within⟩ := placed.failed outcome
    exact Nat.le_succ_of_le within

/-- A lexer that has read an unexpected character stands in front of it, and stays there. -/
theorem stuck (placed : Placed source lexer) {character : Char} {position : Nat}
    (met : lexer.tokenize.1 = .error ⟨.unexpectedCharacter character, position⟩) (calls : Nat) :
    (lexer.tokenize.2.again calls).tokenize =
      (.error ⟨.unexpectedCharacter character, position⟩, lexer.tokenize.2) := by
  obtain ⟨first, rest, taken, there, scanned, stop, _⟩ := placed.failed met
  dsimp only at there scanned stop
  have none : taken = 0 := by
    cases takes_of_scan scanned
    rfl
  subst none
  have stands : lexer.tokenize.2 = ⟨lexer.characters, position⟩ := by
    rw [← show lexer.tokenize.2.position = position from stop]
    rfl
  have again : (⟨lexer.characters, position⟩ : Lexer).tokenize =
      (.error ⟨.unexpectedCharacter character, position⟩, ⟨lexer.characters, position⟩) := by
    rw [tokenize_eq]
    dsimp only
    rw [there, Reading.ofText_fault scanned]
    rfl
  rw [stands]
  exact tokenize_again again calls

theorem resumes (placed : Placed source lexer) : Resumes source lexer where
  characters := placed.1
  position_le := placed.2
  fresh := by
    have shifted := Reading.ofText_add lexer.position 0 (lexer.characters.drop lexer.position)
    refine ⟨_, rfl, ?_⟩
    rw [placed.ofSource_rest]
    exact ⟨congrArg Reading.outcome shifted,
      congrArg (Lexer.mk lexer.characters) (congrArg Reading.stop shifted)⟩
  finished := by
    intro tokens read
    obtain ⟨low, _, open_iff⟩ := placed.finished read
    have past : lexer.tokenize.2.characters.length ≤ lexer.tokenize.2.position :=
      placed.tokenize.length ▸ low
    exact ⟨low, open_iff, tokenize_again (tokenize_of_le past)⟩
  failed := by
    intro fault position met
    obtain ⟨first, rest, taken, there, scanned, stop, inside, _⟩ := placed.failed met
    exact ⟨inside, taken, there ▸ takes_of_scan scanned, stop⟩
  stuck := fun _ _ met => placed.stuck met
  inside := fun start line => Scanner.tokenize?_eq ⟨start, lexer.position, line⟩

theorem again (placed : Placed source lexer) (calls : Nat) :
    Placed source (lexer.again calls) := by
  induction calls generalizing lexer with
  | zero => exact placed
  | succ calls inductionHypothesis => exact inductionHypothesis placed.tokenize

end Placed

/-- However often a lexer is asked, it goes on where it stopped, and holds nothing back from what it
read before. -/
theorem resumes_again (source : String) (calls : Nat) :
    Resumes source ((ofSource source).again calls) :=
  have start : Placed source (ofSource source) := ⟨rfl, Nat.zero_le _⟩
  (start.again calls).resumes

end Lexer

end ByteStack
