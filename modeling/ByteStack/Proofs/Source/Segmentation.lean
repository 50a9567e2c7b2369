/-
This file is about whole texts: how a text splits from left to right into
segments, and that the lexer finds just this. A segment that begins at a place
is the only one, so a text splits in one way, as far as it splits at all. The
lexer walks along that way, keeps the tokens and forgets the layout. It fails
where no segment begins, and the text in front of that place can be lexed by
itself with the tokens found so far.
-/

import ByteStack.Proofs.Source.Segment

namespace ByteStack

/-- The text, whose first character stands at the position, begins with segments. The tokens are
those of the segments that are no layout, and the last list is what stands behind them. -/
inductive Segmented : Nat → List Char → List Token → List Char → Prop where
  | stop {position : Nat} {rest : List Char} : Segmented position rest [] rest
  | layout {position : Nat} {letters behind rest : List Char} {tokens : List Token}
      (segment : Segment letters behind none)
      (more : Segmented (position + letters.length) behind tokens rest) :
      Segmented position (letters ++ behind) tokens rest
  | token {position : Nat} {letters behind rest : List Char} {tokens : List Token}
      {kind : TokenKind} {literal : List Char}
      (segment : Segment letters behind (some (kind, literal)))
      (more : Segmented (position + letters.length) behind tokens rest) :
      Segmented position (letters ++ behind) (⟨kind, String.ofList literal, position⟩ :: tokens)
        rest

variable {position : Nat} {text letters behind rest : List Char} {tokens : List Token}

/-! ### Splitting a text -/

/-- A text splits into segments up to its end, or up to a fault. -/
theorem exists_segmented (position : Nat) (text : List Char) :
    ∃ tokens rest, Segmented position text tokens rest ∧
      ∀ first others, rest = first :: others →
        ∃ taken, Lexeme.scan first others = .fault (LexicalFault.at first others) taken := by
  induction length : text.length using Nat.strong_induction_on generalizing position text with
  | _ size inductionHypothesis =>
    subst length
    cases text with
    | nil => exact ⟨[], [], .stop, nofun⟩
    | cons first others =>
      rcases scannable first others with ⟨letters, behind, token?, whole, segment⟩ | fault
      · have shorter : behind.length < (first :: others).length := by
          rw [whole, List.length_append]
          exact Nat.lt_add_of_pos_left (List.length_pos_iff.mpr segment.ne_nil)
        obtain ⟨tokens, rest, more, last⟩ :=
          inductionHypothesis _ shorter (position + letters.length) behind rfl
        rw [whole]
        cases token? with
        | none => exact ⟨tokens, rest, .layout segment more, last⟩
        | some token => exact ⟨_, rest, .token segment more, last⟩
      · refine ⟨[], first :: others, .stop, ?_⟩
        intro other more same
        obtain ⟨rfl, rfl⟩ := List.cons.inj same
        exact fault

/-- What stands in front of the rest splits in the same way by itself. -/
theorem Segmented.front (segmented : Segmented position text tokens rest) :
    ∃ before, text = before ++ rest ∧ Segmented position before tokens [] := by
  induction segmented with
  | stop => exact ⟨[], rfl, .stop⟩
  | layout segment more inductionHypothesis =>
    obtain ⟨before, rfl, split⟩ := inductionHypothesis
    exact ⟨_, (List.append_assoc _ _ _).symm, .layout segment.cut split⟩
  | token segment more inductionHypothesis =>
    obtain ⟨before, rfl, split⟩ := inductionHypothesis
    exact ⟨_, (List.append_assoc _ _ _).symm, .token segment.cut split⟩

/-! ### Tokens of segments -/

/-- The literal is one that a lexer makes for the kind: letters, one digit, or the decimal digits
of a number with no zero in front. -/
def Token.WellSpelt (token : Token) : Prop :=
  match token.kind with
  | .mnemonic | .label =>
    token.literal.toList ≠ [] ∧ ∀ letter ∈ token.literal.toList, letter.isUpper
  | .register => ∃ digit : Char, digit.isDigit ∧ token.literal = String.ofList [digit]
  | .number => ∃ value, value ≤ 65535 ∧ token.literal = Text.natural value

theorem Segment.wellSpelt {kind : TokenKind} {literal : List Char}
    (segment : Segment letters behind (some (kind, literal))) (position : Nat) :
    Token.WellSpelt ⟨kind, String.ofList literal, position⟩ := by
  cases segment with
  | mnemonic longest =>
    rw [Token.WellSpelt, String.toList_ofList]
    exact ⟨longest.nonempty, longest.each⟩
  | label longest =>
    rw [Token.WellSpelt, String.toList_ofList]
    exact ⟨longest.nonempty, longest.each⟩
  | register isDigit alone => exact ⟨_, isDigit, rfl⟩
  | decimal longest small => exact ⟨_, small, rfl⟩
  | hex longest small => exact ⟨_, small, rfl⟩

theorem Segmented.wellSpelt (segmented : Segmented position text tokens rest) :
    ∀ token ∈ tokens, token.WellSpelt := by
  induction segmented with
  | stop => exact nofun
  | layout segment more inductionHypothesis => exact inductionHypothesis
  | token segment more inductionHypothesis =>
    intro token member
    rcases List.mem_cons.mp member with rfl | later
    · exact segment.wellSpelt _
    · exact inductionHypothesis token later

/-! ### Reading a split text -/

namespace Reading

theorem outcome_cons (token : Token) (reading : Reading) :
    (reading.cons token).outcome = reading.outcome.map (token :: ·) := by
  unfold cons
  cases reading.outcome <;> rfl

theorem stop_cons (token : Token) (reading : Reading) :
    (reading.cons token).stop = reading.stop := by
  unfold cons
  cases reading.outcome <;> rfl

theorem ofText_nil (position : Nat) : ofText position [] = ⟨.ok [], position⟩ := by
  rw [ofText]

theorem ofText_layout {first : Char} {more : Nat}
    (scanned : Lexeme.scan first rest = .layout more) (position : Nat) :
    ofText position (first :: rest) = ofText (position + (more + 1)) (rest.drop more) := by
  rw [ofText, scanned, ← Nat.add_assoc]

theorem ofText_token {first : Char} {kind : TokenKind} {literal : List Char} {more : Nat}
    (scanned : Lexeme.scan first rest = .token kind literal more) (position : Nat) :
    ofText position (first :: rest) =
      (ofText (position + (more + 1)) (rest.drop more)).cons
        ⟨kind, String.ofList literal, position⟩ := by
  rw [ofText, scanned, ← Nat.add_assoc]

theorem ofText_fault {first : Char} {fault : LexicalFault} {taken : Nat}
    (scanned : Lexeme.scan first rest = .fault fault taken) (position : Nat) :
    ofText position (first :: rest) = ⟨.error ⟨fault, position⟩, position + taken⟩ := by
  rw [ofText, scanned]

/-- Layout is passed over with as many characters as it has, or with one more when it is a comment
that no line feed ends. -/
theorem ofText_layoutSegment (segment : Segment letters behind none) (position : Nat) :
    ofText position (letters ++ behind) = ofText (position + letters.length) behind ∨
      behind = [] ∧ (∃ words, letters = ';' :: words ∧ '\n' ∉ words) ∧
        ofText position (letters ++ behind) = ⟨.ok [], position + letters.length + 1⟩ := by
  cases letters with
  | nil => exact absurd rfl segment.ne_nil
  | cons first others =>
    obtain ⟨more, scanned, rest, rfl | ⟨rfl, rfl, clear, rfl⟩⟩ := segment.scan_layout
    · refine Or.inl ?_
      rw [List.cons_append, ofText_layout scanned, rest]
      rfl
    · refine Or.inr ⟨rfl, ⟨others, rfl, clear⟩, ?_⟩
      rw [List.cons_append, ofText_layout scanned, rest, ofText_nil, List.length_cons,
        Nat.add_assoc position]

/-- A token is kept. -/
theorem ofText_tokenSegment {kind : TokenKind} {literal : List Char}
    (segment : Segment letters behind (some (kind, literal))) (position : Nat) :
    ofText position (letters ++ behind) =
      (ofText (position + letters.length) behind).cons
        ⟨kind, String.ofList literal, position⟩ := by
  cases letters with
  | nil => exact absurd rfl segment.ne_nil
  | cons first others =>
    rw [List.cons_append, ofText_token segment.scan_token, List.drop_left]
    rfl

theorem outcome_nil (position : Nat) : (ofText position []).outcome = .ok [] := by
  rw [ofText_nil]

theorem outcome_layout (segment : Segment letters behind none) (position : Nat) :
    (ofText position (letters ++ behind)).outcome =
      (ofText (position + letters.length) behind).outcome := by
  rcases ofText_layoutSegment segment position with passed | ⟨last, _, passed⟩
  · rw [passed]
  · rw [passed, last, outcome_nil]

theorem outcome_token {kind : TokenKind} {literal : List Char}
    (segment : Segment letters behind (some (kind, literal))) (position : Nat) :
    (ofText position (letters ++ behind)).outcome =
      (ofText (position + letters.length) behind).outcome.map
        (⟨kind, String.ofList literal, position⟩ :: ·) := by
  rw [ofText_tokenSegment segment, outcome_cons]

/-- A fault ends the reading. -/
theorem outcome_fault {first : Char} {fault : LexicalFault} {taken : Nat}
    (met : Lexeme.scan first rest = .fault fault taken) (position : Nat) :
    (ofText position (first :: rest)).outcome = .error ⟨fault, position⟩ := by
  rw [ofText_fault met]

/-- Reading a text gives the tokens of its segments, and goes on behind them. -/
theorem outcome_segmented (segmented : Segmented position text tokens rest) :
    (ofText position text).outcome =
      (ofText (position + (text.length - rest.length)) rest).outcome.map (tokens ++ ·) := by
  have whole {letters behind rest : List Char} (split : ∃ before, behind = before ++ rest)
      (place : Nat) : place + letters.length + (behind.length - rest.length) =
        place + ((letters ++ behind).length - rest.length) := by
    obtain ⟨before, rfl⟩ := split
    simp only [List.length_append]
    omega
  induction segmented with
  | @stop position rest =>
    rw [Nat.sub_self]
    cases (ofText position rest).outcome <;> rfl
  | layout segment more inductionHypothesis =>
    obtain ⟨before, split, _⟩ := more.front
    rw [outcome_layout segment, inductionHypothesis, whole ⟨before, split⟩]
  | token segment more inductionHypothesis =>
    obtain ⟨before, split, _⟩ := more.front
    rw [outcome_token segment, inductionHypothesis, whole ⟨before, split⟩]
    cases (ofText _ _).outcome <;> rfl

/-- A text that splits to its end has the tokens of its segments. -/
theorem outcome_whole (segmented : Segmented position text tokens []) :
    (ofText position text).outcome = .ok tokens := by
  rw [outcome_segmented segmented, outcome_nil]
  exact congrArg Except.ok (List.append_nil tokens)

/-- A text that splits up to a fault has that fault at the place where the rest begins. -/
theorem outcome_stuck {first : Char} {fault : LexicalFault} {taken : Nat}
    (segmented : Segmented position text tokens (first :: rest))
    (met : Lexeme.scan first rest = .fault fault taken) :
    (ofText position text).outcome =
      .error ⟨fault, position + (text.length - (first :: rest).length)⟩ := by
  rw [outcome_segmented segmented, outcome_fault met]
  rfl

/-- A text that is read to its end splits into segments. -/
theorem segmented_of_outcome (read : (ofText position text).outcome = .ok tokens) :
    Segmented position text tokens [] := by
  obtain ⟨found, rest, split, ends⟩ := exists_segmented position text
  cases rest with
  | nil =>
    obtain rfl := Except.ok.inj ((outcome_whole split).symm.trans read)
    exact split
  | cons first others =>
    obtain ⟨taken, met⟩ := ends first others rfl
    exact nomatch (outcome_stuck split met).symm.trans read

end Reading

/-! ### The lexer is correct -/

/-- The tokens of a source are read off its characters in capitals. -/
theorem tokensOf_eq (source : String) :
    tokensOf source = (Reading.ofText 0 (source.toList.map Char.toUpper)).outcome := rfl

/-- A source that is accepted splits into segments. -/
theorem segmented_of_tokensOf {source : String} (accepted : tokensOf source = .ok tokens) :
    Segmented 0 (source.toList.map Char.toUpper) tokens [] :=
  Reading.segmented_of_outcome accepted

/-- The beginning of a source whose characters in capitals split there. -/
theorem tokensOf_front {source : String} {before : List Char}
    (whole : source.toList.map Char.toUpper = before ++ rest)
    (split : Segmented 0 before tokens []) :
    tokensOf (String.ofList (source.toList.take before.length)) = .ok tokens := by
  rw [tokensOf_eq, String.toList_ofList, List.map_take, whole, List.take_left]
  exact Reading.outcome_whole split

/-- The lexer accepts a source just when its characters in capitals split into segments, and gives
the tokens of the segments. Otherwise it fails at the first place where no segment begins, with
the fault that the characters there decide. The text in front of that place is accepted. -/
theorem tokensOf_correct (source : String) :
    (∀ tokens, tokensOf source = .ok tokens ↔
      Segmented 0 (source.toList.map Char.toUpper) tokens []) ∧
    ∀ fault position, tokensOf source = .error ⟨fault, position⟩ ↔
      ∃ tokens first rest, Segmented 0 (source.toList.map Char.toUpper) tokens (first :: rest) ∧
        (source.toList.map Char.toUpper).drop position = first :: rest ∧
        BeginsNoSegment (first :: rest) ∧ fault = LexicalFault.at first rest ∧
        tokensOf (String.ofList (source.toList.take position)) = .ok tokens := by
  refine ⟨fun tokens => ⟨segmented_of_tokensOf, Reading.outcome_whole⟩,
    fun fault position => ⟨fun refused => ?_, ?_⟩⟩
  · obtain ⟨found, rest, split, ends⟩ := exists_segmented 0 (source.toList.map Char.toUpper)
    cases rest with
    | nil => exact nomatch (Reading.outcome_whole split).symm.trans refused
    | cons first others =>
      obtain ⟨taken, met⟩ := ends first others rfl
      have same := Except.error.inj ((Reading.outcome_stuck split met).symm.trans refused)
      obtain ⟨rfl, place⟩ := LexicalError.mk.inj same
      obtain ⟨before, whole, front⟩ := split.front
      rw [whole, List.length_append, Nat.add_sub_cancel, Nat.zero_add] at place
      subst place
      refine ⟨found, first, others, split, ?_, beginsNoSegment_of_scan met, rfl,
        tokensOf_front whole front⟩
      rw [whole, List.drop_left]
  · rintro ⟨tokens, first, others, segmented, place, none, rfl, _⟩
    rcases scannable first others with ⟨letters, behind, token?, whole, segment⟩ | ⟨taken, met⟩
    · exact absurd segment (none letters behind token? whole)
    · rw [tokensOf_eq, Reading.outcome_stuck segmented met]
      have behind := congrArg List.length place
      rw [List.length_drop, List.length_cons] at behind
      rw [List.length_cons, show 0 + ((source.toList.map Char.toUpper).length -
        (others.length + 1)) = position by omega]

end ByteStack
