/-
This file is the grammar of JSON strings. The letters between two quotes are cut
into parts, of which each stands for a character or names a unit of sixteen
bits. Skipping finds the quote behind such letters. Reading does so as well, if
the units that need a partner have one. Nothing else is skipped or read.

What is written of a text stands for the characters of the text.
-/

import ByteStack.Json.Quoted

namespace ByteStack.Json

/-! ### The grammar -/

/-- What a part of a string stands for. -/
inductive StringPart where
  | character (value : Char)
  | unit (value : Nat)

/-- The letters stand between two quotes and are made of these parts. -/
inductive QuotedLetters : List Char → List StringPart → Prop where
  | nil : QuotedLetters [] []
  | plain {character : Char} {letters : List Char} {parts : List StringPart}
      (notQuote : character ≠ '"') (notEscape : character ≠ '\\')
      (high : leastPlain ≤ character.toNat) (rest : QuotedLetters letters parts) :
      QuotedLetters (character :: letters) (.character character :: parts)
  | short {kind character : Char} {letters : List Char} {parts : List StringPart}
      (known : shortEscape? kind = some character) (rest : QuotedLetters letters parts) :
      QuotedLetters ('\\' :: kind :: letters) (.character character :: parts)
  | unit {a b c d : Char} {value : Nat} {letters : List Char} {parts : List StringPart}
      (named : hexUnit [a, b, c, d] = .ok value) (rest : QuotedLetters letters parts) :
      QuotedLetters ('\\' :: 'u' :: a :: b :: c :: d :: letters) (.unit value :: parts)

/-- The characters that parts stand for. A unit that begins or ends a pair needs the other one. -/
def StringPart.text? : List StringPart → Option (List Char)
  | [] => some []
  | .character value :: parts => (text? parts).map (value :: ·)
  | .unit value :: parts =>
    if isTrailing value then none
    else if isLeading value then
      match parts with
      | .unit trailing :: parts =>
        if isTrailing trailing then (text? parts).map (pairCharacter value trailing :: ·) else none
      | _ => none
    else (text? parts).map (Char.ofNat value :: ·)

variable {letters rest : List Char} {parts : List StringPart}

theorem shortEscape?_u : shortEscape? 'u' = none := rfl

theorem ne_u {kind character : Char} (known : shortEscape? kind = some character) : kind ≠ 'u' := by
  rintro rfl
  exact nomatch shortEscape?_u.symm.trans known

/-! ### Skipping -/

theorem skipFrom_quote (passed : Nat) : skipFrom passed ('"' :: rest) = .ok (passed + 1) := by
  rw [skipFrom.eq_def]
  rfl

theorem skipFrom_plain {character : Char} (notQuote : character ≠ '"')
    (notEscape : character ≠ '\\') (high : leastPlain ≤ character.toNat) (passed : Nat) :
    skipFrom passed (character :: rest) = skipFrom (passed + 1) rest := by
  rw [skipFrom.eq_def]
  dsimp only
  rw [if_neg notQuote, if_neg (Nat.not_lt_of_le high), if_pos notEscape]

theorem skipFrom_short {kind character : Char} (known : shortEscape? kind = some character)
    (passed : Nat) : skipFrom passed ('\\' :: kind :: rest) = skipFrom (passed + 2) rest := by
  rw [skipFrom, if_neg (by decide), if_neg (by decide), if_neg (by decide), known]

theorem skipFrom_unit {a b c d : Char} {value : Nat} (named : hexUnit [a, b, c, d] = .ok value)
    (passed : Nat) :
    skipFrom passed ('\\' :: 'u' :: a :: b :: c :: d :: rest) = skipFrom (passed + 6) rest := by
  have here : hexUnit (a :: b :: c :: d :: rest) = .ok value := named
  rw [skipFrom, if_neg (by decide), if_neg (by decide), if_neg (by decide), shortEscape?_u]
  dsimp only
  rw [if_neg (by decide), here]
  rfl

/-- Skipping passes the letters and the quote behind them. -/
theorem QuotedLetters.skip (quoted : QuotedLetters letters parts) (passed : Nat)
    (rest : List Char) :
    skipFrom passed (letters ++ '"' :: rest) = .ok (passed + letters.length + 1) := by
  induction quoted generalizing passed with
  | nil => exact skipFrom_quote passed
  | plain notQuote notEscape high _ inductionHypothesis =>
    rw [List.cons_append, skipFrom_plain notQuote notEscape high, inductionHypothesis,
      List.length_cons, Nat.add_right_comm passed 1]
    rfl
  | short known _ inductionHypothesis =>
    rw [List.cons_append, List.cons_append, skipFrom_short known, inductionHypothesis,
      List.length_cons, List.length_cons, Nat.add_right_comm passed 2]
    rfl
  | unit named _ inductionHypothesis =>
    simp only [List.cons_append]
    rw [skipFrom_unit named, inductionHypothesis, Nat.add_right_comm passed 6]
    rfl

theorem exists_of_hexUnit {text : List Char} {value : Nat} (named : hexUnit text = .ok value) :
    ∃ a b c d rest, text = a :: b :: c :: d :: rest ∧ hexUnit [a, b, c, d] = .ok value := by
  match text, named with
  | a :: b :: c :: d :: rest, named => exact ⟨a, b, c, d, rest, rfl, named⟩
  | [], named | [_], named | [_, _], named | [_, _, _], named =>
    dsimp only [hexUnit] at named
    split at named <;> exact nomatch named

/-- What is skipped are letters and a quote. -/
theorem exists_of_skipFrom {passed length : Nat} {text : List Char}
    (skipped : skipFrom passed text = .ok length) :
    ∃ letters parts rest, text = letters ++ '"' :: rest ∧ QuotedLetters letters parts ∧
      length = passed + letters.length + 1 := by
  fun_induction skipFrom passed text with
  | case1 => exact nomatch skipped
  | case2 passed rest => exact ⟨[], [], rest, rfl, .nil, (Except.ok.inj skipped).symm⟩
  | case3 => exact nomatch skipped
  | case4 passed first rest notQuote high notEscape inductionHypothesis =>
    obtain ⟨letters, parts, behind, rfl, quoted, rfl⟩ := inductionHypothesis skipped
    refine ⟨first :: letters, _, behind, rfl,
      .plain notQuote notEscape (Nat.le_of_not_lt high) quoted, ?_⟩
    rw [List.length_cons, Nat.add_right_comm passed 1]
    rfl
  | case5 => exact nomatch skipped
  | case6 passed first notQuote high escape kind rest character known inductionHypothesis =>
    obtain rfl : first = '\\' := Decidable.not_not.mp escape
    obtain ⟨letters, parts, behind, rfl, quoted, rfl⟩ := inductionHypothesis skipped
    refine ⟨'\\' :: kind :: letters, _, behind, rfl, .short known quoted, ?_⟩
    rw [List.length_cons, List.length_cons, Nat.add_right_comm passed 2]
    rfl
  | case7 => exact nomatch skipped
  | case8 => exact nomatch skipped
  | case9 passed first notQuote high escape kind rest unknown named value unit
      inductionHypothesis =>
    obtain rfl : first = '\\' := Decidable.not_not.mp escape
    obtain rfl : kind = 'u' := Decidable.not_not.mp named
    obtain ⟨a, b, c, d, more, rfl, named⟩ := exists_of_hexUnit unit
    obtain ⟨letters, parts, behind, same, quoted, rfl⟩ := inductionHypothesis skipped
    refine ⟨'\\' :: 'u' :: a :: b :: c :: d :: letters, _, behind, ?_, .unit named quoted, ?_⟩
    · rw [show more = letters ++ '"' :: behind from same]
      rfl
    · rw [Nat.add_right_comm passed 6]
      rfl

/-! ### Reading -/

theorem readFrom_quote (front : List Char) : readFrom front ('"' :: rest) = .ok front.reverse := by
  rw [readFrom.eq_def]
  rfl

theorem readFrom_plain {character : Char} (notQuote : character ≠ '"')
    (notEscape : character ≠ '\\') (high : leastPlain ≤ character.toNat) (front : List Char) :
    readFrom front (character :: rest) = readFrom (character :: front) rest := by
  rw [readFrom.eq_def]
  dsimp only
  rw [if_neg notQuote, if_neg (Nat.not_lt_of_le high), if_pos notEscape]

theorem readFrom_short {kind character : Char} (known : shortEscape? kind = some character)
    (front : List Char) :
    readFrom front ('\\' :: kind :: rest) = readFrom (character :: front) rest := by
  rw [readFrom, if_neg (by decide), if_neg (by decide), if_neg (by decide), known]

/-- Reading an escape that names a unit. -/
theorem readFrom_unit {a b c d : Char} {value : Nat} (named : hexUnit [a, b, c, d] = .ok value)
    (front : List Char) :
    readFrom front ('\\' :: 'u' :: a :: b :: c :: d :: rest) =
      if isTrailing value then .error .malformed
      else if isLeading value then
        match trailingUnit rest with
        | .error defect => .error defect
        | .ok trailing => readFrom (pairCharacter value trailing :: front) (rest.drop 6)
      else readFrom (Char.ofNat value :: front) rest := by
  have here : hexUnit (a :: b :: c :: d :: rest) = .ok value := named
  rw [readFrom, if_neg (by decide), if_neg (by decide), if_neg (by decide), shortEscape?_u]
  dsimp only
  rw [if_neg (by decide), here]
  rfl

theorem trailingUnit_unit {a b c d : Char} {value : Nat}
    (named : hexUnit [a, b, c, d] = .ok value) :
    trailingUnit ('\\' :: 'u' :: a :: b :: c :: d :: rest) =
      if isTrailing value then .ok value else .error .malformed := by
  have here : hexUnit (a :: b :: c :: d :: rest) = .ok value := named
  rw [trailingUnit, here]

/-- What does not go on with an escape of a unit has no second unit of a pair. -/
theorem trailingUnit_eq_error {first : Char} {next : List Char}
    (other : first = '\\' → ∀ rest, next ≠ 'u' :: rest) :
    ∃ defect, trailingUnit (first :: next) = .error defect := by
  unfold trailingUnit
  split
  · exact ⟨_, rfl⟩
  · exact ⟨_, rfl⟩
  · next same =>
    obtain ⟨rfl, rfl⟩ := List.cons.inj same
    exact absurd rfl (other rfl _)
  · exact ⟨_, rfl⟩

theorem map_cons_front (front : List Char) (character : Char) (text? : Option (List Char)) :
    (text?.map (character :: ·)).map (front.reverse ++ ·) =
      text?.map ((character :: front).reverse ++ ·) := by
  cases text? with
  | none => rfl
  | some text => simp

/-- Reading gives the characters of the parts, if they stand for any. -/
theorem QuotedLetters.read : ∀ {letters : List Char} {parts : List StringPart},
    QuotedLetters letters parts → ∀ front rest : List Char,
    (readFrom front (letters ++ '"' :: rest)).toOption =
      (StringPart.text? parts).map (front.reverse ++ ·)
  | _, _, .nil, front, rest => by
    rw [List.nil_append, readFrom_quote, StringPart.text?, Option.map_some, List.append_nil]
    rfl
  | _, _, .plain notQuote notEscape high more, front, rest => by
    rw [List.cons_append, readFrom_plain notQuote notEscape high, more.read, StringPart.text?,
      map_cons_front]
  | _, _, .short known more, front, rest => by
    rw [List.cons_append, List.cons_append, readFrom_short known, more.read, StringPart.text?,
      map_cons_front]
  | _, _, @QuotedLetters.unit _ _ _ _ value _ _ named more, front, rest => by
    simp only [List.cons_append]
    rw [readFrom_unit named, StringPart.text?.eq_def]
    dsimp only
    by_cases trailing : isTrailing value
    · rw [if_pos trailing, if_pos trailing]
      rfl
    rw [if_neg trailing, if_neg trailing]
    by_cases leading : isLeading value
    · rw [if_pos leading, if_pos leading]
      -- The next part must be a unit that ends the pair.
      cases more with
      | nil => rfl
      | plain _ notEscape _ _ =>
        obtain ⟨defect, wrong⟩ := trailingUnit_eq_error (fun same => absurd same notEscape)
        rw [List.cons_append, wrong]
        rfl
      | @short kind _ letters _ known _ =>
        obtain ⟨defect, wrong⟩ : ∃ defect,
            trailingUnit ('\\' :: kind :: (letters ++ '"' :: rest)) = .error defect :=
          trailingUnit_eq_error fun _ _ same => ne_u known (List.cons.inj same).1
        rw [List.cons_append, List.cons_append, wrong]
        rfl
      | @unit _ _ _ _ second _ _ named more =>
        simp only [List.cons_append]
        rw [trailingUnit_unit named]
        by_cases trailing : isTrailing second
        · rw [if_pos trailing, if_pos trailing]
          dsimp only [List.drop]
          rw [more.read, map_cons_front]
        · rw [if_neg trailing, if_neg trailing]
          rfl
    · rw [if_neg leading, if_neg leading, more.read, map_cons_front]

/-! ### Writing -/

theorem hexValue?_digitChar : ∀ value < 16, hexValue? (Nat.digitChar value) = some value := by
  decide

/-- The escape of a control character names its code. -/
theorem hexUnit_low {value : Nat} (low : value < leastPlain) :
    hexUnit ['0', '0', Nat.digitChar (value / 16), Nat.digitChar (value % 16)] = .ok value := by
  have small : value < 32 := low
  have zero : hexValue? '0' = some 0 := rfl
  rw [hexUnit, zero, hexValue?_digitChar (value / 16) (by omega),
    hexValue?_digitChar (value % 16) (by omega)]
  exact congrArg Except.ok (by omega)

theorem StringPart.text?_low {value : Nat} (low : value < leastPlain) (parts : List StringPart) :
    text? (.unit value :: parts) = (text? parts).map (Char.ofNat value :: ·) := by
  have small : value < 32 := low
  have notTrailing : ¬isTrailing value := by
    rw [isTrailing, Bool.and_eq_true, decide_eq_true_eq]
    omega
  have notLeading : ¬isLeading value := by
    rw [isLeading, Bool.and_eq_true, decide_eq_true_eq]
    omega
  rw [text?.eq_def]
  dsimp only
  rw [if_neg notTrailing, if_neg notLeading]

/-- What is written of a character is one part that stands for it. -/
theorem exists_part (character : Char) :
    ∃ part : StringPart,
      (∀ letters parts, QuotedLetters letters parts →
        QuotedLetters (writtenCharacter character ++ letters) (part :: parts)) ∧
      ∀ parts, StringPart.text? (part :: parts) =
        (StringPart.text? parts).map (character :: ·) := by
  have short {kind : Char} (known : shortEscape? kind = some character)
      (written : writtenCharacter character = ['\\', kind]) :
      ∃ part : StringPart,
        (∀ letters parts, QuotedLetters letters parts →
          QuotedLetters (writtenCharacter character ++ letters) (part :: parts)) ∧
        ∀ parts, StringPart.text? (part :: parts) =
          (StringPart.text? parts).map (character :: ·) :=
    ⟨.character character, fun _ _ quoted => written ▸ .short known quoted, fun _ => rfl⟩
  by_cases quote : character = '"'
  · subst quote; exact short rfl rfl
  by_cases backslash : character = '\\'
  · subst backslash; exact short rfl rfl
  by_cases backspace : character = '\x08'
  · subst backspace; exact short rfl rfl
  by_cases formFeed : character = '\x0c'
  · subst formFeed; exact short rfl rfl
  by_cases lineFeed : character = '\n'
  · subst lineFeed; exact short rfl rfl
  by_cases carriageReturn : character = '\r'
  · subst carriageReturn; exact short rfl rfl
  by_cases tab : character = '\t'
  · subst tab; exact short rfl rfl
  unfold writtenCharacter
  simp only [quote, backslash, backspace, formFeed, lineFeed, carriageReturn, tab, if_false]
  by_cases control : character.toNat < leastPlain
  · rw [if_pos control]
    refine ⟨.unit character.toNat, fun _ _ quoted => .unit (hexUnit_low control) quoted,
      fun parts => ?_⟩
    rw [StringPart.text?_low control, Char.ofNat_toNat]
  · rw [if_neg control]
    exact ⟨.character character, fun _ _ quoted =>
      .plain quote backslash (Nat.le_of_not_lt control) quoted, fun _ => rfl⟩

/-- What is written of a text stands for its characters. -/
theorem exists_quotedLetters (text : List Char) :
    ∃ parts, QuotedLetters (text.flatMap writtenCharacter) parts ∧
      StringPart.text? parts = some text := by
  induction text with
  | nil => exact ⟨[], .nil, rfl⟩
  | cons character rest inductionHypothesis =>
    obtain ⟨parts, quoted, stands⟩ := inductionHypothesis
    obtain ⟨part, spelled, means⟩ := exists_part character
    exact ⟨part :: parts, List.flatMap_cons ▸ spelled _ _ quoted, by rw [means, stands]; rfl⟩

end ByteStack.Json
