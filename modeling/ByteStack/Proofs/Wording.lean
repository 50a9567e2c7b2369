/-
This file shows that a program is its words and nothing else. How the words are
laid out, in which case they are written, where they stand and how their numbers
are spelt changes neither the image nor the faults of an assembly.

The lexer settles the one half: it finds the same words in a text that is laid
out anew, and in the text that spells them with one blank between neighbours. The
other half is that an assembly is not steered by the places where words stand.
-/

import ByteStack.Proofs.Assembly.Placement
import ByteStack.Proofs.Source.Spelling

namespace ByteStack

theorem sameWords_moved (gaps : Nat → List Char) (tokens : List Token) :
    SameWords tokens (tokens.map (Token.moved gaps)) :=
  List.forall₂_map_right_iff.mpr (List.forall₂_same.mpr fun _ _ => ⟨rfl, rfl⟩)

theorem sameWords_standing (tokens : List Token) (position : Nat) :
    SameWords tokens (standing position tokens) := by
  induction tokens generalizing position with
  | nil => exact .nil
  | cons token rest inductionHypothesis => exact .cons ⟨rfl, rfl⟩ (inductionHypothesis _)

/-- Layout that is put in at the edges of tokens and the case of letters change neither the words
of a source nor what is built of it. Each word moves on by what is put in before it. Tokens with
the same words end an assembly alike wherever they stand. -/
theorem layout_and_case_change_nothing :
    (∀ source other gaps tokens, tokensOf source = .ok tokens → Relaid source gaps other →
      tokensOf other = .ok (tokens.map (Token.moved gaps)) ∧ BuildsAlike source other) ∧
    ∀ first second source other, SameWords first second →
      EndsAlike (Assembly.ofTokens first source) (Assembly.ofTokens second other) := by
  refine ⟨fun source other gaps tokens read relaid => ?_, fun _ _ source other same =>
    same.endsAlike source other⟩
  have reread := relaid.tokensOf_eq read
  exact ⟨reread, (sameWords_moved gaps tokens).buildsAlike read reread⟩

/-- A comment between a number and the word that follows it directly. -/
theorem layout_and_case_change_nothing_comment :
    tokensOf "$1add" = .ok [⟨.number, "1", 0⟩, ⟨.mnemonic, "ADD", 2⟩] ∧
      Relaid "$1add" (fun place => if place = 2 then [';', 'c', '\n'] else []) "$1;C\nAdd" ∧
      tokensOf "$1;C\nAdd" = .ok [⟨.number, "1", 0⟩, ⟨.mnemonic, "ADD", 5⟩] ∧
      BuildsAlike "$1add" "$1;C\nAdd" ∧
      SameWords [⟨.number, "1", 0⟩, ⟨.mnemonic, "ADD", 2⟩]
        [⟨.number, "1", 0⟩, ⟨.mnemonic, "ADD", 5⟩] ∧
      EndsAlike (Assembly.ofTokens [⟨.number, "1", 0⟩, ⟨.mnemonic, "ADD", 2⟩] "$1add")
        (Assembly.ofTokens [⟨.number, "1", 0⟩, ⟨.mnemonic, "ADD", 5⟩] "$1;C\nAdd") := by
  have read : tokensOf "$1add" = .ok [⟨.number, "1", 0⟩, ⟨.mnemonic, "ADD", 2⟩] := by
    decide +kernel
  have relaid :
      Relaid "$1add" (fun place => if place = 2 then [';', 'c', '\n'] else []) "$1;C\nAdd" := by
    have comment : LayoutText [';', 'c', '\n'] :=
      @LayoutText.comment ['c'] [] (by simp) .nothing
    have number : Segment ['$', '1'] ['A', 'D', 'D']
        (some (.number, Nat.toDigits 10 (Text.valueOf 16 ['1']))) :=
      .hex ⟨List.cons_ne_nil _ _, by simp, by simp⟩ (by decide +kernel)
    refine ⟨fun place => ?_, fun place some => ?_, ?_⟩
    · split
      · exact comment
      · exact .nothing
    · by_cases two : place = 2
      · exact two ▸ .back number
      · exact absurd (if_neg two) some
    · have filled : insertGaps (fun place => if place = 2 then [';', 'c', '\n'] else []) 0
          "$1add".toList = "$1;c\nadd".toList := by decide +kernel
      rw [filled]
      exact .cons (.inl rfl) (.cons (.inl rfl) (.cons (.inl rfl) (.cons (.inr (.inl rfl))
        (.cons (.inl rfl) (.cons (.inr (.inl rfl)) (.cons (.inl rfl) (.cons (.inl rfl) .nil)))))))
  have same : SameWords [⟨.number, "1", 0⟩, ⟨.mnemonic, "ADD", 2⟩]
      [⟨.number, "1", 0⟩, ⟨.mnemonic, "ADD", 5⟩] :=
    .cons ⟨rfl, rfl⟩ (.cons ⟨rfl, rfl⟩ .nil)
  obtain ⟨moved, built⟩ := layout_and_case_change_nothing.1 _ _ _ _ read relaid
  exact ⟨read, relaid, moved, built, same,
    layout_and_case_change_nothing.2 _ _ "$1add" "$1;C\nAdd" same⟩

/-- Tokens as the lexer makes them are the words of the text that spells them, where each stands
behind the texts in front of it and a blank behind each of these. What is built of this text is
what is built of any source with the tokens. -/
theorem spelling_keeps_words :
    (∀ tokens, (∀ token ∈ tokens, token.WellSpelt) →
      ∃ found, tokensOf (respelt tokens) = .ok found ∧ SameWords tokens found ∧
        ∀ (place : Nat) token, found[place]? = some token →
          token.position = ((tokens.take place).map fun token => token.text.length + 1).sum) ∧
    ∀ source tokens, tokensOf source = .ok tokens → BuildsAlike source (respelt tokens) := by
  refine ⟨fun tokens spelt => ?_, fun source tokens read => ?_⟩
  · refine ⟨_, tokensOf_respelt spelt, sameWords_standing tokens 0, fun place token found => ?_⟩
    rw [position_standing tokens 0 place found, Nat.zero_add]
  · have spelt := (segmented_of_tokensOf read).wellSpelt
    exact (sameWords_standing tokens 0).buildsAlike read (tokensOf_respelt spelt)

/-- A hexadecimal number and a register, with a comment in front and without blanks. -/
theorem spelling_keeps_words_register :
    tokensOf ";x\npsh$10sav&3" =
        .ok [⟨.mnemonic, "PSH", 3⟩, ⟨.number, "16", 6⟩, ⟨.mnemonic, "SAV", 9⟩,
          ⟨.register, "3", 12⟩] ∧
      BuildsAlike ";x\npsh$10sav&3" "PSH 16 SAV &3" ∧
      ∃ found, tokensOf "PSH 16 SAV &3" = .ok found ∧
        SameWords [⟨.mnemonic, "PSH", 3⟩, ⟨.number, "16", 6⟩, ⟨.mnemonic, "SAV", 9⟩,
          ⟨.register, "3", 12⟩] found ∧
        ∀ token, found[3]? = some token → token.position = 11 := by
  have read : tokensOf ";x\npsh$10sav&3" =
      .ok [⟨.mnemonic, "PSH", 3⟩, ⟨.number, "16", 6⟩, ⟨.mnemonic, "SAV", 9⟩,
        ⟨.register, "3", 12⟩] := by
    decide +kernel
  have text : respelt [⟨.mnemonic, "PSH", 3⟩, ⟨.number, "16", 6⟩, ⟨.mnemonic, "SAV", 9⟩,
      ⟨.register, "3", 12⟩] = "PSH 16 SAV &3" := by
    decide +kernel
  obtain ⟨found, reread, same, positions⟩ :=
    spelling_keeps_words.1 _ (segmented_of_tokensOf read).wellSpelt
  refine ⟨read, text ▸ spelling_keeps_words.2 _ _ read, found, text ▸ reread, same, ?_⟩
  exact fun token third => (positions 3 token third).trans (by decide +kernel)

end ByteStack
