/-
This file is about single characters of a text. A token stands where its first
character does, and that is never layout: a blank, a tab, a carriage return or a
line feed belongs to no token, and no lexical error is met there either. Reading
a text in capitals does not move its characters, and makes none of them layout
that was not.

A character that is not layout stands inside its line, since all that is cut off
a line is layout. So its location has it at its column.
-/

import ByteStack.Proofs.Source.Location

namespace ByteStack

variable {source text letters behind rest : List Char} {position : Nat} {tokens : List Token}

/-! ### Capitals -/

/-- In capitals only small letters are different, and they become capitals. -/
theorem toUpper_cases (character : Char) :
    character.isLower ∧ character.toUpper.isUpper ∨ character.toUpper = character := by
  unfold Char.toUpper
  split
  · next lower =>
    have bounds : 97 ≤ character.val.toNat ∧ character.val.toNat ≤ 122 := lower
    have moved : (character.val + ('A'.val - 'a'.val)).toNat = character.val.toNat - 32 := by
      rw [UInt32.toNat_add, show ('A'.val - 'a'.val).toNat = 4294967264 by decide]
      omega
    refine Or.inl ⟨Bool.and_eq_true_iff.mpr ⟨decide_eq_true lower.1, decide_eq_true lower.2⟩,
      decide_eq_true ⟨UInt32.le_iff_toNat_le.mpr ?_, UInt32.le_iff_toNat_le.mpr ?_⟩⟩
    · rw [moved, show 'A'.val.toNat = 65 from rfl]
      omega
    · rw [moved, show 'Z'.val.toNat = 90 from rfl]
      omega
  · exact Or.inr rfl

/-- What comes before the small letters stays as it is. -/
theorem toUpper_of_lt {character : Char} (before : character.val < 'a'.val) :
    character.toUpper = character :=
  dif_neg fun lower => UInt32.not_le.mpr before lower.1

theorem toUpper_of_isUpper {character : Char} (upper : character.isUpper) :
    character.toUpper = character := by
  have bound : character.val ≤ 'Z'.val := (of_decide_eq_true upper).2
  exact toUpper_of_lt (UInt32.lt_of_le_of_lt bound (by decide))

/-! ### Visible characters -/

/-- A character that is not layout stands at the position. -/
def Visible (source : List Char) (position : Nat) (character : Char) : Prop :=
  source[position]? = some character ∧ ¬isLayout character

/-- Capitals are layout exactly if the letters are, which they never are. -/
theorem isLayout_toUpper (character : Char) : isLayout character.toUpper = isLayout character := by
  rcases toUpper_cases character with ⟨lower, upper⟩ | same
  · rw [Bool.eq_false_iff.mpr (not_isLayout upper (by decide)),
      Bool.eq_false_iff.mpr (not_isLayout lower (by decide))]
  · rw [same]

theorem Visible.append_left {character : Char} (visible : Visible behind position character)
    (letters : List Char) : Visible (letters ++ behind) (letters.length + position) character := by
  refine ⟨?_, visible.2⟩
  rw [List.getElem?_append_right (Nat.le_add_right _ _), Nat.add_sub_cancel_left, visible.1]

/-- A text in capitals has its visible characters where the text has them. -/
theorem exists_visible_of_toUpper {character : Char}
    (visible : Visible (source.map Char.toUpper) position character) :
    ∃ original, Visible source position original := by
  obtain ⟨found, shown⟩ := visible
  rw [List.getElem?_map] at found
  obtain ⟨original, there, rfl⟩ := Option.map_eq_some_iff.mp found
  exact ⟨original, there, isLayout_toUpper original ▸ shown⟩

/-! ### Where tokens begin -/

/-- A token begins with a character that is not layout. -/
theorem Segment.exists_visible {kind : TokenKind} {literal : List Char}
    (segment : Segment letters behind (some (kind, literal))) :
    ∃ character, Visible (letters ++ behind) 0 character := by
  cases letters with
  | nil => exact absurd rfl segment.ne_nil
  | cons first others =>
    refine ⟨first, rfl, fun blank => ?_⟩
    exact nomatch (Lexeme.scan_layout blank _).symm.trans segment.scan_token

/-- Every token stands at a character that is not layout. -/
theorem Segmented.exists_visible (segmented : Segmented position text tokens rest) {token : Token}
    (member : token ∈ tokens) :
    ∃ place character, token.position = position + place ∧ Visible text place character := by
  induction segmented with
  | stop => exact absurd member List.not_mem_nil
  | layout segment more inductionHypothesis =>
    obtain ⟨place, character, same, visible⟩ := inductionHypothesis member
    exact ⟨_, character, same.trans (Nat.add_assoc _ _ _), visible.append_left _⟩
  | token segment more inductionHypothesis =>
    rcases List.mem_cons.mp member with rfl | later
    · obtain ⟨character, visible⟩ := segment.exists_visible
      exact ⟨0, character, rfl, visible⟩
    · obtain ⟨place, character, same, visible⟩ := inductionHypothesis later
      exact ⟨_, character, same.trans (Nat.add_assoc _ _ _), visible.append_left _⟩

/-- The tokens of a source stand at characters that are not layout. -/
theorem exists_visible_of_tokensOf {source : String} (accepted : tokensOf source = .ok tokens)
    {token : Token} (member : token ∈ tokens) :
    ∃ character, Visible source.toList token.position character := by
  obtain ⟨place, character, same, visible⟩ :=
    (segmented_of_tokensOf accepted).exists_visible member
  rw [same, Nat.zero_add]
  exact exists_visible_of_toUpper visible

/-- A lexical error is met at a character that is not layout. -/
theorem exists_visible_of_lexicalError {source : String} {error : LexicalError}
    (refused : tokensOf source = .error error) :
    ∃ character, Visible source.toList error.position character := by
  obtain ⟨found, rest, split, ends⟩ := exists_segmented 0 (source.toList.map Char.toUpper)
  cases rest with
  | nil => exact nomatch (Reading.outcome_whole split).symm.trans refused
  | cons first others =>
    obtain ⟨taken, met⟩ := ends first others rfl
    obtain rfl := Except.error.inj ((Reading.outcome_stuck split met).symm.trans refused)
    obtain ⟨before, whole, _⟩ := split.front
    have found : (source.toList.map Char.toUpper)[0 + ((source.toList.map Char.toUpper).length -
        (first :: others).length)]? = some first := by
      rw [whole, Nat.zero_add, List.length_append, Nat.add_sub_cancel,
        List.getElem?_append_right (Nat.le_refl _), Nat.sub_self]
      rfl
    exact exists_visible_of_toUpper
      ⟨found, fun blank => nomatch (Lexeme.scan_layout blank others).symm.trans met⟩

/-! ### Where characters stand in their lines -/

/-- The place of a character in a text: lines are counted by the line feeds in front, and the
character is found in the line at the column. -/
structure Location.Shows (source : List Char) (position : Nat) (character : Char)
    (location : Location) : Prop where
  lineNumber : location.lineNumber = (source.take position).count '\n' + 1
  column : location.line.toList[location.column]? = some character

/-- A line has no line feed in it, with its carriage return or without. -/
theorem CutAtLine.not_mem {before line ending : List Char}
    (cut : CutAtLine source before line ending behind) : '\n' ∉ line ++ ending := by
  intro member
  rcases List.mem_append.mp member with inside | last
  · exact cut.inside inside
  · rcases cut.ending with rfl | ⟨rfl, _⟩
    · exact absurd last (by decide)
    · exact absurd last List.not_mem_nil

theorem CutAtLine.count_take {before line ending : List Char}
    (cut : CutAtLine source before line ending behind) {column : Nat}
    (bound : column ≤ line.length + ending.length) :
    (source.take (before.length + column)).count '\n' = before.count '\n' := by
  have clear : '\n' ∉ (line ++ ending).take column :=
    fun member => cut.not_mem (List.mem_of_mem_take member)
  rw [cut.whole, List.take_length_add_append, List.count_append, ← List.append_assoc,
    List.take_append_of_le_length (by rw [List.length_append]; exact bound),
    List.count_eq_zero.mpr clear, Nat.add_zero]

/-- Behind the characters of a line, up to the next line, there is only layout. -/
theorem CutAtLine.isLayout_of_le {before line ending : List Char}
    (cut : CutAtLine source before line ending behind) {column : Nat}
    (bound : column ≤ line.length + ending.length) (past : line.length ≤ column) {character : Char}
    (found : source[before.length + column]? = some character) : isLayout character := by
  rw [cut.whole, List.getElem?_append_right (Nat.le_add_right _ _), Nat.add_sub_cancel_left,
    List.getElem?_append_right past] at found
  have last {next : Char} (first : behind[0]? = some next) : isLayout next := by
    rw [← List.head?_eq_getElem?] at first
    obtain rfl := cut.ends next first
    rfl
  rcases cut.ending with rfl | ⟨rfl, _⟩
  · rw [List.length_singleton] at bound
    by_cases here : column = line.length
    · rw [here, Nat.sub_self] at found
      obtain rfl := Option.some.inj found
      rfl
    · rw [show column - line.length = 1 by omega] at found
      exact last found
  · rw [show column - line.length = 0 from Nat.sub_eq_zero_of_le bound] at found
    exact last found

/-- A character that is not layout is found in its line at its column. -/
theorem Location.shows_ofPosition {character : Char} (visible : Visible source position character) :
    Location.Shows source position character (Location.ofPosition source position) := by
  obtain ⟨found, shown⟩ := visible
  have inside := (List.getElem?_eq_some_iff.mp found).1
  obtain ⟨before, ending, behind, cut, number, place, bound⟩ :=
    Location.stands_ofPosition (Nat.le_of_lt inside)
  generalize Location.ofPosition source position = location at cut number place bound ⊢
  subst place
  have within : location.column < location.line.toList.length :=
    Nat.lt_of_not_le fun past => shown (cut.isLayout_of_le bound past found)
  refine ⟨by rw [cut.count_take bound, number], ?_⟩
  rw [cut.whole, List.getElem?_append_right (Nat.le_add_right _ _), Nat.add_sub_cancel_left,
    List.getElem?_append_left within] at found
  exact found

/-- A row of signs in which one is another. -/
theorem map_range_eq_replicate {column width : Nat} (inside : column < width) :
    (List.range width).map (fun index => if index = column then '^' else '=') =
      List.replicate column '=' ++ '^' :: List.replicate (width - column - 1) '=' := by
  obtain ⟨more, rfl⟩ := Nat.exists_eq_add_of_lt inside
  have others (start count : Nat) (apart : ∀ index < count, start + index ≠ column) :
      (List.range count).map (fun index => if start + index = column then '^' else '=') =
        List.replicate count '=' := by
    rw [List.eq_replicate_iff]
    refine ⟨by rw [List.length_map, List.length_range], fun sign member => ?_⟩
    obtain ⟨index, below, rfl⟩ := List.mem_map.mp member
    exact if_neg (apart index (List.mem_range.mp below))
  have front := others 0 column fun index below => by omega
  have back := others (column + 1) more fun index _ => by omega
  simp only [Nat.zero_add] at front
  rw [show column + more + 1 = column + 1 + more by omega, List.range_add, List.range_succ,
    List.map_append, List.map_append, List.map_map, front,
    show column + 1 + more - column - 1 = more by omega, List.append_assoc]
  exact congrArg _ (congrArg₂ _ (if_pos rfl) back)

/-- The ruler under a line that has a character at the column: as long as the line, with one
caret, at the column. -/
theorem Location.marker_eq {location : Location} {character : Char}
    (found : location.line.toList[location.column]? = some character) :
    location.marker.toList = List.replicate location.column '=' ++
      '^' :: List.replicate (location.line.length - location.column - 1) '=' := by
  have inside : location.column < location.line.length :=
    String.length_toList ▸ (List.getElem?_eq_some_iff.mp found).1
  rw [marker, Nat.max_eq_left inside, String.toList_ofList, map_range_eq_replicate inside]

end ByteStack
