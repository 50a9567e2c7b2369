/-
This file says what the line and the column of a position mean in the text. The
text can be cut at the line: what stands in front of it is empty or ends with a
line feed, and has as many line feeds as lines stand in front; the line has none;
and behind it, less a carriage return, the text ends or goes on with a line feed.
The position is as far behind the front of the line as the column says.

A word of the text has no line feed in it, so it stands on its line as a whole,
and is the run of letters that begins at its column.
-/

import ByteStack.Proofs.Source.Segmentation
import ByteStack.Source.Location

namespace ByteStack

variable {source before line ending behind rest : List Char} {position distance : Nat}

/-! ### Cursors -/

namespace Cursor

/-- The cursor has passed a text up to the position: whole lines first, and then as much of one
line as the column says. -/
def Stands (source : List Char) (position : Nat) (cursor : Cursor) : Prop :=
  ∃ before passed, source = before ++ cursor.lineStart ∧ cursor.lineStart = passed ++ cursor.rest ∧
    (∀ last ∈ before.getLast?, last = '\n') ∧ '\n' ∉ passed ∧
    cursor.lineNumber = before.count '\n' + 1 ∧ cursor.column = passed.length ∧
    position = before.length + passed.length

/-- Walking on keeps the cursor in its place. -/
theorem Stands.walk {lineNumber column : Nat} {lineStart : List Char}
    (stands : Stands source position ⟨lineNumber, column, lineStart, rest⟩)
    (inside : distance ≤ rest.length) :
    Stands source (position + distance) (walk lineNumber column lineStart rest distance) := by
  fun_induction Cursor.walk lineNumber column lineStart rest distance generalizing position with
  | case1 => exact stands
  | case2 => exact absurd inside (Nat.not_succ_le_zero _)
  | case3 lineNumber column lineStart rest distance inductionHypothesis =>
    obtain ⟨before, passed, whole, split, begins, clear, number, same, place⟩ := stands
    dsimp only at whole split number same
    have next : Stands source (position + 1) ⟨lineNumber + 1, 0, rest, rest⟩ := by
      refine ⟨before ++ (passed ++ ['\n']), [], ?_, rfl, ?_, List.not_mem_nil, ?_, rfl, ?_⟩
      · rw [whole, split]
        simp only [List.append_assoc, List.singleton_append]
      · intro last member
        rw [← List.append_assoc, List.getLast?_concat] at member
        exact (Option.some.inj member).symm
      · rw [List.count_append, List.count_append, List.count_eq_zero.mpr clear, number,
          List.count_singleton_self, Nat.zero_add]
      · rw [place, List.length_append, List.length_append]
        rfl
    rw [Nat.succ_eq_add_one, Nat.add_comm distance, ← Nat.add_assoc]
    exact inductionHypothesis next (Nat.le_of_succ_le_succ inside)
  | case4 lineNumber column lineStart character rest distance different inductionHypothesis =>
    obtain ⟨before, passed, whole, split, begins, clear, number, same, place⟩ := stands
    dsimp only at whole split number same
    have next : Stands source (position + 1) ⟨lineNumber, column + 1, lineStart, rest⟩ := by
      refine ⟨before, passed ++ [character], whole, ?_, begins, ?_, number, ?_, ?_⟩
      · rw [split, List.append_assoc]
        rfl
      · intro member
        rcases List.mem_append.mp member with earlier | last
        · exact clear earlier
        · exact different (List.mem_singleton.mp last).symm
      · rw [same, List.length_append]
        rfl
      · rw [place, List.length_append, Nat.add_assoc]
        rfl
    rw [Nat.succ_eq_add_one, Nat.add_comm distance, ← Nat.add_assoc]
    exact inductionHypothesis next (Nat.le_of_succ_le_succ inside)

theorem stands_ofPosition (inside : position ≤ source.length) :
    Stands source position (ofPosition source position) := by
  have start : Stands source 0 ⟨1, 0, source, source⟩ :=
    ⟨[], [], rfl, rfl, nofun, List.not_mem_nil, rfl, rfl, rfl⟩
  have walked := start.walk inside
  rw [Nat.zero_add] at walked
  exact walked

end Cursor

/-! ### Lines -/

/-- The text is cut at one of its lines. The last two lists are a carriage return that ends the
line, or nothing, and what stands behind it. -/
structure CutAtLine (source before line ending behind : List Char) : Prop where
  whole : source = before ++ (line ++ (ending ++ behind))
  begins : ∀ last ∈ before.getLast?, last = '\n'
  inside : '\n' ∉ line
  ending : ending = ['\r'] ∨ ending = [] ∧ line.getLast? ≠ some '\r'
  ends : ∀ next ∈ behind.head?, next = '\n'

/-- The location is that of the position: it has the text of its line, as many lines stand in
front of that as its number says, and the position lies in the line at the column. -/
def Location.Stands (source : List Char) (position : Nat) (location : Location) : Prop :=
  ∃ before ending behind, CutAtLine source before location.line.toList ending behind ∧
    location.lineNumber = before.count '\n' + 1 ∧
    position = before.length + location.column ∧
    location.column ≤ location.line.toList.length + ending.length

namespace Location

/-- The first line of a text and what was taken off it. -/
theorem exists_firstLine (characters : List Char) :
    ∃ ending behind, CutAtLine characters [] (firstLine characters) ending behind ∧
      characters.takeWhile (· ≠ '\n') = firstLine characters ++ ending := by
  have clear : '\n' ∉ characters.takeWhile (· ≠ '\n') := by
    intro member
    exact absurd (List.mem_takeWhile_imp member) (by decide)
  have ends : ∀ next ∈ (characters.dropWhile (· ≠ '\n')).head?, next = '\n' := by
    intro next member
    have stops := List.head?_dropWhile_not (fun character => decide (character ≠ '\n')) characters
    rw [Option.mem_def.mp member] at stops
    simpa using stops
  unfold firstLine
  dsimp only
  by_cases returns : (characters.takeWhile (· ≠ '\n')).getLast? = some '\r'
  · rw [if_pos returns]
    obtain ⟨text, shape⟩ := List.getLast?_eq_some_iff.mp returns
    have split : (characters.takeWhile (· ≠ '\n')).dropLast ++ ['\r'] =
        characters.takeWhile (· ≠ '\n') := by
      rw [shape, List.dropLast_concat]
    refine ⟨['\r'], characters.dropWhile (· ≠ '\n'), ⟨?_, nofun, ?_, Or.inl rfl, ends⟩, split.symm⟩
    · rw [List.nil_append, ← List.append_assoc, split, List.takeWhile_append_dropWhile]
    · exact fun member => clear (List.dropLast_subset _ member)
  · rw [if_neg returns]
    refine ⟨[], characters.dropWhile (· ≠ '\n'), ⟨?_, nofun, clear, Or.inr ⟨rfl, returns⟩, ends⟩,
      (List.append_nil _).symm⟩
    rw [List.nil_append, List.nil_append, List.takeWhile_append_dropWhile]

/-- The location of a position in a text is what it should be. -/
theorem stands_ofPosition (inside : position ≤ source.length) :
    Stands source position (ofPosition source position) := by
  obtain ⟨before, passed, whole, split, begins, clear, number, column, place⟩ :=
    Cursor.stands_ofPosition inside
  obtain ⟨ending, behind, cut, first⟩ :=
    exists_firstLine (Cursor.ofPosition source position).lineStart
  have line : (ofPosition source position).line.toList =
      firstLine (Cursor.ofPosition source position).lineStart := String.toList_ofList
  refine ⟨before, ending, behind, ?_, number, ?_, ?_⟩
  · rw [line]
    exact ⟨whole.trans (congrArg (before ++ ·) cut.whole), begins, cut.inside, cut.ending, cut.ends⟩
  · exact place.trans (congrArg (before.length + ·) column.symm)
  · -- What was passed on the line is a part of it.
    have through :
        passed <+: (Cursor.ofPosition source position).lineStart.takeWhile (· ≠ '\n') := by
      rw [split, List.takeWhile_append_of_pos]
      · exact List.prefix_append _ _
      · intro character member
        rw [decide_eq_true_eq]
        rintro rfl
        exact clear member
    have bound := through.length_le
    rw [first, List.length_append, ← column] at bound
    rw [line]
    exact bound

end Location

/-! ### Words -/

/-- The location is that of a word: it stands where the word does, and the letters from its column
on are those of the word. -/
structure Location.Marks (source : List Char) (word : Token) (location : Location) : Prop where
  stands : location.Stands source word.position
  spells : ((location.line.toList.drop location.column).map Char.toUpper).takeWhile Char.isUpper =
    word.literal.toList

/-- A mnemonic is a longest run of letters at its position. -/
theorem Segmented.exists_mnemonic {text : List Char} {tokens : List Token} {token : Token}
    (segmented : Segmented position text tokens rest) (member : token ∈ tokens)
    (kind : token.kind = .mnemonic) :
    ∃ before behind, text = before ++ (token.literal.toList ++ behind) ∧
      token.position = position + before.length ∧
      LongestRun Char.isUpper token.literal.toList behind := by
  induction segmented with
  | stop => exact absurd member List.not_mem_nil
  | layout segment more inductionHypothesis =>
    obtain ⟨before, behind, rfl, place, longest⟩ := inductionHypothesis member
    refine ⟨_ ++ before, behind, (List.append_assoc _ _ _).symm, ?_, longest⟩
    rw [place, List.length_append, Nat.add_assoc]
  | token segment more inductionHypothesis =>
    rcases List.mem_cons.mp member with rfl | later
    · obtain rfl := kind
      cases segment with
      | mnemonic longest =>
        rw [String.toList_ofList]
        exact ⟨[], _, rfl, rfl, longest⟩
    · obtain ⟨before, behind, rfl, place, longest⟩ := inductionHypothesis later
      refine ⟨_ ++ before, behind, (List.append_assoc _ _ _).symm, ?_, longest⟩
      rw [place, List.length_append, Nat.add_assoc]

/-- Behind a line no letter follows. -/
theorem CutAtLine.takeWhile_behind (cut : CutAtLine source before line ending behind) {count : Nat}
    (bound : count ≤ ending.length) :
    (((ending ++ behind).drop count).map Char.toUpper).takeWhile Char.isUpper = [] := by
  have last : (behind.map Char.toUpper).takeWhile Char.isUpper = [] := by
    cases behind with
    | nil => rfl
    | cons next others =>
      obtain rfl := cut.ends next rfl
      rfl
  rcases cut.ending with rfl | ⟨rfl, _⟩
  · cases count with
    | zero => rfl
    | succ count =>
      obtain rfl := Nat.le_zero.mp (Nat.le_of_succ_le_succ bound)
      exact last
  · obtain rfl := Nat.le_zero.mp bound
    exact last

/-- A run of letters at a position stands on the line of that position as a whole. -/
theorem CutAtLine.takeWhile_drop (cut : CutAtLine source before line ending behind) {column : Nat}
    (bound : column ≤ line.length + ending.length) {letters after : List Char}
    (there : (source.map Char.toUpper).drop (before.length + column) = letters ++ after)
    (longest : LongestRun Char.isUpper letters after) :
    ((line.drop column).map Char.toUpper).takeWhile Char.isUpper = letters := by
  have none := cut.takeWhile_behind (Nat.sub_le_iff_le_add'.mpr bound)
  have split : (source.map Char.toUpper).drop (before.length + column) =
      (line.drop column).map Char.toUpper ++
        ((ending ++ behind).drop (column - line.length)).map Char.toUpper := by
    rw [← List.map_drop, cut.whole, ← List.drop_drop, List.drop_left, List.drop_append,
      List.map_append]
  rw [← longest.takeWhile_append, ← there, split, List.takeWhile_append]
  split
  · next same =>
    rw [none, List.append_nil]
    exact (List.takeWhile_prefix _).eq_of_length same
  · rfl

/-- The location of a mnemonic of a text marks it. -/
theorem Location.marks_ofPosition {tokens : List Token} {token : Token}
    (segmented : Segmented 0 (source.map Char.toUpper) tokens []) (member : token ∈ tokens)
    (kind : token.kind = .mnemonic) :
    Location.Marks source token (Location.ofPosition source token.position) := by
  obtain ⟨front, after, whole, place, longest⟩ := segmented.exists_mnemonic member kind
  rw [Nat.zero_add] at place
  have inside : token.position ≤ source.length := by
    have length := congrArg List.length whole
    rw [List.length_map, List.length_append] at length
    omega
  obtain ⟨before, ending, behind, cut, number, column, bound⟩ := Location.stands_ofPosition inside
  refine ⟨Location.stands_ofPosition inside, cut.takeWhile_drop bound ?_ longest⟩
  rw [← column, place, whole, List.drop_left]

end ByteStack
