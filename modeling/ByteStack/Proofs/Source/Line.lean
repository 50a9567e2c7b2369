/-
This file is about the lines of a text, which are what its line feeds cut it into.
The location of a position counts the line feeds in front of it and the characters
behind the last of them, and it names the line with that number, without a carriage
return at its end. So the lengths of the earlier lines, a line feed behind each, and
the column add up to the position, and no two positions have one location. A
position behind the text lies on its last line, and the sum is the same there.

The ruler that is drawn under the line reaches to the end of the line and to the
column, and its only caret is at the column.
-/

import ByteStack.Proofs.Source.Character
import ByteStack.Source.Map
import Mathlib.Algebra.GroupWithZero.Nat
import Mathlib.Data.List.DropRight

namespace ByteStack

variable {source before line ending behind : List Char} {position column : Nat}

/-! ### Lines -/

/-- A text has one line more than it has line feeds. -/
theorem length_splitOn (text : List Char) : (text.splitOn '\n').length = text.count '\n' + 1 := by
  induction text with
  | nil => rfl
  | cons first rest inductionHypothesis =>
    rw [List.splitOn_cons_eq_if_modifyHead, List.count_cons]
    split
    · rw [List.length_cons, inductionHypothesis]
    · rw [List.length_modifyHead, inductionHypothesis, Nat.add_zero]

/-- With a line feed behind each, the lines of a text are one character longer than the text. -/
theorem sum_length_splitOn (text : List Char) :
    ((text.splitOn '\n').map (·.length + 1)).sum = text.length + 1 := by
  induction text with
  | nil => rfl
  | cons first rest inductionHypothesis =>
    rw [List.splitOn_cons_eq_if_modifyHead, List.length_cons]
    split
    · rw [List.map_cons, List.sum_cons, inductionHypothesis, List.length_nil, Nat.zero_add,
        Nat.add_comm]
    · obtain ⟨next, others, shape⟩ := List.exists_cons_of_ne_nil (List.splitOn_ne_nil '\n' rest)
      rw [shape, List.map_cons, List.sum_cons] at inductionHypothesis
      rw [shape, List.modifyHead_cons, List.map_cons, List.sum_cons, List.length_cons,
        Nat.add_right_comm, inductionHypothesis]

/-- A text that is cut at one of its lines has as many lines in front of that as it has line feeds
there. They are as long as all that stands in front, if their line feeds are counted. -/
theorem CutAtLine.splitOn_eq (cut : CutAtLine source before line ending behind) :
    ∃ earlier later, source.splitOn '\n' = earlier ++ (line ++ ending) :: later ∧
      earlier.length = before.count '\n' ∧ (earlier.map (·.length + 1)).sum = before.length ∧
      (behind = [] → later = []) := by
  have first : ∃ later, ((line ++ ending) ++ behind).splitOn '\n' = (line ++ ending) :: later ∧
      (behind = [] → later = []) := by
    cases behind with
    | nil =>
      exact ⟨[], by rw [List.append_nil, List.splitOn_eq_singleton cut.not_mem], fun _ => rfl⟩
    | cons next others =>
      obtain rfl := cut.ends next rfl
      exact ⟨_, List.splitOn_append_cons_self_of_not_mem cut.not_mem _, nofun⟩
  obtain ⟨later, split, last⟩ := first
  rw [cut.whole, ← List.append_assoc line]
  rcases List.eq_nil_or_concat before with rfl | ⟨front, final, rfl⟩
  · exact ⟨[], later, split, rfl, rfl, last⟩
  · rw [List.concat_eq_append] at *
    obtain rfl := cut.begins final List.getLast?_concat
    refine ⟨front.splitOn '\n', later, ?_, ?_, ?_, last⟩
    · rw [List.append_assoc, List.singleton_append, List.splitOn_append_cons_self, split]
    · rw [length_splitOn, List.count_append, List.count_singleton_self]
    · rw [sum_length_splitOn, List.length_append, List.length_singleton]

/-! ### Positions -/

/-- Where the line of a position starts: behind the last line feed in front of the position, or
at the start of the text. -/
def startOfLine (source : List Char) (position : Nat) : Nat :=
  ((source.take position).rdropWhile (· ≠ '\n')).length

/-- Up to a position on a line the text is all that stands in front of the line, and a part of the
line. Behind the last line this is so for every position. -/
theorem CutAtLine.take_eq (cut : CutAtLine source before line ending behind)
    (reach : column ≤ line.length + ending.length ∨ behind = []) :
    source.take (before.length + column) = before ++ (line ++ ending).take column := by
  rw [cut.whole, List.take_length_add_append, ← List.append_assoc]
  rcases reach with bound | rfl
  · rw [List.take_append_of_le_length (by rwa [List.length_append])]
  · rw [List.append_nil]

/-- The line of a position starts where the text is cut in front of it. -/
theorem CutAtLine.startOfLine_eq (cut : CutAtLine source before line ending behind)
    (reach : column ≤ line.length + ending.length ∨ behind = []) :
    startOfLine source (before.length + column) = before.length := by
  have clear : ∀ character ∈ ((line ++ ending).take column).reverse,
      decide (character ≠ '\n') = true := by
    intro character member
    rw [decide_eq_true_eq]
    rintro rfl
    exact cut.not_mem (List.mem_of_mem_take (List.mem_reverse.mp member))
  have stops : before.reverse.dropWhile (· ≠ '\n') = before.reverse := by
    rcases List.eq_nil_or_concat before with rfl | ⟨front, final, rfl⟩
    · rfl
    · rw [List.concat_eq_append] at *
      obtain rfl := cut.begins final List.getLast?_concat
      rw [List.reverse_append]
      rfl
  rw [startOfLine, cut.take_eq reach, List.rdropWhile, List.reverse_append,
    List.dropWhile_append_of_pos clear, stops, List.reverse_reverse]

/-- Behind a line on which the text ends there is nothing. -/
theorem CutAtLine.behind_eq_nil (cut : CutAtLine source before line ending behind)
    (bound : column ≤ line.length + ending.length) (past : source.length ≤ before.length + column) :
    behind = [] := by
  have length := congrArg List.length cut.whole
  rw [List.length_append, List.length_append, List.length_append] at length
  exact List.eq_nil_of_length_eq_zero (by omega)

/-- Walking on behind the text only counts columns. -/
theorem Cursor.walk_nil (lineNumber column : Nat) (lineStart : List Char) (distance : Nat) :
    walk lineNumber column lineStart [] distance =
      ⟨lineNumber, column + distance, lineStart, []⟩ := by
  cases distance with
  | zero => rfl
  | succ distance => rfl

/-- A position behind the text is on the line of the end of the text. -/
theorem Location.ofPosition_length_add (source : List Char) (distance : Nat) :
    ofPosition source (source.length + distance) =
      { ofPosition source source.length with
        column := (ofPosition source source.length).column + distance } := by
  obtain ⟨before, passed, whole, split, _, _, _, _, place⟩ :=
    Cursor.stands_ofPosition (Nat.le_refl source.length)
  have finished : (Cursor.ofPosition source source.length).rest = [] := by
    have length := congrArg List.length whole
    rw [split, List.length_append, List.length_append] at length
    exact List.eq_nil_of_length_eq_zero (by omega)
  have farther : Cursor.ofPosition source (source.length + distance) =
      { Cursor.ofPosition source source.length with
        column := (Cursor.ofPosition source source.length).column + distance } := by
    rw [Cursor.ofPosition, ← Cursor.advance_advance, ← Cursor.ofPosition, Cursor.advance, finished,
      Cursor.walk_nil]
    dsimp only
    rw [finished]
  rw [ofPosition, farther]
  rfl

/-- The text is cut at the line of a position, and the position is behind the cut as far as its
column says. It lies on that line, or the line is the last. -/
theorem Location.exists_cut (source : List Char) (position : Nat) :
    ∃ before ending behind,
      CutAtLine source before (ofPosition source position).line.toList ending behind ∧
      (ofPosition source position).lineNumber = before.count '\n' + 1 ∧
      before.length + (ofPosition source position).column = position ∧
      ((ofPosition source position).column ≤
        (ofPosition source position).line.toList.length + ending.length ∨ behind = []) := by
  rcases Nat.le_total position source.length with inside | past
  · obtain ⟨before, ending, behind, cut, number, place, bound⟩ := stands_ofPosition inside
    exact ⟨before, ending, behind, cut, number, place.symm, Or.inl bound⟩
  · obtain ⟨distance, rfl⟩ := Nat.exists_eq_add_of_le past
    obtain ⟨before, ending, behind, cut, number, place, bound⟩ :=
      stands_ofPosition (Nat.le_refl source.length)
    have last := cut.behind_eq_nil bound (Nat.le_of_eq place)
    rw [ofPosition_length_add]
    refine ⟨before, ending, behind, cut, number, ?_, Or.inr last⟩
    rw [← Nat.add_assoc, ← place]

/-- The location is that of the position among the lines of the text. -/
structure Location.Faithful (source : List Char) (position : Nat) (location : Location) : Prop where
  /-- The lines in front are those that end in front of the position. -/
  lineNumber : location.lineNumber = 1 + (source.take position).count '\n'
  /-- The column is the distance from the start of the line. -/
  column : startOfLine source position + location.column = position
  /-- The line is the one with the number, less one carriage return at its end. -/
  line : ∃ text, (source.splitOn '\n')[location.lineNumber - 1]? = some text ∧
    (text = location.line.toList ++ ['\r'] ∨
      text = location.line.toList ∧ text.getLast? ≠ some '\r')
  /-- The earlier lines with their line feeds, and the column, add up to the position. -/
  sum : (((source.splitOn '\n').take (location.lineNumber - 1)).map (·.length + 1)).sum +
    location.column = position
  /-- The character of the line at the column is that of the text at the position. -/
  character : location.column < location.line.length →
    location.line.toList[location.column]? = source[position]?
  /-- From the end of the text on, positions are on the last line. -/
  last : source.length ≤ position → location.lineNumber = (source.splitOn '\n').length

theorem Location.faithful_ofPosition (source : List Char) (position : Nat) :
    Location.Faithful source position (ofPosition source position) := by
  obtain ⟨before, ending, behind, cut, number, place, reach⟩ := exists_cut source position
  obtain ⟨earlier, later, lines, count, sum, last⟩ := cut.splitOn_eq
  generalize ofPosition source position = location at cut number place reach lines
  have index : location.lineNumber - 1 = earlier.length := by
    rw [number, count, Nat.add_sub_cancel]
  constructor
  case lineNumber =>
    have clear : '\n' ∉ (location.line.toList ++ ending).take location.column :=
      fun member => cut.not_mem (List.mem_of_mem_take member)
    rw [← place, cut.take_eq reach, List.count_append, List.count_eq_zero.mpr clear, number,
      Nat.add_zero, Nat.add_comm 1]
  case column =>
    nth_rewrite 1 [← place]
    rw [cut.startOfLine_eq reach, place]
  case line =>
    refine ⟨location.line.toList ++ ending, ?_, ?_⟩
    · rw [lines, index, List.getElem?_append_right (Nat.le_refl _), Nat.sub_self]
      rfl
    · rcases cut.ending with rfl | ⟨rfl, plain⟩
      · exact Or.inl rfl
      · rw [List.append_nil]
        exact Or.inr ⟨rfl, plain⟩
  case sum => rw [lines, index, List.take_left, sum, place]
  case character =>
    intro within
    rw [← place, cut.whole, List.getElem?_append_right (Nat.le_add_right _ _),
      Nat.add_sub_cancel_left, List.getElem?_append_left within]
  case last =>
    intro past
    have finished : behind = [] := by
      rcases reach with bound | finished
      · exact cut.behind_eq_nil bound (Nat.le_trans past (Nat.le_of_eq place.symm))
      · exact finished
    rw [lines, last finished, List.length_append, count, number]
    rfl

/-! ### Rulers -/

/-- The ruler reaches to the end of the line and to the column, where its only caret is. -/
structure Location.Ruler (location : Location) (ruler : List Char) : Prop where
  length : ruler.length = max location.line.length (location.column + 1)
  caret (index : Nat) : ruler[index]? = some '^' ↔ index = location.column

theorem Location.ruler_marker (location : Location) :
    location.Ruler location.marker.toList := by
  have inside : location.column < max location.line.length (location.column + 1) :=
    Nat.lt_of_lt_of_le (Nat.lt_succ_self _) (Nat.le_max_right _ _)
  rw [marker, String.toList_ofList]
  refine ⟨by rw [List.length_map, List.length_range], fun index => ?_⟩
  rw [List.getElem?_map]
  rcases Nat.lt_or_ge index (max location.line.length (location.column + 1)) with below | past
  · rw [List.getElem?_range below, Option.map_some, Option.some_inj]
    by_cases here : index = location.column
    · rw [if_pos here]
      exact iff_of_true rfl here
    · rw [if_neg here]
      exact iff_of_false (by decide) here
  · rw [List.getElem?_eq_none (by rwa [List.length_range]), Option.map_none]
    exact iff_of_false (Option.some_ne_none _).symm
      (Nat.ne_of_gt (Nat.lt_of_lt_of_le inside past))

/-- Every position of a text, and every one behind it, is located faithfully, and no two have one
line and one column. What is drawn for a position is the message with the number of the line, the
line, and a ruler with its only caret at the column. -/
theorem SourceMap.faithful_locationAt (map : SourceMap) :
    (∀ position, Location.Faithful map.source position (map.locationAt position)) ∧
    (Function.Injective fun position =>
      ((map.locationAt position).lineNumber, (map.locationAt position).column)) ∧
    ∀ position message, ∃ ruler : String,
      (map.locationAt position).render message =
        "error on line " ++ Text.natural (map.locationAt position).lineNumber ++ ": " ++ message ++
          "\n" ++ (map.locationAt position).line ++ "\n" ++ ruler ∧
      (map.locationAt position).Ruler ruler.toList := by
  have faithful (position : Nat) :
      Location.Faithful map.source position (map.locationAt position) :=
    Location.faithful_ofPosition map.source position
  refine ⟨faithful, ?_, fun position message => ⟨_, rfl, Location.ruler_marker _⟩⟩
  intro first second same
  obtain ⟨number, column⟩ := Prod.mk.inj same
  have sums := (faithful first).sum
  rw [number, column, (faithful second).sum] at sums
  exact sums.symm

end ByteStack
