/-
This file finds the line and the column of a character position, and draws a
message under that line. Lines end at a line feed, and a carriage return in
front of it is not part of the text of the line. Positions count characters.
A position past the end of the text lies on the last line, as far to the right
as it is past the end.
-/

import ByteStack.Text.Decimal

namespace ByteStack

/-! ### Cursors -/

/-- A position in a text and the text around it. -/
structure Cursor where
  /-- Counts from one. -/
  lineNumber : Nat
  /-- Counts from zero. -/
  column : Nat
  /-- The text from the start of the line on. -/
  lineStart : List Char
  /-- The text from the position on. -/
  rest : List Char
deriving DecidableEq

namespace Cursor

/-- The start of a text. -/
def start (source : List Char) : Cursor :=
  ⟨1, 0, source, source⟩

/-- Walks `distance` characters on. The arguments in front are those of the cursor. -/
def walk (lineNumber column : Nat) (lineStart : List Char) : List Char → Nat → Cursor
  | rest, 0 => ⟨lineNumber, column, lineStart, rest⟩
  | [], distance + 1 => ⟨lineNumber, column + distance + 1, lineStart, []⟩
  | '\n' :: rest, distance + 1 => walk (lineNumber + 1) 0 rest rest distance
  | _ :: rest, distance + 1 => walk lineNumber (column + 1) lineStart rest distance

/-- The cursor `distance` characters on. -/
def advance (cursor : Cursor) (distance : Nat) : Cursor :=
  walk cursor.lineNumber cursor.column cursor.lineStart cursor.rest distance

/-- Going on from where a walk ended is one longer walk. -/
theorem advance_walk (lineNumber column : Nat) (lineStart rest : List Char) (first second : Nat) :
    (walk lineNumber column lineStart rest first).advance second =
      walk lineNumber column lineStart rest (first + second) := by
  fun_induction walk lineNumber column lineStart rest first with
  | case1 => rw [Nat.zero_add, advance]
  | case2 lineNumber column lineStart distance =>
    rw [Nat.succ_add, walk, advance]
    cases second with
    | zero => rfl
    | succ second =>
      simp only [walk, Nat.add_assoc, Nat.add_left_comm]
  | case3 lineNumber column lineStart rest distance inductionHypothesis =>
    rw [inductionHypothesis, Nat.succ_add, walk]
  | case4 lineNumber column lineStart character rest distance different inductionHypothesis =>
    rw [inductionHypothesis, Nat.succ_add, walk]
    exact different

theorem advance_advance (cursor : Cursor) (first second : Nat) :
    (cursor.advance first).advance second = cursor.advance (first + second) :=
  advance_walk _ _ _ _ first second

/-- The cursor of a character position. -/
def ofPosition (source : List Char) (position : Nat) : Cursor :=
  (start source).advance position

/-- The cursors of positions. While positions rise, each walk goes on where the one before it
ended. `current` is the cursor of position `passed`. -/
def follow (source : List Char) (passed : Nat) (current : Cursor) : List Nat → List Cursor
  | [] => []
  | position :: rest =>
    let next := if passed ≤ position then current.advance (position - passed)
      else ofPosition source position
    next :: follow source position next rest

/-- The cursors of positions. -/
def ofPositions (source : List Char) (positions : List Nat) : List Cursor :=
  follow source 0 (start source) positions

theorem ofPositions_eq_map (source : List Char) (positions : List Nat) :
    ofPositions source positions = positions.map (ofPosition source) := by
  have general : ∀ passed : Nat,
      follow source passed (ofPosition source passed) positions =
        positions.map (ofPosition source) := by
    induction positions with
    | nil => intro passed; rfl
    | cons position rest inductionHypothesis =>
      intro passed
      have next : (if passed ≤ position then
          (ofPosition source passed).advance (position - passed)
          else ofPosition source position) = ofPosition source position := by
        split
        next rising =>
          rw [ofPosition, advance_advance, Nat.add_sub_of_le rising]
          rfl
        next => rfl
      simp only [follow, next, inductionHypothesis, List.map_cons]
  exact general 0

end Cursor

/-! ### Locations -/

/-- A place in a text. -/
structure Location where
  /-- The text of the line, without its line feed. -/
  line : String
  /-- Counts from one. -/
  lineNumber : Nat
  /-- Counts from zero. -/
  column : Nat
deriving DecidableEq

namespace Location

/-- The line at the front of a text: all up to the first line feed, less one carriage return
at its end. -/
def firstLine (characters : List Char) : List Char :=
  let line := characters.takeWhile (· ≠ '\n')
  if line.getLast? = some '\r' then line.dropLast else line

/-- The place of a cursor, with the text of its line. -/
def ofCursor (cursor : Cursor) : Location :=
  ⟨String.ofList (firstLine cursor.lineStart), cursor.lineNumber, cursor.column⟩

/-- The place of a character position in a text. -/
def ofPosition (source : List Char) (position : Nat) : Location :=
  ofCursor (Cursor.ofPosition source position)

/-- A ruler under the line, at least as long as the line, with a caret at the column. -/
def marker (location : Location) : String :=
  let width := max location.line.length (location.column + 1)
  String.ofList ((List.range width).map fun index => if index = location.column then '^' else '=')

/-- The message with the line number, then the line, then the ruler. -/
def render (location : Location) (message : String) : String :=
  "error on line " ++ Text.natural location.lineNumber ++ ": " ++ message ++ "\n"
    ++ location.line ++ "\n" ++ location.marker

end Location

end ByteStack
