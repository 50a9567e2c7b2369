/-
This file writes puzzles as JSON: one object on one line, its members in the
order in which a puzzle lists its fields, without blanks between the symbols. A
run without a cycle budget says so with `null`.
-/

import ByteStack.Json.Symbol
import ByteStack.Puzzle.Basic

namespace ByteStack

namespace Json

/-! ### Containers -/

/-- The symbols of parts, with commas between them. -/
def separated : List (List Symbol) → List Symbol
  | [] => []
  | [part] => part
  | part :: next :: rest => part ++ .comma :: separated (next :: rest)

def arraySymbols (items : List (List Symbol)) : List Symbol :=
  .openArray :: separated items ++ [.closeArray]

/-- The symbols of an object, of whose members the names and the symbols of the values are
given. -/
def objectSymbols (members : List (String × List Symbol)) : List Symbol :=
  .openObject
    :: separated (members.map fun (name, value) => .string (some name) :: .colon :: value)
    ++ [.closeObject]

def textSymbols (text : String) : List Symbol :=
  [.string (some text)]

def integerSymbols (value : Int) : List Symbol :=
  [.number (some (.integer value))]

end Json

open Json

/-! ### Puzzles -/

def signedBytesSymbols (values : List Int8) : List Symbol :=
  arraySymbols (values.map fun value => integerSymbols value.toInt)

def PuzzleRun.symbols (run : PuzzleRun) : List Symbol :=
  objectSymbols
    [("inbox", signedBytesSymbols run.inbox),
      ("outbox", signedBytesSymbols run.outbox),
      ("cycles", match run.cycles? with
        | some cycles => integerSymbols cycles.toNat
        | none => [.null])]

def Puzzle.symbols (puzzle : Puzzle) : List Symbol :=
  objectSymbols
    [("name", textSymbols puzzle.name),
      ("description", textSymbols puzzle.description),
      ("impl", textSymbols puzzle.solution),
      ("size_goal", integerSymbols puzzle.sizeGoal.toNat),
      ("runs", arraySymbols (puzzle.runs.map PuzzleRun.symbols))]

/-- The JSON text of a puzzle. -/
def Puzzle.toText (puzzle : Puzzle) : String :=
  String.ofList (puzzle.symbols.flatMap Symbol.written)

end ByteStack
