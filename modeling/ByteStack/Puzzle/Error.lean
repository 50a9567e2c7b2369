/-
This file lists why a text is no puzzle. Either the text is broken as JSON, or
a value in it is not what the puzzle needs there. A fault names what was found
and what was expected.
-/

import ByteStack.Json.Number
import ByteStack.Text.Quoted

namespace ByteStack

/-- What can be expected of a value. -/
inductive Expected where
  | puzzle
  | puzzleRun
  | text
  | sequence
  | sizeGoal
  | signedByte
  | cycles

def Expected.name : Expected → String
  | .puzzle => "struct Puzzle"
  | .puzzleRun => "struct PuzzleRun"
  | .text => "a string"
  | .sequence => "a sequence"
  | .sizeGoal => "u32"
  | .signedByte => "i8"
  | .cycles => "u64"

/-- What was found instead. -/
inductive Found where
  | null
  | boolean (value : Bool)
  | number (value : Json.Number)
  | string (text : String)
  | sequence
  | map

def Found.name : Found → String
  | .null => "null"
  | .boolean true => "boolean `true`"
  | .boolean false => "boolean `false`"
  | .number (.integer value) => "integer `" ++ Text.integer value ++ "`"
  | .number (.floating negative magnitude) =>
    "floating point `" ++ Decimal.text Json.Number.layout negative magnitude ++ "`"
  | .string text => "string " ++ Text.quoted text
  | .sequence => "sequence"
  | .map => "map"

/-- Why a value is not what the puzzle needs. -/
inductive PuzzleFault where
  | missingField (name : String)
  | duplicateField (name : String)
  | invalidType (found : Found) (expected : Expected)
  /-- A whole number outside the range that is expected. -/
  | invalidValue (value : Int) (expected : Expected)
  /-- An array of field values lacks the one at this index, of so many. -/
  | invalidLength (index : Nat) (expected : Expected) (fields : Nat)

def PuzzleFault.message : PuzzleFault → String
  | .missingField name => "missing field `" ++ name ++ "`"
  | .duplicateField name => "duplicate field `" ++ name ++ "`"
  | .invalidType found expected =>
    "invalid type: " ++ found.name ++ ", expected " ++ expected.name
  | .invalidValue value expected =>
    "invalid value: " ++ (Found.number (.integer value)).name ++ ", expected " ++ expected.name
  | .invalidLength index expected fields =>
    "invalid length " ++ Text.natural index ++ ", expected " ++ expected.name ++ " with "
      ++ Text.natural fields ++ " elements"

/-- Why a text is no puzzle. -/
inductive PuzzleError where
  | json (defect : Json.Defect)
  | data (fault : PuzzleFault)

def PuzzleError.message : PuzzleError → String
  | .json .malformed => "invalid puzzle definition: malformed JSON"
  | .json .truncated => "invalid puzzle definition: unexpected end of JSON"
  | .data fault => "invalid puzzle definition: " ++ fault.message

end ByteStack
