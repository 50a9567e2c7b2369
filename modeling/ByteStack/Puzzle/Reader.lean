/-
This file reads puzzles from JSON. Values are read strictly in the order of the
text, and the first problem is the one that is reported. A puzzle and a run can
be written as objects, whose members come in any order, or as arrays of their
fields. Members with other names are skipped: their values only have to be well
formed.
-/

import ByteStack.Json.Document
import ByteStack.Puzzle.Basic
import ByteStack.Puzzle.Error

namespace ByteStack

/-- What a reader returns. -/
abbrev Read (Value : Type) := Except PuzzleError Value

namespace Json

/-! ### Values of any kind -/

mutual
/-- Skips a value. The break that is met first, if there is one, is the answer. -/
def skip? : Json → Option Defect
  | .null => none
  | .boolean _ => none
  | .number _ => none
  | .string _ => none
  | .array items ending? => (skipItems? items).or (ending?.map Break.skipped)
  | .object members ending? => (skipMembers? members).or (ending?.map Break.skipped)
  | .broken place => some place.skipped
/-- Skips the items of an array. -/
def skipItems? : List Json → Option Defect
  | [] => none
  | item :: items => (skip? item).or (skipItems? items)
/-- Skips the members of an object. -/
def skipMembers? : List (Option String × Json) → Option Defect
  | [] => none
  | (_, value) :: members => (skip? value).or (skipMembers? members)
end

/-- Fails if there is a defect. -/
def refuse (defect? : Option Defect) : Read Unit :=
  match defect? with
  | none => .ok ()
  | some defect => .error (.json defect)

/-- Fails if a container ends with a break. -/
def checkEnding (ending? : Option Break) : Read Unit :=
  refuse (ending?.map Break.read)

/-- The kind of a value, for a message. Simple values are read for it. Containers are not. -/
def found : Json → Read Found
  | .null => .ok .null
  | .boolean value => .ok (.boolean value)
  | .number (some value) => .ok (.number value)
  | .number none => .error (.json .malformed)
  | .string (some text) => .ok (.string text)
  | .string none => .error (.json .malformed)
  | .array _ _ => .ok .sequence
  | .object _ _ => .ok .map
  | .broken place => .error (.json place.read)

/-- Refuses a value that is of another kind than expected. -/
def mismatch {Value : Type} (expected : Expected) (json : Json) : Read Value :=
  match json.found with
  | .ok found => .error (.data (.invalidType found expected))
  | .error error => .error error

/-! ### Simple values -/

def readText : Json → Read String
  | .string (some text) => .ok text
  | json => json.mismatch .text

/-- A whole number between two bounds. -/
def readInteger (expected : Expected) (least greatest : Int) : Json → Read Int
  | .number (some (.integer value)) =>
    if least ≤ value ∧ value ≤ greatest then .ok value
    else .error (.data (.invalidValue value expected))
  | json => json.mismatch expected

def readSignedByte (json : Json) : Read Int8 :=
  (json.readInteger .signedByte (-128) 127).map Int8.ofInt

def readSizeGoal (json : Json) : Read UInt32 :=
  (json.readInteger .sizeGoal 0 4294967295).map fun value => UInt32.ofNat value.toNat

/-- A cycle budget, or `null` for none. -/
def readCycles? : Json → Read (Option UInt64)
  | .null => .ok none
  | json =>
    (json.readInteger .cycles 0 18446744073709551615).map fun value =>
      some (UInt64.ofNat value.toNat)

/-- Reads items one after the other. -/
def readItems {Value : Type} (read : Json → Read Value) : List Json → Read (List Value)
  | [] => .ok []
  | item :: items => do
    let value ← read item
    let values ← readItems read items
    return value :: values

/-- An array of which every item is read in the same way. -/
def readSequence {Value : Type} (read : Json → Read Value) : Json → Read (List Value)
  | .array items ending? => do
    let values ← readItems read items
    checkEnding ending?
    return values
  | json => json.mismatch .sequence

def readSignedBytes (json : Json) : Read (List Int8) :=
  json.readSequence readSignedByte

/-! ### Fields -/

/-- Sets a field that may be set only once. -/
def setOnce {Value : Type} (name : String) (field? : Option Value) (read : Json → Read Value)
    (value : Json) : Read (Option Value) :=
  match field? with
  | some _ => .error (.data (.duplicateField name))
  | none => (read value).map some

/-- The value of a field that must be set. -/
def required {Value : Type} (name : String) (field? : Option Value) : Read Value :=
  match field? with
  | some value => .ok value
  | none => .error (.data (.missingField name))

/-- The fields of an object, set member by member. -/
def readMembers {Fields : Type} (set : Fields → String → Json → Read Fields) (fields : Fields) :
    List Member → Read Fields
  | [] => .ok fields
  | (none, _) :: _ => .error (.json .malformed)
  | (some name, value) :: members =>
    match set fields name value with
    | .ok fields => readMembers set fields members
    | .error error => .error error

/-- An array from whose front fields are taken. -/
structure Remaining where
  items : List Json
  ending? : Option Break

/-- Takes the next field from an array, if there is one. -/
def Remaining.next? {Value : Type} (remaining : Remaining) (read : Json → Read Value) :
    Read (Option Value × Remaining) :=
  match remaining.items with
  | item :: items => (read item).map fun value => (some value, ⟨items, remaining.ending?⟩)
  | [] => (checkEnding remaining.ending?).map fun _ => (none, remaining)

/-- Takes the next field from an array, where it must not be missing. -/
def Remaining.next {Value : Type} (remaining : Remaining) (read : Json → Read Value)
    (missing : PuzzleFault) : Read (Value × Remaining) :=
  match remaining.next? read with
  | .ok (some value, rest) => .ok (value, rest)
  | .ok (none, _) => .error (.data missing)
  | .error error => .error error

/-- Fails unless the array ends after the fields that have been taken. -/
def Remaining.close (remaining : Remaining) : Read Unit :=
  match remaining.items with
  | [] => checkEnding remaining.ending?
  | _ :: _ => .error (.json .malformed)

end Json

/-! ### Runs -/

namespace PuzzleRun

/-- The fields of a run that have been set. -/
structure Fields where
  inbox? : Option (List Int8)
  outbox? : Option (List Int8)
  cycles? : Option (Option UInt64)

namespace Fields

def empty : Fields := ⟨none, none, none⟩

/-- Sets the field that a member of an object names. -/
def set (fields : Fields) (name : String) (value : Json) : Read Fields :=
  if name = "inbox" then do
    return { fields with inbox? := ← Json.setOnce name fields.inbox? Json.readSignedBytes value }
  else if name = "outbox" then do
    return { fields with outbox? := ← Json.setOnce name fields.outbox? Json.readSignedBytes value }
  else if name = "cycles" then do
    return { fields with cycles? := ← Json.setOnce name fields.cycles? Json.readCycles? value }
  else do
    Json.refuse value.skip?
    return fields

/-- The run, if no field is missing that has no default. -/
def toRun (fields : Fields) : Read PuzzleRun := do
  let inbox ← Json.required "inbox" fields.inbox?
  let outbox ← Json.required "outbox" fields.outbox?
  return ⟨inbox, outbox, fields.cycles?.getD none⟩

end Fields

/-- How many fields a run has. -/
def fieldCount : Nat := 3

/-- A run as an array of its fields. -/
def ofRemaining (remaining : Json.Remaining) : Read PuzzleRun := do
  let missing (index : Nat) := PuzzleFault.invalidLength index .puzzleRun fieldCount
  let (inbox, remaining) ← remaining.next Json.readSignedBytes (missing 0)
  let (outbox, remaining) ← remaining.next Json.readSignedBytes (missing 1)
  let (cycles?, remaining) ← remaining.next? Json.readCycles?
  remaining.close
  return ⟨inbox, outbox, cycles?.getD none⟩

def ofJson : Json → Read PuzzleRun
  | .object members ending? => do
    let fields ← Json.readMembers Fields.set Fields.empty members
    Json.checkEnding ending?
    fields.toRun
  | .array items ending? => ofRemaining ⟨items, ending?⟩
  | json => json.mismatch .puzzleRun

end PuzzleRun

/-! ### Puzzles -/

namespace Puzzle

/-- The fields of a puzzle that have been set. -/
structure Fields where
  name? : Option String
  description? : Option String
  solution? : Option String
  sizeGoal? : Option UInt32
  runs? : Option (List PuzzleRun)

def readRuns (json : Json) : Read (List PuzzleRun) :=
  json.readSequence PuzzleRun.ofJson

namespace Fields

def empty : Fields := ⟨none, none, none, none, none⟩

/-- Sets the field that a member of an object names. -/
def set (fields : Fields) (name : String) (value : Json) : Read Fields :=
  if name = "name" then do
    return { fields with name? := ← Json.setOnce name fields.name? Json.readText value }
  else if name = "description" then do
    return { fields with
      description? := ← Json.setOnce name fields.description? Json.readText value }
  else if name = "impl" then do
    return { fields with solution? := ← Json.setOnce name fields.solution? Json.readText value }
  else if name = "size_goal" then do
    return { fields with
      sizeGoal? := ← Json.setOnce name fields.sizeGoal? Json.readSizeGoal value }
  else if name = "runs" then do
    return { fields with runs? := ← Json.setOnce name fields.runs? readRuns value }
  else do
    Json.refuse value.skip?
    return fields

/-- The puzzle, if no field is missing that has no default. -/
def toPuzzle (fields : Fields) : Read Puzzle := do
  let name ← Json.required "name" fields.name?
  let sizeGoal ← Json.required "size_goal" fields.sizeGoal?
  let runs ← Json.required "runs" fields.runs?
  return ⟨name, fields.description?.getD "", fields.solution?.getD "", sizeGoal, runs⟩

end Fields

/-- How many fields a puzzle has. -/
def fieldCount : Nat := 5

/-- A puzzle as an array of its fields. -/
def ofRemaining (remaining : Json.Remaining) : Read Puzzle := do
  let missing (index : Nat) := PuzzleFault.invalidLength index .puzzle fieldCount
  let (name, remaining) ← remaining.next Json.readText (missing 0)
  let (description?, remaining) ← remaining.next? Json.readText
  let (solution?, remaining) ← remaining.next? Json.readText
  let (sizeGoal, remaining) ← remaining.next Json.readSizeGoal (missing 3)
  let (runs, remaining) ← remaining.next readRuns (missing 4)
  remaining.close
  return ⟨name, description?.getD "", solution?.getD "", sizeGoal, runs⟩

def ofJson : Json → Read Puzzle
  | .object members ending? => do
    let fields ← Json.readMembers Fields.set Fields.empty members
    Json.checkEnding ending?
    fields.toPuzzle
  | .array items ending? => ofRemaining ⟨items, ending?⟩
  | json => json.mismatch .puzzle

/-- The puzzle of a document. Nothing may follow it. -/
def ofDocument (document : Json.Document) : Read Puzzle := do
  let puzzle ← ofJson document.root
  if document.isFollowed then .error (.json .malformed) else return puzzle

/-- The puzzle that a JSON text defines. -/
def ofText (text : String) : Read Puzzle :=
  ofDocument (Json.Document.ofText text)

end Puzzle

end ByteStack
