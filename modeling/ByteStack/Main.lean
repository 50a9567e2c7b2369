/-
The program itself: it fetches the files that its arguments name, carries out
the command, and prints what the command comes to.
-/

import ByteStack.CommandLine.Execution

namespace ByteStack.CommandLine

/-- More than any run can use up. -/
def ample : Nat := 0x4000000000000000

/-- Why the system refused a file. Of the two wrong kinds of file, a folder has the number
twenty-one. -/
def reasonOf : IO.Error → FileError
  | .permissionDenied .. => .notPermitted
  | .inappropriateType _ number _ => if number = 21 then .isFolder else .notFolder
  | .invalidArgument .. => .nameTooLong
  | _ => .notFound

/-- The contents of a file, if it can be read. -/
def fetch (file : String) : IO (String × Except FileError (List UInt8)) := do
  try
    let bytes ← IO.FS.readBinFile file
    return (file, .ok bytes.toList)
  catch error => return (file, .error (reasonOf error))

/-- Prints an outcome and gives its status. -/
def report (outcome : Outcome) : IO UInt32 := do
  IO.print outcome.output
  IO.eprint outcome.errors
  return UInt32.ofNat outcome.status

/-- Writes a file. Gives the reason if that was not possible. -/
def store (file : String) (bytes : List UInt8) : IO (Option FileError) := do
  try
    IO.FS.writeBinFile file ⟨bytes.toArray⟩
    return none
  catch error => return some (reasonOf error)

/-- Carries out a command line. -/
def perform (arguments : List String) : IO UInt32 := do
  let names := match Command.ofArguments? arguments with
    | some command => command.filesRead
    | none => []
  let contents ← names.mapM fetch
  let files : Files := fun file => (contents.lookup file).getD (.error .notFound)
  let fresh := UInt64.ofNat (← IO.rand 0 0xFFFFFFFFFFFFFFFF)
  match execute files ample fresh arguments with
  | .done outcome => report outcome
  | .write file bytes written refused =>
    match ← store file bytes with
    | none => report written
    | some error => report (refused error)
  | .unfinished => return 1

end ByteStack.CommandLine

def main (arguments : List String) : IO UInt32 :=
  ByteStack.CommandLine.perform arguments
