/-
This file carries out command lines in a folder. What one command line writes,
the next one finds.
-/

import ByteStack.CommandLine.Execution
import ByteStack.CommandLine.Folder

namespace ByteStack.CommandLine.Folder

/-- Carries out a command line. There is no outcome when the fuel is used up. -/
def perform (folder : Folder) (fuel : Nat) (fresh : UInt64) (arguments : List String) :
    Option (Outcome × Folder) :=
  match execute folder.read fuel fresh arguments with
  | .done outcome => some (outcome, folder)
  | .write file bytes written refused =>
    match folder.write file bytes with
    | .ok next => some (written, next)
    | .error error => some (refused error, folder)
  | .unfinished => none

end ByteStack.CommandLine.Folder
