/-
This file lists what can go wrong while a program runs. A fault ends the run
for good. It is reported at the offset of the instruction that was executing.
-/

import ByteStack.Text.Decimal

namespace ByteStack

inductive FaultKind where
  /-- The byte at the instruction pointer is no opcode. -/
  | unknownOpcode (byte : UInt8)
  /-- The instruction pointer has left the code region. -/
  | pointerOutOfBounds (pointer : Nat)
  | stackUnderflow
  | stackOverflow
  | callStackOverflow
  | callStackUnderflow
  /-- More values were put out than the run expects. -/
  | tooManyOutputs (expected : Nat)
  /-- A value was put out that differs from the expected one. -/
  | outputMismatch (index : Nat) (expected found : Int8)
  /-- The program ended before it had put out all the values that the run expects. -/
  | notEnoughOutputs (expected produced : Nat)
  /-- The program ended with values on the data stack. -/
  | stackNotEmpty (depth : Nat)
  | cycleBudgetExceeded (limit : Nat)
deriving DecidableEq

namespace FaultKind

def message : FaultKind → String
  | .unknownOpcode byte => "unrecognized opcode '" ++ Text.natural byte.toNat ++ "'"
  | .pointerOutOfBounds pointer =>
    "instruction pointer " ++ Text.natural pointer ++ " is outside the code region"
  | .stackUnderflow => "stack underflow"
  | .stackOverflow => "stack overflow"
  | .callStackOverflow => "subroutine stack overflow"
  | .callStackUnderflow => "subroutine stack underflow"
  | .tooManyOutputs expected =>
    "too many elements in output (expected " ++ Text.natural expected ++ ")"
  | .outputMismatch index expected found =>
    "invalid element in output at index " ++ Text.natural index ++ ": expected "
      ++ Text.integer expected.toInt ++ ", got " ++ Text.integer found.toInt
  | .notEnoughOutputs expected produced =>
    "not enough elements in output (expected " ++ Text.natural expected ++ ", got "
      ++ Text.natural produced ++ ")"
  | .stackNotEmpty depth =>
    "stack must be empty at the end of execution (" ++ Text.natural depth ++ " left)"
  | .cycleBudgetExceeded limit => "cycle budget of " ++ Text.natural limit ++ " exceeded"

/-- What to do about the fault, where there is something to say. -/
def hint? : FaultKind → Option String
  | .stackNotEmpty _ => some "remove leftover values with DEL before halting"
  | .callStackOverflow => some "subroutine calls can only nest 16 deep"
  | .callStackUnderflow => some "RET was reached without a matching JSR"
  | .cycleBudgetExceeded _ => some "the program may be stuck in a loop"
  | _ => none

end FaultKind

structure Fault where
  kind : FaultKind
  /-- The offset of the instruction that was executing. -/
  offset : Nat
deriving DecidableEq

def Fault.message (fault : Fault) : String :=
  "runtime error: " ++ fault.kind.message

end ByteStack
