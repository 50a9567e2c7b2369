/-
This file lists what can be wrong with a program whose text has been cut into
tokens. An assembly collects errors in the order in which it meets them. After
some of them it cannot tell where the next instruction begins, or has no room
for it; these are structural, and nothing behind them is read.
-/

import ByteStack.Image.Layout
import ByteStack.Source.Token
import ByteStack.Text.Decimal

namespace ByteStack

inductive AssemblyFault where
  /-- A label, a number or a register stands where an instruction should begin. -/
  | notAnOperation (literal : String)
  /-- A mnemonic that nothing has. -/
  | invalidOperationName (name : String)
  /-- An operand of another kind, or one that cannot be read. -/
  | unexpectedOperand (expected found : TokenKind)
  /-- The last instruction has no operand. -/
  | unexpectedEnd
  /-- A label is defined again. -/
  | labelReset (name : String)
  /-- A label is used but defined nowhere. -/
  | labelNeverSet (name : String)
  /-- An instruction does not fit into the code region. -/
  | codeOverflow
deriving DecidableEq

namespace AssemblyFault

/-- Nothing behind such a fault is read. -/
def isStructural : AssemblyFault → Bool
  | .notAnOperation _ => true
  | .unexpectedEnd => true
  | .codeOverflow => true
  | _ => false

def message : AssemblyFault → String
  | .notAnOperation literal => "identifier '" ++ literal ++ "' is not an operation"
  | .invalidOperationName name => "invalid op name '" ++ name ++ "'"
  | .unexpectedOperand expected found =>
    "expected a " ++ expected.name ++ ", instead found a " ++ found.name
  | .unexpectedEnd => "unexpected EOF"
  | .labelReset name => "attempt to reset the label '" ++ name ++ "'"
  | .labelNeverSet name => "label '" ++ name ++ "' is never set"
  | .codeOverflow =>
    "program exceeds the " ++ Text.natural Layout.codeSize ++ "-byte code region"

/-- What to do about the fault, where there is something to say. -/
def hint? : AssemblyFault → Option String
  | .labelNeverSet name => some ("define it with 'LAB #" ++ name ++ "'")
  | .labelReset _ => some "labels can only be defined once"
  | .unexpectedEnd => some "the last instruction is missing its operand"
  | _ => none

end AssemblyFault

/-- A fault and the character position at which it is reported. -/
structure AssemblyError where
  fault : AssemblyFault
  position : Nat
deriving DecidableEq

def AssemblyError.message (error : AssemblyError) : String :=
  "compile error: " ++ error.fault.message

/-- All messages, one to a line. -/
def AssemblyError.messages (errors : List AssemblyError) : String :=
  "\n".intercalate (errors.map AssemblyError.message)

end ByteStack
