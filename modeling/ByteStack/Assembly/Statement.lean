/-
This file reads tokens as statements. A statement is a mnemonic with the
operand that the catalog demands of it: it either defines a label or is an
instruction. An unknown mnemonic and an operand of the wrong kind cost only
their own tokens. Where a statement cannot begin, or lacks its operand at the
end, the list of statements ends with that error.
-/

import ByteStack.Assembly.Error
import ByteStack.Instruction

namespace ByteStack

/-! ### Operands -/

/-- What follows the opcode of an instruction. -/
inductive Argument where
  | nothing
  | byte (value : UInt8)
  | label (name : String)
deriving DecidableEq

namespace Argument

/-- The bytes that an argument takes in the code. -/
def width : Argument → Nat
  | .nothing => 0
  | .byte _ => 1
  | .label _ => 2

/-- The bytes of an argument, with zeros where the address of a label will stand. -/
def placeholder : Argument → List UInt8
  | .nothing => []
  | .byte value => [value]
  | .label _ => [0, 0]

theorem length_placeholder (argument : Argument) :
    argument.placeholder.length = argument.width := by
  cases argument <;> rfl

/-- The largest value that a register operand can name. The machine has fewer registers and
takes the value modulo their number. -/
def largestRegister : Nat := 255

/-- The largest value that a number operand can have. Only its low byte is kept. -/
def largestNumber : Nat := 65535

/-- The argument that a token stands for where an operand of this kind is due. -/
def ofToken? (expected : OperandKind) (token : Token) : Option Argument :=
  match expected, token.kind with
  | .number, .number =>
    (Text.unsigned? largestNumber token.literal).map fun value => .byte (UInt8.ofNat value)
  | .register, .register =>
    (Text.unsigned? largestRegister token.literal).map fun value => .byte (UInt8.ofNat value)
  | .label, .label => some (.label token.literal)
  | _, _ => none

end Argument

/-- The kind of token that an operand has to be. -/
def OperandKind.tokenKind : OperandKind → TokenKind
  | .none => .label
  | .number => .number
  | .register => .register
  | .label => .label

/-! ### Statements -/

inductive Statement where
  /-- Gives the next instruction a name. The position is that of the name. -/
  | define (name : String) (position : Nat)
  | instruction (mnemonic : Token) (operation : Operation) (argument : Argument)
deriving DecidableEq

namespace Statement

/-- The statement of a mnemonic that takes an operand. -/
def ofOperand (token : Token) (mnemonic : Mnemonic) (operand : Token) :
    Except AssemblyError Statement :=
  match mnemonic, Argument.ofToken? mnemonic.operand operand with
  | .operation operation, some argument => .ok (.instruction token operation argument)
  | .defineLabel, some _ => .ok (.define operand.literal operand.position)
  | _, none =>
    .error ⟨.unexpectedOperand mnemonic.operand.tokenKind operand.kind, operand.position⟩

/-- The statements of a list of tokens, with an error in the place of each that is wrong. -/
def ofTokens : List Token → List (Except AssemblyError Statement)
  | [] => []
  | token :: rest =>
    if token.kind ≠ .mnemonic then
      [.error ⟨.notAnOperation token.literal, token.position⟩]
    else
      match Mnemonic.ofName? token.literal with
      | none => .error ⟨.invalidOperationName token.literal, token.position⟩ :: ofTokens rest
      | some mnemonic =>
        match mnemonic, mnemonic.operand with
        | .operation operation, .none =>
          .ok (.instruction token operation .nothing) :: ofTokens rest
        | _, _ =>
          match rest with
          | [] => [.error ⟨.unexpectedEnd, token.position⟩]
          | operand :: rest => ofOperand token mnemonic operand :: ofTokens rest

end Statement

end ByteStack
