/-
This file reads code back. A listing shows the instructions of a code region
from its start to the first zero byte where an instruction should begin. A byte
that is no opcode is listed as unknown and takes one byte. Names of labels are
not in the code, so an operand that was a label shows as its address. Operand
bytes past the end of the region read as zero.
-/

import ByteStack.Image.Basic
import ByteStack.Instruction

namespace ByteStack

/-! ### Listed instructions -/

/-- An operand as the code holds it. -/
inductive Operand where
  | none
  | number (value : UInt8)
  | register (index : UInt8)
  | address (target : Nat)
deriving DecidableEq

/-- The operand of the given kind in the bytes behind an opcode. -/
def Operand.ofBytes (kind : OperandKind) (rest : List UInt8) : Operand :=
  match kind with
  | .none => .none
  | .number => .number (rest.getD 0 0)
  | .register => .register (rest.getD 0 0)
  | .label => .address (addressOf (rest.getD 0 0) (rest.getD 1 0))

inductive Decoded where
  | instruction (operation : Operation) (operand : Operand)
  | unknown (byte : UInt8)
deriving DecidableEq

namespace Decoded

/-- How many bytes of the code it stands for. -/
def length : Decoded → Nat
  | .instruction operation _ => operation.encodedLength
  | .unknown _ => 1

def text : Decoded → String
  | .instruction operation .none => operation.mnemonic
  | .instruction operation (.number value) =>
    operation.mnemonic ++ " " ++ Text.natural value.toNat
  | .instruction operation (.register index) =>
    operation.mnemonic ++ " r" ++ Text.natural index.toNat
  | .instruction operation (.address target) =>
    operation.mnemonic ++ " " ++ Text.natural target
  | .unknown byte => "??(" ++ Text.natural byte.toNat ++ ")"

/-- The address that an instruction names. -/
def target? : Decoded → Option Nat
  | .instruction _ (.address target) => some target
  | _ => none

/-- What stands at the front of the code, where `code` is followed by `rest`. -/
def ofBytes (code : UInt8) (rest : List UInt8) : Decoded :=
  match Operation.ofCode? code with
  | none => .unknown code
  | some operation => .instruction operation (Operand.ofBytes operation.operand rest)

end Decoded

/-- An instruction and where it stands in the code. -/
structure ListedInstruction where
  offset : Nat
  decoded : Decoded
deriving DecidableEq

/-! ### Listings -/

namespace Listing

/-- The instructions of a code region of which the part from `offset` on is given. -/
def ofBytes (offset : Nat) : List UInt8 → List ListedInstruction
  | [] => []
  | code :: rest =>
    if code = 0 then []
    else
      let decoded := Decoded.ofBytes code rest
      ⟨offset, decoded⟩ :: ofBytes (offset + decoded.length) (rest.drop (decoded.length - 1))
termination_by region => region.length
decreasing_by simp only [List.length_drop, List.length_cons]; omega

/-- The instructions of an image. -/
def ofImage (image : Image) : List ListedInstruction :=
  ofBytes 0 image.codeRegion

/-- The instructions in one line. -/
def text (image : Image) : String :=
  " ".intercalate ((ofImage image).map fun listed => listed.decoded.text)

/-! ### Tables -/

/-- The rule above and below the title of a table. -/
def rule : String :=
  String.ofList (List.replicate 40 '═') ++ "\n"

/-- One line of a table. An instruction that some instruction names as its target is marked. -/
def line (targets : List Nat) (listed : ListedInstruction) : String :=
  Text.zeroPadded 4 listed.offset ++ (if listed.offset ∈ targets then " ► " else "   ")
    ++ listed.decoded.text ++ "\n"

/-- The instructions of an image, one to a line, under a title with their number and the length
of the program. -/
def table (image : Image) : String :=
  let instructions := ofImage image
  let targets := instructions.filterMap fun listed => listed.decoded.target?
  rule ++ " " ++ Text.natural instructions.length ++ " instructions, "
    ++ Text.natural image.codeLength ++ " bytes\n" ++ rule
    ++ String.join (instructions.map (line targets))

end Listing

end ByteStack
