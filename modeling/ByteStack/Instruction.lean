/-
This file is the instruction set: what an instruction may carry behind its
opcode, the twenty-seven operations, and the catalog that gives each operation
its mnemonic, its opcode, how many values it takes off the data stack and puts
back, and its operand. Every other part reads the catalog: the assembler for
names and operand kinds, the listing for lengths, the machine for the bounds it
checks before it executes anything.

The opcode zero belongs to no operation. A zero byte is where a program ends.
-/

namespace ByteStack

/-! ### Operands -/

/-- What follows an opcode. -/
inductive OperandKind where
  | none
  | number
  | register
  | label
deriving DecidableEq

/-- The bytes an operand takes: one for a number or a register index, two for an address,
the high byte first. -/
def OperandKind.width : OperandKind → Nat
  | .none => 0
  | .number => 1
  | .register => 1
  | .label => 2

/-! ### Operations -/

/-- What the machine can be told to do. -/
inductive Operation where
  | inp
  | out
  | del
  | dup
  | swp
  | rot
  | len
  | pze
  | psh
  | inc
  | dec
  | neg
  | add
  | sub
  | jmp
  | jez
  | jnz
  | jlz
  | jgz
  | jsr
  | ret
  | lod
  | sav
  | hlt
  | brk
  | rng
  | dmp
deriving DecidableEq

/-- One row of the catalog. -/
structure CatalogEntry where
  /-- The three letters that name the operation in a program. -/
  mnemonic : String
  /-- The opcode, never zero. -/
  code : UInt8
  /-- How many values the operation takes off the data stack. -/
  pops : Nat
  /-- How many values the operation then puts on the data stack. -/
  pushes : Nat
  /-- What follows the opcode. -/
  operand : OperandKind
deriving DecidableEq

namespace Operation

/-- Every operation, in the order of the catalog. -/
def all : List Operation :=
  [inp, out, del, dup, swp, rot, len, pze, psh, inc, dec, neg, add, sub, jmp, jez, jnz, jlz,
    jgz, jsr, ret, lod, sav, hlt, brk, rng, dmp]

/-- The catalog. -/
def entry : Operation → CatalogEntry
  | inp => ⟨"INP", 0x01, 0, 1, .none⟩
  | out => ⟨"OUT", 0x02, 1, 0, .none⟩
  | del => ⟨"DEL", 0x03, 1, 0, .none⟩
  | dup => ⟨"DUP", 0x04, 1, 2, .none⟩
  | swp => ⟨"SWP", 0x05, 2, 2, .none⟩
  | rot => ⟨"ROT", 0x06, 3, 3, .none⟩
  | len => ⟨"LEN", 0x07, 0, 1, .none⟩
  | pze => ⟨"PZE", 0x08, 0, 1, .none⟩
  | psh => ⟨"PSH", 0x09, 0, 1, .number⟩
  | inc => ⟨"INC", 0x0A, 1, 1, .none⟩
  | dec => ⟨"DEC", 0x0B, 1, 1, .none⟩
  | neg => ⟨"NEG", 0x0C, 1, 1, .none⟩
  | add => ⟨"ADD", 0x0D, 2, 1, .none⟩
  | sub => ⟨"SUB", 0x0E, 2, 1, .none⟩
  | jmp => ⟨"JMP", 0x10, 0, 0, .label⟩
  | jez => ⟨"JEZ", 0x11, 1, 0, .label⟩
  | jnz => ⟨"JNZ", 0x12, 1, 0, .label⟩
  | jlz => ⟨"JLZ", 0x13, 1, 0, .label⟩
  | jgz => ⟨"JGZ", 0x14, 1, 0, .label⟩
  | jsr => ⟨"JSR", 0x15, 0, 0, .label⟩
  | ret => ⟨"RET", 0x16, 0, 0, .none⟩
  | lod => ⟨"LOD", 0x20, 0, 1, .register⟩
  | sav => ⟨"SAV", 0x21, 1, 0, .register⟩
  | hlt => ⟨"HLT", 0xF0, 0, 0, .none⟩
  | brk => ⟨"BRK", 0xF1, 0, 0, .none⟩
  | rng => ⟨"RNG", 0xF2, 0, 1, .none⟩
  | dmp => ⟨"DMP", 0xF3, 0, 0, .none⟩

def mnemonic (operation : Operation) : String :=
  operation.entry.mnemonic

def code (operation : Operation) : UInt8 :=
  operation.entry.code

def pops (operation : Operation) : Nat :=
  operation.entry.pops

def pushes (operation : Operation) : Nat :=
  operation.entry.pushes

def operand (operation : Operation) : OperandKind :=
  operation.entry.operand

/-- The bytes of a whole instruction: its opcode and its operand. -/
def encodedLength (operation : Operation) : Nat :=
  1 + operation.operand.width

/-- The operation of an opcode, if the byte is one. -/
def ofCode? (code : UInt8) : Option Operation :=
  all.find? fun operation => operation.code == code

/-- The operation with this mnemonic, in capitals. -/
def ofMnemonic? (name : String) : Option Operation :=
  all.find? fun operation => operation.mnemonic == name

/-- No two operations share an opcode, so the opcode gives the operation back. -/
theorem ofCode?_code (operation : Operation) : ofCode? operation.code = some operation := by
  cases operation <;> decide

/-- No two operations share a mnemonic, so the mnemonic gives the operation back. -/
theorem ofMnemonic?_mnemonic (operation : Operation) :
    ofMnemonic? operation.mnemonic = some operation := by
  cases operation <;> decide

theorem code_of_ofCode? {code : UInt8} {operation : Operation}
    (found : ofCode? code = some operation) : operation.code = code := by
  simpa using List.find?_some found

theorem mnemonic_of_ofMnemonic? {name : String} {operation : Operation}
    (found : ofMnemonic? name = some operation) : operation.mnemonic = name := by
  simpa using List.find?_some found

/-- Zero is no opcode. -/
theorem code_ne_zero (operation : Operation) : operation.code ≠ 0 := by
  cases operation <;> decide

/-- No instruction takes more than three bytes. -/
theorem encodedLength_le (operation : Operation) : operation.encodedLength ≤ 3 := by
  cases operation <;> decide

end Operation

/-! ### Mnemonics -/

/-- What a mnemonic stands for: an operation of the machine, or the definition of a label,
which emits nothing. -/
inductive Mnemonic where
  | operation (named : Operation)
  | defineLabel
deriving DecidableEq

namespace Mnemonic

/-- The name under which a program defines a label. -/
def defineLabelName : String := "LAB"

def operand : Mnemonic → OperandKind
  | .operation named => named.operand
  | .defineLabel => .label

/-- The meaning of a name, in capitals, if it has one. -/
def ofName? (name : String) : Option Mnemonic :=
  if name = defineLabelName then some .defineLabel
  else (Operation.ofMnemonic? name).map .operation

/-- Label definition is not the name of an operation. -/
theorem ofName?_mnemonic (named : Operation) :
    ofName? named.mnemonic = some (.operation named) := by
  have different : named.mnemonic ≠ defineLabelName := by cases named <;> decide
  simp [ofName?, different, Operation.ofMnemonic?_mnemonic]

end Mnemonic

end ByteStack
