/-
This file is the machine as a reader of the instruction catalog would describe
it. It has no memory: the data stack, the return addresses, the input and the
output are lists, and the program is a list of bytes that nothing can change.
What a step does is said once for each operation, on the values that stand on
top of the list.

The machine with a memory keeps all of this in one block of bytes. Nothing here
refers to that block, except that an operand at the very end of the code region
reaches into the two cells behind it, where the instruction pointer is kept.
-/

import ByteStack.Image.Basic
import ByteStack.Instruction
import ByteStack.Machine.Basic

namespace ByteStack

/-- What a run is given and cannot change. -/
structure Scenario where
  /-- The bytes of the code region. -/
  code : List UInt8
  expected? : Option (List Int8)
  /-- The random bytes, by number. -/
  random : Nat → UInt8

structure ListMachine where
  pointer : Nat
  /-- The data stack, the top first. -/
  stack : List Int8
  /-- The return addresses, the latest first. -/
  calls : List Nat
  registers : Vector Int8 registerCount
  input : List Int8
  output : List Int8
  /-- How many random bytes have been drawn. -/
  drawn : Nat
  cycles : Nat
  status : Status
  fault? : Option Fault

namespace ListMachine

/-- How many return addresses can be stored. -/
def callCapacity : Nat := 16

def start (feed : Feed) : ListMachine where
  pointer := 0
  stack := (feed.stack.take Layout.stackSize).reverse
  calls := []
  registers := Vector.replicate registerCount 0
  input := feed.input
  output := []
  drawn := 0
  cycles := 0
  status := .running
  fault? := none

/-! ### Ending and output -/

/-- Stops with a fault of the instruction at `offset`. -/
def fail (offset : Nat) (kind : FaultKind) (machine : ListMachine) : ListMachine :=
  { machine with status := .stopped, fault? := some ⟨kind, offset⟩ }

/-- Ends the program: all expected output must be there, and then the stack must be empty. -/
def halt (scenario : Scenario) (offset : Nat) (machine : ListMachine) : ListMachine :=
  let missing? := scenario.expected?.filter fun expected =>
    machine.output.length < expected.length
  match missing? with
  | some expected =>
    machine.fail offset (.notEnoughOutputs expected.length machine.output.length)
  | none =>
    if 0 < machine.stack.length then machine.fail offset (.stackNotEmpty machine.stack.length)
    else { machine with status := .stopped }

/-- What is wrong with `value` as output number `index`. -/
def outputFault? (scenario : Scenario) (index : Nat) (value : Int8) : Option FaultKind :=
  match scenario.expected? with
  | none => none
  | some expected =>
    match expected[index]? with
    | none => some (.tooManyOutputs expected.length)
    | some wanted => if wanted = value then none else some (.outputMismatch index wanted value)

/-- Puts a value out, which must be the next expected one if output is expected. -/
def emit (scenario : Scenario) (offset : Nat) (value : Int8) (machine : ListMachine) :
    ListMachine :=
  let next := { machine with output := machine.output ++ [value] }
  match outputFault? scenario machine.output.length value with
  | none => next
  | some kind => next.fail offset kind

/-! ### Operands -/

/-- The byte of an operand at `address`. Behind the code region the instruction pointer is
read, which is past the instruction by then. -/
def operandByte (scenario : Scenario) (machine : ListMachine) (address : Nat) : UInt8 :=
  match scenario.code[address]? with
  | some byte => byte
  | none =>
    if address = Layout.codeSize then highByte machine.pointer else lowByte machine.pointer

/-- The address in the instruction at `offset`, the high byte first. -/
def target (scenario : Scenario) (offset : Nat) (machine : ListMachine) : Nat :=
  addressOf (machine.operandByte scenario (offset + 1))
    (machine.operandByte scenario (offset + 2))

/-- The register in the instruction at `offset`. -/
def register (scenario : Scenario) (offset : Nat) (machine : ListMachine) :
    Fin registerCount :=
  ⟨(machine.operandByte scenario (offset + 1)).toNat % registerCount, Nat.mod_lt _ (by decide)⟩

/-! ### Operations -/

/-- Goes on at the address in the instruction. -/
def jump (scenario : Scenario) (offset : Nat) (machine : ListMachine) : ListMachine :=
  { machine with pointer := machine.target scenario offset }

/-- Replaces the data stack. -/
def withStack (machine : ListMachine) (stack : List Int8) : ListMachine :=
  { machine with stack := stack }

/-- What the operation at `offset` does. The instruction pointer is already behind the
instruction, and the stack holds what the operation takes. -/
def execute (scenario : Scenario) (offset : Nat) (machine : ListMachine)
    (operation : Operation) : ListMachine :=
  match operation, machine.stack with
  | .inp, stack =>
    match machine.input with
    | [] => machine.halt scenario offset
    | value :: rest => { machine with input := rest, stack := value :: stack }
  | .out, value :: stack => (machine.withStack stack).emit scenario offset value
  | .del, _ :: stack => machine.withStack stack
  | .dup, value :: stack => machine.withStack (value :: value :: stack)
  | .swp, first :: second :: stack => machine.withStack (second :: first :: stack)
  | .rot, first :: second :: third :: stack =>
    machine.withStack (third :: first :: second :: stack)
  | .len, stack => machine.withStack ((lowByte stack.length).toInt8 :: stack)
  | .pze, stack => machine.withStack (0 :: stack)
  | .psh, stack =>
    machine.withStack ((machine.operandByte scenario (offset + 1)).toInt8 :: stack)
  | .inc, value :: stack => machine.withStack ((value + 1) :: stack)
  | .dec, value :: stack => machine.withStack ((value - 1) :: stack)
  | .neg, value :: stack => machine.withStack (-value :: stack)
  | .add, upper :: lower :: stack => machine.withStack ((lower + upper) :: stack)
  | .sub, upper :: lower :: stack => machine.withStack ((lower - upper) :: stack)
  | .jmp, _ => machine.jump scenario offset
  | .jez, value :: stack =>
    if value = 0 then (machine.withStack stack).jump scenario offset
    else machine.withStack stack
  | .jnz, value :: stack =>
    if value ≠ 0 then (machine.withStack stack).jump scenario offset
    else machine.withStack stack
  | .jlz, value :: stack =>
    if value < 0 then (machine.withStack stack).jump scenario offset
    else machine.withStack stack
  | .jgz, value :: stack =>
    if value > 0 then (machine.withStack stack).jump scenario offset
    else machine.withStack stack
  | .jsr, _ =>
    if machine.calls.length < callCapacity then
      { machine with
        calls := machine.pointer :: machine.calls
        pointer := machine.target scenario offset }
    else machine.fail offset .callStackOverflow
  | .ret, _ =>
    match machine.calls with
    | [] => machine.fail offset .callStackUnderflow
    | back :: calls => { machine with calls := calls, pointer := back }
  | .lod, stack => machine.withStack (machine.registers[machine.register scenario offset] :: stack)
  | .sav, value :: stack =>
    { machine with
      stack := stack
      registers := machine.registers.set (machine.register scenario offset) value }
  | .hlt, _ => machine.halt scenario offset
  | .brk, _ => { machine with status := .paused }
  | .rng, stack =>
    { machine with
      stack := (scenario.random machine.drawn).toInt8 :: stack
      drawn := machine.drawn + 1 }
  | .dmp, _ => machine
  | _, _ => machine

/-! ### Steps -/

/-- Executes the operation at `offset`, if the stack allows it: the catalog says how many values
it takes and puts back. -/
def perform (scenario : Scenario) (offset : Nat) (machine : ListMachine)
    (operation : Operation) : ListMachine :=
  let depth := machine.stack.length
  if depth < operation.pops then machine.fail offset .stackUnderflow
  else if Layout.stackSize < depth - operation.pops + operation.pushes then
    machine.fail offset .stackOverflow
  else
    { machine with pointer := offset + operation.encodedLength }.execute scenario offset operation

/-- Starts the instruction at the pointer. -/
def dispatch (scenario : Scenario) (offset : Nat) (machine : ListMachine) : ListMachine :=
  match scenario.code[offset]? with
  | none => machine.fail offset (.pointerOutOfBounds offset)
  | some code =>
    if code = 0 then machine.halt scenario offset
    else
      match Operation.ofCode? code with
      | none => machine.fail offset (.unknownOpcode code)
      | some operation => machine.perform scenario offset operation

/-- Executes one instruction and counts a cycle. A stopped machine stays as it is. -/
def step (scenario : Scenario) (machine : ListMachine) : ListMachine :=
  if machine.status = .stopped then machine
  else { machine with cycles := machine.cycles + 1 }.dispatch scenario machine.pointer

/-- The machine after a number of steps. -/
def steps (scenario : Scenario) : Nat → ListMachine → ListMachine
  | 0, machine => machine
  | count + 1, machine => steps scenario count (machine.step scenario)

end ListMachine

end ByteStack
