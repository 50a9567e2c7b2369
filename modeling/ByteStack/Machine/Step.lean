/-
This file executes one instruction. A step looks up the byte at the instruction
pointer in the catalog and first checks the data stack against what the catalog
says of the operation, so that executing it cannot leave the stack. The
instruction pointer moves past the operand before the operation takes effect.

A zero byte ends the program, as does reading from an empty input. Ending is
where the run is judged: all expected output must be there, and the data stack
must be empty.
-/

import ByteStack.Instruction
import ByteStack.Machine.Basic

namespace ByteStack.Machine

/-! ### Ending -/

/-- Stops the machine and records why, at the current instruction. -/
def fail (machine : Machine) (kind : FaultKind) : Machine × Option Fault :=
  let fault : Fault := ⟨kind, machine.current⟩
  ({ machine with status := .stopped, fault? := some fault }, some fault)

/-- Ends the program. -/
def halt (machine : Machine) : Machine × Option Fault :=
  let stopped := { machine with status := .stopped }
  let missing? := machine.expected?.filter fun expected => machine.output.size < expected.size
  match missing? with
  | some expected => stopped.fail (.notEnoughOutputs expected.size machine.output.size)
  | none => if 0 < machine.depth then stopped.fail (.stackNotEmpty machine.depth) else (stopped, none)

/-! ### Output -/

/-- What is wrong with putting `found` out after `produced` other values. -/
def outputFault? (expected : Array Int8) (produced : Nat) (found : Int8) : Option FaultKind :=
  match expected[produced]? with
  | none => some (.tooManyOutputs expected.size)
  | some wanted => if wanted = found then none else some (.outputMismatch produced wanted found)

/-- Puts a value out and compares it with what the run expects. -/
def emit (machine : Machine) (value : Int8) : Machine × Option Fault :=
  let produced := machine.output.size
  let fault? := machine.expected?.bind fun expected => outputFault? expected produced value
  let machine := { machine with output := machine.output.push value }
  match fault? with
  | some kind => machine.fail kind
  | none => (machine, none)

/-! ### Operands and jumps -/

/-- The byte `distance` behind the current opcode. -/
def operandByte (machine : Machine) (distance : Nat) : UInt8 :=
  machine.memory.read (machine.current + distance)

/-- The register that the current instruction names. -/
def operandRegister (machine : Machine) : Fin registerCount :=
  ⟨(machine.operandByte 1).toNat % registerCount, Nat.mod_lt _ (by decide)⟩

/-- Goes on at the address that the current instruction names. -/
def jump (machine : Machine) : Machine :=
  machine.setPointer (addressOf (machine.operandByte 1) (machine.operandByte 2))

/-- Takes the top off the data stack, and jumps if it passes the test. -/
def jumpIf (machine : Machine) (test : Int8 → Bool) : Machine :=
  if test machine.top then machine.drop.jump else machine.drop

/-- Stores the instruction pointer on the call stack and jumps. -/
def call (machine : Machine) : Machine × Option Fault :=
  let used := machine.callPointer
  if Layout.callStackSize < used + 2 then machine.fail .callStackOverflow
  else
    let back := machine.pointer
    let cell := Layout.callStackStart + used
    let stored := { machine with
      memory := (machine.memory.write cell (highByte back)).write (cell + 1) (lowByte back) }
    ((stored.setCallPointer (used + 2)).jump, none)

/-- Goes on at the address that was stored last on the call stack. -/
def giveBack (machine : Machine) : Machine × Option Fault :=
  let used := machine.callPointer
  if used < 2 then machine.fail .callStackUnderflow
  else
    let cell := Layout.callStackStart + (used - 2)
    let back := addressOf (machine.memory.read cell) (machine.memory.read (cell + 1))
    ((machine.setCallPointer (used - 2)).setPointer back, none)

/-! ### Operations -/

/-- Replaces the top of the data stack. -/
def mapTop (machine : Machine) (change : Int8 → Int8) : Machine :=
  let value := machine.top
  machine.drop.push (change value)

/-- Replaces the two topmost values by one. `change` is given the lower one first. -/
def mapTopTwo (machine : Machine) (change : Int8 → Int8 → Int8) : Machine :=
  let upper := machine.top
  let machine := machine.drop
  let lower := machine.top
  machine.drop.push (change lower upper)

/-- The effect of an operation. The data stack has been checked against the catalog, and the
instruction pointer is already behind the instruction. -/
def execute (machine : Machine) : Operation → Machine × Option Fault
  | .inp =>
    match machine.input with
    | [] => machine.halt
    | value :: rest => ({ machine with input := rest }.push value, none)
  | .out =>
    let value := machine.top
    machine.drop.emit value
  | .del => (machine.drop, none)
  | .dup =>
    let value := machine.top
    ((machine.drop.push value).push value, none)
  | .swp =>
    let upper := machine.top
    let machine := machine.drop
    let lower := machine.top
    ((machine.drop.push upper).push lower, none)
  | .rot =>
    let upper := machine.top
    let machine := machine.drop
    let middle := machine.top
    let machine := machine.drop
    let lower := machine.top
    (((machine.drop.push middle).push upper).push lower, none)
  | .len => (machine.push (Int8.ofNat machine.depth), none)
  | .pze => (machine.push 0, none)
  | .psh => (machine.push (machine.operandByte 1).toInt8, none)
  | .inc => (machine.mapTop (· + 1), none)
  | .dec => (machine.mapTop (· - 1), none)
  | .neg => (machine.mapTop (- ·), none)
  | .add => (machine.mapTopTwo (· + ·), none)
  | .sub => (machine.mapTopTwo (· - ·), none)
  | .jmp => (machine.jump, none)
  | .jez => (machine.jumpIf (· = 0), none)
  | .jnz => (machine.jumpIf (· ≠ 0), none)
  | .jlz => (machine.jumpIf (· < 0), none)
  | .jgz => (machine.jumpIf (· > 0), none)
  | .jsr => machine.call
  | .ret => machine.giveBack
  | .lod => (machine.push machine.registers[machine.operandRegister], none)
  | .sav =>
    let register := machine.operandRegister
    let value := machine.top
    let machine := machine.drop
    ({ machine with registers := machine.registers.set register value }, none)
  | .hlt => machine.halt
  | .brk => ({ machine with status := .paused }, none)
  | .rng =>
    let value := (Keystream.byte machine.seed machine.drawn).toInt8
    ({ machine with drawn := machine.drawn + 1 }.push value, none)
  | .dmp => ({ machine with lastDump? := some machine.dump }, none)

/-! ### Steps -/

/-- Executes an operation that stands at `pointer`, if the data stack allows it. -/
def perform (machine : Machine) (pointer : Nat) (operation : Operation) :
    Machine × Option Fault :=
  if machine.depth < operation.pops then machine.fail .stackUnderflow
  else if Layout.stackSize < machine.depth - operation.pops + operation.pushes then
    machine.fail .stackOverflow
  else (machine.setPointer (pointer + operation.encodedLength)).execute operation

/-- Starts the next instruction: a cycle is counted, and the instruction at the pointer becomes
the current one. -/
def begin (machine : Machine) : Machine :=
  { machine with cycles := machine.cycles + 1, current := machine.pointer }

/-- Executes one instruction, and gives the fault if there was one. A stopped machine stays as
it is. -/
def step (machine : Machine) : Machine × Option Fault :=
  if machine.status = .stopped then (machine, none)
  else
    let pointer := machine.pointer
    let machine := machine.begin
    if Layout.codeSize ≤ pointer then machine.fail (.pointerOutOfBounds pointer)
    else
      let code := machine.memory.read pointer
      if code = 0 then machine.halt
      else
        match Operation.ofCode? code with
        | none => machine.fail (.unknownOpcode code)
        | some operation => machine.perform pointer operation

/-- The machine after a number of steps. -/
def steps : Nat → Machine → Machine
  | 0, machine => machine
  | count + 1, machine => steps count machine.step.1

end ByteStack.Machine
