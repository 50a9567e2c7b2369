/-
This file says once what a step can do, so that no later file has to open the
step again. A step of an active machine fails before anything is executed, meets
a zero byte and ends the program, or executes the operation at the pointer. An
operation in turn goes on, ends the program, or fails in one of two ways: a call
or a return may find its stack full or empty, and a value that is put out may be
the wrong one.
-/

import ByteStack.Proofs.Machine.Nesting
import ByteStack.Proofs.Machine.Expecting

namespace ByteStack.Machine

variable {machine : Machine} {operation : Operation}

/-! ### Steps -/

/-- The ways in which a step of an active machine can go. -/
inductive Course (machine : Machine) : Machine × Option Fault → Prop where
  /-- The pointer has left the code region. -/
  | outside (outside : Layout.codeSize ≤ machine.pointer) :
      Course machine (machine.begin.fail (.pointerOutOfBounds machine.pointer))
  /-- The program ends at a zero byte. -/
  | zero (inside : machine.pointer < Layout.codeSize)
      (zero : machine.memory.read machine.pointer = 0) : Course machine machine.begin.halt
  /-- The byte at the pointer is no opcode. -/
  | unknown (inside : machine.pointer < Layout.codeSize)
      (nonzero : machine.memory.read machine.pointer ≠ 0)
      (unknown : Operation.ofCode? (machine.memory.read machine.pointer) = none) :
      Course machine (machine.begin.fail (.unknownOpcode (machine.memory.read machine.pointer)))
  /-- The data stack holds too few values. -/
  | poor {operation : Operation} (starts : machine.Starts operation)
      (poor : machine.depth < operation.pops) :
      Course machine (machine.begin.fail .stackUnderflow)
  /-- The data stack would hold too many values. -/
  | rich {operation : Operation} (starts : machine.Starts operation)
      (enough : operation.pops ≤ machine.depth)
      (rich : Layout.stackSize < machine.depth - operation.pops + operation.pushes) :
      Course machine (machine.begin.fail .stackOverflow)
  | executes {operation : Operation} (starts : machine.Starts operation)
      (enough : operation.pops ≤ machine.depth)
      (room : machine.depth - operation.pops + operation.pushes ≤ Layout.stackSize) :
      Course machine
        ((machine.begin.setPointer (machine.pointer + operation.encodedLength)).execute
          operation)

theorem course_perform (starts : machine.Starts operation) :
    machine.Course (machine.begin.perform machine.pointer operation) := by
  unfold perform
  rw [show machine.begin.depth = machine.depth from rfl]
  by_cases poor : machine.depth < operation.pops
  · rw [if_pos poor]
    exact .poor starts poor
  have enough := Nat.le_of_not_lt poor
  rw [if_neg poor]
  by_cases rich : Layout.stackSize < machine.depth - operation.pops + operation.pushes
  · rw [if_pos rich]
    exact .rich starts enough rich
  · rw [if_neg rich]
    exact .executes starts enough (Nat.le_of_not_lt rich)

/-- A step goes in one of these ways. -/
theorem course_step (active : machine.status ≠ .stopped) : machine.Course machine.step := by
  by_cases busy : ∃ operation, machine.Starts operation
  · obtain ⟨operation, starts⟩ := busy
    rw [step_of_starts starts]
    exact course_perform starts
  unfold step
  rw [if_neg active]
  dsimp only
  by_cases outside : Layout.codeSize ≤ machine.pointer
  · rw [if_pos outside]
    exact .outside outside
  have inside := Nat.lt_of_not_le outside
  rw [if_neg outside, show machine.begin.memory = machine.memory from rfl]
  by_cases zero : machine.memory.read machine.pointer = 0
  · rw [if_pos zero]
    exact .zero inside zero
  rw [if_neg zero]
  cases fetched : Operation.ofCode? (machine.memory.read machine.pointer) with
  | none => exact .unknown inside zero fetched
  | some operation => exact absurd ⟨operation, active, inside, fetched⟩ busy

/-! ### Operations -/

/-- Where the program ends there are two things that can be wrong. -/
def Unfinished (machine : Machine) (kind : FaultKind) : Prop :=
  (∃ expected, kind = .notEnoughOutputs expected machine.output.size) ∨
    kind = .stackNotEmpty machine.depth

/-- Ending the program stops the machine, and may fail. -/
theorem halt_cases (machine : Machine) :
    machine.halt = ({ machine with status := .stopped }, none) ∨
      ∃ kind, machine.Unfinished kind ∧ machine.halt = machine.fail kind := by
  unfold halt
  dsimp only
  split
  · next expected _ => exact .inr ⟨_, .inl ⟨_, rfl⟩, rfl⟩
  · split
    · exact .inr ⟨_, .inr rfl, rfl⟩
    · exact .inl rfl

/-- Reading an empty input ends the program, and so does the operation for it. -/
def Ends (machine : Machine) (operation : Operation) : Prop :=
  operation = .hlt ∨ operation = .inp ∧ machine.input = []

/-- A call fails when the call stack is full, and a return when it is empty. -/
inductive Refused : Operation → FaultKind → Prop where
  | call : Refused .jsr .callStackOverflow
  | giveBack : Refused .ret .callStackUnderflow

/-- The value that is put out after `produced` others is not the expected one, or no more are
expected. -/
inductive Unfit (produced : Nat) (value : Int8) : FaultKind → Prop where
  | mismatch (wanted : Int8) : Unfit produced value (.outputMismatch produced wanted value)
  | tooMany (expected : Nat) : Unfit produced value (.tooManyOutputs expected)

/-- The ways in which an operation can take effect. -/
inductive Effect (machine : Machine) (operation : Operation) :
    Machine × Option Fault → Prop where
  /-- Only a break changes the status. -/
  | goesOn {next : Machine} (goesOn : ¬machine.Ends operation)
      (status : next.status = if operation = .brk then .paused else machine.status)
      (fault : next.fault? = machine.fault?) (cycles : next.cycles = machine.cycles) :
      Effect machine operation (next, none)
  | ends (ends : machine.Ends operation) : Effect machine operation machine.halt
  | refused {kind : FaultKind} (refused : Refused operation kind) :
      Effect machine operation (machine.fail kind)
  | unfit {kind : FaultKind} (puts : operation = .out)
      (unfit : Unfit machine.output.size machine.top kind) :
      Effect machine operation
        ({ machine.drop with output := machine.output.push machine.top }.fail kind)

theorem unfit_of_outputFault? {expected : Array Int8} {produced : Nat} {value : Int8}
    {kind : FaultKind} (wrong : outputFault? expected produced value = some kind) :
    Unfit produced value kind := by
  unfold outputFault? at wrong
  split at wrong
  · obtain rfl := Option.some.inj wrong
    exact .tooMany _
  · split at wrong
    · exact nomatch wrong
    · obtain rfl := Option.some.inj wrong
      exact .mismatch _

theorem effect_out (machine : Machine) : machine.Effect .out (machine.execute .out) := by
  have goesOn : ¬machine.Ends .out := by
    rintro (halts | ⟨reads, _⟩)
    · exact nomatch halts
    · exact nomatch reads
  rw [execute]
  unfold emit
  dsimp only
  split
  · next kind found =>
    obtain ⟨expected, _, wrong⟩ := Option.bind_eq_some_iff.mp found
    exact .unfit rfl (unfit_of_outputFault? wrong)
  · exact .goesOn goesOn rfl rfl rfl

theorem effect_execute (machine : Machine) (operation : Operation) :
    machine.Effect operation (machine.execute operation) := by
  by_cases ends : machine.Ends operation
  · have halted : machine.execute operation = machine.halt := by
      obtain rfl | ⟨rfl, empty⟩ := ends
      · rfl
      · rw [execute, empty]
    rw [halted]
    exact .ends ends
  by_cases puts : operation = .out
  · subst puts
    exact effect_out machine
  have leaves : Leaves machine machine := ⟨rfl, rfl, rfl, rfl, rfl, rfl⟩
  by_cases breaks : operation = .brk
  · subst breaks
    exact .goesOn ends rfl rfl rfl
  have done {after : Machine} (leaves : Leaves machine after) :
      machine.Effect operation (after, none) :=
    .goesOn ends (leaves.status.trans (if_neg breaks).symm) leaves.fault leaves.cycles
  cases operation with
  | out => exact absurd rfl puts
  | hlt => exact absurd (.inl rfl) ends
  | inp =>
    cases given : machine.input with
    | nil => exact absurd (.inr ⟨rfl, given⟩) ends
    | cons value rest =>
      rw [execute, given]
      exact done ((leaves.takeInput rest).push value)
  | del => exact done leaves.drop
  | dup => exact done ((leaves.drop.push machine.top).push machine.top)
  | swp => exact done ((leaves.drop.drop.push machine.top).push machine.drop.top)
  | rot =>
    exact done (((leaves.drop.drop.drop.push machine.drop.top).push machine.top).push
      machine.drop.drop.top)
  | len => exact done (leaves.push (Int8.ofNat machine.depth))
  | pze => exact done (leaves.push 0)
  | psh => exact done (leaves.push (machine.operandByte 1).toInt8)
  | inc => exact done (leaves.mapTop (· + 1))
  | dec => exact done (leaves.mapTop (· - 1))
  | neg => exact done (leaves.mapTop (- ·))
  | add => exact done (leaves.mapTopTwo (· + ·))
  | sub => exact done (leaves.mapTopTwo (· - ·))
  | jmp => exact done leaves.jump
  | jez | jnz | jlz | jgz => exact done (leaves.jumpIf _)
  | jsr =>
    rw [execute, call]
    dsimp only
    split
    · exact .refused .call
    · have stored := leaves.storeReturn machine.callPointer machine.pointer
      exact done (stored.setCallPointer (machine.callPointer + 2)).jump
  | ret =>
    rw [execute, giveBack]
    dsimp only
    split
    · exact .refused .giveBack
    · exact done ((leaves.setCallPointer (machine.callPointer - 2)).setPointer _)
  | lod => exact done (leaves.push machine.registers[machine.operandRegister])
  | sav => exact done (leaves.drop.setRegister machine.operandRegister machine.top)
  | brk => exact absurd rfl breaks
  | rng => exact done (leaves.draw.push (Keystream.byte machine.seed machine.drawn).toInt8)
  | dmp => exact done (leaves.noteDump machine.dump)

end ByteStack.Machine
