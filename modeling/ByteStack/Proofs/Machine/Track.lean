/-
This file shows that the code of a program keeps the machine of lists on track.
The instruction pointer and the return addresses are always places between two
statements of the program: an instruction that falls through ends at such a
place, a jump goes to the address of a label, a call leaves behind the place
after it, and a return goes back to one that was left.

On the way the file shows that an instruction reads nothing behind itself, so
that what stands in memory behind the program has no influence on it.
-/

import ByteStack.Proofs.Assembly.Boundary
import ByteStack.Proofs.ListMachine
import ByteStack.Proofs.Memory

namespace ByteStack

/-- The fault tells that the pointer was at no instruction. -/
def FaultKind.isStray : FaultKind → Bool
  | .unknownOpcode _ => true
  | .pointerOutOfBounds _ => true
  | _ => false

/-- A program whose labels are resolved and whose instructions are as long as the catalog says
stands at the front of the code region, with something behind it. -/
structure Program.Loaded (program : Program) (code tail : List UInt8) : Prop where
  code : code = program.code ++ tail
  fits : program.size ≤ Layout.codeSize
  resolved : ∀ name ∈ program.usedNames, name ∈ program.definedNames
  width_eq : ∀ mnemonic operation argument, .instruction mnemonic operation argument ∈ program →
    argument.width = operation.operand.width

variable {program before after : Program} {mnemonic : Token} {operation : Operation}
  {argument : Argument} {tail : List UInt8} {scenario : Scenario}

/-! ### The bytes of an instruction -/

namespace Program.Loaded

variable {code : List UInt8}

theorem size_eq (loaded : program.Loaded code tail)
    (whole : program = before ++ .instruction mnemonic operation argument :: after) :
    (Statement.instruction mnemonic operation argument).size = operation.encodedLength := by
  have member : .instruction mnemonic operation argument ∈ program := by
    rw [whole]
    exact List.mem_append_right _ List.mem_cons_self
  rw [Statement.size, loaded.width_eq _ _ _ member]
  rfl

theorem getElem?_code (loaded : program.Loaded code tail) {statement : Statement}
    (whole : program = before ++ statement :: after) {distance : Nat}
    (inside : distance < statement.size) :
    code[before.size + distance]? = (statement.encode program.address)[distance]? := by
  have bound := size_instruction_append whole
  rw [loaded.code, List.getElem?_append_left (by rw [length_code]; omega),
    Program.getElem?_code whole inside]

/-- At the offset of an instruction stands its opcode. -/
theorem fetch (loaded : program.Loaded code tail)
    (whole : program = before ++ .instruction mnemonic operation argument :: after) :
    code[before.size]? = some operation.code :=
  loaded.getElem?_code whole (Nat.lt_add_right _ Nat.one_pos)

/-- A jump finds the address of its label, which is a place in the program. -/
theorem target (loaded : program.Loaded scenario.code tail)
    (whole : program = before ++ .instruction mnemonic operation argument :: after)
    (jumps : operation.operand = .label) (state : ListMachine) :
    program.Boundary (state.target scenario before.size) := by
  have size := loaded.size_eq whole
  rw [Operation.encodedLength, jumps] at size
  cases argument with
  | nothing => exact absurd (show 1 = 3 from size) (by decide)
  | byte value => exact absurd (show 2 = 3 from size) (by decide)
  | label name =>
    have used : name ∈ program.usedNames := by
      rw [whole, usedNames_append]
      exact List.mem_append_right _ List.mem_cons_self
    have boundary := boundary_address (loaded.resolved name used)
    have small : program.address name < 65536 := by
      have bound := Nat.le_trans boundary.le_size loaded.fits
      rw [Layout.codeSize_eq] at bound
      omega
    have high := loaded.getElem?_code whole (show 1 < 3 by decide)
    have low := loaded.getElem?_code whole (show 2 < 3 by decide)
    rw [ListMachine.target, ListMachine.operandByte, ListMachine.operandByte, high, low]
    dsimp only [Statement.encode, Argument.encode, List.getElem?_cons_succ,
      List.getElem?_cons_zero]
    rw [addressOf_bytes small]
    exact boundary

end Program.Loaded

/-! ### What an operation reads -/

namespace ListMachine

variable {first second : Scenario} {offset : Nat}

theorem operandByte_congr (state : ListMachine) {address : Nat}
    (same : first.code[address]? = second.code[address]?) :
    state.operandByte first address = state.operandByte second address := by
  unfold operandByte
  rw [same]

/-- An operation reads no byte of the code outside its operand. -/
theorem execute_congr (state : ListMachine) (expected : first.expected? = second.expected?)
    (random : first.random = second.random)
    (operand : ∀ distance, 0 < distance → distance < operation.encodedLength →
      first.code[offset + distance]? = second.code[offset + distance]?) :
    state.execute first offset operation = state.execute second offset operation := by
  obtain ⟨firstCode, expected?, bytes⟩ := first
  obtain ⟨secondCode, _, _⟩ := second
  obtain rfl : expected? = _ := expected
  obtain rfl : bytes = _ := random
  have byte (machine : ListMachine) (distance : Nat) (positive : 0 < distance)
      (inside : distance < operation.encodedLength) :=
    operandByte_congr machine (operand distance positive inside)
  have jump (jumps : operation.operand = .label) (machine : ListMachine) :
      machine.jump ⟨firstCode, expected?, bytes⟩ offset =
        machine.jump ⟨secondCode, expected?, bytes⟩ offset := by
    have long : operation.encodedLength = 3 := by
      rw [Operation.encodedLength, jumps]
      rfl
    unfold ListMachine.jump target
    rw [byte machine 1 (by decide) (by rw [long]; decide),
      byte machine 2 (by decide) (by rw [long]; decide)]
  cases operation with
  | psh => simp only [execute, byte state 1 (by decide) (by decide)]
  | lod => simp only [execute, register, byte state 1 (by decide) (by decide)]
  | sav =>
    cases shape : state.stack with
    | nil => simp only [execute, shape]
    | cons value rest =>
      simp only [execute, shape, register, byte state 1 (by decide) (by decide)]
  | jmp => simp only [execute, jump rfl]
  | jez | jnz | jlz | jgz =>
    cases shape : state.stack with
    | nil => simp only [execute, shape]
    | cons value rest => simp only [execute, shape, jump rfl]
  | jsr =>
    simp only [execute, target, byte state 1 (by decide) (by decide),
      byte state 2 (by decide) (by decide)]
  | _ =>
    -- The other operations have no operand, and look at three values at most.
    rcases shape : state.stack with _ | ⟨upper, _ | ⟨middle, _ | ⟨lower, rest⟩⟩⟩ <;>
      simp only [execute, shape] <;> rfl

theorem dispatch_of_fetch (state : ListMachine)
    (fetched : scenario.code[offset]? = some operation.code) :
    state.dispatch scenario offset = state.perform scenario offset operation := by
  unfold dispatch
  rw [fetched]
  dsimp only
  rw [if_neg operation.code_ne_zero, Operation.ofCode?_code]

/-- A step reads no byte of the code outside the instruction at the pointer. -/
theorem step_congr (state : ListMachine) (expected : first.expected? = second.expected?)
    (random : first.random = second.random)
    (same : ∀ distance < operation.encodedLength,
      first.code[state.pointer + distance]? = second.code[state.pointer + distance]?)
    (fetched : first.code[state.pointer]? = some operation.code) :
    state.step first = state.step second := by
  have also : second.code[state.pointer]? = some operation.code := by
    rw [← fetched]
    exact (same 0 (Nat.lt_add_right _ Nat.one_pos)).symm
  unfold step
  rw [dispatch_of_fetch _ fetched, dispatch_of_fetch _ also]
  unfold perform
  rw [execute_congr _ expected random fun distance _ => same distance]

/-! ### Staying on track -/

/-- The pointer and the return addresses are places in the program, and no fault tells
otherwise, unless the code is full and the pointer has run to its end. -/
structure OnTrack (program : Program) (state : ListMachine) : Prop where
  pointer : program.Boundary state.pointer
  calls : ∀ address ∈ state.calls, program.Boundary address
  fault : ∀ fault, state.fault? = some fault → fault.kind.isStray = true →
    fault.kind = .pointerOutOfBounds Layout.codeSize ∧ program.size = Layout.codeSize

namespace OnTrack

variable {state other : ListMachine}

theorem of_same (onTrack : OnTrack program state) (pointer : other.pointer = state.pointer)
    (calls : other.calls = state.calls) (fault : other.fault? = state.fault?) :
    OnTrack program other where
  pointer := by rw [pointer]; exact onTrack.pointer
  calls := by rw [calls]; exact onTrack.calls
  fault := by rw [fault]; exact onTrack.fault

theorem fail (onTrack : OnTrack program state) (offset : Nat) {kind : FaultKind}
    (harmless : kind.isStray = false) : OnTrack program (state.fail offset kind) where
  pointer := onTrack.pointer
  calls := onTrack.calls
  fault := by
    intro fault recorded stray
    obtain rfl := Option.some.inj recorded
    rw [harmless] at stray
    exact nomatch stray

theorem halt (onTrack : OnTrack program state) (offset : Nat) :
    OnTrack program (state.halt scenario offset) := by
  unfold ListMachine.halt
  dsimp only
  split
  · exact onTrack.fail offset rfl
  · split
    · exact onTrack.fail offset rfl
    · exact onTrack.of_same rfl rfl rfl

theorem emit (onTrack : OnTrack program state) (offset : Nat) (value : Int8) :
    OnTrack program (state.emit scenario offset value) := by
  have put : OnTrack program { state with output := state.output ++ [value] } :=
    onTrack.of_same rfl rfl rfl
  unfold ListMachine.emit
  dsimp only
  cases verdict : outputFault? scenario state.output.length value with
  | none => exact put
  | some kind =>
    refine put.fail offset ?_
    -- Output is wrong by its value or by its number, never by the pointer.
    unfold outputFault? at verdict
    split at verdict
    · exact nomatch verdict
    · split at verdict
      · obtain rfl := Option.some.inj verdict
        rfl
      · split at verdict
        · exact nomatch verdict
        · obtain rfl := Option.some.inj verdict
          rfl

theorem jump (onTrack : OnTrack program state) {offset : Nat}
    (aim : program.Boundary (state.target scenario offset)) :
    OnTrack program (state.jump scenario offset) where
  pointer := aim
  calls := onTrack.calls
  fault := onTrack.fault

theorem jumpIf (onTrack : OnTrack program state) {offset : Nat} (stack : List Int8)
    (aim : program.Boundary (state.target scenario offset)) (holds : Prop) [Decidable holds] :
    OnTrack program (if holds then (state.withStack stack).jump scenario offset
      else state.withStack stack) := by
  have taken : OnTrack program (state.withStack stack) := onTrack.of_same rfl rfl rfl
  split
  · exact taken.jump aim
  · exact taken

/-- An operation stays on track, when its address is a place in the program if it has one. -/
theorem execute (onTrack : OnTrack program state) {offset : Nat}
    (aim : operation.operand = .label → program.Boundary (state.target scenario offset)) :
    OnTrack program (state.execute scenario offset operation) := by
  cases operation with
  | inp =>
    unfold ListMachine.execute
    dsimp only
    split
    · exact onTrack.halt offset
    · exact onTrack.of_same rfl rfl rfl
  | out =>
    cases shape : state.stack with
    | nil =>
      simp only [ListMachine.execute, shape]
      exact onTrack
    | cons value rest =>
      simp only [ListMachine.execute, shape]
      have taken : OnTrack program (state.withStack rest) := onTrack.of_same rfl rfl rfl
      exact taken.emit offset value
  | hlt => exact onTrack.halt offset
  | jmp => exact onTrack.jump (aim rfl)
  | jez | jnz | jlz | jgz =>
    cases shape : state.stack with
    | nil =>
      simp only [ListMachine.execute, shape]
      exact onTrack
    | cons value rest =>
      simp only [ListMachine.execute, shape]
      exact onTrack.jumpIf rest (aim rfl) _
  | jsr =>
    simp only [ListMachine.execute]
    split
    · refine ⟨aim rfl, ?_, onTrack.fault⟩
      intro address member
      rcases List.mem_cons.mp member with rfl | earlier
      · exact onTrack.pointer
      · exact onTrack.calls address earlier
    · exact onTrack.fail offset rfl
  | ret =>
    cases shape : state.calls with
    | nil =>
      simp only [ListMachine.execute, shape]
      exact onTrack.fail offset rfl
    | cons back rest =>
      simp only [ListMachine.execute, shape]
      have left := onTrack.calls
      rw [shape] at left
      exact ⟨left back List.mem_cons_self,
        fun address member => left address (List.mem_cons_of_mem _ member), onTrack.fault⟩
  | _ =>
    -- The other operations leave the pointer and the return addresses alone.
    rcases shape : state.stack with _ | ⟨upper, _ | ⟨middle, _ | ⟨lower, rest⟩⟩⟩ <;>
      simp only [ListMachine.execute, shape] <;> exact onTrack.of_same rfl rfl rfl

theorem perform (onTrack : OnTrack program state) (loaded : program.Loaded scenario.code tail)
    (whole : program = before ++ .instruction mnemonic operation argument :: after) :
    OnTrack program (state.perform scenario before.size operation) := by
  unfold ListMachine.perform
  dsimp only
  split
  · exact onTrack.fail _ rfl
  · split
    · exact onTrack.fail _ rfl
    · refine execute ?_ fun jumps => loaded.target whole jumps _
      refine ⟨?_, onTrack.calls, onTrack.fault⟩
      rw [← loaded.size_eq whole]
      exact Program.boundary_behind whole

/-- A step stays on track. Where the program ends, a zero byte ends the run, unless there is no
room for one. -/
theorem step (onTrack : OnTrack program state)
    (loaded : program.Loaded scenario.code
      (List.replicate (Layout.codeSize - program.size) 0)) :
    OnTrack program (state.step scenario) := by
  unfold ListMachine.step
  split
  · exact onTrack
  have begun : OnTrack program { state with cycles := state.cycles + 1 } :=
    onTrack.of_same rfl rfl rfl
  rcases onTrack.pointer.split with last | inside
  · have behind : scenario.code[state.pointer]? =
        (List.replicate (Layout.codeSize - program.size) (0 : UInt8))[0]? := by
      rw [loaded.code, last, List.getElem?_append_right (Nat.le_of_eq program.length_code),
        program.length_code, Nat.sub_self]
    unfold dispatch
    rw [behind, List.getElem?_replicate]
    by_cases full : program.size = Layout.codeSize
    · rw [full, Nat.sub_self, if_neg (Nat.lt_irrefl 0)]
      refine ⟨onTrack.pointer, onTrack.calls, ?_⟩
      intro fault recorded stray
      obtain rfl := Option.some.inj recorded
      exact ⟨congrArg _ (last.trans full), full⟩
    · have room : 0 < Layout.codeSize - program.size :=
        Nat.sub_pos_of_lt (Nat.lt_of_le_of_ne loaded.fits full)
      rw [if_pos room]
      exact begun.halt state.pointer
  · obtain ⟨before, mnemonic, operation, argument, after, whole, place⟩ := inside
    have fetched := loaded.fetch whole
    have performed := begun.perform loaded whole
    rw [← place] at fetched performed
    rw [dispatch_of_fetch _ fetched]
    exact performed

end OnTrack

end ListMachine

end ByteStack
