/-
This file proves that the machine with one block of memory does, step by step,
what the machine of lists does. The two are related by a view, which reads the
lists out of memory, and by an invariant, which keeps the regions of memory
apart: the stacks stay in bounds, the call stack holds whole addresses, and the
code region still holds the program.

Each small operation is shown once to keep the relation. An operation of the
catalog is a chain of these, and a step is at most one operation, so a run of
any length follows by induction.
-/

import ByteStack.Proofs.ListMachine
import ByteStack.Proofs.Machine.View

namespace ByteStack

/-- What an image, its feed and a seed fix for a whole run. -/
def Scenario.ofRun (image : Image) (feed : Feed) (seed : UInt64) : Scenario where
  code := image.codeRegion
  expected? := feed.expected?
  random := Keystream.byte seed

namespace Machine

/-! ### The relation -/

/-- The machine as lists. -/
def view (machine : Machine) : ListMachine where
  pointer := machine.pointer
  stack := machine.stack.reverse
  calls := machine.calls
  registers := machine.registers
  input := machine.input
  output := machine.output.toList
  drawn := machine.drawn
  cycles := machine.cycles
  status := machine.status
  fault? := machine.fault?

/-- What holds of a machine at every moment of a run. -/
structure Sound (scenario : Scenario) (machine : Machine) : Prop where
  /-- The program has not changed. -/
  code : machine.memory.slice 0 Layout.codeSize = scenario.code
  expected : machine.expected?.map Array.toList = scenario.expected?
  random : Keystream.byte machine.seed = scenario.random
  depth_le : machine.depth ≤ Layout.stackSize
  /-- The cell shows the depth, modulo 256. -/
  depthCell : machine.memory.read Layout.depthCell = UInt8.ofNat machine.depth
  callPointer_le : machine.callPointer ≤ Layout.callStackSize
  /-- Only whole addresses are stored. -/
  callPointer_even : machine.callPointer % 2 = 0
  stopped_of_fault : machine.fault? ≠ none → machine.status = .stopped

/-- The machine is sound, and this is what it looks like. -/
structure Shows (scenario : Scenario) (machine : Machine) (state : ListMachine) : Prop where
  sound : machine.Sound scenario
  view_eq : machine.view = state

variable {scenario : Scenario} {machine : Machine} {state : ListMachine}

theorem Shows.pointer_eq (shows : Shows scenario machine state) :
    machine.pointer = state.pointer :=
  congrArg ListMachine.pointer shows.view_eq

theorem Shows.calls_eq (shows : Shows scenario machine state) : machine.calls = state.calls :=
  congrArg ListMachine.calls shows.view_eq

theorem Shows.cycles_eq (shows : Shows scenario machine state) : machine.cycles = state.cycles :=
  congrArg ListMachine.cycles shows.view_eq

theorem Shows.status_eq (shows : Shows scenario machine state) : machine.status = state.status :=
  congrArg ListMachine.status shows.view_eq

theorem Shows.fault?_eq (shows : Shows scenario machine state) : machine.fault? = state.fault? :=
  congrArg ListMachine.fault? shows.view_eq

/-- The program fills the code region. -/
theorem Sound.length_code (sound : machine.Sound scenario) :
    scenario.code.length = Layout.codeSize := by
  rw [← sound.code, Memory.length_slice _ _ _ (by decide), Nat.sub_zero]

/-- The bytes of the program are those of the code region. -/
theorem Sound.getElem?_code (sound : machine.Sound scenario) {address : Nat}
    (inside : address < Layout.codeSize) :
    scenario.code[address]? = some (machine.memory.read address) := by
  rw [← sound.code, Memory.getElem?_slice _ _ _ _ (by omega) (by decide), Nat.zero_add]

/-- A byte of the program is found in memory, inside the code region. -/
theorem Sound.read_of_fetched (sound : machine.Sound scenario) {address : Nat} {byte : UInt8}
    (fetched : scenario.code[address]? = some byte) :
    address < Layout.codeSize ∧ machine.memory.read address = byte := by
  have inside := sound.length_code ▸ (List.getElem?_eq_some_iff.mp fetched).1
  exact ⟨inside, Option.some.inj ((sound.getElem?_code inside).symm.trans fetched)⟩

theorem Sound.length_calls (sound : machine.Sound scenario) :
    2 * machine.calls.length = machine.callPointer := by
  rw [Machine.length_calls]
  have := sound.callPointer_even
  omega

theorem Sound.length_view_stack (sound : machine.Sound scenario) :
    machine.view.stack.length = machine.depth := by
  rw [view, List.length_reverse, length_stack _ sound.depth_le]

/-- Parts that no list is read from can change freely. -/
theorem Sound.of_same {other : Machine} (sound : machine.Sound scenario)
    (memory : other.memory = machine.memory) (depth : other.depth = machine.depth)
    (expected : other.expected? = machine.expected?) (seed : other.seed = machine.seed)
    (stopped : other.fault? ≠ none → other.status = .stopped) : other.Sound scenario where
  code := by rw [memory]; exact sound.code
  expected := by rw [expected]; exact sound.expected
  random := by rw [seed]; exact sound.random
  depth_le := by rw [depth]; exact sound.depth_le
  depthCell := by rw [memory, depth]; exact sound.depthCell
  callPointer_le := by rw [callPointer, memory]; exact sound.callPointer_le
  callPointer_even := by rw [callPointer, memory]; exact sound.callPointer_even
  stopped_of_fault := stopped

/-- A write behind the code that spares the two counters. -/
theorem Sound.write (sound : machine.Sound scenario) {address : Nat} (byte : UInt8)
    (behind : Layout.codeSize ≤ address) (notDepth : address ≠ Layout.depthCell)
    (notCalls : address ≠ Layout.callPointerCell) :
    Sound scenario { machine with memory := machine.memory.write address byte } where
  code := by
    rw [Memory.slice_write_outside _ _ _ _ _ (Or.inr behind)]
    exact sound.code
  expected := sound.expected
  random := sound.random
  depth_le := sound.depth_le
  depthCell := by
    rw [Memory.read_write_other _ _ _ _ notDepth]
    exact sound.depthCell
  callPointer_le := by
    rw [callPointer, Memory.read_write_other _ _ _ _ notCalls]
    exact sound.callPointer_le
  callPointer_even := by
    rw [callPointer, Memory.read_write_other _ _ _ _ notCalls]
    exact sound.callPointer_even
  stopped_of_fault := sound.stopped_of_fault

theorem Sound.setDepth (sound : machine.Sound scenario) {depth : Nat}
    (bound : depth ≤ Layout.stackSize) : (machine.setDepth depth).Sound scenario where
  code := by
    unfold Machine.setDepth
    rw [Memory.slice_write_outside _ _ _ _ _ (Or.inr (by decide))]
    exact sound.code
  expected := sound.expected
  random := sound.random
  depth_le := bound
  depthCell := Memory.read_write_self _ _ _ (by decide)
  callPointer_le := by rw [callPointer_setDepth]; exact sound.callPointer_le
  callPointer_even := by rw [callPointer_setDepth]; exact sound.callPointer_even
  stopped_of_fault := sound.stopped_of_fault

theorem Sound.setCallPointer (sound : machine.Sound scenario) {used : Nat}
    (bound : used ≤ Layout.callStackSize) (even : used % 2 = 0) :
    (machine.setCallPointer used).Sound scenario := by
  have same : (machine.setCallPointer used).callPointer = used :=
    callPointer_setCallPointer _ _ (by simp only [Layout.callStackSize_eq] at bound; omega)
  exact {
    code := by
      unfold Machine.setCallPointer
      rw [Memory.slice_write_outside _ _ _ _ _ (Or.inr (by decide))]
      exact sound.code
    expected := sound.expected
    random := sound.random
    depth_le := sound.depth_le
    depthCell := by
      rw [read_setCallPointer_other _ _ _ (by decide)]
      exact sound.depthCell
    callPointer_le := by rw [same]; exact bound
    callPointer_even := by rw [same]; exact even
    stopped_of_fault := sound.stopped_of_fault }

theorem view_of_same (machine other : Machine) (memory : other.memory = machine.memory)
    (depth : other.depth = machine.depth) :
    other.view = { machine.view with
      registers := other.registers
      input := other.input
      output := other.output.toList
      drawn := other.drawn
      cycles := other.cycles
      status := other.status
      fault? := other.fault? } := by
  unfold view pointer calls callPointer stack
  rw [memory, depth]

/-! ### Small operations -/

namespace Shows

theorem setPointer (shows : Shows scenario machine state) (address : Nat)
    (small : address < 65536) :
    Shows scenario (machine.setPointer address) { state with pointer := address } := by
  obtain ⟨sound, rfl⟩ := shows
  refine ⟨?_, ?_⟩
  · have high := sound.write (highByte address) (Nat.le_refl Layout.pointerHighCell) (by decide)
      (by decide)
    exact high.write (lowByte address) (by decide) (by decide) (by decide)
  · unfold view
    rw [pointer_setPointer _ _ small, stack_setPointer _ _ sound.depth_le, calls_setPointer]
    dsimp only [Machine.setPointer]

theorem push (shows : Shows scenario machine state) (value : Int8)
    (room : state.stack.length < Layout.stackSize) :
    Shows scenario (machine.push value) (state.withStack (value :: state.stack)) := by
  obtain ⟨sound, rfl⟩ := shows
  rw [sound.length_view_stack] at room
  refine ⟨?_, ?_⟩
  · have cell : Layout.callStackStart < Layout.stackStart + machine.depth :=
      Nat.lt_of_lt_of_le (by decide) (Nat.le_add_right _ _)
    have stored := sound.write value.toUInt8 (Nat.le_trans (by decide) (Nat.le_of_lt cell))
      (Nat.ne_of_gt (Nat.lt_trans (by decide) cell)) (Nat.ne_of_gt (Nat.lt_trans (by decide) cell))
    exact stored.setDepth room
  · unfold view
    rw [pointer_push, stack_push _ _ room, calls_push _ _ sound.callPointer_le,
      List.reverse_append, List.reverse_singleton, List.singleton_append]
    dsimp only [Machine.push, setDepth, ListMachine.withStack]

/-- The top of the stack is at hand, and dropping it shows what was below. -/
theorem top_drop (shows : Shows scenario machine state) {value : Int8} {rest : List Int8}
    (shape : state.stack = value :: rest) :
    machine.top = value ∧ Shows scenario machine.drop (state.withStack rest) := by
  obtain ⟨sound, rfl⟩ := shows
  have depth : machine.depth = rest.length + 1 := by
    rw [← sound.length_view_stack, shape, List.length_cons]
  have parts := stack_eq_append machine (by omega) sound.depth_le
  have pair : machine.top = value ∧ machine.drop.stack.reverse = rest := by
    rw [view, parts, List.reverse_append, List.reverse_singleton, List.singleton_append] at shape
    exact List.cons.inj shape
  refine ⟨pair.1, sound.setDepth (Nat.le_trans (Nat.sub_le _ _) sound.depth_le), ?_⟩
  have pointer : machine.drop.pointer = machine.pointer := pointer_setDepth _ _
  have calls : machine.drop.calls = machine.calls := calls_setDepth _ _
  unfold view
  rw [pair.2, pointer, calls]
  dsimp only [drop, setDepth, ListMachine.withStack]

/-- Changes that do not touch memory show in the lists directly. -/
theorem of_same (sound : machine.Sound scenario) (other : Machine)
    (memory : other.memory = machine.memory) (depth : other.depth = machine.depth)
    (expected : other.expected? = machine.expected?) (seed : other.seed = machine.seed)
    (stopped : other.fault? ≠ none → other.status = .stopped) :
    Shows scenario other { machine.view with
      registers := other.registers
      input := other.input
      output := other.output.toList
      drawn := other.drawn
      cycles := other.cycles
      status := other.status
      fault? := other.fault? } :=
  ⟨sound.of_same memory depth expected seed stopped, view_of_same machine other memory depth⟩

theorem fail (shows : Shows scenario machine state) (kind : FaultKind) :
    Shows scenario (machine.fail kind).1 (state.fail machine.current kind) := by
  obtain ⟨sound, rfl⟩ := shows
  exact of_same sound (machine.fail kind).1 rfl rfl rfl rfl fun _ => rfl

theorem stop (shows : Shows scenario machine state) :
    Shows scenario { machine with status := .stopped } { state with status := .stopped } := by
  obtain ⟨sound, rfl⟩ := shows
  exact of_same sound { machine with status := .stopped } rfl rfl rfl rfl fun _ => rfl

theorem pause (shows : Shows scenario machine state) (active : machine.status ≠ .stopped) :
    Shows scenario { machine with status := .paused } { state with status := .paused } := by
  obtain ⟨sound, rfl⟩ := shows
  exact of_same sound { machine with status := .paused } rfl rfl rfl rfl fun fault =>
    absurd (sound.stopped_of_fault fault) active

/-- Pausing from outside. -/
theorem paused (shows : Shows scenario machine state) :
    Shows scenario machine.pause
      (if state.status = .running then { state with status := .paused } else state) := by
  obtain ⟨sound, rfl⟩ := shows
  unfold Machine.pause
  rw [show machine.view.status = machine.status from rfl]
  split
  · next running => exact pause ⟨sound, rfl⟩ (running ▸ nofun)
  · exact ⟨sound, rfl⟩

theorem resumed (shows : Shows scenario machine state) :
    Shows scenario machine.resume
      (if state.status = .paused ∧ state.fault? = none then { state with status := .running }
        else state) := by
  obtain ⟨sound, rfl⟩ := shows
  unfold Machine.resume
  rw [show machine.view.status = machine.status from rfl,
    show machine.view.fault? = machine.fault? from rfl]
  split
  · next waiting =>
    exact of_same sound { machine with status := .running } rfl rfl rfl rfl
      fun fault => absurd waiting.2 fault
  · exact ⟨sound, rfl⟩

theorem takeInput (shows : Shows scenario machine state) (rest : List Int8) :
    Shows scenario { machine with input := rest } { state with input := rest } := by
  obtain ⟨sound, rfl⟩ := shows
  exact of_same sound { machine with input := rest } rfl rfl rfl rfl sound.stopped_of_fault

theorem setRegister (shows : Shows scenario machine state) (register : Fin registerCount)
    (value : Int8) :
    Shows scenario { machine with registers := machine.registers.set register value }
      { state with registers := state.registers.set register value } := by
  obtain ⟨sound, rfl⟩ := shows
  exact of_same sound { machine with registers := machine.registers.set register value }
    rfl rfl rfl rfl sound.stopped_of_fault

theorem draw (shows : Shows scenario machine state) :
    Shows scenario { machine with drawn := machine.drawn + 1 }
      { state with drawn := state.drawn + 1 } := by
  obtain ⟨sound, rfl⟩ := shows
  exact of_same sound { machine with drawn := machine.drawn + 1 } rfl rfl rfl rfl
    sound.stopped_of_fault

theorem noteDump (shows : Shows scenario machine state) (dump : Dump) :
    Shows scenario { machine with lastDump? := some dump } state := by
  obtain ⟨sound, rfl⟩ := shows
  have noted := of_same sound { machine with lastDump? := some dump } rfl rfl rfl rfl
    sound.stopped_of_fault
  dsimp only [view] at noted
  exact noted

theorem noteCurrent (shows : Shows scenario machine state) (offset : Nat) :
    Shows scenario { machine with current := offset } state := by
  obtain ⟨sound, rfl⟩ := shows
  have noted := of_same sound { machine with current := offset } rfl rfl rfl rfl
    sound.stopped_of_fault
  dsimp only [view] at noted
  exact noted

theorem begin (shows : Shows scenario machine state) :
    Shows scenario machine.begin { state with cycles := state.cycles + 1 } := by
  obtain ⟨sound, rfl⟩ := shows
  exact of_same sound { machine with cycles := machine.cycles + 1, current := machine.pointer }
    rfl rfl rfl rfl sound.stopped_of_fault

theorem length_stack (shows : Shows scenario machine state) :
    state.stack.length = machine.depth := by
  rw [← shows.view_eq]
  exact shows.sound.length_view_stack

theorem length_output (shows : Shows scenario machine state) :
    state.output.length = machine.output.size := by
  rw [← shows.view_eq, ← Outbox.length_toList]
  rfl

/-- What is missing at the end, seen on lists. -/
theorem missing (shows : Shows scenario machine state) :
    (scenario.expected?.filter fun expected => state.output.length < expected.length) =
      (machine.expected?.filter fun expected =>
        machine.output.size < expected.size).map Array.toList := by
  rw [← shows.sound.expected, shows.length_output, Option.filter_map]
  rfl

theorem halt (shows : Shows scenario machine state) :
    Shows scenario machine.halt.1 (state.halt scenario machine.current) := by
  unfold Machine.halt ListMachine.halt
  rw [shows.missing, shows.length_stack, shows.length_output]
  dsimp only
  cases machine.expected?.filter fun expected => machine.output.size < expected.size with
  | some expected =>
    exact shows.stop.fail (.notEnoughOutputs expected.size machine.output.size)
  | none =>
    dsimp only [Option.map_none]
    split
    · exact shows.stop.fail (.stackNotEmpty machine.depth)
    · exact shows.stop

theorem putOut (shows : Shows scenario machine state) (value : Int8) :
    Shows scenario { machine with output := machine.output.push value }
      { state with output := state.output ++ [value] } := by
  obtain ⟨sound, rfl⟩ := shows
  have put := of_same sound { machine with output := machine.output.push value } rfl rfl rfl rfl
    sound.stopped_of_fault
  rw [Outbox.toList_push] at put
  exact put

/-- What is wrong with the next output, seen on lists. -/
theorem outputFault (shows : Shows scenario machine state) (value : Int8) :
    ListMachine.outputFault? scenario state.output.length value =
      machine.expected?.bind fun expected => outputFault? expected machine.output.size value := by
  unfold ListMachine.outputFault?
  rw [← shows.sound.expected, shows.length_output]
  cases machine.expected? with
  | none => rfl
  | some expected =>
    dsimp only [Option.map_some, Option.bind_some]
    rw [Array.getElem?_toList, outputFault?]
    rfl

theorem emit (shows : Shows scenario machine state) (value : Int8) :
    Shows scenario (machine.emit value).1 (state.emit scenario machine.current value) := by
  have put := shows.putOut value
  unfold Machine.emit ListMachine.emit
  rw [shows.outputFault]
  dsimp only
  cases machine.expected?.bind fun expected => outputFault? expected machine.output.size value with
  | none => exact put
  | some kind => exact put.fail kind

/-! ### Operands and jumps -/

theorem operandByte (shows : Shows scenario machine state)
    (inside : machine.current < Layout.codeSize) (distance : Nat) (low : 0 < distance)
    (high : distance ≤ 2) :
    machine.operandByte distance = state.operandByte scenario (machine.current + distance) := by
  obtain ⟨sound, rfl⟩ := shows
  unfold Machine.operandByte ListMachine.operandByte
  rw [← sound.code]
  by_cases within : machine.current + distance < Layout.codeSize
  · rw [Memory.getElem?_slice _ _ _ _ (by omega) (by decide), Nat.zero_add]
  · rw [List.getElem?_eq_none (by rw [Memory.length_slice _ _ _ (by decide)]; omega)]
    dsimp only
    split
    case isTrue first =>
      rw [first, view, pointer, highByte_addressOf]
      rfl
    case isFalse second =>
      have place : machine.current + distance = Layout.pointerLowCell := by
        simp only [Layout.codeSize_eq, Layout.pointerLowCell_eq] at *
        omega
      rw [view, pointer, lowByte_addressOf, place]

theorem jump (shows : Shows scenario machine state) (inside : machine.current < Layout.codeSize) :
    Shows scenario machine.jump (state.jump scenario machine.current) := by
  unfold Machine.jump ListMachine.jump ListMachine.target
  rw [shows.operandByte inside 1 (by decide) (by decide),
    shows.operandByte inside 2 (by decide) (by decide)]
  exact shows.setPointer _ (addressOf_lt _ _)

theorem register (shows : Shows scenario machine state)
    (inside : machine.current < Layout.codeSize) :
    machine.operandRegister = state.register scenario machine.current := by
  unfold operandRegister ListMachine.register
  simp only [shows.operandByte inside 1 (by decide) (by decide)]

theorem length_calls (shows : Shows scenario machine state) :
    2 * state.calls.length = machine.callPointer := by
  rw [← shows.view_eq]
  exact shows.sound.length_calls

theorem storeReturn (shows : Shows scenario machine state)
    (room : machine.callPointer + 2 ≤ Layout.callStackSize) :
    Shows scenario
      ((machine.storeReturn machine.callPointer machine.pointer).setCallPointer
        (machine.callPointer + 2))
      { state with calls := state.pointer :: state.calls } := by
  obtain ⟨sound, rfl⟩ := shows
  have even := sound.callPointer_even
  refine ⟨?_, ?_⟩
  · have cell : Layout.depthCell < Layout.callStackStart + machine.callPointer :=
      Nat.lt_of_lt_of_le (by decide) (Nat.le_add_right _ _)
    have above : Layout.callPointerCell < Layout.callStackStart + machine.callPointer :=
      Nat.lt_trans (by decide) cell
    have high := sound.write (highByte machine.pointer)
      (Nat.le_trans (by decide) (Nat.le_of_lt cell)) (Nat.ne_of_gt cell) (Nat.ne_of_gt above)
    have stored := high.write (lowByte machine.pointer)
      (Nat.le_trans (by decide) (Nat.le_succ_of_le (Nat.le_of_lt cell)))
      (Nat.ne_of_gt (Nat.lt_succ_of_lt cell)) (Nat.ne_of_gt (Nat.lt_succ_of_lt above))
    exact stored.setCallPointer room (by omega)
  · unfold view
    rw [pointer_setCallPointer, pointer_storeReturn,
      stack_setCallPointer _ _ (by exact sound.depth_le),
      stack_storeReturn _ _ _ sound.depth_le room,
      calls_storeReturn _ _ machine.pointer_lt even room]
    dsimp only [Machine.setCallPointer, Machine.storeReturn]

theorem call (shows : Shows scenario machine state) (inside : machine.current < Layout.codeSize) :
    Shows scenario machine.call.1
      (if state.calls.length < ListMachine.callCapacity then
        { state with
          calls := state.pointer :: state.calls
          pointer := state.target scenario machine.current }
      else state.fail machine.current .callStackOverflow) := by
  have used := shows.length_calls
  unfold Machine.call
  dsimp only
  by_cases full : Layout.callStackSize < machine.callPointer + 2
  · rw [if_pos full, if_neg (by
      simp only [Layout.callStackSize_eq, ListMachine.callCapacity] at *; omega)]
    exact shows.fail .callStackOverflow
  · rw [if_neg full, if_pos (by
      simp only [Layout.callStackSize_eq, ListMachine.callCapacity] at *; omega)]
    have stored := shows.storeReturn (by omega)
    exact stored.jump inside

/-- The latest return address is at hand, and taking it off shows the earlier ones. -/
theorem lastReturn (shows : Shows scenario machine state) {back : Nat} {rest : List Nat}
    (shape : state.calls = back :: rest) :
    addressOf (machine.memory.read (Layout.callStackStart + (machine.callPointer - 2)))
        (machine.memory.read (Layout.callStackStart + (machine.callPointer - 2) + 1)) = back ∧
      Shows scenario (machine.setCallPointer (machine.callPointer - 2))
        { state with calls := rest } := by
  have some : 2 ≤ machine.callPointer := by
    rw [← shows.length_calls, shape, List.length_cons]
    omega
  obtain ⟨sound, rfl⟩ := shows
  have even := sound.callPointer_even
  have bound := sound.callPointer_le
  have pair := List.cons.inj ((calls_eq_cons machine even some).symm.trans shape)
  refine ⟨pair.1, sound.setCallPointer (by omega) (by omega), ?_⟩
  unfold view
  rw [pointer_setCallPointer, stack_setCallPointer _ _ sound.depth_le, pair.2]
  dsimp only [Machine.setCallPointer]

theorem giveBack (shows : Shows scenario machine state) :
    Shows scenario machine.giveBack.1
      (match state.calls with
      | [] => state.fail machine.current .callStackUnderflow
      | back :: calls => { state with calls := calls, pointer := back }) := by
  have used := shows.length_calls
  unfold Machine.giveBack
  dsimp only
  cases shape : state.calls with
  | nil =>
    rw [shape, List.length_nil] at used
    rw [if_pos (by omega)]
    exact shows.fail .callStackUnderflow
  | cons back rest =>
    rw [shape, List.length_cons] at used
    obtain ⟨address, shorter⟩ := shows.lastReturn shape
    rw [if_neg (by omega), address]
    exact shorter.setPointer back (by rw [← address]; exact addressOf_lt _ _)

end Shows

end Machine

end ByteStack
