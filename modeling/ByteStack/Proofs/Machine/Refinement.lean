/-
This file carries the relation between the machine with a memory and the machine
of lists through the operations of the catalog, through one step, and through
runs of any length. The main statement is that the machine, started with any
image, feed and seed, looks after any number of steps as the machine of lists
does after the same number.
-/

import ByteStack.Proofs.Machine.Simulation

namespace ByteStack.Machine

variable {scenario : Scenario} {machine : Machine} {state : ListMachine}

/-! ### Numbers of steps -/

theorem step_of_stopped (stopped : machine.status = .stopped) : machine.step.1 = machine := by
  unfold step
  rw [if_pos stopped]

theorem steps_succ (machine : Machine) (count : Nat) :
    machine.steps (count + 1) = (machine.steps count).step.1 := by
  induction count generalizing machine with
  | zero => rfl
  | succ count inductionHypothesis => exact inductionHypothesis machine.step.1

/-! ### Operations on the data stack -/

theorem exists_two_of_length {stack : List Int8} (enough : 2 ≤ stack.length) :
    ∃ upper lower rest, stack = upper :: lower :: rest := by
  obtain ⟨upper, below, rfl⟩ := List.exists_cons_of_length_pos (Nat.lt_of_succ_lt enough)
  obtain ⟨lower, rest, rfl⟩ := List.exists_cons_of_length_pos (Nat.lt_of_succ_lt_succ enough)
  exact ⟨upper, lower, rest, rfl⟩

theorem exists_three_of_length {stack : List Int8} (enough : 3 ≤ stack.length) :
    ∃ upper middle lower rest, stack = upper :: middle :: lower :: rest := by
  obtain ⟨upper, below, rfl⟩ := List.exists_cons_of_length_pos (Nat.lt_of_succ_lt
    (Nat.lt_of_succ_lt enough))
  obtain ⟨middle, lower, rest, rfl⟩ := exists_two_of_length (Nat.le_of_succ_le_succ enough)
  exact ⟨upper, middle, lower, rest, rfl⟩

namespace Shows

theorem stack_le (shows : Shows scenario machine state) :
    state.stack.length ≤ Layout.stackSize := by
  rw [shows.length_stack]
  exact shows.sound.depth_le

theorem mapTop (shows : Shows scenario machine state) {value : Int8} {rest : List Int8}
    (shape : state.stack = value :: rest) (change : Int8 → Int8) :
    Shows scenario (machine.mapTop change) (state.withStack (change value :: rest)) := by
  have bound := shows.stack_le
  rw [shape, List.length_cons] at bound
  obtain ⟨top, dropped⟩ := shows.top_drop shape
  unfold Machine.mapTop
  rw [top]
  exact dropped.push _ bound

theorem mapTopTwo (shows : Shows scenario machine state) {upper lower : Int8} {rest : List Int8}
    (shape : state.stack = upper :: lower :: rest) (change : Int8 → Int8 → Int8) :
    Shows scenario (machine.mapTopTwo change) (state.withStack (change lower upper :: rest)) := by
  obtain ⟨top, dropped⟩ := shows.top_drop shape
  unfold Machine.mapTopTwo
  rw [top]
  exact dropped.mapTop rfl fun lower => change lower upper

theorem jumpIf (shows : Shows scenario machine state) (inside : machine.current < Layout.codeSize)
    {value : Int8} {rest : List Int8} (shape : state.stack = value :: rest)
    (test : Int8 → Bool) :
    Shows scenario (machine.jumpIf test)
      (if test value then (state.withStack rest).jump scenario machine.current
      else state.withStack rest) := by
  obtain ⟨top, dropped⟩ := shows.top_drop shape
  unfold Machine.jumpIf
  rw [top]
  split
  · exact dropped.jump inside
  · exact dropped

/-! ### The catalog -/

/-- An operation keeps the relation, when the stack holds what the catalog demands of it. -/
theorem execute (shows : Shows scenario machine state) (active : machine.status ≠ .stopped)
    (inside : machine.current < Layout.codeSize) (operation : Operation)
    (enough : operation.pops ≤ state.stack.length)
    (room : state.stack.length - operation.pops + operation.pushes ≤ Layout.stackSize) :
    Shows scenario (machine.execute operation).1
      (state.execute scenario machine.current operation) := by
  have bound := shows.stack_le
  cases operation with
  | inp =>
    have input : state.input = machine.input := by rw [← shows.view_eq]; rfl
    cases given : machine.input with
    | nil =>
      simp only [Machine.execute, ListMachine.execute, input, given]
      exact shows.halt
    | cons value rest =>
      simp only [Machine.execute, ListMachine.execute, input, given]
      exact (shows.takeInput rest).push value room
  | out =>
    obtain ⟨value, rest, shape⟩ := List.exists_cons_of_length_pos enough
    obtain ⟨top, dropped⟩ := shows.top_drop shape
    simp only [Machine.execute, ListMachine.execute, shape, top]
    exact dropped.emit value
  | del =>
    obtain ⟨value, rest, shape⟩ := List.exists_cons_of_length_pos enough
    simp only [Machine.execute, ListMachine.execute, shape]
    exact (shows.top_drop shape).2
  | dup =>
    obtain ⟨value, rest, shape⟩ := List.exists_cons_of_length_pos enough
    obtain ⟨top, dropped⟩ := shows.top_drop shape
    rw [shape, List.length_cons] at bound room
    simp only [Machine.execute, ListMachine.execute, shape, top]
    exact (dropped.push value bound).push value room
  | swp =>
    obtain ⟨upper, lower, rest, shape⟩ := exists_two_of_length enough
    obtain ⟨first, below⟩ := shows.top_drop shape
    obtain ⟨second, bottom⟩ := below.top_drop rfl
    rw [shape, List.length_cons, List.length_cons] at bound
    simp only [Machine.execute, ListMachine.execute, shape, first, second]
    exact (bottom.push upper (Nat.le_of_succ_le bound)).push lower bound
  | rot =>
    obtain ⟨upper, middle, lower, rest, shape⟩ := exists_three_of_length enough
    obtain ⟨first, below⟩ := shows.top_drop shape
    obtain ⟨second, under⟩ := below.top_drop rfl
    obtain ⟨third, bottom⟩ := under.top_drop rfl
    rw [shape, List.length_cons, List.length_cons, List.length_cons] at bound
    simp only [Machine.execute, ListMachine.execute, shape, first, second, third]
    have pushed := bottom.push middle (Nat.le_of_succ_le (Nat.le_of_succ_le bound))
    exact (pushed.push upper (Nat.le_of_succ_le bound)).push lower bound
  | len =>
    simp only [Machine.execute, ListMachine.execute, lowByte, UInt8.toInt8_ofNat',
      shows.length_stack]
    exact shows.push _ room
  | pze => exact shows.push 0 room
  | psh =>
    simp only [Machine.execute, ListMachine.execute,
      shows.operandByte inside 1 (by decide) (by decide)]
    exact shows.push _ room
  | inc =>
    obtain ⟨value, rest, shape⟩ := List.exists_cons_of_length_pos enough
    simp only [Machine.execute, ListMachine.execute, shape]
    exact shows.mapTop shape (· + 1)
  | dec =>
    obtain ⟨value, rest, shape⟩ := List.exists_cons_of_length_pos enough
    simp only [Machine.execute, ListMachine.execute, shape]
    exact shows.mapTop shape (· - 1)
  | neg =>
    obtain ⟨value, rest, shape⟩ := List.exists_cons_of_length_pos enough
    simp only [Machine.execute, ListMachine.execute, shape]
    exact shows.mapTop shape (- ·)
  | add =>
    obtain ⟨upper, lower, rest, shape⟩ := exists_two_of_length enough
    simp only [Machine.execute, ListMachine.execute, shape]
    exact shows.mapTopTwo shape (· + ·)
  | sub =>
    obtain ⟨upper, lower, rest, shape⟩ := exists_two_of_length enough
    simp only [Machine.execute, ListMachine.execute, shape]
    exact shows.mapTopTwo shape (· - ·)
  | jmp => exact shows.jump inside
  | jez =>
    obtain ⟨value, rest, shape⟩ := List.exists_cons_of_length_pos enough
    have jumped := shows.jumpIf inside shape (· = 0)
    simp only [decide_eq_true_eq] at jumped
    simp only [Machine.execute, ListMachine.execute, shape]
    exact jumped
  | jnz =>
    obtain ⟨value, rest, shape⟩ := List.exists_cons_of_length_pos enough
    have jumped := shows.jumpIf inside shape (· ≠ 0)
    simp only [decide_eq_true_eq] at jumped
    simp only [Machine.execute, ListMachine.execute, shape]
    exact jumped
  | jlz =>
    obtain ⟨value, rest, shape⟩ := List.exists_cons_of_length_pos enough
    have jumped := shows.jumpIf inside shape (· < 0)
    simp only [decide_eq_true_eq] at jumped
    simp only [Machine.execute, ListMachine.execute, shape]
    exact jumped
  | jgz =>
    obtain ⟨value, rest, shape⟩ := List.exists_cons_of_length_pos enough
    have jumped := shows.jumpIf inside shape (· > 0)
    simp only [decide_eq_true_eq] at jumped
    simp only [Machine.execute, ListMachine.execute, shape]
    exact jumped
  | jsr => exact shows.call inside
  | ret => exact shows.giveBack
  | lod =>
    have registers : machine.registers = state.registers := by rw [← shows.view_eq]; rfl
    simp only [Machine.execute, ListMachine.execute, shows.register inside, registers]
    exact shows.push _ room
  | sav =>
    obtain ⟨value, rest, shape⟩ := List.exists_cons_of_length_pos enough
    obtain ⟨top, dropped⟩ := shows.top_drop shape
    simp only [Machine.execute, ListMachine.execute, shape, top, shows.register inside]
    exact dropped.setRegister _ value
  | hlt => exact shows.halt
  | brk => exact shows.pause active
  | rng =>
    have drawn : machine.drawn = state.drawn := by rw [← shows.view_eq]; rfl
    simp only [Machine.execute, ListMachine.execute, shows.sound.random, drawn]
    have drew := shows.draw
    rw [drawn] at drew
    exact drew.push _ room
  | dmp => exact shows.noteDump machine.dump

/-! ### Steps and runs -/

theorem perform (shows : Shows scenario machine state) (active : machine.status ≠ .stopped)
    (inside : machine.current < Layout.codeSize) (operation : Operation) :
    Shows scenario (machine.perform machine.current operation).1
      (state.perform scenario machine.current operation) := by
  unfold Machine.perform ListMachine.perform
  rw [← shows.length_stack]
  dsimp only
  by_cases poor : state.stack.length < operation.pops
  · rw [if_pos poor, if_pos poor]
    exact shows.fail .stackUnderflow
  rw [if_neg poor, if_neg poor]
  by_cases rich : Layout.stackSize < state.stack.length - operation.pops + operation.pushes
  · rw [if_pos rich, if_pos rich]
    exact shows.fail .stackOverflow
  rw [if_neg rich, if_neg rich]
  have short := operation.encodedLength_le
  have moved := shows.setPointer (machine.current + operation.encodedLength) (by
    simp only [Layout.codeSize_eq] at inside; omega)
  exact moved.execute active inside operation (Nat.le_of_not_lt poor) (Nat.le_of_not_lt rich)

/-- One step of the machine is one step of the machine of lists. -/
theorem step (shows : Shows scenario machine state) :
    Shows scenario machine.step.1 (state.step scenario) := by
  have status : state.status = machine.status := by rw [← shows.view_eq]; rfl
  have pointer : state.pointer = machine.pointer := by rw [← shows.view_eq]; rfl
  unfold Machine.step ListMachine.step ListMachine.dispatch
  by_cases stopped : machine.status = .stopped
  · rw [if_pos stopped, if_pos (status.trans stopped)]
    exact shows
  rw [if_neg stopped, if_neg fun same => stopped (status.symm.trans same), pointer,
    ← shows.sound.code]
  have begun := shows.begin
  rw [pointer] at begun
  by_cases inside : machine.pointer < Layout.codeSize
  · rw [if_neg (Nat.not_le.mpr inside),
      Memory.getElem?_slice _ _ _ _ (by omega) (by decide), Nat.zero_add]
    dsimp only
    rw [show machine.begin.memory = machine.memory from rfl]
    by_cases zero : machine.memory.read machine.pointer = 0
    · rw [if_pos zero, if_pos zero]
      exact begun.halt
    rw [if_neg zero, if_neg zero]
    cases Operation.ofCode? (machine.memory.read machine.pointer) with
    | none => exact begun.fail (.unknownOpcode _)
    | some operation => exact begun.perform stopped inside operation
  · rw [if_pos (Nat.le_of_not_lt inside),
      List.getElem?_eq_none (by rw [Memory.length_slice _ _ _ (by decide)]; omega)]
    exact begun.fail (.pointerOutOfBounds machine.pointer)

/-- A run of the machine is a run of the machine of lists. -/
theorem steps (shows : Shows scenario machine state) (count : Nat) :
    Shows scenario (machine.steps count) (state.steps scenario count) := by
  induction count generalizing machine state with
  | zero => exact shows
  | succ count inductionHypothesis => exact inductionHypothesis shows.step

/-! ### The start of a run -/

theorem pushAll (shows : Shows scenario machine state) (values : List Int8)
    (room : state.stack.length + values.length ≤ Layout.stackSize) :
    Shows scenario (machine.pushAll values) (state.withStack (values.reverse ++ state.stack)) := by
  induction values generalizing machine state with
  | nil => exact shows
  | cons value rest inductionHypothesis =>
    rw [List.length_cons] at room
    have pushed := shows.push value (by omega)
    have all := inductionHypothesis pushed (by
      simp only [ListMachine.withStack, List.length_cons]; omega)
    rw [List.reverse_cons, List.append_assoc]
    exact all

end Shows

/-- A machine with an image in memory, its control cells not yet set. -/
def installed (image : Image) (feed : Feed) (seed : UInt64) : Machine :=
  { blank seed with
    memory := image.memory
    input := feed.input
    expected? := feed.expected?.map List.toArray }

/-- Whatever the image holds in the control cells, setting them makes both stacks empty. -/
theorem shows_installed (image : Image) (feed : Feed) (seed : UInt64) :
    Shows (Scenario.ofRun image feed seed)
      ((((installed image feed seed).setPointer 0).setCallPointer 0).setDepth 0)
      { ListMachine.start feed with stack := [] } := by
  have used : ((((installed image feed seed).setPointer 0).setCallPointer 0).setDepth
      0).callPointer = 0 := by
    rw [callPointer_setDepth, callPointer_setCallPointer _ _ (by decide)]
  refine ⟨?_, ?_⟩
  · exact {
      code := by
        unfold setDepth setCallPointer setPointer
        rw [Memory.slice_write_outside _ _ _ _ _ (Or.inr (by decide)),
          Memory.slice_write_outside _ _ _ _ _ (Or.inr (by decide)),
          Memory.slice_write_outside _ _ _ _ _ (Or.inr (by decide)),
          Memory.slice_write_outside _ _ _ _ _ (Or.inr (by decide))]
        rfl
      expected := by
        show (feed.expected?.map List.toArray).map Array.toList = feed.expected?
        rw [Option.map_map]
        exact Option.map_id'
      random := rfl
      depth_le := Nat.zero_le _
      depthCell := by
        unfold setDepth
        rw [Memory.read_write_self _ _ _ (by decide)]
      callPointer_le := by rw [used]; exact Nat.zero_le _
      callPointer_even := by rw [used]
      stopped_of_fault := fun fault => absurd rfl fault }
  · have pointer : ((((installed image feed seed).setPointer 0).setCallPointer 0).setDepth
        0).pointer = 0 := by
      rw [pointer_setDepth, pointer_setCallPointer, pointer_setPointer _ _ (by decide)]
    have stack : ((((installed image feed seed).setPointer 0).setCallPointer 0).setDepth
        0).stack = [] := by
      unfold Machine.stack
      exact congrArg _ (Memory.slice_self _ _)
    unfold view
    rw [pointer, stack, calls, used]
    rfl

/-- At the start of a run both machines look the same. -/
theorem shows_start (image : Image) (feed : Feed) (seed : UInt64) :
    Shows (Scenario.ofRun image feed seed) (start image feed seed) (ListMachine.start feed) := by
  have all := (shows_installed image feed seed).pushAll (feed.stack.take Layout.stackSize)
    (by simp only [List.length_nil, List.length_take]; omega)
  rw [List.append_nil] at all
  exact all

/-- When the bytes of the program are known, its runs can be followed on lists alone. -/
theorem shows_start_of_codeRegion {image : Image} {code : List UInt8}
    (known : image.codeRegion = code) (feed : Feed) (seed : UInt64) :
    Shows ⟨code, feed.expected?, Keystream.byte seed⟩ (start image feed seed)
      (ListMachine.start feed) := by
  subst known
  exact shows_start image feed seed

/-- The machine refines the machine of lists: for every image, feed and seed, both look the same
after any number of steps. -/
theorem view_steps_start (image : Image) (feed : Feed) (seed : UInt64) (count : Nat) :
    ((start image feed seed).steps count).view =
      (ListMachine.start feed).steps (Scenario.ofRun image feed seed) count :=
  ((shows_start image feed seed).steps count).view_eq

end ByteStack.Machine
