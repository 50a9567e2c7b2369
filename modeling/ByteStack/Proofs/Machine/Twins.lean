/-
This file shows which bytes of memory matter. Popping a value and returning from
a call leave bytes behind in both stacks, and an image may bring along anything
behind its code region. None of these bytes is ever read before it is written
again. Two machines that differ in nothing but such bytes are twins, and stay
twins whatever is done to them.

A byte comes into use again when a value is pushed or a return address is
stored, which writes the same byte in both. So each small operation keeps twins
as long as it reads only what is in use, and an operation of the catalog is a
chain of these.
-/

import ByteStack.Proofs.Machine.Reached

namespace ByteStack

/-! ### Memories that agree somewhere -/

namespace Memory

/-- The same byte written at one address of two memories leaves them as they were elsewhere, and
makes them agree there. -/
theorem read_write_congr {first second : Memory} (address other : Nat) (byte : UInt8)
    (same : other = address ∨ first.read other = second.read other) :
    (first.write address byte).read other = (second.write address byte).read other := by
  by_cases here : address = other
  · rw [read_eq_getElem?, read_eq_getElem?, toList_write, toList_write, here,
      List.getElem?_set_self', List.getElem?_set_self']
    by_cases inside : other < Layout.imageSize
    · rw [List.getElem?_eq_getElem (by rw [length_toList]; exact inside),
        List.getElem?_eq_getElem (by rw [length_toList]; exact inside)]
      rfl
    · rw [List.getElem?_eq_none (by rw [length_toList]; omega),
        List.getElem?_eq_none (by rw [length_toList]; omega)]
  · rw [read_write_other _ _ _ _ here, read_write_other _ _ _ _ here]
    exact same.resolve_left (Ne.symm here)

/-- Stretches of two memories are the same when all their bytes are. -/
theorem slice_congr {first second : Memory} {start stop : Nat}
    (same : ∀ address, start ≤ address → address < stop →
      first.read address = second.read address) :
    first.slice start stop = second.slice start stop := by
  rw [slice_eq, slice_eq]
  refine List.ext_getElem? fun index => ?_
  by_cases below : index < stop - start
  · rw [List.getElem?_take_of_lt below, List.getElem?_take_of_lt below, List.getElem?_drop,
      List.getElem?_drop]
    by_cases inside : start + index < Layout.imageSize
    · have bytes := same (start + index) (by omega) (by omega)
      have first_inside : start + index < first.toList.length := by rwa [length_toList]
      have second_inside : start + index < second.toList.length := by rwa [length_toList]
      rw [read_eq_getElem?, read_eq_getElem?, List.getElem?_eq_getElem first_inside,
        List.getElem?_eq_getElem second_inside] at bytes
      rw [List.getElem?_eq_getElem first_inside, List.getElem?_eq_getElem second_inside]
      exact congrArg some bytes
    · rw [List.getElem?_eq_none (by rw [length_toList]; omega),
        List.getElem?_eq_none (by rw [length_toList]; omega)]
  · rw [List.getElem?_take_eq_none (by omega), List.getElem?_take_eq_none (by omega)]

end Memory

namespace Machine

/-! ### Twins -/

/-- The bytes that a machine may still read: everything in front of the call stack, and what is
on the two stacks. -/
def InUse (machine : Machine) (address : Nat) : Prop :=
  address < Layout.callStackStart + machine.callPointer ∨
    Layout.stackStart ≤ address ∧ address < Layout.stackStart + machine.depth

/-- The code and the control cells are always in use. -/
theorem inUse_of_lt {machine : Machine} {address : Nat} (before : address < Layout.callStackStart) :
    machine.InUse address :=
  Or.inl (Nat.lt_of_lt_of_le before (Nat.le_add_right _ _))

/-- The machines differ at most in bytes that are not in use. -/
inductive Twins : Machine → Machine → Prop where
  | intro (machine : Machine) (memory : Memory)
      (same : ∀ address, machine.InUse address →
        memory.read address = machine.memory.read address) :
      Twins machine { machine with memory := memory }

/-- Two results of one instruction, with the same report. -/
structure TwinResults (first second : Machine × Option Fault) : Prop where
  twins : Twins first.1 second.1
  fault : second.2 = first.2

variable {first second : Machine}

namespace Twins

theorem status_eq (twins : Twins first second) : second.status = first.status := by
  cases twins
  rfl

theorem depth_eq (twins : Twins first second) : second.depth = first.depth := by
  cases twins
  rfl

theorem read_eq (twins : Twins first second) {address : Nat} (used : first.InUse address) :
    second.memory.read address = first.memory.read address := by
  obtain ⟨memory, same⟩ := twins
  exact same address used

theorem pointer_eq (twins : Twins first second) : second.pointer = first.pointer :=
  pointer_congr (twins.read_eq (inUse_of_lt (by decide))) (twins.read_eq (inUse_of_lt (by decide)))

theorem callPointer_eq (twins : Twins first second) : second.callPointer = first.callPointer :=
  congrArg UInt8.toNat (twins.read_eq (inUse_of_lt (by decide)))

theorem stack_eq (twins : Twins first second) : second.stack = first.stack := by
  unfold stack
  rw [twins.depth_eq]
  exact congrArg (List.map UInt8.toInt8)
    (Memory.slice_congr fun address low high => twins.read_eq (Or.inr ⟨low, high⟩))

theorem dump_eq (twins : Twins first second) : second.dump = first.dump := by
  have stack := twins.stack_eq
  cases twins
  exact congrArg (Dump.mk first.input first.output) stack

theorem top_eq (twins : Twins first second) (some : 1 ≤ first.depth) : second.top = first.top := by
  have below : first.depth - 1 < first.depth := Nat.sub_one_lt_of_le some (Nat.le_refl _)
  unfold top
  rw [twins.depth_eq,
    twins.read_eq (Or.inr ⟨Nat.le_add_right _ _, Nat.add_lt_add_left below _⟩)]

theorem operandByte_eq (twins : Twins first second) (inside : first.current < Layout.codeSize)
    {distance : Nat} (near : distance ≤ 2) :
    second.operandByte distance = first.operandByte distance := by
  have current : second.current = first.current := by
    cases twins
    rfl
  unfold operandByte
  rw [current]
  refine twins.read_eq (inUse_of_lt ?_)
  simp only [Layout.codeSize_eq, Layout.callStackStart_eq] at *
  omega

theorem operandRegister_eq (twins : Twins first second)
    (inside : first.current < Layout.codeSize) :
    second.operandRegister = first.operandRegister := by
  unfold operandRegister
  simp only [twins.operandByte_eq inside (by decide : 1 ≤ 2)]

/-! ### Small operations -/

/-- Changes that do not touch memory. -/
theorem of_same (twins : Twins first second) {nextFirst nextSecond : Machine}
    (memory : nextFirst.memory = first.memory) (depth : nextFirst.depth = first.depth)
    (same : nextSecond = { nextFirst with memory := second.memory }) :
    Twins nextFirst nextSecond := by
  subst same
  refine .intro nextFirst second.memory fun address used => ?_
  rw [InUse, callPointer, memory, depth] at used
  rw [memory]
  exact twins.read_eq used

theorem setPointer (twins : Twins first second) (address : Nat) :
    Twins (first.setPointer address) (second.setPointer address) := by
  obtain ⟨memory, same⟩ := twins
  refine .intro (first.setPointer address) _ fun other used => ?_
  rw [InUse, callPointer_setPointer] at used
  have high := Memory.read_write_congr Layout.pointerHighCell other (highByte address)
    (Or.inr (same other used))
  exact Memory.read_write_congr Layout.pointerLowCell other (lowByte address) (Or.inr high)

/-- The cell above the stack comes into use, and is written by that. -/
theorem push (twins : Twins first second) (value : Int8) :
    Twins (first.push value) (second.push value) := by
  obtain ⟨memory, same⟩ := twins
  refine .intro (first.push value) _ fun other used => ?_
  rw [InUse, callPointer_push, show (first.push value).depth = first.depth + 1 from rfl] at used
  have stored : other = Layout.stackStart + first.depth ∨
      memory.read other = first.memory.read other := by
    by_cases new : other = Layout.stackStart + first.depth
    · exact Or.inl new
    · exact Or.inr (same other (by unfold InUse; omega))
  have top := Memory.read_write_congr (Layout.stackStart + first.depth) other value.toUInt8 stored
  exact Memory.read_write_congr Layout.depthCell other (UInt8.ofNat (first.depth + 1))
    (Or.inr top)

theorem drop (twins : Twins first second) : Twins first.drop second.drop := by
  obtain ⟨memory, same⟩ := twins
  refine .intro first.drop _ fun other used => ?_
  rw [InUse, show first.drop.callPointer = first.callPointer from callPointer_setDepth _ _,
    show first.drop.depth = first.depth - 1 from rfl] at used
  exact Memory.read_write_congr Layout.depthCell other (UInt8.ofNat (first.depth - 1))
    (Or.inr (same other (by unfold InUse; omega)))

/-- Return addresses go out of use. -/
theorem setCallPointer (twins : Twins first second) {used : Nat}
    (fewer : used ≤ first.callPointer) :
    Twins (first.setCallPointer used) (second.setCallPointer used) := by
  obtain ⟨memory, same⟩ := twins
  have small : used < 256 := Nat.lt_of_le_of_lt fewer (UInt8.toNat_lt _)
  refine .intro (first.setCallPointer used) _ fun other still => ?_
  rw [InUse, callPointer_setCallPointer _ _ small] at still
  have before : first.InUse other :=
    still.imp_left fun low => Nat.lt_of_lt_of_le low (Nat.add_le_add_left fewer _)
  exact Memory.read_write_congr Layout.callPointerCell other (UInt8.ofNat used)
    (Or.inr (same other before))

/-- A return address comes into use, and is written by that. -/
theorem storeReturn (twins : Twins first second) (back : Nat)
    (room : first.callPointer + 2 ≤ Layout.callStackSize) :
    Twins ((first.storeReturn first.callPointer back).setCallPointer (first.callPointer + 2))
      ((second.storeReturn first.callPointer back).setCallPointer (first.callPointer + 2)) := by
  obtain ⟨memory, same⟩ := twins
  simp only [Layout.callStackSize_eq] at room
  refine .intro ((first.storeReturn first.callPointer back).setCallPointer
    (first.callPointer + 2)) _ fun other used => ?_
  rw [InUse, callPointer_setCallPointer _ _ (by omega)] at used
  have stored : other = Layout.callStackStart + first.callPointer + 1 ∨
      other = Layout.callStackStart + first.callPointer ∨
      memory.read other = first.memory.read other := by
    by_cases lowCell : other = Layout.callStackStart + first.callPointer + 1
    · exact Or.inl lowCell
    by_cases highCell : other = Layout.callStackStart + first.callPointer
    · exact Or.inr (Or.inl highCell)
    · refine Or.inr (Or.inr (same other (used.imp_left fun low => ?_)))
      omega
  have high := stored.imp_right
    (Memory.read_write_congr (Layout.callStackStart + first.callPointer) other (highByte back))
  have low := Memory.read_write_congr (Layout.callStackStart + first.callPointer + 1) other
    (lowByte back) high
  exact Memory.read_write_congr Layout.callPointerCell other (UInt8.ofNat (first.callPointer + 2))
    (Or.inr low)

theorem jump (twins : Twins first second) (inside : first.current < Layout.codeSize) :
    Twins first.jump second.jump := by
  unfold Machine.jump
  rw [twins.operandByte_eq inside (by decide : 1 ≤ 2), twins.operandByte_eq inside (Nat.le_refl 2)]
  exact twins.setPointer _

theorem jumpIf (twins : Twins first second) (inside : first.current < Layout.codeSize)
    (some : 1 ≤ first.depth) (test : Int8 → Bool) :
    Twins (first.jumpIf test) (second.jumpIf test) := by
  unfold Machine.jumpIf
  rw [twins.top_eq some]
  split
  · exact twins.drop.jump inside
  · exact twins.drop

theorem mapTop (twins : Twins first second) (some : 1 ≤ first.depth) (change : Int8 → Int8) :
    Twins (first.mapTop change) (second.mapTop change) := by
  unfold Machine.mapTop
  rw [twins.top_eq some]
  exact twins.drop.push _

theorem mapTopTwo (twins : Twins first second) (two : 2 ≤ first.depth)
    (change : Int8 → Int8 → Int8) : Twins (first.mapTopTwo change) (second.mapTopTwo change) := by
  have lower : 1 ≤ first.drop.depth := Nat.le_sub_of_add_le two
  unfold Machine.mapTopTwo
  dsimp only
  rw [twins.top_eq (Nat.le_of_succ_le two), twins.drop.top_eq lower]
  exact twins.drop.drop.push _

/-! ### Results -/

theorem quiet (twins : Twins first second) : TwinResults (first, none) (second, none) :=
  ⟨twins, rfl⟩

theorem fail (twins : Twins first second) (kind : FaultKind) :
    TwinResults (first.fail kind) (second.fail kind) := by
  have current : second.current = first.current := by
    cases twins
    rfl
  refine ⟨twins.of_same rfl rfl ?_, ?_⟩
  · cases twins
    rfl
  · exact congrArg (fun offset => some (Fault.mk kind offset)) current

theorem halt (twins : Twins first second) : TwinResults first.halt second.halt := by
  have stopped : Twins { first with status := .stopped } { second with status := .stopped } :=
    twins.of_same rfl rfl (by cases twins; rfl)
  obtain ⟨memory, _⟩ := twins
  unfold Machine.halt
  dsimp only
  cases first.expected?.filter fun expected => first.output.size < expected.size with
  | some expected => exact stopped.fail (.notEnoughOutputs expected.size first.output.size)
  | none =>
    dsimp only
    split
    · exact stopped.fail (.stackNotEmpty first.depth)
    · exact stopped.quiet

theorem emit (twins : Twins first second) (value : Int8) :
    TwinResults (first.emit value) (second.emit value) := by
  have put : Twins { first with output := first.output.push value }
      { second with output := second.output.push value } :=
    twins.of_same rfl rfl (by cases twins; rfl)
  obtain ⟨memory, _⟩ := twins
  unfold Machine.emit
  dsimp only
  split
  · exact put.fail _
  · exact put.quiet

theorem call (twins : Twins first second) (inside : first.current < Layout.codeSize) :
    TwinResults first.call second.call := by
  unfold Machine.call
  rw [twins.callPointer_eq, twins.pointer_eq]
  dsimp only
  split
  · exact twins.fail .callStackOverflow
  · next room =>
    have stored := twins.storeReturn first.pointer (Nat.le_of_not_lt room)
    exact quiet (stored.jump inside)

theorem giveBack (twins : Twins first second) : TwinResults first.giveBack second.giveBack := by
  have fewer : Twins (first.setCallPointer (first.callPointer - 2))
      (second.setCallPointer (first.callPointer - 2)) :=
    twins.setCallPointer (Nat.sub_le _ _)
  unfold Machine.giveBack
  rw [twins.callPointer_eq]
  dsimp only
  split
  · exact twins.fail .callStackUnderflow
  · next enough =>
    have high : first.InUse (Layout.callStackStart + (first.callPointer - 2)) :=
      Or.inl (by omega)
    have low : first.InUse (Layout.callStackStart + (first.callPointer - 2) + 1) :=
      Or.inl (by omega)
    rw [twins.read_eq high, twins.read_eq low]
    exact quiet (fewer.setPointer _)

/-! ### Operations and steps -/

theorem execute (twins : Twins first second) (inside : first.current < Layout.codeSize)
    (operation : Operation) (enough : operation.pops ≤ first.depth) :
    TwinResults (first.execute operation) (second.execute operation) := by
  cases operation with
  | inp =>
    have input : second.input = first.input := by cases twins; rfl
    simp only [Machine.execute, input]
    split
    · exact twins.halt
    · next value rest _ =>
      have taken : Twins { first with input := rest } { second with input := rest } :=
        twins.of_same rfl rfl (by cases twins; rfl)
      exact quiet (taken.push value)
  | out =>
    simp only [Machine.execute, twins.top_eq enough]
    exact twins.drop.emit _
  | del => exact quiet twins.drop
  | dup =>
    simp only [Machine.execute, twins.top_eq enough]
    exact quiet ((twins.drop.push _).push _)
  | swp =>
    have two : 2 ≤ first.depth := enough
    simp only [Machine.execute, twins.top_eq (Nat.le_of_succ_le two),
      twins.drop.top_eq (Nat.le_sub_of_add_le two)]
    exact quiet ((twins.drop.drop.push _).push _)
  | rot =>
    have three : 3 ≤ first.depth := enough
    have two : 2 ≤ first.drop.depth := Nat.le_sub_of_add_le three
    simp only [Machine.execute, twins.top_eq (Nat.le_trans (by decide) three),
      twins.drop.top_eq (Nat.le_of_succ_le two),
      twins.drop.drop.top_eq (Nat.le_sub_of_add_le two)]
    exact quiet (((twins.drop.drop.drop.push _).push _).push _)
  | len =>
    simp only [Machine.execute, twins.depth_eq]
    exact quiet (twins.push _)
  | pze => exact quiet (twins.push 0)
  | psh =>
    simp only [Machine.execute, twins.operandByte_eq inside (by decide : 1 ≤ 2)]
    exact quiet (twins.push _)
  | inc | dec | neg => exact quiet (twins.mapTop enough _)
  | add | sub => exact quiet (twins.mapTopTwo enough _)
  | jmp => exact quiet (twins.jump inside)
  | jez | jnz | jlz | jgz => exact quiet (twins.jumpIf inside enough _)
  | jsr => exact twins.call inside
  | ret => exact twins.giveBack
  | lod =>
    have registers : second.registers = first.registers := by cases twins; rfl
    simp only [Machine.execute, twins.operandRegister_eq inside, registers]
    exact quiet (twins.push _)
  | sav =>
    simp only [Machine.execute, twins.operandRegister_eq inside, twins.top_eq enough]
    exact quiet (twins.drop.of_same rfl rfl (by cases twins; rfl))
  | hlt => exact twins.halt
  | brk => exact quiet (twins.of_same rfl rfl (by cases twins; rfl))
  | rng =>
    have drew : Twins { first with drawn := first.drawn + 1 }
        { second with drawn := second.drawn + 1 } :=
      twins.of_same rfl rfl (by cases twins; rfl)
    have random : Keystream.byte second.seed second.drawn =
        Keystream.byte first.seed first.drawn := by
      cases twins
      rfl
    simp only [Machine.execute, random]
    exact quiet (drew.push _)
  | dmp =>
    simp only [Machine.execute, twins.dump_eq]
    exact quiet (twins.of_same rfl rfl (by cases twins; rfl))

theorem perform (twins : Twins first second) (inside : first.current < Layout.codeSize)
    (pointer : Nat) (operation : Operation) :
    TwinResults (first.perform pointer operation) (second.perform pointer operation) := by
  unfold Machine.perform
  rw [twins.depth_eq]
  split
  · exact twins.fail .stackUnderflow
  · next enough =>
    split
    · exact twins.fail .stackOverflow
    · have moved := twins.setPointer (pointer + operation.encodedLength)
      exact moved.execute inside operation (Nat.le_of_not_lt enough)

theorem step (twins : Twins first second) : TwinResults first.step second.step := by
  have begun : Twins first.begin second.begin := by
    refine twins.of_same rfl rfl ?_
    unfold begin
    rw [twins.pointer_eq]
    cases twins
    rfl
  unfold Machine.step
  rw [twins.status_eq, twins.pointer_eq]
  split
  · exact twins.quiet
  dsimp only
  split
  · exact begun.fail _
  · next inside =>
    have inside := Nat.lt_of_not_le inside
    rw [begun.read_eq (inUse_of_lt (Nat.lt_trans inside (by decide)))]
    split
    · exact begun.halt
    · split
      · exact begun.fail _
      · exact begun.perform inside _ _

end Twins

end Machine

end ByteStack
