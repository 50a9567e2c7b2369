/-
This file reads the machine's one block of memory as the lists that it stands
for: the return addresses in the call stack, the values in the data stack, and
the two pointers. It says for each of the small operations on memory which cells
it leaves alone, and from that what becomes of each of the lists.

The bounds on the stacks are what keeps the regions apart: a push at a full data
stack would leave memory, and a call beyond the sixteenth would run into the data
stack. They are assumptions here, and an invariant of the machine elsewhere.
-/

import ByteStack.Machine.Step
import ByteStack.Proofs.Memory

namespace ByteStack.Machine

/-! ### The lists in memory -/

/-- The return addresses in the first `count` places of the call stack, the latest first. -/
def returnAddresses (memory : Memory) : Nat → List Nat
  | 0 => []
  | count + 1 =>
    addressOf (memory.read (Layout.callStackStart + 2 * count))
        (memory.read (Layout.callStackStart + 2 * count + 1)) ::
      returnAddresses memory count

/-- The return addresses that are in use, the latest first. -/
def calls (machine : Machine) : List Nat :=
  returnAddresses machine.memory (machine.callPointer / 2)

theorem length_returnAddresses (memory : Memory) (count : Nat) :
    (returnAddresses memory count).length = count := by
  induction count with
  | zero => rfl
  | succ count inductionHypothesis =>
    rw [returnAddresses, List.length_cons, inductionHypothesis]

/-- The return addresses depend only on the cells that hold them. -/
theorem returnAddresses_congr {first second : Memory} (count : Nat)
    (same : ∀ address, Layout.callStackStart ≤ address →
      address < Layout.callStackStart + 2 * count → first.read address = second.read address) :
    returnAddresses first count = returnAddresses second count := by
  induction count with
  | zero => rfl
  | succ count inductionHypothesis =>
    rw [returnAddresses, returnAddresses, same _ (by omega) (by omega),
      same _ (by omega) (by omega),
      inductionHypothesis fun address low high => same address low (by omega)]

theorem length_stack (machine : Machine) (bound : machine.depth ≤ Layout.stackSize) :
    machine.stack.length = machine.depth := by
  unfold stack
  rw [List.length_map, Memory.length_slice _ _ _ (by
    simp only [Layout.stackStart_eq, Layout.imageSize_eq, Layout.stackSize_eq] at *; omega)]
  omega

/-! ### What each operation leaves alone -/

theorem read_setPointer_other (machine : Machine) (address cell : Nat)
    (notHigh : cell ≠ Layout.pointerHighCell) (notLow : cell ≠ Layout.pointerLowCell) :
    (machine.setPointer address).memory.read cell = machine.memory.read cell := by
  unfold setPointer
  rw [Memory.read_write_other _ _ _ _ (Ne.symm notLow),
    Memory.read_write_other _ _ _ _ (Ne.symm notHigh)]

theorem read_setCallPointer_other (machine : Machine) (used cell : Nat)
    (other : cell ≠ Layout.callPointerCell) :
    (machine.setCallPointer used).memory.read cell = machine.memory.read cell := by
  unfold setCallPointer
  rw [Memory.read_write_other _ _ _ _ (Ne.symm other)]

theorem read_setDepth_other (machine : Machine) (depth cell : Nat)
    (other : cell ≠ Layout.depthCell) :
    (machine.setDepth depth).memory.read cell = machine.memory.read cell := by
  unfold setDepth
  rw [Memory.read_write_other _ _ _ _ (Ne.symm other)]

theorem read_push_other (machine : Machine) (value : Int8) (cell : Nat)
    (notDepth : cell ≠ Layout.depthCell) (notTop : cell ≠ Layout.stackStart + machine.depth) :
    (machine.push value).memory.read cell = machine.memory.read cell := by
  unfold push
  rw [read_setDepth_other _ _ _ notDepth, Memory.read_write_other _ _ _ _ (Ne.symm notTop)]

/-- Stores a return address behind the `used` bytes of the call stack. -/
def storeReturn (machine : Machine) (used back : Nat) : Machine :=
  { machine with
    memory := (machine.memory.write (Layout.callStackStart + used) (highByte back)).write
      (Layout.callStackStart + used + 1) (lowByte back) }

theorem read_storeReturn_other (machine : Machine) (used back cell : Nat)
    (notHigh : cell ≠ Layout.callStackStart + used)
    (notLow : cell ≠ Layout.callStackStart + used + 1) :
    (machine.storeReturn used back).memory.read cell = machine.memory.read cell := by
  unfold storeReturn
  rw [Memory.read_write_other _ _ _ _ (Ne.symm notLow),
    Memory.read_write_other _ _ _ _ (Ne.symm notHigh)]

/-! ### The instruction pointer -/

theorem pointer_congr {first second : Machine}
    (high : first.memory.read Layout.pointerHighCell = second.memory.read Layout.pointerHighCell)
    (low : first.memory.read Layout.pointerLowCell = second.memory.read Layout.pointerLowCell) :
    first.pointer = second.pointer := by
  unfold pointer
  rw [high, low]

theorem pointer_lt (machine : Machine) : machine.pointer < 65536 :=
  addressOf_lt _ _

theorem read_setPointer_high (machine : Machine) (address : Nat) :
    (machine.setPointer address).memory.read Layout.pointerHighCell = highByte address := by
  unfold setPointer
  rw [Memory.read_write_other _ _ _ _ (by decide), Memory.read_write_self _ _ _ (by decide)]

theorem read_setPointer_low (machine : Machine) (address : Nat) :
    (machine.setPointer address).memory.read Layout.pointerLowCell = lowByte address := by
  unfold setPointer
  rw [Memory.read_write_self _ _ _ (by decide)]

theorem pointer_setPointer (machine : Machine) (address : Nat) (small : address < 65536) :
    (machine.setPointer address).pointer = address := by
  rw [pointer, read_setPointer_high, read_setPointer_low, addressOf_bytes small]

theorem pointer_setCallPointer (machine : Machine) (used : Nat) :
    (machine.setCallPointer used).pointer = machine.pointer :=
  pointer_congr (read_setCallPointer_other _ _ _ (by decide))
    (read_setCallPointer_other _ _ _ (by decide))

theorem pointer_setDepth (machine : Machine) (depth : Nat) :
    (machine.setDepth depth).pointer = machine.pointer :=
  pointer_congr (read_setDepth_other _ _ _ (by decide)) (read_setDepth_other _ _ _ (by decide))

theorem pointer_push (machine : Machine) (value : Int8) :
    (machine.push value).pointer = machine.pointer := by
  refine pointer_congr (read_push_other _ _ _ (by decide) ?_)
    (read_push_other _ _ _ (by decide) ?_) <;>
  · simp only [Layout.pointerHighCell_eq, Layout.pointerLowCell_eq, Layout.stackStart_eq]
    omega

theorem pointer_storeReturn (machine : Machine) (used back : Nat) :
    (machine.storeReturn used back).pointer = machine.pointer := by
  refine pointer_congr (read_storeReturn_other _ _ _ _ ?_ ?_)
    (read_storeReturn_other _ _ _ _ ?_ ?_) <;>
  · simp only [Layout.pointerHighCell_eq, Layout.pointerLowCell_eq, Layout.callStackStart_eq]
    omega

/-! ### The call stack -/

theorem callPointer_setCallPointer (machine : Machine) (used : Nat) (small : used < 256) :
    (machine.setCallPointer used).callPointer = used := by
  unfold callPointer setCallPointer
  rw [Memory.read_write_self _ _ _ (by decide), UInt8.toNat_ofNat', Nat.mod_eq_of_lt small]

theorem calls_congr {first second : Machine} (pointer : first.callPointer = second.callPointer)
    (same : ∀ address, Layout.callStackStart ≤ address →
      address < Layout.callStackStart + first.callPointer →
      first.memory.read address = second.memory.read address) :
    first.calls = second.calls := by
  unfold calls
  rw [← pointer]
  exact returnAddresses_congr _ fun address low high => same address low (by omega)

theorem callPointer_setPointer (machine : Machine) (address : Nat) :
    (machine.setPointer address).callPointer = machine.callPointer :=
  congrArg UInt8.toNat (read_setPointer_other _ _ _ (by decide) (by decide))

theorem callPointer_setDepth (machine : Machine) (depth : Nat) :
    (machine.setDepth depth).callPointer = machine.callPointer :=
  congrArg UInt8.toNat (read_setDepth_other _ _ _ (by decide))

theorem callPointer_push (machine : Machine) (value : Int8) :
    (machine.push value).callPointer = machine.callPointer := by
  refine congrArg UInt8.toNat (read_push_other _ _ _ (by decide) ?_)
  simp only [Layout.callPointerCell_eq, Layout.stackStart_eq]
  omega

theorem calls_setPointer (machine : Machine) (address : Nat) :
    (machine.setPointer address).calls = machine.calls := by
  refine calls_congr (callPointer_setPointer _ _) fun cell low _ =>
    read_setPointer_other _ _ _ ?_ ?_ <;>
  · simp only [Layout.callStackStart_eq, Layout.pointerHighCell_eq,
      Layout.pointerLowCell_eq] at *
    omega

theorem calls_setDepth (machine : Machine) (depth : Nat) :
    (machine.setDepth depth).calls = machine.calls := by
  refine calls_congr (callPointer_setDepth _ _) fun cell low _ => read_setDepth_other _ _ _ ?_
  simp only [Layout.callStackStart_eq, Layout.depthCell_eq] at *
  omega

theorem calls_push (machine : Machine) (value : Int8)
    (bound : machine.callPointer ≤ Layout.callStackSize) :
    (machine.push value).calls = machine.calls := by
  have same := callPointer_push machine value
  refine calls_congr same fun cell low high => read_push_other _ _ _ ?_ ?_ <;>
  · simp only [Layout.callStackStart_eq, Layout.callStackSize_eq, Layout.depthCell_eq,
      Layout.stackStart_eq] at *
    omega

theorem length_calls (machine : Machine) : machine.calls.length = machine.callPointer / 2 :=
  length_returnAddresses _ _

/-- Taking the latest return address off. -/
theorem calls_eq_cons (machine : Machine) (even : machine.callPointer % 2 = 0)
    (some : 2 ≤ machine.callPointer) :
    machine.calls =
      addressOf (machine.memory.read (Layout.callStackStart + (machine.callPointer - 2)))
          (machine.memory.read (Layout.callStackStart + (machine.callPointer - 2) + 1)) ::
        (machine.setCallPointer (machine.callPointer - 2)).calls := by
  have bound : machine.callPointer < 256 := UInt8.toNat_lt _
  obtain ⟨count, half⟩ : ∃ count, machine.callPointer / 2 = count + 1 :=
    ⟨machine.callPointer / 2 - 1, by omega⟩
  have kept : (machine.setCallPointer (machine.callPointer - 2)).calls =
      returnAddresses machine.memory count := by
    unfold calls
    rw [callPointer_setCallPointer _ _ (by omega),
      show (machine.callPointer - 2) / 2 = count by omega]
    refine returnAddresses_congr _ fun cell low _ => read_setCallPointer_other _ _ _ ?_
    simp only [Layout.callStackStart_eq, Layout.callPointerCell_eq] at *
    omega
  rw [kept, calls, half, returnAddresses, show machine.callPointer - 2 = 2 * count by omega]

/-- Putting a return address on. -/
theorem calls_storeReturn (machine : Machine) (back : Nat) (small : back < 65536)
    (even : machine.callPointer % 2 = 0)
    (room : machine.callPointer + 2 ≤ Layout.callStackSize) :
    ((machine.storeReturn machine.callPointer back).setCallPointer
      (machine.callPointer + 2)).calls = back :: machine.calls := by
  obtain ⟨count, half⟩ : ∃ count, machine.callPointer = 2 * count :=
    ⟨machine.callPointer / 2, by omega⟩
  simp only [Layout.callStackSize_eq] at room
  have high : ((machine.storeReturn machine.callPointer back).setCallPointer
      (machine.callPointer + 2)).memory.read (Layout.callStackStart + 2 * count) =
        highByte back := by
    rw [read_setCallPointer_other _ _ _ (by
      simp only [Layout.callStackStart_eq, Layout.callPointerCell_eq]; omega)]
    unfold storeReturn
    rw [Memory.read_write_other _ _ _ _ (by omega), half, Memory.read_write_self _ _ _ (by
      simp only [Layout.callStackStart_eq, Layout.imageSize_eq]; omega)]
  have low : ((machine.storeReturn machine.callPointer back).setCallPointer
      (machine.callPointer + 2)).memory.read (Layout.callStackStart + 2 * count + 1) =
        lowByte back := by
    rw [read_setCallPointer_other _ _ _ (by
      simp only [Layout.callStackStart_eq, Layout.callPointerCell_eq]; omega)]
    unfold storeReturn
    rw [half, Memory.read_write_self _ _ _ (by
      simp only [Layout.callStackStart_eq, Layout.imageSize_eq]; omega)]
  have others : returnAddresses ((machine.storeReturn machine.callPointer back).setCallPointer
      (machine.callPointer + 2)).memory count = returnAddresses machine.memory count := by
    refine returnAddresses_congr _ fun cell first last => ?_
    rw [read_setCallPointer_other _ _ _ (by
        simp only [Layout.callStackStart_eq, Layout.callPointerCell_eq] at *; omega),
      read_storeReturn_other _ _ _ _ (by omega) (by omega)]
  rw [calls, callPointer_setCallPointer _ _ (by omega),
    show (machine.callPointer + 2) / 2 = count + 1 by omega, returnAddresses, high, low, others,
    addressOf_bytes small, calls, show machine.callPointer / 2 = count by omega]

/-! ### The data stack -/

theorem stack_congr {first second : Machine} (depth : first.depth = second.depth)
    (bound : first.depth ≤ Layout.stackSize)
    (same : ∀ address, Layout.stackStart ≤ address →
      address < Layout.stackStart + first.depth →
      first.memory.read address = second.memory.read address) :
    first.stack = second.stack := by
  simp only [Layout.stackSize_eq] at bound
  unfold stack
  rw [← depth]
  refine congrArg _ (List.ext_getElem? fun index => ?_)
  have inside : Layout.stackStart + first.depth ≤ Layout.imageSize := by
    simp only [Layout.stackStart_eq, Layout.imageSize_eq]; omega
  by_cases below : index < first.depth
  · rw [Memory.getElem?_slice _ _ _ _ (by omega) inside,
      Memory.getElem?_slice _ _ _ _ (by omega) inside, same _ (by omega) (by omega)]
  · rw [List.getElem?_eq_none (by rw [Memory.length_slice _ _ _ inside]; omega),
      List.getElem?_eq_none (by rw [Memory.length_slice _ _ _ inside]; omega)]

theorem stack_setPointer (machine : Machine) (address : Nat)
    (bound : machine.depth ≤ Layout.stackSize) :
    (machine.setPointer address).stack = machine.stack := by
  refine stack_congr rfl bound fun cell low _ => read_setPointer_other _ _ _ ?_ ?_ <;>
  · simp only [Layout.stackStart_eq, Layout.pointerHighCell_eq, Layout.pointerLowCell_eq] at *
    omega

theorem stack_setCallPointer (machine : Machine) (used : Nat)
    (bound : machine.depth ≤ Layout.stackSize) :
    (machine.setCallPointer used).stack = machine.stack := by
  refine stack_congr rfl bound fun cell low _ => read_setCallPointer_other _ _ _ ?_
  simp only [Layout.stackStart_eq, Layout.callPointerCell_eq] at *
  omega

theorem stack_storeReturn (machine : Machine) (used back : Nat)
    (bound : machine.depth ≤ Layout.stackSize) (room : used + 2 ≤ Layout.callStackSize) :
    (machine.storeReturn used back).stack = machine.stack := by
  refine stack_congr rfl bound fun cell low _ => read_storeReturn_other _ _ _ _ ?_ ?_ <;>
  · simp only [Layout.stackStart_eq, Layout.callStackStart_eq, Layout.callStackSize_eq] at *
    omega

theorem stack_push (machine : Machine) (value : Int8)
    (room : machine.depth < Layout.stackSize) :
    (machine.push value).stack = machine.stack ++ [value] := by
  have depth : (machine.push value).depth = machine.depth + 1 := rfl
  simp only [Layout.stackSize_eq] at room
  have top : (machine.push value).memory.read (Layout.stackStart + machine.depth) =
      value.toUInt8 := by
    unfold push
    rw [read_setDepth_other _ _ _ (by
      simp only [Layout.stackStart_eq, Layout.depthCell_eq]; omega),
      Memory.read_write_self _ _ _ (by
        simp only [Layout.stackStart_eq, Layout.imageSize_eq]; omega)]
  have below : (machine.push value).memory.slice Layout.stackStart
      (Layout.stackStart + machine.depth) =
        machine.memory.slice Layout.stackStart (Layout.stackStart + machine.depth) := by
    unfold push setDepth
    rw [Memory.slice_write_outside _ _ _ _ _ (Or.inl (by decide)),
      Memory.slice_write_outside _ _ _ _ _ (Or.inr (Nat.le_refl _))]
  unfold stack
  rw [depth, ← Nat.add_assoc, Memory.slice_succ _ _ _ (by omega) (by
      simp only [Layout.stackStart_eq, Layout.imageSize_eq]; omega), below, top, List.map_append,
    List.map_singleton, Int8.toInt8_toUInt8]

theorem stack_eq_append (machine : Machine) (some : 0 < machine.depth)
    (bound : machine.depth ≤ Layout.stackSize) :
    machine.stack = machine.drop.stack ++ [machine.top] := by
  simp only [Layout.stackSize_eq] at bound
  obtain ⟨depth, exact⟩ : ∃ depth, machine.depth = depth + 1 := ⟨machine.depth - 1, by omega⟩
  have below : machine.drop.memory.slice Layout.stackStart (Layout.stackStart + depth) =
      machine.memory.slice Layout.stackStart (Layout.stackStart + depth) := by
    unfold drop setDepth
    rw [Memory.slice_write_outside _ _ _ _ _ (Or.inl (by decide))]
  have dropped : machine.drop.depth = depth := by
    rw [show machine.drop.depth = machine.depth - 1 from rfl]
    omega
  unfold stack top
  rw [dropped, exact, below, Nat.add_sub_cancel, ← Nat.add_assoc,
    Memory.slice_succ _ _ _ (by omega) (by
      simp only [Layout.stackStart_eq, Layout.imageSize_eq]; omega), List.map_append,
    List.map_singleton]

end ByteStack.Machine
