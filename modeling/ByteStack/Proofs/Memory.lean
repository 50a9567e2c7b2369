/-
This file says what memory does under reading and writing, cell by cell and for
whole stretches. A write changes one cell and no other, a stretch grows by the
cell behind it, and a stretch does not see a write outside of it. The stacks of
the machine are such stretches, so these are the facts from which everything
about them follows.

Memory is also made of given bytes. So every program that fits is that of some
image.

The addresses of the memory map are written out as numbers here once, so that
bounds between them are plain arithmetic.
-/

import ByteStack.Image.Basic

namespace ByteStack

/-! ### The memory map in numbers -/

namespace Layout

theorem imageSize_eq : imageSize = 8192 := rfl

theorem stackSize_eq : stackSize = 256 := rfl

theorem callStackSize_eq : callStackSize = 32 := rfl

theorem stackStart_eq : stackStart = 7936 := rfl

theorem callStackStart_eq : callStackStart = 7904 := rfl

theorem depthCell_eq : depthCell = 7903 := rfl

theorem callPointerCell_eq : callPointerCell = 7902 := rfl

theorem pointerLowCell_eq : pointerLowCell = 7901 := rfl

theorem pointerHighCell_eq : pointerHighCell = 7900 := rfl

theorem codeSize_eq : codeSize = 7900 := rfl

end Layout

namespace Memory

/-! ### Single cells -/

theorem read_eq_getElem? (memory : Memory) (address : Nat) :
    memory.read address = memory.toList[address]?.getD 0 := by
  unfold read toList
  rw [Vector.getElem?_toList]

theorem toList_write (memory : Memory) (address : Nat) (byte : UInt8) :
    (memory.write address byte).toList = memory.toList.set address byte := by
  unfold write toList
  rw [Vector.toList_setIfInBounds]

theorem read_write_self (memory : Memory) (address : Nat) (byte : UInt8)
    (inside : address < Layout.imageSize) : (memory.write address byte).read address = byte := by
  rw [read_write _ _ _ _ inside, if_pos rfl]

theorem read_write_other (memory : Memory) (address other : Nat) (byte : UInt8)
    (different : address ≠ other) :
    (memory.write address byte).read other = memory.read other := by
  rw [read_eq_getElem?, toList_write, List.getElem?_set_ne different, ← read_eq_getElem?]

/-! ### Stretches -/

theorem slice_eq (memory : Memory) (start stop : Nat) :
    memory.slice start stop = (memory.toList.drop start).take (stop - start) := by
  unfold slice toList
  rw [Array.toList_extract, List.extract_eq_take_drop, Vector.toList_toArray]

theorem slice_self (memory : Memory) (start : Nat) : memory.slice start start = [] := by
  rw [slice_eq, Nat.sub_self, List.take_zero]

theorem length_slice (memory : Memory) (start stop : Nat) (inside : stop ≤ Layout.imageSize) :
    (memory.slice start stop).length = stop - start := by
  rw [slice_eq, List.length_take, List.length_drop, length_toList]
  omega

theorem getElem?_slice (memory : Memory) (start stop index : Nat) (bound : start + index < stop)
    (inside : stop ≤ Layout.imageSize) :
    (memory.slice start stop)[index]? = some (memory.read (start + index)) := by
  rw [slice_eq, List.getElem?_take_of_lt (by omega), List.getElem?_drop, read_eq_getElem?,
    List.getElem?_eq_getElem (by rw [length_toList]; omega), Option.getD_some]

/-- A stretch grows by the cell behind it. -/
theorem slice_succ (memory : Memory) (start stop : Nat) (ordered : start ≤ stop)
    (inside : stop < Layout.imageSize) :
    memory.slice start (stop + 1) = memory.slice start stop ++ [memory.read stop] := by
  have bound : stop < memory.toList.length := by rw [length_toList]; exact inside
  have last : (memory.toList.drop start)[stop - start]? = some (memory.read stop) := by
    rw [List.getElem?_drop, read_eq_getElem?, Nat.add_sub_cancel' ordered,
      List.getElem?_eq_getElem bound, Option.getD_some]
  rw [slice_eq, slice_eq, Nat.sub_add_comm ordered, List.take_add_one, last, Option.toList_some]

/-- A stretch does not see what is written outside of it. -/
theorem slice_write_outside (memory : Memory) (start stop address : Nat) (byte : UInt8)
    (outside : address < start ∨ stop ≤ address) :
    (memory.write address byte).slice start stop = memory.slice start stop := by
  rw [slice_eq, slice_eq, toList_write]
  rcases outside with before | behind
  · rw [List.drop_set_of_lt before]
  · by_cases ordered : start ≤ address
    · rw [List.drop_set, if_neg (by omega), List.take_set_of_le (by omega)]
    · rw [List.drop_set_of_lt (by omega)]

/-! ### Memory made of bytes -/

theorem toList_ofBytes (bytes : List UInt8) (fits : bytes.length ≤ Layout.imageSize) :
    (ofBytes bytes fits).toList = bytes ++ List.replicate (Layout.imageSize - bytes.length) 0 := by
  rfl

end Memory

namespace Image

/-- Every code region is that of some image. -/
theorem exists_codeRegion_eq {code : List UInt8} (whole : code.length = Layout.codeSize) :
    ∃ image : Image, image.codeRegion = code := by
  refine ⟨⟨Memory.ofBytes code (whole ▸ by decide), Layout.codeSize, Nat.le_refl _⟩, ?_⟩
  rw [codeRegion, Memory.slice_eq, Memory.toList_ofBytes]
  exact List.take_left' whole

/-- Every program that fits is in some image, with zeros behind it. -/
theorem exists_program (bytes : List UInt8) (fits : bytes.length ≤ Layout.codeSize) :
    ∃ image : Image,
      image.codeRegion = bytes ++ List.replicate (Layout.codeSize - bytes.length) 0 := by
  refine exists_codeRegion_eq ?_
  rw [List.length_append, List.length_replicate, Nat.add_sub_cancel' fits]

end Image

/-! ### Bytes of an address -/

theorem highByte_addressOf (high low : UInt8) : highByte (addressOf high low) = high := by
  have := low.toNat_lt
  unfold highByte addressOf
  rw [show (high.toNat * 256 + low.toNat) / 256 = high.toNat by omega, UInt8.ofNat_toNat]

theorem lowByte_addressOf (high low : UInt8) : lowByte (addressOf high low) = low := by
  have := low.toNat_lt
  refine UInt8.toNat_inj.mp ?_
  unfold lowByte addressOf
  rw [UInt8.toNat_ofNat']
  omega

end ByteStack
