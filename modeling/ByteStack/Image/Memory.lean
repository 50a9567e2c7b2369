/-
This file is the machine's memory: a block of bytes of fixed size, which is
read and written one byte at a time. Both operations are total. Outside the
block a read gives zero and a write changes nothing; the machine never goes
there.
-/

import ByteStack.Image.Layout

namespace ByteStack

/-- A block of as many bytes as an image has. -/
structure Memory where
  cells : Vector UInt8 Layout.imageSize
deriving DecidableEq

namespace Memory

/-- Memory with a zero in every cell. -/
def zero : Memory :=
  ⟨Vector.replicate Layout.imageSize 0⟩

/-- Memory that begins with the given bytes and is zero behind them. -/
def ofBytes (bytes : List UInt8) (fits : bytes.length ≤ Layout.imageSize) : Memory where
  cells := ⟨(bytes ++ List.replicate (Layout.imageSize - bytes.length) 0).toArray, by
    simp only [List.size_toArray, List.length_append, List.length_replicate]; omega⟩

def read (memory : Memory) (address : Nat) : UInt8 :=
  memory.cells[address]?.getD 0

def write (memory : Memory) (address : Nat) (byte : UInt8) : Memory :=
  ⟨memory.cells.setIfInBounds address byte⟩

/-- The bytes from `start` up to `stop`, as far as memory reaches. -/
def slice (memory : Memory) (start stop : Nat) : List UInt8 :=
  (memory.cells.toArray.extract start stop).toList

/-- All bytes, the lowest address first. -/
def toList (memory : Memory) : List UInt8 :=
  memory.cells.toList

theorem read_write (memory : Memory) (address other : Nat) (byte : UInt8)
    (inside : address < Layout.imageSize) :
    (memory.write address byte).read other =
      if address = other then byte else memory.read other := by
  unfold read write
  rw [Vector.getElem?_setIfInBounds]
  by_cases same : address = other
  · subst same; simp [inside]
  · simp [same]

theorem length_toList (memory : Memory) : memory.toList.length = Layout.imageSize := by
  simp [toList]

end Memory

/-- The sixteen-bit number with this high and this low byte. -/
def addressOf (high low : UInt8) : Nat :=
  high.toNat * 256 + low.toNat

/-- The high byte of a sixteen-bit number. -/
def highByte (address : Nat) : UInt8 :=
  UInt8.ofNat (address / 256)

/-- The low byte of a number. -/
def lowByte (address : Nat) : UInt8 :=
  UInt8.ofNat address

theorem addressOf_bytes {address : Nat} (small : address < 65536) :
    addressOf (highByte address) (lowByte address) = address := by
  simp only [addressOf, highByte, lowByte, UInt8.toNat_ofNat']
  omega

theorem addressOf_lt (high low : UInt8) : addressOf high low < 65536 := by
  have := high.toNat_lt
  have := low.toNat_lt
  unfold addressOf
  omega

end ByteStack
