/-
This file writes and reads whole numbers of variable length: seven bits to a
byte, the low group first, and the high bit set in every byte but the last. A
reader is given how many bytes the number may take at most and how large the
last of that many may be. It accepts longer forms than the writer would choose.
-/

import ByteStack.Image.Basic

namespace ByteStack.Varint

/-- The shortest form of a number. -/
def encode (value : Nat) : List UInt8 :=
  if value < 128 then [UInt8.ofNat value]
  else UInt8.ofNat (value % 128 + 128) :: encode (value / 128)

/-- The longest form that a reader accepts. -/
structure Bound where
  /-- The number of bytes. -/
  length : Nat
  /-- The greatest value of the last of them. -/
  last : Nat

/-- The longest form of a sixteen-bit number. -/
def word : Bound := ⟨3, 3⟩

/-- The longest form of a sixty-four-bit number. -/
def longWord : Bound := ⟨10, 1⟩

/-- Reads a number of at most `left` bytes, and gives the bytes behind it. -/
def decodeUpTo (last : Nat) : Nat → List UInt8 → Except CodecFault (Nat × List UInt8)
  | 0, _ => .error .unterminatedVarint
  | _ + 1, [] => .error .endOfBuffer
  | left + 1, byte :: rest =>
    if byte.toNat < 128 then
      if left = 0 ∧ last < byte.toNat then .error .unterminatedVarint
      else .ok (byte.toNat, rest)
    else
      match decodeUpTo last left rest with
      | .ok (value, rest) => .ok (byte.toNat % 128 + 128 * value, rest)
      | .error fault => .error fault

/-- Reads a number within a bound, and gives the bytes behind it. -/
def decode (bound : Bound) (bytes : List UInt8) : Except CodecFault (Nat × List UInt8) :=
  decodeUpTo bound.last bound.length bytes

end ByteStack.Varint
