/-
This file is the image, the program that a machine can be loaded with: the
whole block of bytes, and how many of them the program takes at the front of
the code region.
-/

import ByteStack.Image.Memory
import ByteStack.Text.Decimal

namespace ByteStack

/-! ### Errors -/

/-- Why stored bytes end before an image does. -/
inductive CodecFault where
  | endOfBuffer
  | unterminatedVarint
deriving DecidableEq

def CodecFault.message : CodecFault → String
  | .endOfBuffer => "Hit the end of buffer, expected more data"
  | .unterminatedVarint =>
    "Found a varint that didn't terminate. Is the usize too big for this platform?"

/-- Why there is no image. -/
inductive ImageError where
  /-- The block has this many bytes, not the size of an image. -/
  | wrongSize (size : Nat)
  /-- The program has this many bytes, more than the code region. -/
  | codeOverflow (length : Nat)
  | malformed (fault : CodecFault)
deriving DecidableEq

def ImageError.message : ImageError → String
  | .wrongSize size =>
    "image must be " ++ Text.natural Layout.imageSize ++ " bytes, got " ++ Text.natural size
  | .codeOverflow length =>
    "code length " ++ Text.natural length ++ " overlaps the control block"
  | .malformed fault => "malformed image: " ++ fault.message

/-! ### Images -/

/-- A block of bytes with a program at its front. -/
structure Image where
  memory : Memory
  /-- The bytes of the program. -/
  codeLength : Nat
  codeLength_le : codeLength ≤ Layout.codeSize
deriving DecidableEq

namespace Image

/-- The image without a program. -/
def empty : Image :=
  ⟨Memory.zero, 0, Nat.zero_le _⟩

/-- The image of a program, with zeros behind it. -/
def ofCode? (code : List UInt8) : Except ImageError Image :=
  if fits : code.length ≤ Layout.codeSize then
    .ok ⟨Memory.ofBytes code (Nat.le_trans fits (by decide)), code.length, fits⟩
  else .error (.codeOverflow code.length)

/-- The image with these bytes and this length of its program. -/
def ofBlock? (bytes : List UInt8) (codeLength : Nat) : Except ImageError Image :=
  if whole : bytes.length = Layout.imageSize then
    if fits : codeLength ≤ Layout.codeSize then
      .ok ⟨Memory.ofBytes bytes (Nat.le_of_eq whole), codeLength, fits⟩
    else .error (.codeOverflow codeLength)
  else .error (.wrongSize bytes.length)

/-- The bytes of the code region, also those behind the program. -/
def codeRegion (image : Image) : List UInt8 :=
  image.memory.slice 0 Layout.codeSize

/-- The bytes of the program. -/
def code (image : Image) : List UInt8 :=
  image.memory.slice 0 image.codeLength

end Image

end ByteStack
