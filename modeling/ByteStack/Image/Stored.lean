/-
This file is the stored form of an image: the number of its bytes, the bytes,
and the length of its program, with both numbers of variable length. What
follows a stored image is not looked at. The size of the block and the length
of the program are checked only once everything has been read.
-/

import ByteStack.Image.Varint

namespace ByteStack.Image

/-- The stored form of an image. -/
def encode (image : Image) : List UInt8 :=
  Varint.encode Layout.imageSize ++ image.memory.toList ++ Varint.encode image.codeLength

/-- The first `count` bytes and the bytes behind them. -/
def takeBytes (count : Nat) (bytes : List UInt8) :
    Except CodecFault (List UInt8 × List UInt8) :=
  if bytes.length < count then .error .endOfBuffer else .ok (bytes.splitAt count)

/-- A stored block and the length of its program, neither of them checked. -/
def decodeParts (stored : List UInt8) : Except CodecFault (List UInt8 × Nat) := do
  let (count, rest) ← Varint.decode Varint.longWord stored
  let (block, rest) ← takeBytes count rest
  let (codeLength, _) ← Varint.decode Varint.word rest
  return (block, codeLength)

/-- The image that begins the stored bytes. -/
def decode? (stored : List UInt8) : Except ImageError Image :=
  match decodeParts stored with
  | .ok (block, codeLength) => ofBlock? block codeLength
  | .error fault => .error (.malformed fault)

end ByteStack.Image
