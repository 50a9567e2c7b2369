/-
This file is the memory map of the machine. An image is one block of bytes. The
code region lies at its front; the cells behind it are allocated downward from
the end of the block:

    [0, 7900)       code
    7900, 7901      instruction pointer, the high byte first
    7902            call stack pointer
    7903            data stack depth
    [7904, 7936)    call stack, two bytes for each return address
    [7936, 8192)    data stack
-/

namespace ByteStack.Layout

/-- The bytes of an image. -/
def imageSize : Nat := 8192

/-- How many values the data stack can hold. -/
def stackSize : Nat := 256

/-- The bytes of the call stack. -/
def callStackSize : Nat := 32

/-- The first cell of the data stack. -/
def stackStart : Nat := imageSize - stackSize

/-- The first cell of the call stack. -/
def callStackStart : Nat := stackStart - callStackSize

/-- The cell that shows the depth of the data stack, modulo 256. -/
def depthCell : Nat := callStackStart - 1

/-- The cell that holds how many bytes of the call stack are in use. -/
def callPointerCell : Nat := depthCell - 1

/-- The low byte of the instruction pointer. -/
def pointerLowCell : Nat := callPointerCell - 1

/-- The high byte of the instruction pointer. -/
def pointerHighCell : Nat := pointerLowCell - 1

/-- The bytes that code may take. -/
def codeSize : Nat := imageSize - stackSize - callStackSize - 4

end ByteStack.Layout
