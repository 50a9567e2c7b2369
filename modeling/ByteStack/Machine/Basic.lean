/-
This file is the state of the machine and the small operations on it. Memory
holds the program, both stacks and four control cells, all in one block. The
instruction pointer and the call stack pointer live only in their cells. The
depth of the data stack is kept beside its cell, because the cell cannot tell a
full stack from an empty one.
-/

import ByteStack.Image.Basic
import ByteStack.Machine.Fault
import ByteStack.Machine.Keystream
import ByteStack.Machine.Outbox

namespace ByteStack

/-! ### State -/

/-- How many registers the machine has. -/
def registerCount : Nat := 8

/-- What one run is fed. -/
structure Feed where
  /-- The values that the program can read, the first one first. -/
  input : List Int8
  /-- When given, every value that is put out is compared with it. -/
  expected? : Option (List Int8)
  /-- The values on the data stack at the start, the bottom first. -/
  stack : List Int8
deriving DecidableEq

inductive Status where
  | running
  | paused
  | stopped
deriving DecidableEq

/-- What the machine notes when a program asks for it. -/
structure Dump where
  input : List Int8
  output : Outbox
  stack : List Int8
deriving DecidableEq

def Dump.text (dump : Dump) : String :=
  "inbox: " ++ Text.bracketed dump.input ++ "\noutbox: " ++ Text.bracketed dump.output.toList
    ++ "\nstack: " ++ Text.bracketed dump.stack

structure Machine where
  memory : Memory
  registers : Vector Int8 registerCount
  /-- How many values are on the data stack. -/
  depth : Nat
  input : List Int8
  output : Outbox
  expected? : Option (Array Int8)
  status : Status
  fault? : Option Fault
  /-- How many instructions have been started. The count is not bounded here, while a counter of 64
  bits is, so the two are the same as long as fewer than `2 ^ 64` instructions have been started. -/
  cycles : Nat
  /-- The offset of the instruction that was started last. -/
  current : Nat
  lastDump? : Option Dump
  seed : UInt64
  /-- How many random bytes have been drawn. -/
  drawn : Nat
deriving DecidableEq

namespace Machine

/-! ### Control cells -/

/-- The instruction pointer. -/
def pointer (machine : Machine) : Nat :=
  addressOf (machine.memory.read Layout.pointerHighCell)
    (machine.memory.read Layout.pointerLowCell)

def setPointer (machine : Machine) (address : Nat) : Machine :=
  { machine with
    memory := (machine.memory.write Layout.pointerHighCell (highByte address)).write
      Layout.pointerLowCell (lowByte address) }

/-- How many bytes of the call stack are in use. -/
def callPointer (machine : Machine) : Nat :=
  (machine.memory.read Layout.callPointerCell).toNat

def setCallPointer (machine : Machine) (used : Nat) : Machine :=
  { machine with memory := machine.memory.write Layout.callPointerCell (UInt8.ofNat used) }

def setDepth (machine : Machine) (depth : Nat) : Machine :=
  { machine with
    memory := machine.memory.write Layout.depthCell (UInt8.ofNat depth)
    depth := depth }

/-! ### The data stack -/

/-- The values on the data stack, the bottom first. -/
def stack (machine : Machine) : List Int8 :=
  (machine.memory.slice Layout.stackStart (Layout.stackStart + machine.depth)).map UInt8.toInt8

/-- Puts a value on the data stack. -/
def push (machine : Machine) (value : Int8) : Machine :=
  { machine with
    memory := machine.memory.write (Layout.stackStart + machine.depth) value.toUInt8 }.setDepth
      (machine.depth + 1)

/-- The value on top of the data stack. -/
def top (machine : Machine) : Int8 :=
  (machine.memory.read (Layout.stackStart + (machine.depth - 1))).toInt8

/-- Takes the top off the data stack. Its byte stays in memory. -/
def drop (machine : Machine) : Machine :=
  machine.setDepth (machine.depth - 1)

/-- Puts values on the data stack, the first one first. -/
def pushAll (machine : Machine) (values : List Int8) : Machine :=
  values.foldl push machine

/-- What the machine would note if it were asked now. -/
def dump (machine : Machine) : Dump :=
  ⟨machine.input, machine.output, machine.stack⟩

/-! ### Loading -/

/-- Replaces everything that an earlier run left behind by an image and what it is fed. Of the
initial stack only as many values are used as the data stack can hold. The random bytes start
over. -/
def load (machine : Machine) (image : Image) (feed : Feed) : Machine :=
  ((({ machine with
    memory := image.memory
    registers := Vector.replicate registerCount 0
    input := feed.input
    output := Outbox.empty
    expected? := feed.expected?.map List.toArray
    status := .running
    fault? := none
    cycles := 0
    current := 0
    lastDump? := none
    drawn := 0 }.setPointer 0).setCallPointer 0).setDepth 0).pushAll
      (feed.stack.take Layout.stackSize)

/-- A machine that nothing has been loaded into. -/
def blank (seed : UInt64) : Machine where
  memory := Memory.zero
  registers := Vector.replicate registerCount 0
  depth := 0
  input := []
  output := Outbox.empty
  expected? := none
  status := .running
  fault? := none
  cycles := 0
  current := 0
  lastDump? := none
  seed := seed
  drawn := 0

/-- A machine at the start of a run. -/
def start (image : Image) (feed : Feed) (seed : UInt64) : Machine :=
  (blank seed).load image feed

/-! ### Control from outside -/

/-- Pauses a running machine. -/
def pause (machine : Machine) : Machine :=
  if machine.status = .running then { machine with status := .paused } else machine

/-- Lets a paused machine run on, unless a fault has been recorded. -/
def resume (machine : Machine) : Machine :=
  if machine.status = .paused ∧ machine.fault? = none then { machine with status := .running }
  else machine

end Machine

end ByteStack
