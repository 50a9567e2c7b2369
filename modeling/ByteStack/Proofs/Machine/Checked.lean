/-
This file shows that the machine never leaves its memory. It writes down once
more what the machine does, this time with every access checked: reading or
writing outside of memory, a register that does not exist, a difference below
zero and an instruction pointer beyond sixteen bits all give no result. The
machine itself has none of these checks. It reads a zero, writes nothing or
stays at zero instead, and so would go on with something wrong.

Each checked operation succeeds under bounds on the stacks, and then does what
the plain operation does. The bounds are part of the invariant, so no machine
that was ever loaded fails a check. What else the invariant says of memory is
stated with it: the code is still the code of the image, and the control cells
show what they are meant to show.
-/

import ByteStack.Proofs.Machine.Reached
import Mathlib.Data.Nat.PSub

namespace ByteStack

/-! ### Checked access -/

/-- A number that fits into sixteen bits. -/
def wordOf? (value : Nat) : Option Nat :=
  if value < 65536 then some value else none

namespace Memory

def read? (memory : Memory) (address : Nat) : Option UInt8 :=
  memory.cells[address]?

def write? (memory : Memory) (address : Nat) (byte : UInt8) : Option Memory :=
  if address < Layout.imageSize then some (memory.write address byte) else none

def slice? (memory : Memory) (start stop : Nat) : Option (List UInt8) :=
  if start ≤ stop ∧ stop ≤ Layout.imageSize then some (memory.slice start stop) else none

variable (memory : Memory) {address : Nat}

theorem read?_eq_some (inside : address < Layout.imageSize) :
    memory.read? address = some (memory.read address) := by
  unfold read? read
  rw [Vector.getElem?_eq_getElem inside, Option.getD_some]

theorem write?_eq_some (inside : address < Layout.imageSize) (byte : UInt8) :
    memory.write? address byte = some (memory.write address byte) :=
  if_pos inside

end Memory

/-! ### The checked machine -/

namespace Machine

def pointer? (machine : Machine) : Option Nat := do
  let high ← machine.memory.read? Layout.pointerHighCell
  let low ← machine.memory.read? Layout.pointerLowCell
  some (addressOf high low)

def setPointer? (machine : Machine) (address : Nat) : Option Machine := do
  let memory ← machine.memory.write? Layout.pointerHighCell (highByte address)
  let memory ← memory.write? Layout.pointerLowCell (lowByte address)
  some { machine with memory := memory }

def callPointer? (machine : Machine) : Option Nat := do
  let used ← machine.memory.read? Layout.callPointerCell
  some used.toNat

def setCallPointer? (machine : Machine) (used : Nat) : Option Machine := do
  let memory ← machine.memory.write? Layout.callPointerCell (UInt8.ofNat used)
  some { machine with memory := memory }

def setDepth? (machine : Machine) (depth : Nat) : Option Machine := do
  let memory ← machine.memory.write? Layout.depthCell (UInt8.ofNat depth)
  some { machine with memory := memory, depth := depth }

def push? (machine : Machine) (value : Int8) : Option Machine := do
  let memory ← machine.memory.write? (Layout.stackStart + machine.depth) value.toUInt8
  { machine with memory := memory }.setDepth? (machine.depth + 1)

/-- Takes the top off the data stack. -/
def pop? (machine : Machine) : Option (Int8 × Machine) := do
  let depth ← Nat.psub machine.depth 1
  let machine ← machine.setDepth? depth
  let byte ← machine.memory.read? (Layout.stackStart + machine.depth)
  some (byte.toInt8, machine)

def stack? (machine : Machine) : Option (List Int8) := do
  let bytes ← machine.memory.slice? Layout.stackStart (Layout.stackStart + machine.depth)
  some (bytes.map UInt8.toInt8)

def operandByte? (machine : Machine) (distance : Nat) : Option UInt8 :=
  machine.memory.read? (machine.current + distance)

def registerIndex? (machine : Machine) : Option Nat := do
  let byte ← machine.operandByte? 1
  some (byte.toNat % registerCount)

def setRegister? (machine : Machine) (index : Nat) (value : Int8) : Option Machine :=
  if inside : index < registerCount then
    some { machine with registers := machine.registers.set index value }
  else none

def jump? (machine : Machine) : Option Machine := do
  let high ← machine.operandByte? 1
  let low ← machine.operandByte? 2
  machine.setPointer? (addressOf high low)

def jumpIf? (machine : Machine) (test : Int8 → Bool) : Option Machine := do
  let (value, machine) ← machine.pop?
  if test value then machine.jump? else some machine

def call? (machine : Machine) : Option (Machine × Option Fault) := do
  let used ← machine.callPointer?
  if Layout.callStackSize < used + 2 then some (machine.fail .callStackOverflow)
  else do
    let back ← machine.pointer?
    let memory ← machine.memory.write? (Layout.callStackStart + used) (highByte back)
    let memory ← memory.write? (Layout.callStackStart + used + 1) (lowByte back)
    let machine ← { machine with memory := memory }.setCallPointer? (used + 2)
    let machine ← machine.jump?
    some (machine, none)

def giveBack? (machine : Machine) : Option (Machine × Option Fault) := do
  let used ← machine.callPointer?
  if used < 2 then some (machine.fail .callStackUnderflow)
  else do
    let low ← machine.memory.read? (Layout.callStackStart + used - 1)
    let high ← machine.memory.read? (Layout.callStackStart + used - 2)
    let left ← Nat.psub used 2
    let machine ← machine.setCallPointer? left
    let machine ← machine.setPointer? (addressOf high low)
    some (machine, none)

def mapTop? (machine : Machine) (change : Int8 → Int8) : Option Machine := do
  let (value, machine) ← machine.pop?
  machine.push? (change value)

def mapTopTwo? (machine : Machine) (change : Int8 → Int8 → Int8) : Option Machine := do
  let (upper, machine) ← machine.pop?
  let (lower, machine) ← machine.pop?
  machine.push? (change lower upper)

/-- What an operation gives that does not fail. -/
def quietly (next? : Option Machine) : Option (Machine × Option Fault) :=
  next?.map (·, none)

def execute? (machine : Machine) : Operation → Option (Machine × Option Fault)
  | .inp =>
    match machine.input with
    | [] => some machine.halt
    | value :: rest => quietly ({ machine with input := rest }.push? value)
  | .out => do
    let (value, machine) ← machine.pop?
    some (machine.emit value)
  | .del => do
    let (_, machine) ← machine.pop?
    some (machine, none)
  | .dup => quietly do
    let (value, machine) ← machine.pop?
    let machine ← machine.push? value
    machine.push? value
  | .swp => quietly do
    let (upper, machine) ← machine.pop?
    let (lower, machine) ← machine.pop?
    let machine ← machine.push? upper
    machine.push? lower
  | .rot => quietly do
    let (upper, machine) ← machine.pop?
    let (middle, machine) ← machine.pop?
    let (lower, machine) ← machine.pop?
    let machine ← machine.push? middle
    let machine ← machine.push? upper
    machine.push? lower
  | .len => quietly (machine.push? (Int8.ofNat machine.depth))
  | .pze => quietly (machine.push? 0)
  | .psh => quietly do
    let byte ← machine.operandByte? 1
    machine.push? byte.toInt8
  | .inc => quietly (machine.mapTop? (· + 1))
  | .dec => quietly (machine.mapTop? (· - 1))
  | .neg => quietly (machine.mapTop? (- ·))
  | .add => quietly (machine.mapTopTwo? (· + ·))
  | .sub => quietly (machine.mapTopTwo? (· - ·))
  | .jmp => quietly machine.jump?
  | .jez => quietly (machine.jumpIf? (· = 0))
  | .jnz => quietly (machine.jumpIf? (· ≠ 0))
  | .jlz => quietly (machine.jumpIf? (· < 0))
  | .jgz => quietly (machine.jumpIf? (· > 0))
  | .jsr => machine.call?
  | .ret => machine.giveBack?
  | .lod => quietly do
    let index ← machine.registerIndex?
    let value ← machine.registers[index]?
    machine.push? value
  | .sav => quietly do
    let index ← machine.registerIndex?
    let (value, machine) ← machine.pop?
    machine.setRegister? index value
  | .hlt => some machine.halt
  | .brk => some ({ machine with status := .paused }, none)
  | .rng =>
    let value := (Keystream.byte machine.seed machine.drawn).toInt8
    quietly ({ machine with drawn := machine.drawn + 1 }.push? value)
  | .dmp => do
    let stack ← machine.stack?
    some ({ machine with lastDump? := some ⟨machine.input, machine.output, stack⟩ }, none)

def perform? (machine : Machine) (pointer : Nat) (operation : Operation) :
    Option (Machine × Option Fault) :=
  if machine.depth < operation.pops then some (machine.fail .stackUnderflow)
  else do
    let left ← Nat.psub machine.depth operation.pops
    if Layout.stackSize < left + operation.pushes then some (machine.fail .stackOverflow)
    else do
      let behind ← wordOf? (pointer + operation.encodedLength)
      let machine ← machine.setPointer? behind
      machine.execute? operation

/-- A step with every access checked. -/
def step? (machine : Machine) : Option (Machine × Option Fault) :=
  if machine.status = .stopped then some (machine, none)
  else do
    let pointer ← machine.pointer?
    let machine := { machine with cycles := machine.cycles + 1, current := pointer }
    if Layout.codeSize ≤ pointer then some (machine.fail (.pointerOutOfBounds pointer))
    else do
      let code ← machine.memory.read? pointer
      if code = 0 then some machine.halt
      else
        match Operation.ofCode? code with
        | none => some (machine.fail (.unknownOpcode code))
        | some operation => machine.perform? pointer operation

/-- Stopping at the end of a budget, with every access checked. -/
def spend? (machine : Machine) (limit : Nat) : Option (Machine × Option Fault) := do
  let pointer ← machine.pointer?
  some ({ machine with current := pointer }.fail (.cycleBudgetExceeded limit))

/-- Loading with every access checked. -/
def load? (machine : Machine) (image : Image) (feed : Feed) : Option Machine := do
  let machine ← (installed image feed machine.seed).setPointer? 0
  let machine ← machine.setCallPointer? 0
  let machine ← machine.setDepth? 0
  (feed.stack.take Layout.stackSize).foldlM push? machine

/-! ### Checks that hold -/

section

variable (machine : Machine)

theorem depth_drop : machine.drop.depth = machine.depth - 1 := rfl

theorem depth_push (value : Int8) : (machine.push value).depth = machine.depth + 1 := rfl

theorem pointer?_eq_some : machine.pointer? = some machine.pointer := by
  rw [pointer?, Memory.read?_eq_some _ (by decide), Memory.read?_eq_some _ (by decide)]
  rfl

theorem setPointer?_eq_some (address : Nat) :
    machine.setPointer? address = some (machine.setPointer address) := by
  rw [setPointer?, Memory.write?_eq_some _ (by decide), Option.bind_eq_bind, Option.bind_some,
    Memory.write?_eq_some _ (by decide)]
  rfl

theorem callPointer?_eq_some : machine.callPointer? = some machine.callPointer := by
  rw [callPointer?, Memory.read?_eq_some _ (by decide)]
  rfl

theorem setCallPointer?_eq_some (used : Nat) :
    machine.setCallPointer? used = some (machine.setCallPointer used) := by
  rw [setCallPointer?, Memory.write?_eq_some _ (by decide)]
  rfl

theorem setDepth?_eq_some (depth : Nat) :
    machine.setDepth? depth = some (machine.setDepth depth) := by
  rw [setDepth?, Memory.write?_eq_some _ (by decide)]
  rfl

/-- A value can be put on a data stack that is not full. -/
theorem push?_eq_some (value : Int8) (room : machine.depth < Layout.stackSize) :
    machine.push? value = some (machine.push value) := by
  have inside : Layout.stackStart + machine.depth < Layout.imageSize := by
    simp only [Layout.stackSize_eq, Layout.stackStart_eq, Layout.imageSize_eq] at *
    omega
  rw [push?, Memory.write?_eq_some _ inside, Option.bind_eq_bind, Option.bind_some,
    setDepth?_eq_some]
  rfl

/-- A value can be taken off a data stack that is not empty. -/
theorem pop?_eq_some (some : 1 ≤ machine.depth) (bound : machine.depth ≤ Layout.stackSize) :
    machine.pop? = .some (machine.top, machine.drop) := by
  simp only [Layout.stackSize_eq] at bound
  have inside : Layout.stackStart + machine.drop.depth < Layout.imageSize := by
    simp only [Layout.stackStart_eq, Layout.imageSize_eq, depth_drop]
    omega
  have other : Layout.stackStart + machine.drop.depth ≠ Layout.depthCell := by
    simp only [Layout.stackStart_eq, Layout.depthCell_eq]
    omega
  have byte : machine.drop.memory.read? (Layout.stackStart + machine.drop.depth) =
      .some (machine.memory.read (Layout.stackStart + machine.drop.depth)) := by
    rw [Memory.read?_eq_some _ inside]
    exact congrArg _ (read_setDepth_other machine (machine.depth - 1) _ other)
  unfold drop at byte
  simp only [pop?, Nat.psub_eq_sub some, setDepth?_eq_some, byte, Option.bind_eq_bind,
    Option.bind_some]
  rfl

theorem stack?_eq_some (bound : machine.depth ≤ Layout.stackSize) :
    machine.stack? = some machine.stack := by
  have inside : Layout.stackStart + machine.depth ≤ Layout.imageSize := by
    simp only [Layout.stackSize_eq, Layout.stackStart_eq, Layout.imageSize_eq] at *
    omega
  rw [stack?, Memory.slice?, if_pos ⟨Nat.le_add_right _ _, inside⟩]
  rfl

/-- The operand of an instruction may reach into the control cells, but not further. -/
theorem operandByte?_eq_some (inside : machine.current < Layout.codeSize) {distance : Nat}
    (short : distance ≤ 2) :
    machine.operandByte? distance = some (machine.operandByte distance) := by
  refine Memory.read?_eq_some _ ?_
  simp only [Layout.codeSize_eq, Layout.imageSize_eq] at *
  omega

theorem registerIndex?_eq_some (inside : machine.current < Layout.codeSize) :
    machine.registerIndex? = some machine.operandRegister.val := by
  rw [registerIndex?, operandByte?_eq_some _ inside (by decide)]
  rfl

theorem jump?_eq_some (inside : machine.current < Layout.codeSize) :
    machine.jump? = some machine.jump := by
  rw [jump?, operandByte?_eq_some _ inside (by decide), operandByte?_eq_some _ inside (by decide)]
  exact machine.setPointer?_eq_some _

theorem jumpIf?_eq_some (inside : machine.current < Layout.codeSize) (some : 1 ≤ machine.depth)
    (bound : machine.depth ≤ Layout.stackSize) (test : Int8 → Bool) :
    machine.jumpIf? test = .some (machine.jumpIf test) := by
  simp only [jumpIf?, pop?_eq_some _ some bound, Option.bind_eq_bind, Option.bind_some, jumpIf]
  split
  · exact machine.drop.jump?_eq_some inside
  · rfl

theorem call?_eq_some (inside : machine.current < Layout.codeSize) :
    machine.call? = some machine.call := by
  rw [call?, callPointer?_eq_some, Option.bind_eq_bind, Option.bind_some, call]
  dsimp only
  by_cases full : Layout.callStackSize < machine.callPointer + 2
  · rw [if_pos full, if_pos full]
  · rw [if_neg full, if_neg full]
    have first : Layout.callStackStart + machine.callPointer < Layout.imageSize := by
      simp only [Layout.callStackSize_eq, Layout.callStackStart_eq, Layout.imageSize_eq] at *
      omega
    have second : Layout.callStackStart + machine.callPointer + 1 < Layout.imageSize := by
      simp only [Layout.callStackSize_eq, Layout.callStackStart_eq, Layout.imageSize_eq] at *
      omega
    simp only [pointer?_eq_some, Memory.write?_eq_some _ first, Memory.write?_eq_some _ second,
      setCallPointer?_eq_some, Option.bind_eq_bind, Option.bind_some]
    have jumped := (machine.storeReturn machine.callPointer machine.pointer).setCallPointer
      (machine.callPointer + 2) |>.jump?_eq_some inside
    unfold storeReturn at jumped
    rw [jumped, Option.bind_some]

theorem giveBack?_eq_some (bound : machine.callPointer ≤ Layout.callStackSize) :
    machine.giveBack? = some machine.giveBack := by
  rw [giveBack?, callPointer?_eq_some, Option.bind_eq_bind, Option.bind_some, giveBack]
  dsimp only
  by_cases empty : machine.callPointer < 2
  · rw [if_pos empty, if_pos empty]
  · rw [if_neg empty, if_neg empty]
    -- The checked machine counts downward from the end of the call stack.
    have low : Layout.callStackStart + machine.callPointer - 1 =
        Layout.callStackStart + (machine.callPointer - 2) + 1 := by omega
    have high : Layout.callStackStart + machine.callPointer - 2 =
        Layout.callStackStart + (machine.callPointer - 2) := by omega
    have inside : Layout.callStackStart + (machine.callPointer - 2) + 1 < Layout.imageSize := by
      simp only [Layout.callStackSize_eq, Layout.callStackStart_eq, Layout.imageSize_eq] at *
      omega
    simp only [low, high, Memory.read?_eq_some _ inside,
      Memory.read?_eq_some _ (Nat.lt_of_succ_lt inside),
      Nat.psub_eq_sub (Nat.le_of_not_lt empty), setCallPointer?_eq_some, setPointer?_eq_some,
      Option.bind_eq_bind, Option.bind_some]

theorem mapTop?_eq_some (some : 1 ≤ machine.depth) (bound : machine.depth ≤ Layout.stackSize)
    (change : Int8 → Int8) : machine.mapTop? change = .some (machine.mapTop change) := by
  rw [mapTop?, pop?_eq_some _ some bound, Option.bind_eq_bind, Option.bind_some]
  exact machine.drop.push?_eq_some _ (Nat.lt_of_lt_of_le (Nat.sub_lt some Nat.one_pos) bound)

theorem mapTopTwo?_eq_some (two : 2 ≤ machine.depth) (bound : machine.depth ≤ Layout.stackSize)
    (change : Int8 → Int8 → Int8) :
    machine.mapTopTwo? change = some (machine.mapTopTwo change) := by
  rw [mapTopTwo?, pop?_eq_some _ (Nat.le_of_succ_le two) bound, Option.bind_eq_bind,
    Option.bind_some]
  exact machine.drop.mapTop?_eq_some (Nat.le_sub_of_add_le two)
    (Nat.le_trans (Nat.sub_le _ _) bound) fun lower => change lower machine.top

end

variable {machine : Machine}

/-- An operation passes all checks when the data stack holds what the catalog demands of it. -/
theorem execute?_eq_some (bound : machine.depth ≤ Layout.stackSize)
    (calls : machine.callPointer ≤ Layout.callStackSize)
    (inside : machine.current < Layout.codeSize) (operation : Operation)
    (enough : operation.pops ≤ machine.depth)
    (room : machine.depth - operation.pops + operation.pushes ≤ Layout.stackSize) :
    machine.execute? operation = some (machine.execute operation) := by
  have below : machine.drop.depth ≤ Layout.stackSize := Nat.le_trans (Nat.sub_le _ _) bound
  have under : machine.drop.drop.depth ≤ Layout.stackSize := Nat.le_trans (Nat.sub_le _ _) below
  cases operation with
  | inp =>
    cases given : machine.input with
    | nil => simp only [execute?, execute, given]
    | cons value rest =>
      have pushed := { machine with input := rest }.push?_eq_some value room
      simp only [execute?, execute, given, quietly, pushed, Option.map_some]
  | out =>
    simp only [execute?, pop?_eq_some _ enough bound, Option.bind_eq_bind, Option.bind_some]
    rfl
  | del =>
    simp only [execute?, pop?_eq_some _ enough bound, Option.bind_eq_bind, Option.bind_some]
    rfl
  | dup =>
    have first := machine.drop.push?_eq_some machine.top (Nat.lt_of_succ_lt room)
    have second := (machine.drop.push machine.top).push?_eq_some machine.top room
    simp only [execute?, quietly, pop?_eq_some _ enough bound, first, second, Option.bind_eq_bind,
      Option.bind_some, Option.map_some]
    rfl
  | swp =>
    have two : 2 ≤ machine.depth := enough
    have upper := machine.pop?_eq_some (by omega) bound
    have lower := machine.drop.pop?_eq_some (by rw [depth_drop]; omega) below
    have first := machine.drop.drop.push?_eq_some machine.top (by
      simp only [depth_drop]; omega)
    have second := (machine.drop.drop.push machine.top).push?_eq_some machine.drop.top (by
      simp only [depth_push, depth_drop]; omega)
    simp only [execute?, quietly, upper, lower, first, second, Option.bind_eq_bind,
      Option.bind_some, Option.map_some]
    rfl
  | rot =>
    have three : 3 ≤ machine.depth := enough
    have upper := machine.pop?_eq_some (by omega) bound
    have middle := machine.drop.pop?_eq_some (by rw [depth_drop]; omega) below
    have lower := machine.drop.drop.pop?_eq_some (by simp only [depth_drop]; omega) under
    have first := machine.drop.drop.drop.push?_eq_some machine.drop.top (by
      simp only [depth_drop]; omega)
    have second := (machine.drop.drop.drop.push machine.drop.top).push?_eq_some machine.top (by
      simp only [depth_push, depth_drop]; omega)
    have third := ((machine.drop.drop.drop.push machine.drop.top).push machine.top).push?_eq_some
      machine.drop.drop.top (by simp only [depth_push, depth_drop]; omega)
    simp only [execute?, quietly, upper, middle, lower, first, second, third, Option.bind_eq_bind,
      Option.bind_some, Option.map_some]
    rfl
  | len =>
    rw [execute?, push?_eq_some _ _ room]
    rfl
  | pze =>
    rw [execute?, push?_eq_some _ _ room]
    rfl
  | psh =>
    simp only [execute?, quietly, operandByte?_eq_some _ inside (show 1 ≤ 2 by decide),
      push?_eq_some _ _ room, Option.bind_eq_bind, Option.bind_some, Option.map_some]
    rfl
  | inc | dec | neg =>
    rw [execute?, mapTop?_eq_some _ enough bound]
    rfl
  | add | sub =>
    rw [execute?, mapTopTwo?_eq_some _ enough bound]
    rfl
  | jmp =>
    rw [execute?, jump?_eq_some _ inside]
    rfl
  | jez | jnz | jlz | jgz =>
    rw [execute?, jumpIf?_eq_some _ inside enough bound]
    rfl
  | jsr => exact machine.call?_eq_some inside
  | ret => exact machine.giveBack?_eq_some calls
  | lod =>
    have register : machine.registers[machine.operandRegister.val]? =
        some machine.registers[machine.operandRegister] :=
      Vector.getElem?_eq_getElem machine.operandRegister.isLt
    simp only [execute?, quietly, registerIndex?_eq_some _ inside, register, push?_eq_some _ _ room,
      Option.bind_eq_bind, Option.bind_some, Option.map_some]
    rfl
  | sav =>
    have saved : machine.drop.setRegister? machine.operandRegister machine.top =
        some { machine.drop with
          registers := machine.drop.registers.set machine.operandRegister machine.top } :=
      dif_pos machine.operandRegister.isLt
    simp only [execute?, quietly, registerIndex?_eq_some _ inside, pop?_eq_some _ enough bound,
      saved, Option.bind_eq_bind, Option.bind_some, Option.map_some]
    rfl
  | hlt => rfl
  | brk => rfl
  | rng =>
    have pushed := { machine with drawn := machine.drawn + 1 }.push?_eq_some
      (Keystream.byte machine.seed machine.drawn).toInt8 room
    simp only [execute?, quietly, pushed, Option.map_some]
    rfl
  | dmp =>
    simp only [execute?, stack?_eq_some _ bound, Option.bind_eq_bind, Option.bind_some]
    rfl

theorem perform?_eq_some (bound : machine.depth ≤ Layout.stackSize)
    (calls : machine.callPointer ≤ Layout.callStackSize)
    (inside : machine.current < Layout.codeSize) (operation : Operation) :
    machine.perform? machine.current operation =
      some (machine.perform machine.current operation) := by
  rw [perform?, perform]
  by_cases poor : machine.depth < operation.pops
  · rw [if_pos poor, if_pos poor]
  rw [if_neg poor, if_neg poor, Nat.psub_eq_sub (Nat.le_of_not_lt poor), Option.bind_eq_bind,
    Option.bind_some]
  by_cases rich : Layout.stackSize < machine.depth - operation.pops + operation.pushes
  · rw [if_pos rich, if_pos rich]
  have short := operation.encodedLength_le
  have word : wordOf? (machine.current + operation.encodedLength) =
      some (machine.current + operation.encodedLength) := by
    refine if_pos ?_
    simp only [Layout.codeSize_eq] at inside
    omega
  rw [if_neg rich, if_neg rich, word, Option.bind_eq_bind, Option.bind_some, setPointer?_eq_some,
    Option.bind_some]
  have moved : (machine.setPointer (machine.current + operation.encodedLength)).callPointer ≤
      Layout.callStackSize := by
    rw [callPointer_setPointer]
    exact calls
  exact @execute?_eq_some (machine.setPointer (machine.current + operation.encodedLength)) bound
    moved inside operation (Nat.le_of_not_lt poor) (Nat.le_of_not_lt rich)

theorem step?_eq_some (bound : machine.depth ≤ Layout.stackSize)
    (calls : machine.callPointer ≤ Layout.callStackSize) :
    machine.step? = some machine.step := by
  rw [step?, step]
  by_cases stopped : machine.status = .stopped
  · rw [if_pos stopped, if_pos stopped]
  rw [if_neg stopped, if_neg stopped, pointer?_eq_some, Option.bind_eq_bind, Option.bind_some]
  dsimp only
  rw [← begin]
  by_cases outside : Layout.codeSize ≤ machine.pointer
  · rw [if_pos outside, if_pos outside]
  have inside := Nat.lt_of_not_le outside
  have code : machine.memory.read? machine.pointer = some (machine.memory.read machine.pointer) :=
    Memory.read?_eq_some _ (Nat.lt_trans inside (by decide))
  rw [if_neg outside, if_neg outside, code, Option.bind_eq_bind, Option.bind_some,
    show machine.begin.memory = machine.memory from rfl]
  by_cases zero : machine.memory.read machine.pointer = 0
  · rw [if_pos zero, if_pos zero]
  rw [if_neg zero, if_neg zero]
  cases Operation.ofCode? (machine.memory.read machine.pointer) with
  | none => rfl
  | some operation => exact @perform?_eq_some machine.begin bound calls inside operation

theorem foldlM_push?_eq_some (values : List Int8)
    (room : machine.depth + values.length ≤ Layout.stackSize) :
    values.foldlM push? machine = some (machine.pushAll values) := by
  induction values generalizing machine with
  | nil => rfl
  | cons value rest inductionHypothesis =>
    rw [List.length_cons] at room
    rw [List.foldlM_cons, push?_eq_some _ _ (by omega), Option.bind_eq_bind, Option.bind_some]
    exact inductionHypothesis (by rw [depth_push]; omega)

theorem load?_eq_some (machine : Machine) (image : Image) (feed : Feed) :
    machine.load? image feed = some (machine.load image feed) := by
  rw [load?, setPointer?_eq_some, Option.bind_eq_bind, Option.bind_some, setCallPointer?_eq_some,
    Option.bind_some, setDepth?_eq_some, Option.bind_some]
  refine foldlM_push?_eq_some _ ?_
  rw [List.length_take]
  exact Nat.le_trans (Nat.le_of_eq (Nat.zero_add _)) (Nat.min_le_left _ _)

theorem spend?_eq_some (machine : Machine) (limit : Nat) :
    machine.spend? limit = some (machine.spend limit) := by
  rw [spend?, pointer?_eq_some]
  rfl

/-! ### Safety -/

/-- How memory stands when `image` was loaded last, and that whatever comes next passes all
checks. -/
structure Safe (image : Image) (machine : Machine) : Prop where
  size : machine.memory.toList.length = Layout.imageSize
  /-- No program changes its code. -/
  code : machine.memory.slice 0 Layout.codeSize = image.codeRegion
  depth_le : machine.depth ≤ Layout.stackSize
  depthCell : (machine.memory.read Layout.depthCell).toNat = machine.depth % 256
  callPointer_le : (machine.memory.read Layout.callPointerCell).toNat ≤ Layout.callStackSize
  callPointer_even : (machine.memory.read Layout.callPointerCell).toNat % 2 = 0
  stopped_of_fault : machine.fault? ≠ none → machine.status = .stopped
  step : machine.step? = some machine.step
  stack : machine.stack? = some machine.stack
  spend : ∀ limit, machine.spend? limit = some (machine.spend limit)
  load : ∀ image feed, machine.load? image feed = some (machine.load image feed)

/-- However a machine is driven and whatever is loaded into it, its memory keeps its parts apart,
and no access ever misses. -/
theorem safe_of_reached {image : Image} {feed : Feed} (reached : Reached image feed machine) :
    machine.Safe image := by
  obtain ⟨seed, sound⟩ := reached.exists_sound
  exact {
    size := machine.memory.length_toList
    code := sound.code
    depth_le := sound.depth_le
    depthCell := by
      rw [sound.depthCell]
      exact UInt8.toNat_ofNat'
    callPointer_le := sound.callPointer_le
    callPointer_even := sound.callPointer_even
    stopped_of_fault := sound.stopped_of_fault
    step := step?_eq_some sound.depth_le sound.callPointer_le
    stack := machine.stack?_eq_some sound.depth_le
    spend := machine.spend?_eq_some
    load := machine.load?_eq_some }

/-- A program that has run into a subroutine is loaded again with a value on the stack, and runs
into it again. Then two values and one return address are stored. -/
theorem safe_of_reached_again :
    ∃ image used machine, Reached image ⟨[], none, []⟩ used ∧ used.cycles = 3 ∧
      machine = (used.load image ⟨[], none, [3]⟩).steps 3 ∧
      Reached image ⟨[], none, [3]⟩ machine ∧ machine.status = .paused ∧
      machine.depth = 2 ∧ machine.calls = [5] ∧ machine.Safe image := by
  obtain ⟨image, code⟩ := Image.exists_program [Operation.psh.code, 7, Operation.jsr.code, 0, 6,
    Operation.hlt.code, Operation.brk.code, Operation.ret.code] (by decide)
  have first := (Reached.start image ⟨[], none, []⟩ 0).steps 3
  have ran := (shows_start_of_codeRegion code ⟨[], none, []⟩ 0).steps 3
  generalize (start image ⟨[], none, []⟩ 0).steps 3 = used at first ran
  have again := (Reached.load image ⟨[], none, [3]⟩ used.seed first).steps 3
  have called := (shows_start_of_codeRegion code ⟨[], none, [3]⟩ used.seed).steps 2
  change Shows _ _ { ListMachine.start ⟨[], none, [3]⟩ with
    stack := [7, 3], pointer := addressOf 0 6, calls := [5], cycles := 2 } at called
  -- The next step only computes once the address of the subroutine is a number.
  rw [show addressOf 0 6 = 6 from rfl] at called
  have broken := called.step
  rw [← load_eq_start used, ← steps_succ] at broken
  change Shows _ ((used.load image ⟨[], none, [3]⟩).steps 3)
    { ListMachine.start ⟨[], none, [3]⟩ with
      stack := [7, 3], pointer := 7, calls := [5], cycles := 3, status := .paused } at broken
  exact ⟨image, used, _, first, ran.cycles_eq, rfl, again, broken.status_eq,
    broken.length_stack.symm, broken.calls_eq, safe_of_reached again⟩

end Machine

end ByteStack
