/-
This file shows that the catalog is right about what operations do, and how far
their effects extend. An operation first takes values off the data stack and then
puts values on it, as many of each as the catalog says. It does at most one thing
beside: it reads, puts out, saves or draws a value, takes a note, pauses, or moves
one of the two pointers.

All bounds on the data stack are checked against the catalog before an operation
takes effect. Since the operation keeps to the catalog, each of its pushes finds
room and each of its pops finds a value, and nothing below the values that it
takes is written.
-/

import ByteStack.Proofs.Machine.Checked
import ByteStack.Proofs.Machine.Lifecycle

namespace ByteStack

/-- The operation sends the instruction pointer elsewhere, given the value on top of the data
stack. -/
def Operation.Leaps (top : Int8) : Operation → Prop
  | .jmp | .jsr | .ret => True
  | .jez => top = 0
  | .jnz => top ≠ 0
  | .jlz => top < 0
  | .jgz => 0 < top
  | _ => False

namespace Machine

variable {machine moved next : Machine} {operation : Operation} {top : Int8}

/-! ### Moving values -/

/-- Takes values off the data stack, one after the other. -/
def dropAll (machine : Machine) : Nat → Machine
  | 0 => machine
  | count + 1 => machine.drop.dropAll count

/-- Takes values off the data stack and then puts others on it, the first one first. -/
def exchange (machine : Machine) (count : Nat) (values : List Int8) : Machine :=
  (machine.dropAll count).pushAll values

theorem depth_dropAll (machine : Machine) (count : Nat) :
    (machine.dropAll count).depth = machine.depth - count := by
  induction count generalizing machine with
  | zero => rfl
  | succ count inductionHypothesis =>
    rw [dropAll, inductionHypothesis, depth_drop, Nat.sub_sub, Nat.add_comm]

theorem depth_pushAll (machine : Machine) (values : List Int8) :
    (machine.pushAll values).depth = machine.depth + values.length := by
  induction values generalizing machine with
  | nil => rfl
  | cons value rest inductionHypothesis =>
    show ((machine.push value).pushAll rest).depth = _
    rw [inductionHypothesis, depth_push, List.length_cons, Nat.add_assoc, Nat.add_comm 1]

theorem depth_exchange (machine : Machine) (count : Nat) (values : List Int8) :
    (machine.exchange count values).depth = machine.depth - count + values.length := by
  rw [exchange, depth_pushAll, depth_dropAll]

theorem read_dropAll (machine : Machine) (count : Nat) {cell : Nat}
    (notDepth : cell ≠ Layout.depthCell) :
    (machine.dropAll count).memory.read cell = machine.memory.read cell := by
  induction count generalizing machine with
  | zero => rfl
  | succ count inductionHypothesis =>
    rw [dropAll, inductionHypothesis]
    exact read_setDepth_other machine _ cell notDepth

theorem read_pushAll (machine : Machine) (values : List Int8) {cell : Nat}
    (notDepth : cell ≠ Layout.depthCell)
    (apart : cell < Layout.stackStart + machine.depth ∨
      Layout.stackStart + (machine.depth + values.length) ≤ cell) :
    (machine.pushAll values).memory.read cell = machine.memory.read cell := by
  induction values generalizing machine with
  | nil => rfl
  | cons value rest inductionHypothesis =>
    rw [List.length_cons] at apart
    show ((machine.push value).pushAll rest).memory.read cell = _
    rw [inductionHypothesis _ (by rw [depth_push]; omega),
      read_push_other machine value cell notDepth (by omega)]

/-- Exchanging values writes only the cells that the new values take. -/
theorem read_exchange (machine : Machine) (count : Nat) (values : List Int8) {cell : Nat}
    (notDepth : cell ≠ Layout.depthCell)
    (apart : cell < Layout.stackStart + (machine.depth - count) ∨
      Layout.stackStart + (machine.depth - count + values.length) ≤ cell) :
    (machine.exchange count values).memory.read cell = machine.memory.read cell := by
  rw [exchange, read_pushAll _ _ notDepth (by rw [depth_dropAll]; exact apart),
    read_dropAll _ _ notDepth]

/-- The cells in front of the data stack belong to no value. -/
theorem read_exchange_of_lt (machine : Machine) (count : Nat) (values : List Int8) {cell : Nat}
    (notDepth : cell ≠ Layout.depthCell) (front : cell < Layout.stackStart) :
    (machine.exchange count values).memory.read cell = machine.memory.read cell :=
  read_exchange machine count values notDepth (.inl (Nat.lt_add_right _ front))

theorem pointer_exchange (machine : Machine) (count : Nat) (values : List Int8) :
    (machine.exchange count values).pointer = machine.pointer := by
  refine pointer_congr (read_exchange_of_lt _ _ _ ?_ ?_) (read_exchange_of_lt _ _ _ ?_ ?_) <;>
    decide

theorem callPointer_exchange (machine : Machine) (count : Nat) (values : List Int8) :
    (machine.exchange count values).callPointer = machine.callPointer := by
  refine congrArg UInt8.toNat (read_exchange_of_lt _ _ _ ?_ ?_) <;> decide

/-- Nothing but memory and the depth changes when values are exchanged. -/
theorem exchange_eq (machine : Machine) (count : Nat) (values : List Int8) :
    ∃ memory depth, machine.exchange count values =
      { machine with memory := memory, depth := depth } := by
  have pushed (values : List Int8) (machine : Machine) : ∃ memory depth,
      machine.pushAll values = { machine with memory := memory, depth := depth } := by
    induction values generalizing machine with
    | nil => exact ⟨_, _, rfl⟩
    | cons value rest inductionHypothesis => exact inductionHypothesis (machine.push value)
  induction count generalizing machine with
  | zero => exact pushed values machine
  | succ count inductionHypothesis => exact inductionHypothesis machine.drop

/-! ### What operations do beside -/

/-- What an operation does when the values on the data stack have been exchanged. -/
inductive Beside (top : Int8) (moved : Machine) : Operation → Machine → Prop where
  | nothing {operation : Operation} : Beside top moved operation moved
  | takeInput (rest : List Int8) : Beside top moved .inp { moved with input := rest }
  | putOut (value : Int8) :
      Beside top moved .out { moved with output := moved.output.push value }
  | save (register : Fin registerCount) (value : Int8) :
      Beside top moved .sav
        { moved with registers := moved.registers.set register value register.isLt }
  | draw : Beside top moved .rng { moved with drawn := moved.drawn + 1 }
  | pause : Beside top moved .brk { moved with status := .paused }
  | note (dump : Dump) : Beside top moved .dmp { moved with lastDump? := some dump }
  | jump {operation : Operation} (leaps : operation.Leaps top) (address : Nat) :
      Beside top moved operation (moved.setPointer address)
  | call (room : moved.callPointer + 2 ≤ Layout.callStackSize) (back used address : Nat) :
      Beside top moved .jsr
        (((moved.storeReturn moved.callPointer back).setCallPointer used).setPointer address)
  | giveBack (used address : Nat) :
      Beside top moved .ret ((moved.setCallPointer used).setPointer address)

theorem beside_jumpIf {test : Int8 → Bool}
    (leaps : test machine.top → operation.Leaps machine.top) :
    Beside machine.top (machine.exchange 1 []) operation (machine.jumpIf test) := by
  unfold jumpIf
  split
  · next passes => exact .jump (leaps passes) _
  · exact .nothing

/-- An operation that goes on exchanges as many values as the catalog says. -/
theorem exists_exchange (done : machine.execute operation = (next, none))
    (active : next.status ≠ .stopped) :
    ∃ values, values.length = operation.pushes ∧
      Beside machine.top (machine.exchange operation.pops values) operation next := by
  have noHalt (halted : machine.halt = (next, none)) : False := by
    have stopped := status_halt machine
    rw [halted] at stopped
    exact active stopped
  have only (values : List Int8) (count : values.length = operation.pushes)
      (moves : machine.execute operation = (machine.exchange operation.pops values, none)) :
      ∃ values, values.length = operation.pushes ∧
        Beside machine.top (machine.exchange operation.pops values) operation next := by
    obtain rfl := (Prod.mk.inj (moves.symm.trans done)).1
    exact ⟨values, count, .nothing⟩
  cases operation with
  | inp =>
    rw [execute] at done
    split at done
    · exact (noHalt done).elim
    · next value rest _ =>
      obtain rfl := (Prod.mk.inj done).1
      exact ⟨[value], rfl, .takeInput rest⟩
  | out =>
    rw [execute, emit] at done
    split at done
    · exact absurd (Prod.mk.inj done).2 (Option.some_ne_none _)
    · obtain rfl := (Prod.mk.inj done).1
      exact ⟨[], rfl, .putOut machine.top⟩
  | del => exact only [] rfl rfl
  | dup => exact only [machine.top, machine.top] rfl rfl
  | swp => exact only [machine.top, machine.drop.top] rfl rfl
  | rot => exact only [machine.drop.top, machine.top, machine.drop.drop.top] rfl rfl
  | len => exact only [Int8.ofNat machine.depth] rfl rfl
  | pze => exact only [0] rfl rfl
  | psh => exact only [(machine.operandByte 1).toInt8] rfl rfl
  | inc => exact only [machine.top + 1] rfl rfl
  | dec => exact only [machine.top - 1] rfl rfl
  | neg => exact only [-machine.top] rfl rfl
  | add => exact only [machine.drop.top + machine.top] rfl rfl
  | sub => exact only [machine.drop.top - machine.top] rfl rfl
  | jmp =>
    obtain rfl := (Prod.mk.inj done).1
    exact ⟨[], rfl, .jump (show Operation.Leaps machine.top .jmp from trivial) _⟩
  | jez | jnz | jlz | jgz =>
    obtain rfl := (Prod.mk.inj done).1
    exact ⟨[], rfl, beside_jumpIf of_decide_eq_true⟩
  | jsr =>
    rw [execute, call] at done
    dsimp only at done
    split at done
    · exact absurd (Prod.mk.inj done).2 (Option.some_ne_none _)
    · next room =>
      obtain rfl := (Prod.mk.inj done).1
      exact ⟨[], rfl, .call (Nat.le_of_not_lt room) machine.pointer (machine.callPointer + 2) _⟩
  | ret =>
    rw [execute, giveBack] at done
    dsimp only at done
    split at done
    · exact absurd (Prod.mk.inj done).2 (Option.some_ne_none _)
    · obtain rfl := (Prod.mk.inj done).1
      exact ⟨[], rfl, .giveBack (machine.callPointer - 2) _⟩
  | lod => exact only [machine.registers[machine.operandRegister]] rfl rfl
  | sav =>
    obtain rfl := (Prod.mk.inj done).1
    exact ⟨[], rfl, .save machine.operandRegister machine.top⟩
  | hlt => exact (noHalt done).elim
  | brk =>
    obtain rfl := (Prod.mk.inj done).1
    exact ⟨[], rfl, .pause⟩
  | rng =>
    obtain rfl := (Prod.mk.inj done).1
    exact ⟨[(Keystream.byte machine.seed machine.drawn).toInt8], rfl, .draw⟩
  | dmp =>
    obtain rfl := (Prod.mk.inj done).1
    exact ⟨[], rfl, .note machine.dump⟩

/-! ### What stays as it was -/

/-- Registers, output, input and random bytes are as before, but for the one operation that each of
them is there for. -/
structure Spares (operation : Operation) (before after : Machine) : Prop where
  registers : operation ≠ .sav → after.registers = before.registers
  output : operation ≠ .out → after.output = before.output
  input : operation ≠ .inp → after.input = before.input
  drawn : operation ≠ .rng → after.drawn = before.drawn
  seed : after.seed = before.seed

/-- The cells that the operation at the pointer may write. -/
inductive Writes (machine : Machine) (operation : Operation) : Nat → Prop where
  | pointerHigh : Writes machine operation Layout.pointerHighCell
  | pointerLow : Writes machine operation Layout.pointerLowCell
  | depth : Writes machine operation Layout.depthCell
  | value {index : Nat} (taken : machine.depth - operation.pops ≤ index)
      (put : index < machine.depth - operation.pops + operation.pushes) :
      Writes machine operation (Layout.stackStart + index)
  | callPointer (calls : operation = .jsr ∨ operation = .ret) :
      Writes machine operation Layout.callPointerCell
  | returnHigh (calls : operation = .jsr)
      (room : machine.callPointer + 2 ≤ Layout.callStackSize) :
      Writes machine operation (Layout.callStackStart + machine.callPointer)
  | returnLow (calls : operation = .jsr)
      (room : machine.callPointer + 2 ≤ Layout.callStackSize) :
      Writes machine operation (Layout.callStackStart + machine.callPointer + 1)

namespace Spares

variable {before : Machine}

theorem of_same (registers : machine.registers = before.registers)
    (output : machine.output = before.output) (input : machine.input = before.input)
    (drawn : machine.drawn = before.drawn) (seed : machine.seed = before.seed) :
    Spares operation before machine :=
  ⟨fun _ => registers, fun _ => output, fun _ => input, fun _ => drawn, seed⟩

theorem trans (first : Spares operation before machine) (second : Spares operation machine next) :
    Spares operation before next where
  registers other := (second.registers other).trans (first.registers other)
  output other := (second.output other).trans (first.output other)
  input other := (second.input other).trans (first.input other)
  drawn other := (second.drawn other).trans (first.drawn other)
  seed := second.seed.trans first.seed

theorem exchange (spares : Spares operation before machine) (count : Nat) (values : List Int8) :
    Spares operation before (machine.exchange count values) := by
  obtain ⟨memory, depth, same⟩ := machine.exchange_eq count values
  rw [same]
  exact spares.trans (.of_same rfl rfl rfl rfl rfl)

end Spares

namespace Beside

theorem depth_eq (beside : Beside top moved operation next) : next.depth = moved.depth := by
  cases beside with
  | call =>
    unfold setPointer setCallPointer storeReturn
    rfl
  | giveBack =>
    unfold setPointer setCallPointer
    rfl
  | _ => rfl

theorem spares (beside : Beside top moved operation next) : Spares operation moved next := by
  cases beside with
  | takeInput =>
    exact ⟨fun _ => rfl, fun _ => rfl, fun other => absurd rfl other, fun _ => rfl, rfl⟩
  | putOut =>
    exact ⟨fun _ => rfl, fun other => absurd rfl other, fun _ => rfl, fun _ => rfl, rfl⟩
  | save =>
    exact ⟨fun other => absurd rfl other, fun _ => rfl, fun _ => rfl, fun _ => rfl, rfl⟩
  | draw =>
    exact ⟨fun _ => rfl, fun _ => rfl, fun _ => rfl, fun other => absurd rfl other, rfl⟩
  | call =>
    unfold setPointer setCallPointer storeReturn
    exact .of_same rfl rfl rfl rfl rfl
  | giveBack =>
    unfold setPointer setCallPointer
    exact .of_same rfl rfl rfl rfl rfl
  | _ => exact .of_same rfl rfl rfl rfl rfl

/-- The instruction pointer moves on with the instruction, unless the operation sends it
elsewhere. -/
theorem pointer_eq (beside : Beside top moved operation next) (stays : ¬operation.Leaps top) :
    next.pointer = moved.pointer := by
  cases beside with
  | jump leaps => exact absurd leaps stays
  | call | giveBack => exact absurd trivial stays
  | _ => rfl

/-- Beside the data stack only the two pointers and a return address are written. -/
theorem read_eq (beside : Beside top moved operation next) {cell : Nat}
    (notHigh : cell ≠ Layout.pointerHighCell) (notLow : cell ≠ Layout.pointerLowCell)
    (notPointer : operation = .jsr ∨ operation = .ret → cell ≠ Layout.callPointerCell)
    (notReturn : operation = .jsr → moved.callPointer + 2 ≤ Layout.callStackSize →
      cell ≠ Layout.callStackStart + moved.callPointer ∧
        cell ≠ Layout.callStackStart + moved.callPointer + 1) :
    next.memory.read cell = moved.memory.read cell := by
  cases beside with
  | jump _ address => exact read_setPointer_other moved address cell notHigh notLow
  | call room =>
    obtain ⟨high, low⟩ := notReturn rfl room
    rw [read_setPointer_other _ _ cell notHigh notLow,
      read_setCallPointer_other _ _ cell (notPointer (.inl rfl)),
      read_storeReturn_other _ _ _ cell high low]
  | giveBack =>
    rw [read_setPointer_other _ _ cell notHigh notLow,
      read_setCallPointer_other _ _ cell (notPointer (.inr rfl))]
  | _ => rfl

end Beside

namespace Writes

variable {cell index : Nat}

/-- The cells below the values that are taken are not written. -/
theorem le_of_value (writes : machine.Writes operation cell)
    (same : cell = Layout.stackStart + index) : machine.depth - operation.pops ≤ index := by
  simp only [Layout.stackStart_eq] at same
  cases writes with
  | value taken put =>
    simp only [Layout.stackStart_eq] at same
    omega
  | returnHigh _ room | returnLow _ room =>
    simp only [Layout.callStackStart_eq, Layout.callStackSize_eq] at same room
    omega
  | _ =>
    simp only [Layout.pointerHighCell_eq, Layout.pointerLowCell_eq, Layout.depthCell_eq,
      Layout.callPointerCell_eq] at same
    omega

/-- Only a call writes cells of the call stack. -/
theorem eq_of_callStack (writes : machine.Writes operation cell)
    (same : cell = Layout.callStackStart + index) (inside : index < Layout.callStackSize) :
    operation = .jsr := by
  simp only [Layout.callStackStart_eq, Layout.callStackSize_eq] at same inside
  cases writes with
  | value taken put =>
    simp only [Layout.stackStart_eq] at same
    omega
  | returnHigh calls _ | returnLow calls _ => exact calls
  | _ =>
    simp only [Layout.pointerHighCell_eq, Layout.pointerLowCell_eq, Layout.depthCell_eq,
      Layout.callPointerCell_eq] at same
    omega

/-- Only a call and a return write the call stack pointer. -/
theorem eq_of_callPointer (writes : machine.Writes operation cell)
    (same : cell = Layout.callPointerCell) : operation = .jsr ∨ operation = .ret := by
  simp only [Layout.callPointerCell_eq] at same
  cases writes with
  | callPointer calls => exact calls
  | returnHigh calls _ | returnLow calls _ => exact .inl calls
  | value taken put =>
    simp only [Layout.stackStart_eq] at same
    omega
  | _ => exact nomatch same

end Writes

/-! ### The catalog is right -/

/-- The check of a push fails at a full data stack only. -/
theorem isSome_push?_iff (machine : Machine) (value : Int8) :
    (machine.push? value).isSome ↔ machine.depth < Layout.stackSize := by
  constructor
  · intro pushed
    by_contra full
    have outside : ¬Layout.stackStart + machine.depth < Layout.imageSize := by
      simp only [Layout.stackSize_eq, Layout.stackStart_eq, Layout.imageSize_eq] at *
      omega
    rw [push?, Memory.write?, if_neg outside] at pushed
    exact Bool.false_ne_true pushed
  · intro room
    rw [machine.push?_eq_some value room]
    rfl

/-- The check of a pop fails at an empty data stack only, and at one that is fuller than full. -/
theorem isSome_pop?_iff (machine : Machine) :
    machine.pop?.isSome ↔ 0 < machine.depth ∧ machine.depth ≤ Layout.stackSize := by
  constructor
  · intro popped
    by_cases empty : machine.depth = 0
    · rw [pop?, empty] at popped
      exact absurd popped Bool.false_ne_true
    · refine ⟨Nat.pos_of_ne_zero empty, Nat.le_of_not_lt fun tooMany => ?_⟩
      have outside : Layout.imageSize ≤ Layout.stackStart + (machine.depth - 1) := by
        simp only [Layout.stackSize_eq, Layout.stackStart_eq, Layout.imageSize_eq] at *
        omega
      have missing (memory : Memory) :
          memory.read? (Layout.stackStart + (machine.depth - 1)) = none :=
        Vector.getElem?_eq_none outside
      have failed : machine.pop? = none := by
        rw [pop?, Nat.psub_eq_sub (Nat.pos_of_ne_zero empty), Option.bind_eq_bind,
          Option.bind_some, setDepth?_eq_some]
        exact congrArg (Option.bind · _) (missing _)
      rw [failed] at popped
      exact Bool.false_ne_true popped
  · rintro ⟨some, bound⟩
    rw [machine.pop?_eq_some some bound]
    rfl

/-- What the catalog promises of an operation: `machine` is about to execute it, and `next` is what
the step makes of it. -/
structure Follows (machine : Machine) (operation : Operation) (next : Machine) : Prop where
  enough : operation.pops ≤ machine.depth
  depth : next.depth = machine.depth - operation.pops + operation.pushes
  room : next.depth ≤ Layout.stackSize
  /-- Every push and every pop on the way passes its check. -/
  checked : machine.step? = some (next, none)
  /-- The values below those that are taken keep their bytes. -/
  below : ∀ index < machine.depth - operation.pops,
    next.memory.read (Layout.stackStart + index) = machine.memory.read (Layout.stackStart + index)
  memory : ∀ cell, ¬machine.Writes operation cell →
    next.memory.read cell = machine.memory.read cell
  callPointer : operation ≠ .jsr → operation ≠ .ret → next.callPointer = machine.callPointer
  callStack : operation ≠ .jsr → ∀ index < Layout.callStackSize,
    next.memory.read (Layout.callStackStart + index) =
      machine.memory.read (Layout.callStackStart + index)
  spares : Spares operation machine next
  pointer : ¬operation.Leaps machine.top →
    next.pointer = machine.pointer + operation.encodedLength

theorem step_of_room (starts : machine.Starts operation) (enough : operation.pops ≤ machine.depth)
    (room : machine.depth - operation.pops + operation.pushes ≤ Layout.stackSize) :
    machine.step =
      (machine.begin.setPointer (machine.pointer + operation.encodedLength)).execute operation := by
  rw [Machine.step_of_starts starts, perform,
    if_neg (Nat.not_lt.mpr (show operation.pops ≤ machine.begin.depth from enough)),
    if_neg (Nat.not_lt.mpr (show machine.begin.depth - _ + _ ≤ Layout.stackSize from room))]

/-- An operation that is executed found as many values as it takes, and room for those it puts. -/
theorem Performs.bounds (performs : machine.Performs operation) :
    operation.pops ≤ machine.depth ∧
      machine.depth - operation.pops + operation.pushes ≤ Layout.stackSize := by
  obtain ⟨starts, quiet⟩ := performs
  have enough : operation.pops ≤ machine.depth := by
    by_contra poor
    rw [step_of_poor starts (Nat.lt_of_not_le poor)] at quiet
    exact nomatch quiet
  refine ⟨enough, ?_⟩
  by_contra rich
  rw [step_of_rich starts enough (Nat.lt_of_not_le rich)] at quiet
  exact nomatch quiet

/-- An operation that is executed exchanges as many values as the catalog says, with the pointer
already behind the instruction, and does what it does beside. -/
theorem Performs.exists_exchange (performs : machine.Performs operation)
    (active : machine.step.1.status ≠ .stopped) :
    ∃ values, values.length = operation.pushes ∧
      Beside machine.top
        ((machine.begin.setPointer (machine.pointer + operation.encodedLength)).exchange
          operation.pops values)
        operation machine.step.1 := by
  obtain ⟨enough, room⟩ := performs.bounds
  have whole : machine.step = (machine.step.1, none) := Prod.ext rfl performs.2
  have top : (machine.begin.setPointer (machine.pointer + operation.encodedLength)).top =
      machine.top := top_setPointer machine.begin _
  rw [← top]
  exact Machine.exists_exchange ((step_of_room performs.1 enough room).symm.trans whole) active

theorem read_of_beside {address : Nat} {values : List Int8}
    (beside : Beside top ((machine.begin.setPointer address).exchange operation.pops values)
      operation next)
    (count : values.length = operation.pushes) {cell : Nat}
    (kept : ¬machine.Writes operation cell) :
    next.memory.read cell = machine.memory.read cell := by
  have notHigh : cell ≠ Layout.pointerHighCell := fun same => kept (same ▸ .pointerHigh)
  have notLow : cell ≠ Layout.pointerLowCell := fun same => kept (same ▸ .pointerLow)
  have notDepth : cell ≠ Layout.depthCell := fun same => kept (same ▸ .depth)
  have used : ((machine.begin.setPointer address).exchange operation.pops values).callPointer =
      machine.callPointer := by
    rw [callPointer_exchange]
    exact callPointer_setPointer machine.begin address
  have apart : cell < Layout.stackStart + (machine.depth - operation.pops) ∨
      Layout.stackStart + (machine.depth - operation.pops + values.length) ≤ cell := by
    by_contra between
    rw [not_or, Nat.not_lt, Nat.not_le, count] at between
    obtain ⟨index, rfl⟩ := Nat.exists_eq_add_of_le (Nat.le_trans (Nat.le_add_right _ _) between.1)
    exact kept (.value (by omega) (by omega))
  rw [beside.read_eq notHigh notLow,
    read_exchange (machine.begin.setPointer address) _ _ notDepth apart]
  · exact read_setPointer_other machine.begin address cell notHigh notLow
  · exact fun calls same => kept (same ▸ .callPointer calls)
  · rw [used]
    exact fun calls room =>
      ⟨fun same => kept (same ▸ .returnHigh calls room),
        fun same => kept (same ▸ .returnLow calls room)⟩

theorem pointer_of_beside {address : Nat} {values : List Int8}
    (beside : Beside top ((machine.begin.setPointer address).exchange operation.pops values)
      operation next)
    (stays : ¬operation.Leaps top) (small : address < 65536) : next.pointer = address := by
  rw [beside.pointer_eq stays, pointer_exchange, pointer_setPointer _ _ small]

theorem follows_of_performs (checked : machine.step? = some machine.step)
    (performs : machine.Performs operation) (active : machine.step.1.status ≠ .stopped) :
    machine.Follows operation machine.step.1 := by
  obtain ⟨enough, room⟩ := performs.bounds
  obtain ⟨values, count, beside⟩ := performs.exists_exchange active
  have depth : machine.step.1.depth = machine.depth - operation.pops + operation.pushes := by
    rw [beside.depth_eq, depth_exchange, count]
    rfl
  have memory {cell : Nat} (kept : ¬machine.Writes operation cell) :
      machine.step.1.memory.read cell = machine.memory.read cell :=
    read_of_beside beside count kept
  refine {
    enough := enough
    depth := depth
    room := depth ▸ room
    checked := checked.trans (congrArg some (Prod.ext rfl performs.2))
    below := fun index below => memory fun writes =>
      absurd (writes.le_of_value rfl) (Nat.not_le.mpr below)
    memory := fun cell => memory
    callPointer := fun noCall noReturn => congrArg UInt8.toNat (memory fun writes =>
      (writes.eq_of_callPointer rfl).elim noCall noReturn)
    callStack := fun noCall index inside => memory fun writes =>
      noCall (writes.eq_of_callStack rfl inside)
    spares := ?_
    pointer := fun stays => pointer_of_beside beside stays ?_ }
  · have begun : Spares operation machine
        (machine.begin.setPointer (machine.pointer + operation.encodedLength)) :=
      .of_same rfl rfl rfl rfl rfl
    exact (begun.exchange operation.pops values).trans beside.spares
  · have inside := performs.1.2.1
    have short := operation.encodedLength_le
    rw [Layout.codeSize_eq] at inside
    omega

/-- What the catalog says of an operation is what executing it does. Every reachable machine that
executes an operation, and neither fails nor ends there, takes and puts as many values as the
catalog says, and changes nothing that is not the matter of the operation. The step passes when
each of its pushes and pops is checked, and these checks fail where the depth would leave its
bounds. -/
theorem follows_of_reached :
    (∀ (machine : Machine) (value : Int8),
      (machine.push? value).isSome ↔ machine.depth < Layout.stackSize) ∧
    (∀ machine : Machine,
      machine.pop?.isSome ↔ 0 < machine.depth ∧ machine.depth ≤ Layout.stackSize) ∧
    ∀ image feed (machine : Machine) operation, Reached image feed machine →
      machine.Performs operation → machine.step.1.status ≠ .stopped →
        machine.Follows operation machine.step.1 :=
  ⟨isSome_push?_iff, isSome_pop?_iff, fun _ _ _ _ reached =>
    follows_of_performs (safe_of_reached reached).step⟩

/-- A program that doubles the value it is given. -/
theorem follows_of_reached_dup :
    ∃ image : Image, Reached image ⟨[], none, [7]⟩ (start image ⟨[], none, [7]⟩ 0) ∧
      (start image ⟨[], none, [7]⟩ 0).Performs .dup ∧
      (start image ⟨[], none, [7]⟩ 0).step.1.status ≠ .stopped ∧
      (start image ⟨[], none, [7]⟩ 0).Follows .dup (start image ⟨[], none, [7]⟩ 0).step.1 ∧
      (start image ⟨[], none, [7]⟩ 0).step.1.depth = 2 := by
  obtain ⟨image, code⟩ := Image.exists_program [Operation.dup.code] (by decide)
  have fetch : image.codeRegion[0]? = some Operation.dup.code := by
    rw [code]
    rfl
  have begun := shows_start image ⟨[], none, [7]⟩ 0
  have starts := begun.starts Status.noConfusion fetch
  have depth : (start image ⟨[], none, [7]⟩ 0).depth = 1 := begun.length_stack.symm
  have stepped := step_of_room starts (by rw [depth]; decide) (by rw [depth]; decide)
  have performs : (start image ⟨[], none, [7]⟩ 0).Performs .dup :=
    ⟨starts, congrArg Prod.snd stepped⟩
  have active : (start image ⟨[], none, [7]⟩ 0).step.1.status ≠ .stopped := by
    rw [stepped]
    exact Status.noConfusion
  have follows := follows_of_reached.2.2 image _ _ .dup (.start image ⟨[], none, [7]⟩ 0) performs
    active
  refine ⟨image, .start image _ 0, performs, active, follows, ?_⟩
  rw [follows.depth, depth]
  rfl

end Machine

end ByteStack
