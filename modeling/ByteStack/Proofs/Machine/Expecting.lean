/-
This file compares one step of a machine with the same step of a machine that is
told which output to expect. A step reads the expected output in two places
only, where a value is put out and where the program ends. Everything else it
does is the same for both. So a step of the two has one of four outcomes, which
later files can tell apart without looking at the operations again.
-/

import ByteStack.Proofs.Machine.Refinement

namespace ByteStack.Machine

/-! ### Expecting output -/

/-- The machine, told which output to expect. -/
def expecting (machine : Machine) (expected : List Int8) : Machine :=
  { machine with expected? := some expected.toArray }

/-- The next step ends the program: it meets a zero byte, is told to halt, or reads an input
that is empty. Reading comes after the check that the data stack has room. -/
def Halts (machine : Machine) : Prop :=
  machine.status ≠ .stopped ∧ machine.pointer < Layout.codeSize ∧
    (machine.memory.read machine.pointer = 0 ∨
      Operation.ofCode? (machine.memory.read machine.pointer) = some .hlt ∨
      (Operation.ofCode? (machine.memory.read machine.pointer) = some .inp ∧
        machine.input = [] ∧ machine.depth < Layout.stackSize))

variable {machine before : Machine} {expected : List Int8}

theorem pushAll_expecting (machine : Machine) (expected values : List Int8) :
    (machine.expecting expected).pushAll values = (machine.pushAll values).expecting expected := by
  induction values generalizing machine with
  | nil => rfl
  | cons value rest inductionHypothesis => exact inductionHypothesis (machine.push value)

/-- At the start the runs differ in what they expect. -/
theorem start_expecting (image : Image) (input stack : List Int8) (seed : UInt64)
    (expected : List Int8) :
    start image ⟨input, some expected, stack⟩ seed =
      (start image ⟨input, none, stack⟩ seed).expecting expected :=
  pushAll_expecting ((((installed image ⟨input, none, stack⟩ seed).setPointer 0).setCallPointer
    0).setDepth 0) expected _

/-! ### What expecting does not change -/

section

variable (machine : Machine) (expected : List Int8)

theorem top_expecting : (machine.expecting expected).top = machine.top := rfl

theorem input_expecting : (machine.expecting expected).input = machine.input := rfl

theorem jumpIf_expecting (test : Int8 → Bool) :
    (machine.expecting expected).jumpIf test = (machine.jumpIf test).expecting expected := by
  unfold jumpIf
  rw [top_expecting]
  split <;> rfl

end

/-! ### What an instruction leaves alone -/

/-- Output, place, status, fault, count and what is expected are as before. -/
structure Leaves (before after : Machine) : Prop where
  output : after.output = before.output
  current : after.current = before.current
  status : after.status = before.status
  expected : after.expected? = before.expected?
  fault : after.fault? = before.fault?
  cycles : after.cycles = before.cycles

namespace Leaves

theorem setPointer (leaves : Leaves before machine) (address : Nat) :
    Leaves before (machine.setPointer address) :=
  ⟨leaves.output, leaves.current, leaves.status, leaves.expected, leaves.fault, leaves.cycles⟩

theorem setCallPointer (leaves : Leaves before machine) (used : Nat) :
    Leaves before (machine.setCallPointer used) :=
  ⟨leaves.output, leaves.current, leaves.status, leaves.expected, leaves.fault, leaves.cycles⟩

theorem drop (leaves : Leaves before machine) : Leaves before machine.drop :=
  ⟨leaves.output, leaves.current, leaves.status, leaves.expected, leaves.fault, leaves.cycles⟩

theorem push (leaves : Leaves before machine) (value : Int8) :
    Leaves before (machine.push value) :=
  ⟨leaves.output, leaves.current, leaves.status, leaves.expected, leaves.fault, leaves.cycles⟩

theorem takeInput (leaves : Leaves before machine) (rest : List Int8) :
    Leaves before { machine with input := rest } :=
  ⟨leaves.output, leaves.current, leaves.status, leaves.expected, leaves.fault, leaves.cycles⟩

theorem setRegister (leaves : Leaves before machine) (register : Fin registerCount)
    (value : Int8) :
    Leaves before
      { machine with registers := machine.registers.set register value register.isLt } :=
  ⟨leaves.output, leaves.current, leaves.status, leaves.expected, leaves.fault, leaves.cycles⟩

theorem draw (leaves : Leaves before machine) :
    Leaves before { machine with drawn := machine.drawn + 1 } :=
  ⟨leaves.output, leaves.current, leaves.status, leaves.expected, leaves.fault, leaves.cycles⟩

theorem noteDump (leaves : Leaves before machine) (dump : Dump) :
    Leaves before { machine with lastDump? := some dump } :=
  ⟨leaves.output, leaves.current, leaves.status, leaves.expected, leaves.fault, leaves.cycles⟩

theorem storeReturn (leaves : Leaves before machine) (used back : Nat) :
    Leaves before (machine.storeReturn used back) :=
  ⟨leaves.output, leaves.current, leaves.status, leaves.expected, leaves.fault, leaves.cycles⟩

theorem mapTop (leaves : Leaves before machine) (change : Int8 → Int8) :
    Leaves before (machine.mapTop change) :=
  leaves.drop.push _

theorem mapTopTwo (leaves : Leaves before machine) (change : Int8 → Int8 → Int8) :
    Leaves before (machine.mapTopTwo change) :=
  leaves.drop.drop.push _

theorem jump (leaves : Leaves before machine) : Leaves before machine.jump :=
  leaves.setPointer _

theorem jumpIf (leaves : Leaves before machine) (test : Int8 → Bool) :
    Leaves before (machine.jumpIf test) := by
  unfold Machine.jumpIf
  split
  · exact leaves.drop.jump
  · exact leaves.drop

end Leaves

/-! ### One step of both runs -/

/-- What a step makes of a free machine and of the same machine with output to expect. `before`
is the machine in the middle of the step, where the instruction takes effect. -/
inductive Outcome (expected : List Int8) (ends : Prop) (before : Machine) :
    Machine → Machine → Prop where
  /-- Nothing is put out. The step may fail, in the same way for both. -/
  | quiet {after : Machine} (goesOn : ¬ends) (free : after.expected? = none)
      (output : after.output = before.output) (current : after.current = before.current)
      (failed : after.status = .stopped →
        ∃ fault, after.fault? = some fault ∧ ∀ depth, fault.kind ≠ .stackNotEmpty depth) :
      Outcome expected ends before after (after.expecting expected)
  /-- A value is put out, and it is the one that is expected. -/
  | fits {after : Machine} (goesOn : ¬ends) (free : after.expected? = none) (value : Int8)
      (output : after.output = before.output.push value)
      (fitting : outputFault? expected.toArray before.output.size value = none)
      (active : after.status ≠ .stopped) :
      Outcome expected ends before after (after.expecting expected)
  /-- A value is put out that is not expected. -/
  | parts {after : Machine} (goesOn : ¬ends) (free : after.expected? = none) (value : Int8)
      (output : after.output = before.output.push value) (current : after.current = before.current)
      (kind : FaultKind)
      (wrong : outputFault? expected.toArray before.output.size value = some kind)
      (active : after.status ≠ .stopped) :
      Outcome expected ends before after ((after.expecting expected).fail kind).1
  /-- The program ends. -/
  | halts {ended : Machine} (ending : ends) (free : ended.expected? = none)
      (output : ended.output = before.output) (current : ended.current = before.current)
      (clean : ended.fault? = none) :
      Outcome expected ends before ended.halt.1 (ended.expecting expected).halt.1

/-- What holds in the middle of a step of a free run: the machine is active and expects nothing. -/
structure Free (before machine : Machine) : Prop where
  leaves : Leaves before machine
  active : before.status ≠ .stopped
  expected : before.expected? = none
  clean : before.fault? = none

namespace Free

variable {ends : Prop}

theorem fail (free : Free before machine) (goesOn : ¬ends) {kind : FaultKind}
    (other : ∀ depth, kind ≠ .stackNotEmpty depth) :
    Outcome expected ends before (machine.fail kind).1
      ((machine.expecting expected).fail kind).1 :=
  .quiet goesOn (free.leaves.expected.trans free.expected) free.leaves.output free.leaves.current
    fun _ => ⟨_, rfl, other⟩

theorem quiet (free : Free before machine) (goesOn : ¬ends) :
    Outcome expected ends before machine (machine.expecting expected) := by
  refine .quiet goesOn (free.leaves.expected.trans free.expected) free.leaves.output
    free.leaves.current ?_
  intro stopped
  rw [free.leaves.status] at stopped
  exact absurd stopped free.active

/-- Putting a value out is where output is compared. -/
theorem emit (free : Free before machine) (goesOn : ¬ends) (value : Int8) :
    Outcome expected ends before (machine.emit value).1
      ((machine.expecting expected).emit value).1 := by
  have none : machine.expected? = none := free.leaves.expected.trans free.expected
  obtain ⟨next, shape⟩ : ∃ next, next = { machine with output := machine.output.push value } :=
    ⟨_, rfl⟩
  have put : (machine.emit value).1 = next := by
    simp only [Machine.emit, none, Option.bind_none, shape]
  have pushed : next.output = before.output.push value := by
    rw [shape, ← free.leaves.output]
  have unjudged : next.expected? = Option.none := by
    rw [shape]
    exact none
  rw [put]
  cases verdict : outputFault? expected.toArray machine.output.size value with
  | none =>
    have same : ((machine.expecting expected).emit value).1 = next.expecting expected := by
      simp only [Machine.emit, expecting, Option.bind_some, verdict, shape]
    rw [same]
    rw [free.leaves.output] at verdict
    refine .fits goesOn unjudged value pushed verdict ?_
    rw [shape]
    exact free.leaves.status.symm ▸ free.active
  | some kind =>
    have same : ((machine.expecting expected).emit value).1 =
        ((next.expecting expected).fail kind).1 := by
      simp only [Machine.emit, expecting, Option.bind_some, verdict, shape]
    rw [same]
    rw [free.leaves.output] at verdict
    refine .parts goesOn unjudged value pushed ?_ kind verdict ?_
    · rw [shape]
      exact free.leaves.current
    · rw [shape]
      exact free.leaves.status.symm ▸ free.active

theorem halt (free : Free before machine) (ending : ends) :
    Outcome expected ends before machine.halt.1 (machine.expecting expected).halt.1 :=
  .halts ending (free.leaves.expected.trans free.expected) free.leaves.output
    free.leaves.current (free.leaves.fault.trans free.clean)

theorem call (free : Free before machine) (goesOn : ¬ends) :
    Outcome expected ends before machine.call.1 (machine.expecting expected).call.1 := by
  unfold Machine.call
  rw [show (machine.expecting expected).callPointer = machine.callPointer from rfl]
  dsimp only
  split
  · exact free.fail goesOn nofun
  · have stored := free.leaves.storeReturn machine.callPointer machine.pointer
    have called := (stored.setCallPointer (machine.callPointer + 2)).jump
    exact quiet ⟨called, free.active, free.expected, free.clean⟩ goesOn

theorem giveBack (free : Free before machine) (goesOn : ¬ends) :
    Outcome expected ends before machine.giveBack.1 (machine.expecting expected).giveBack.1 := by
  unfold Machine.giveBack
  rw [show (machine.expecting expected).callPointer = machine.callPointer from rfl]
  dsimp only
  split
  · exact free.fail goesOn nofun
  · have back := (free.leaves.setCallPointer (machine.callPointer - 2)).setPointer
      (addressOf (machine.memory.read (Layout.callStackStart + (machine.callPointer - 2)))
        (machine.memory.read (Layout.callStackStart + (machine.callPointer - 2) + 1)))
    exact quiet ⟨back, free.active, free.expected, free.clean⟩ goesOn

/-- The effect of an operation that does not end the program, in both runs. -/
theorem execute_on (free : Free before machine) (goesOn : ¬ends) (operation : Operation)
    (other : operation ≠ .hlt) (unread : operation ≠ .inp) :
    Outcome expected ends before (machine.execute operation).1
      ((machine.expecting expected).execute operation).1 := by
  have leaves := free.leaves
  have done {after : Machine} (leaves : Leaves before after) :
      Outcome expected ends before after (after.expecting expected) :=
    quiet ⟨leaves, free.active, free.expected, free.clean⟩ goesOn
  cases operation with
  | inp => exact absurd rfl unread
  | hlt => exact absurd rfl other
  | out =>
    have dropped : Free before machine.drop := ⟨leaves.drop, free.active, free.expected, free.clean⟩
    exact dropped.emit goesOn machine.top
  | del => exact done leaves.drop
  | dup => exact done ((leaves.drop.push machine.top).push machine.top)
  | swp => exact done ((leaves.drop.drop.push machine.top).push machine.drop.top)
  | rot =>
    exact done (((leaves.drop.drop.drop.push machine.drop.top).push machine.top).push
      machine.drop.drop.top)
  | len => exact done (leaves.push (Int8.ofNat machine.depth))
  | pze => exact done (leaves.push 0)
  | psh => exact done (leaves.push (machine.operandByte 1).toInt8)
  | inc => exact done (leaves.mapTop (· + 1))
  | dec => exact done (leaves.mapTop (· - 1))
  | neg => exact done (leaves.mapTop (- ·))
  | add => exact done (leaves.mapTopTwo (· + ·))
  | sub => exact done (leaves.mapTopTwo (· - ·))
  | jmp => exact done leaves.jump
  | jez | jnz | jlz | jgz =>
    simp only [Machine.execute, jumpIf_expecting]
    exact done (leaves.jumpIf _)
  | jsr => exact free.call goesOn
  | ret => exact free.giveBack goesOn
  | lod => exact done (leaves.push machine.registers[machine.operandRegister])
  | sav => exact done (leaves.drop.setRegister machine.operandRegister machine.top)
  | brk =>
    have paused : Outcome expected ends before { machine with status := .paused }
        ({ machine with status := .paused }.expecting expected) :=
      .quiet goesOn (leaves.expected.trans free.expected) leaves.output leaves.current
        fun stopped => Status.noConfusion stopped
    exact paused
  | rng => exact done (leaves.draw.push (Keystream.byte machine.seed machine.drawn).toInt8)
  | dmp => exact done (leaves.noteDump machine.dump)

/-- The effect of an operation in both runs, given which operations end the program. -/
theorem execute (free : Free before machine) (operation : Operation)
    (ending : operation = .hlt ∨ operation = .inp ∧ machine.input = [] ↔ ends) :
    Outcome expected ends before (machine.execute operation).1
      ((machine.expecting expected).execute operation).1 := by
  by_cases halts : operation = .hlt
  · subst halts
    exact free.halt (ending.mp (Or.inl rfl))
  by_cases reads : operation = .inp
  · subst reads
    cases given : machine.input with
    | nil =>
      simp only [Machine.execute, input_expecting, given]
      exact free.halt (ending.mp (Or.inr ⟨rfl, given⟩))
    | cons value rest =>
      have goesOn : ¬ends := by
        rw [← ending, given]
        rintro (same | ⟨_, empty⟩)
        · exact halts same
        · exact List.cons_ne_nil _ _ empty
      simp only [Machine.execute, input_expecting, given]
      exact quiet ⟨(free.leaves.takeInput rest).push value, free.active, free.expected, free.clean⟩
        goesOn
  · have goesOn : ¬ends := by
      rw [← ending]
      rintro (same | ⟨same, _⟩)
      · exact halts same
      · exact reads same
    exact free.execute_on goesOn operation halts reads

theorem perform (free : Free before machine) (bound : machine.depth ≤ Layout.stackSize)
    (pointer : Nat) (operation : Operation)
    (ending : operation = .hlt ∨ operation = .inp ∧ machine.input = [] ∧
      machine.depth < Layout.stackSize ↔ ends) :
    Outcome expected ends before (machine.perform pointer operation).1
      ((machine.expecting expected).perform pointer operation).1 := by
  unfold Machine.perform
  rw [show (machine.expecting expected).depth = machine.depth from rfl]
  by_cases poor : machine.depth < operation.pops
  · rw [if_pos poor, if_pos poor]
    refine free.fail ?_ nofun
    rw [← ending]
    rintro (rfl | ⟨rfl, _⟩)
    · exact Nat.not_lt_zero _ poor
    · exact Nat.not_lt_zero _ poor
  rw [if_neg poor, if_neg poor]
  by_cases rich : Layout.stackSize < machine.depth - operation.pops + operation.pushes
  · rw [if_pos rich, if_pos rich]
    refine free.fail ?_ nofun
    rw [← ending]
    rintro (rfl | ⟨rfl, _, room⟩)
    · exact Nat.not_lt_of_le bound rich
    · exact Nat.not_lt_of_le room rich
  rw [if_neg rich, if_neg rich]
  have moved : Free before (machine.setPointer (pointer + operation.encodedLength)) :=
    ⟨free.leaves.setPointer _, free.active, free.expected, free.clean⟩
  refine moved.execute operation ?_
  rw [← ending]
  constructor
  · rintro (halts | ⟨rfl, empty⟩)
    · exact Or.inl halts
    · exact Or.inr ⟨rfl, empty, Nat.lt_of_not_le fun full => rich (Nat.lt_succ_of_le full)⟩
  · rintro (halts | ⟨rfl, empty, _⟩)
    · exact Or.inl halts
    · exact Or.inr ⟨rfl, empty⟩

end Free

/-- One step of both runs. -/
theorem outcome_step (unjudged : machine.expected? = none) (active : machine.status ≠ .stopped)
    (clean : machine.fault? = none) (bound : machine.depth ≤ Layout.stackSize) :
    Outcome expected machine.Halts machine.begin machine.step.1
      (machine.expecting expected).step.1 := by
  have free : Free machine.begin machine.begin :=
    ⟨⟨rfl, rfl, rfl, rfl, rfl, rfl⟩, active, unjudged, clean⟩
  have begun : (machine.expecting expected).begin = machine.begin.expecting expected := rfl
  unfold Machine.step
  rw [begun, show (machine.expecting expected).status = machine.status from rfl,
    show (machine.expecting expected).pointer = machine.pointer from rfl, if_neg active,
    if_neg active]
  dsimp only
  rw [show (machine.begin.expecting expected).memory = machine.memory from rfl,
    show machine.begin.memory = machine.memory from rfl]
  by_cases outside : Layout.codeSize ≤ machine.pointer
  · rw [if_pos outside, if_pos outside]
    exact free.fail (fun halts => Nat.not_le_of_lt halts.2.1 outside) nofun
  rw [if_neg outside, if_neg outside]
  have inside := Nat.lt_of_not_le outside
  by_cases zero : machine.memory.read machine.pointer = 0
  · rw [if_pos zero, if_pos zero]
    exact free.halt ⟨active, inside, Or.inl zero⟩
  rw [if_neg zero, if_neg zero]
  cases fetched : Operation.ofCode? (machine.memory.read machine.pointer) with
  | none =>
    refine free.fail ?_ nofun
    rintro ⟨_, _, zeroByte | halts | ⟨reads, _⟩⟩
    · exact zero zeroByte
    · exact nomatch fetched.symm.trans halts
    · exact nomatch fetched.symm.trans reads
  | some operation =>
    refine free.perform bound machine.pointer operation ?_
    unfold Halts
    rw [fetched]
    constructor
    · rintro (rfl | ⟨rfl, empty, room⟩)
      · exact ⟨active, inside, Or.inr (Or.inl rfl)⟩
      · exact ⟨active, inside, Or.inr (Or.inr ⟨rfl, empty, room⟩)⟩
    · rintro ⟨_, _, zeroByte | halts | ⟨reads, empty, room⟩⟩
      · exact absurd zeroByte zero
      · exact Or.inl (Option.some.inj halts)
      · exact Or.inr ⟨Option.some.inj reads, empty, room⟩

end ByteStack.Machine
