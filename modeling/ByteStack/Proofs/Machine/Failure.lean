/-
This file says what a step that fails leaves behind. The fault is reported and
recorded at the place where the step began, the machine is stopped, and a cycle
is counted. How much else has changed depends only on the moment at which the
fault was found.

Whatever is checked before an instruction takes effect leaves everything as it
was. A call, a return or the end of the program comes after the pointer has
moved on, and changes nothing else when it fails. Only a wrong output is found
after its value has been taken off the data stack and put out.
-/

import ByteStack.Proofs.Machine.Course

namespace ByteStack

/-! ### Moments -/

/-- The moments at which a fault can be found. -/
inductive Moment where
  /-- Before the instruction takes effect. -/
  | check
  /-- When a call or a return looks at its stack, or the end of the program is judged. -/
  | effect
  /-- When a value that has been put out is compared with the expected one. -/
  | output
  /-- Between two steps of a run. -/
  | budget
deriving DecidableEq

def FaultKind.moment : FaultKind → Moment
  | .unknownOpcode _ => .check
  | .pointerOutOfBounds _ => .check
  | .stackUnderflow => .check
  | .stackOverflow => .check
  | .callStackOverflow => .effect
  | .callStackUnderflow => .effect
  | .notEnoughOutputs _ _ => .effect
  | .stackNotEmpty _ => .effect
  | .outputMismatch _ _ _ => .output
  | .tooManyOutputs _ => .output
  | .cycleBudgetExceeded _ => .budget

namespace Machine

variable {machine : Machine} {fault : Fault}

/-- The machine, stopped by a fault in the step that it has just begun. Memory, registers, depth,
input, output, random bytes and the last dump are left alone. -/
def failedBy (machine : Machine) (fault : Fault) : Machine :=
  { machine with
    status := .stopped
    fault? := some fault
    cycles := machine.cycles + 1
    current := fault.offset }

/-! ### The ways out -/

/-- The ways in which a step fails: the kind of its fault, and the machine as it would be if
failing itself left no trace. -/
inductive Exit (machine : Machine) : FaultKind → Machine → Prop where
  | outside (outside : Layout.codeSize ≤ machine.pointer) :
      Exit machine (.pointerOutOfBounds machine.pointer) machine
  | unknown (unknown : Operation.ofCode? (machine.memory.read machine.pointer) = none) :
      Exit machine (.unknownOpcode (machine.memory.read machine.pointer)) machine
  | poor {operation : Operation} (starts : machine.Starts operation)
      (poor : machine.depth < operation.pops) : Exit machine .stackUnderflow machine
  | rich {operation : Operation} (starts : machine.Starts operation)
      (enough : operation.pops ≤ machine.depth)
      (rich : Layout.stackSize < machine.depth - operation.pops + operation.pushes) :
      Exit machine .stackOverflow machine
  | atZero {kind : FaultKind} (unfinished : machine.Unfinished kind) : Exit machine kind machine
  | atEnd {kind : FaultKind} {operation : Operation} (starts : machine.Starts operation)
      (unfinished : machine.Unfinished kind) :
      Exit machine kind (machine.setPointer (machine.pointer + operation.encodedLength))
  | refused {kind : FaultKind} {operation : Operation} (starts : machine.Starts operation)
      (refused : Refused operation kind) :
      Exit machine kind (machine.setPointer (machine.pointer + operation.encodedLength))
  | unfit {kind : FaultKind} (starts : machine.Starts .out) (some : 0 < machine.depth)
      (unfit : Unfit machine.output.size machine.top kind) :
      Exit machine kind
        { (machine.setPointer (machine.pointer + 1)).drop with
          output := machine.output.push machine.top }

theorem top_setPointer (machine : Machine) (address : Nat) :
    (machine.setPointer address).top = machine.top := by
  have below : Layout.pointerLowCell < Layout.stackStart + (machine.depth - 1) :=
    Nat.lt_of_lt_of_le (by decide) (Nat.le_add_right _ _)
  have same := read_setPointer_other machine address _
    (Nat.ne_of_gt (Nat.lt_trans (by decide) below)) (Nat.ne_of_gt below)
  unfold top
  rw [show (machine.setPointer address).depth = machine.depth from rfl, same]

/-- A fault that ending the program has, and the machine that is left. -/
theorem exists_unfinished (reported : machine.halt.2 = some fault) :
    ∃ kind, machine.Unfinished kind ∧ fault = ⟨kind, machine.current⟩ ∧
      machine.halt = machine.fail kind := by
  obtain halted | ⟨kind, unfinished, halted⟩ := machine.halt_cases
  · rw [halted] at reported
    exact nomatch reported
  · rw [halted] at reported
    exact ⟨kind, unfinished, (Option.some.inj reported).symm, halted⟩

/-- A step that fails does so in one of these ways. -/
theorem exists_exit (active : machine.status ≠ .stopped) (failed : machine.step.2 = some fault) :
    ∃ left, machine.Exit fault.kind left ∧ fault.offset = machine.pointer ∧
      machine.step.1 = left.failedBy fault := by
  have course := course_step active
  generalize machine.step = result at course failed ⊢
  cases course with
  | outside outside =>
    obtain rfl := Option.some.inj failed
    exact ⟨_, .outside outside, rfl, rfl⟩
  | unknown _ _ unknown =>
    obtain rfl := Option.some.inj failed
    exact ⟨_, .unknown unknown, rfl, rfl⟩
  | poor starts poor =>
    obtain rfl := Option.some.inj failed
    exact ⟨_, .poor starts poor, rfl, rfl⟩
  | rich starts enough rich =>
    obtain rfl := Option.some.inj failed
    exact ⟨_, .rich starts enough rich, rfl, rfl⟩
  | zero =>
    obtain ⟨kind, unfinished, rfl, halted⟩ := exists_unfinished failed
    exact ⟨_, .atZero unfinished, rfl, congrArg Prod.fst halted⟩
  | @executes operation starts enough =>
    have effect := effect_execute
      (machine.begin.setPointer (machine.pointer + operation.encodedLength)) operation
    generalize (machine.begin.setPointer _).execute operation = result at effect failed ⊢
    cases effect with
    | goesOn => exact nomatch failed
    | ends =>
      obtain ⟨kind, unfinished, rfl, halted⟩ := exists_unfinished failed
      exact ⟨_, .atEnd starts unfinished, rfl, congrArg Prod.fst halted⟩
    | refused refused =>
      obtain rfl := Option.some.inj failed
      exact ⟨_, .refused starts refused, rfl, rfl⟩
    | unfit puts unfit =>
      subst puts
      obtain rfl := Option.some.inj failed
      rw [top_setPointer] at unfit ⊢
      exact ⟨_, .unfit starts enough unfit, rfl, rfl⟩

/-! ### What is left -/

/-- What a fault that is found at some moment of a step leaves of the machine. -/
def Leftover (machine : Machine) (fault : Fault) (next : Machine) : Moment → Prop
  | .check => next = machine.failedBy fault
  | .effect => next = machine.failedBy fault ∨ ∃ operation, machine.Starts operation ∧
      next = (machine.setPointer (machine.pointer + operation.encodedLength)).failedBy fault
  | .output => ∃ value, machine.stack = next.stack ++ [value] ∧
      next = { (machine.setPointer (machine.pointer + 1)).drop with
        output := machine.output.push value }.failedBy fault
  | .budget => False

theorem stack_eq_append_of_setPointer (some : 0 < machine.depth)
    (bound : machine.depth ≤ Layout.stackSize) (address : Nat) :
    machine.stack = (machine.setPointer address).drop.stack ++ [machine.top] := by
  rw [← top_setPointer machine address,
    ← stack_eq_append (machine.setPointer address) some bound, stack_setPointer _ _ bound]

theorem Exit.leftover {left : Machine} (exit : machine.Exit fault.kind left)
    (bound : machine.depth ≤ Layout.stackSize) :
    machine.Leftover fault (left.failedBy fault) fault.kind.moment := by
  obtain ⟨kind, offset⟩ := fault
  dsimp only at exit ⊢
  have late {kind : FaultKind} (unfinished : machine.Unfinished kind) :
      kind.moment = .effect := by
    obtain ⟨_, rfl⟩ | rfl := unfinished <;> rfl
  cases exit with
  | outside => exact rfl
  | unknown => exact rfl
  | poor => exact rfl
  | rich => exact rfl
  | atZero unfinished =>
    rw [late unfinished]
    exact .inl rfl
  | atEnd starts unfinished =>
    rw [late unfinished]
    exact .inr ⟨_, starts, rfl⟩
  | refused starts refused => cases refused <;> exact .inr ⟨_, starts, rfl⟩
  | unfit starts some unfit =>
    have popped := stack_eq_append_of_setPointer some bound (machine.pointer + 1)
    cases unfit <;> exact ⟨machine.top, popped, rfl⟩

theorem Exit.cycles_eq {kind : FaultKind} {left : Machine} (exit : machine.Exit kind left) :
    left.cycles = machine.cycles := by
  cases exit <;> rfl

theorem Exit.poor_of_underflow {left : Machine} (exit : machine.Exit .stackUnderflow left) :
    ∃ operation, machine.Starts operation ∧ machine.depth < operation.pops := by
  cases exit with
  | poor starts poor => exact ⟨_, starts, poor⟩
  | atZero unfinished | atEnd _ unfinished =>
    obtain ⟨_, other⟩ | other := unfinished <;> cases other
  | refused _ refused => cases refused
  | unfit _ _ unfit => cases unfit

theorem Exit.rich_of_overflow {left : Machine} (exit : machine.Exit .stackOverflow left) :
    ∃ operation, machine.Starts operation ∧ operation.pops ≤ machine.depth ∧
      Layout.stackSize < machine.depth - operation.pops + operation.pushes := by
  cases exit with
  | rich starts enough rich => exact ⟨_, starts, enough, rich⟩
  | atZero unfinished | atEnd _ unfinished =>
    obtain ⟨_, other⟩ | other := unfinished <;> cases other
  | refused _ refused => cases refused
  | unfit _ _ unfit => cases unfit

theorem step_of_poor {operation : Operation} (starts : machine.Starts operation)
    (poor : machine.depth < operation.pops) :
    machine.step = machine.begin.fail .stackUnderflow := by
  rw [step_of_starts starts, perform, if_pos (show machine.begin.depth < _ from poor)]

theorem step_of_rich {operation : Operation} (starts : machine.Starts operation)
    (enough : operation.pops ≤ machine.depth)
    (rich : Layout.stackSize < machine.depth - operation.pops + operation.pushes) :
    machine.step = machine.begin.fail .stackOverflow := by
  rw [step_of_starts starts, perform,
    if_neg (show ¬machine.begin.depth < _ from Nat.not_lt.mpr enough),
    if_pos (show _ < machine.begin.depth - _ + _ from rich)]

/-- The data stack is found too short exactly when the operation at the pointer takes more values
than there are. -/
theorem underflow_iff (active : machine.status ≠ .stopped) :
    machine.step.2.map Fault.kind = some .stackUnderflow ↔
      ∃ operation, machine.Starts operation ∧ machine.depth < operation.pops := by
  constructor
  · intro reported
    obtain ⟨fault, failed, kind⟩ := Option.map_eq_some_iff.mp reported
    obtain ⟨left, exit, _⟩ := exists_exit active failed
    rw [kind] at exit
    exact exit.poor_of_underflow
  · rintro ⟨operation, starts, poor⟩
    rw [step_of_poor starts poor]
    rfl

/-- The data stack overflows exactly when the operation at the pointer has enough values and would
leave more than there is room for. -/
theorem overflow_iff (active : machine.status ≠ .stopped) :
    machine.step.2.map Fault.kind = some .stackOverflow ↔
      ∃ operation, machine.Starts operation ∧ operation.pops ≤ machine.depth ∧
        Layout.stackSize < machine.depth - operation.pops + operation.pushes := by
  constructor
  · intro reported
    obtain ⟨fault, failed, kind⟩ := Option.map_eq_some_iff.mp reported
    obtain ⟨left, exit, _⟩ := exists_exit active failed
    rw [kind] at exit
    exact exit.rich_of_overflow
  · rintro ⟨operation, starts, enough, rich⟩
    rw [step_of_rich starts enough rich]
    rfl

/-- What a step that fails with this fault has done. -/
structure FailsWith (machine : Machine) (fault : Fault) : Prop where
  /-- The fault that is reported is also the recorded one. -/
  recorded : machine.step.1.fault? = some fault
  offset : fault.offset = machine.pointer
  stopped : machine.step.1.status = .stopped
  cycles : machine.step.1.cycles = machine.cycles + 1
  leftover : machine.Leftover fault machine.step.1 fault.kind.moment

theorem failsWith_of_fault (active : machine.status ≠ .stopped)
    (bound : machine.depth ≤ Layout.stackSize) (failed : machine.step.2 = some fault) :
    machine.FailsWith fault := by
  obtain ⟨left, exit, offset, stepped⟩ := exists_exit active failed
  refine ⟨reports_step machine fault failed, offset, ?_, ?_, ?_⟩
  · rw [stepped]
    rfl
  · rw [stepped]
    exact congrArg (· + 1) exit.cycles_eq
  · rw [stepped]
    exact exit.leftover bound

/-- A step that fails has a limited effect, and the two faults of the data stack come exactly
when the operation at the pointer would take too many values or leave too many. -/
theorem failsWith_of_reached {image : Image} {feed : Feed} (reached : Reached image feed machine)
    (active : machine.status ≠ .stopped) :
    (∀ fault, machine.step.2 = some fault → machine.FailsWith fault) ∧
      (machine.step.2.map Fault.kind = some .stackUnderflow ↔
        ∃ operation, machine.Starts operation ∧ machine.depth < operation.pops) ∧
      (machine.step.2.map Fault.kind = some .stackOverflow ↔
        ∃ operation, machine.Starts operation ∧ operation.pops ≤ machine.depth ∧
          Layout.stackSize < machine.depth - operation.pops + operation.pushes) := by
  obtain ⟨seed, sound⟩ := reached.exists_sound
  exact ⟨fun fault => failsWith_of_fault active sound.depth_le, underflow_iff active,
    overflow_iff active⟩

/-- Every run begins at the front of the code. -/
theorem pointer_start (image : Image) (feed : Feed) (seed : UInt64) :
    (start image feed seed).pointer = 0 :=
  (shows_start image feed seed).pointer_eq

/-- A program that takes a value off the empty data stack. -/
theorem failsWith_of_reached_del :
    ∃ image : Image,
      (start image ⟨[], none, []⟩ 0).FailsWith ⟨.stackUnderflow, 0⟩ ∧
        (start image ⟨[], none, []⟩ 0).step.1 =
          (start image ⟨[], none, []⟩ 0).failedBy ⟨.stackUnderflow, 0⟩ := by
  obtain ⟨image, code⟩ := Image.exists_program [Operation.del.code] (by decide)
  have fetch : image.codeRegion[0]? = some Operation.del.code := by
    rw [code]
    rfl
  have begun := shows_start image ⟨[], none, []⟩ 0
  have starts := begun.starts Status.noConfusion fetch
  have empty : (start image ⟨[], none, []⟩ 0).depth = 0 := begun.length_stack.symm
  have whole := failsWith_of_reached (.start image ⟨[], none, []⟩ 0) Status.noConfusion
  obtain ⟨fault, failed, kind⟩ :=
    Option.map_eq_some_iff.mp (whole.2.1.mpr ⟨.del, starts, empty ▸ Nat.zero_lt_one⟩)
  obtain ⟨_, offset⟩ := fault
  obtain rfl : _ = FaultKind.stackUnderflow := kind
  have fails := whole.1 _ failed
  obtain rfl : offset = 0 := fails.offset.trans (pointer_start _ _ _)
  exact ⟨image, fails, fails.leftover⟩

end Machine

end ByteStack
