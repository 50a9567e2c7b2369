/-
This file shows that nothing outside the code region of an image can be
observed. A machine is driven by calls, and after each call everything about it
can be looked at but the memory outside its control cells: how it stands, its
registers, its stack, what it has read and put out, what went wrong. Two images
with the same code region give the same answers to every sequence of calls,
whatever else they hold.

The same goes for what a run leaves behind. Bytes of the stacks that are no
longer or not yet in use may be changed at any moment, and no later answer shows
it.
-/

import ByteStack.Proofs.Machine.Reached
import ByteStack.Proofs.Machine.Twins

namespace ByteStack

/-! ### Answers -/

/-- What can be seen of a machine. -/
structure Appearance where
  status : Status
  pointer : Nat
  cycles : Nat
  registers : Vector Int8 registerCount
  stack : List Int8
  output : List Int8
  input : List Int8
  fault? : Option Fault
  lastDump? : Option Dump
  controlCells : List UInt8
deriving DecidableEq

def Machine.appearance (machine : Machine) : Appearance where
  status := machine.status
  pointer := machine.pointer
  cycles := machine.cycles
  registers := machine.registers
  stack := machine.stack
  output := machine.output.toList
  input := machine.input
  fault? := machine.fault?
  lastDump? := machine.lastDump?
  controlCells := machine.memory.slice Layout.codeSize Layout.callStackStart

/-- What is seen after each of some calls, and the fault that it reported. Each call comes with
its fuel. After a run that did not end nothing more is seen. -/
def Call.answers : List (Call × Nat) → Machine → List (Appearance × Option Fault)
  | [], _ => []
  | (call, fuel) :: rest, machine =>
    match call.make fuel machine with
    | none => []
    | some (next, fault?) => (next.appearance, fault?) :: answers rest next

namespace Machine

/-! ### Twins under calls -/

/-- Two runs, given the same fuel: neither ends, or both do as twins. -/
inductive TwinRuns : Option (Machine × Option Fault) → Option (Machine × Option Fault) → Prop where
  | endless : TwinRuns none none
  | ended {first second : Machine × Option Fault} (results : TwinResults first second) :
      TwinRuns (some first) (some second)

/-- A run goes on behind a step that reports nothing, and ends with one that reports a fault. -/
theorem TwinRuns.follow {first second : Machine × Option Fault}
    {ahead : Machine → Option (Machine × Option Fault)}
    (same : ∀ {next other}, Twins next other → TwinRuns (ahead next) (ahead other)) :
    TwinResults first second → TwinRuns
      (match first with
      | (next, none) => ahead next
      | (next, some fault) => some (next, some fault))
      (match second with
      | (next, none) => ahead next
      | (next, some fault) => some (next, some fault)) := by
  intro results
  obtain ⟨next, fault?⟩ := first
  obtain ⟨other, other?⟩ := second
  obtain ⟨twins, same?⟩ := results
  obtain rfl : other? = fault? := same?
  cases other? with
  | none => exact same twins
  | some fault => exact .ended ⟨twins, rfl⟩

variable {first second : Machine}

namespace Twins

theorem appearance_eq (twins : Twins first second) : second.appearance = first.appearance := by
  have cells : second.memory.slice Layout.codeSize Layout.callStackStart =
      first.memory.slice Layout.codeSize Layout.callStackStart :=
    Memory.slice_congr fun _ _ high => twins.read_eq (inUse_of_lt high)
  unfold appearance
  rw [twins.pointer_eq, twins.stack_eq, cells]
  cases twins
  rfl

theorem fault?_eq (twins : Twins first second) : second.fault? = first.fault? := by
  cases twins
  rfl

theorem pause (twins : Twins first second) : Twins first.pause second.pause := by
  unfold Machine.pause
  rw [twins.status_eq]
  split
  · exact twins.of_same rfl rfl (by cases twins; rfl)
  · exact twins

theorem resume (twins : Twins first second) : Twins first.resume second.resume := by
  unfold Machine.resume
  rw [twins.status_eq, twins.fault?_eq]
  split
  · exact twins.of_same rfl rfl (by cases twins; rfl)
  · exact twins

theorem spend (twins : Twins first second) (limit : Nat) :
    TwinResults (first.spend limit) (second.spend limit) := by
  have noted : Twins { first with current := first.pointer }
      { second with current := second.pointer } := by
    rw [twins.pointer_eq]
    exact twins.of_same rfl rfl (by cases twins; rfl)
  exact noted.fail _

theorem run (twins : Twins first second) (fuel : Nat) :
    TwinRuns (first.run fuel) (second.run fuel) := by
  induction fuel generalizing first second with
  | zero => exact .endless
  | succ fuel inductionHypothesis =>
    rw [Machine.run, Machine.run, twins.status_eq, twins.fault?_eq]
    split
    · exact .follow inductionHypothesis twins.step
    · exact .ended ⟨twins, rfl⟩

theorem runThrough (twins : Twins first second) (budget? : Option Nat) (fuel : Nat) :
    TwinRuns (first.runThrough budget? fuel) (second.runThrough budget? fuel) := by
  induction fuel generalizing first second with
  | zero => exact .endless
  | succ fuel inductionHypothesis =>
    have spent : second.spentLimit? budget? = first.spentLimit? budget? := by
      cases twins
      rfl
    rw [Machine.runThrough, Machine.runThrough, twins.status_eq, twins.fault?_eq, spent]
    split
    · exact .ended ⟨twins, rfl⟩
    · exact inductionHypothesis twins.resume
    · split
      · next limit _ => exact .ended (twins.spend limit)
      · exact .follow inductionHypothesis twins.step

theorem make (twins : Twins first second) (call : Call) (fuel : Nat) :
    TwinRuns (call.make fuel first) (call.make fuel second) := by
  cases call with
  | step => exact .ended twins.step
  | run => exact twins.run fuel
  | runThrough budget? => exact twins.runThrough budget? fuel
  | pause => exact .ended twins.pause.quiet
  | resume => exact .ended twins.resume.quiet

theorem answers_eq (twins : Twins first second) (calls : List (Call × Nat)) :
    Call.answers calls second = Call.answers calls first := by
  induction calls generalizing first second with
  | nil => rfl
  | cons given rest inductionHypothesis =>
    obtain ⟨call, fuel⟩ := given
    have runs := twins.make call fuel
    rw [Call.answers, Call.answers]
    generalize call.make fuel first = answer, call.make fuel second = other at runs
    cases runs with
    | endless => rfl
    | @ended answer other results =>
      obtain ⟨next, fault?⟩ := answer
      obtain ⟨further, other?⟩ := other
      obtain ⟨after, rfl⟩ := results
      have after : Twins next further := after
      dsimp only
      rw [after.appearance_eq, inductionHypothesis after]

theorem pushAll (twins : Twins first second) (values : List Int8) :
    Twins (first.pushAll values) (second.pushAll values) := by
  induction values generalizing first second with
  | nil => exact twins
  | cons value rest inductionHypothesis => exact inductionHypothesis (twins.push value)

/-- Setting the control cells makes both stacks empty, so that only the code is left in use. -/
theorem installed {image other : Image} (same : image.codeRegion = other.codeRegion) (feed : Feed)
    (seed : UInt64) :
    Twins ((((installed image feed seed).setPointer 0).setCallPointer 0).setDepth 0)
      ((((installed other feed seed).setPointer 0).setCallPointer 0).setDepth 0) := by
  have code (address : Nat) (inside : address < Layout.codeSize) :
      other.memory.read address = image.memory.read address := by
    have cells := congrArg (fun bytes : List UInt8 => bytes[address]?) same
    dsimp only [Image.codeRegion] at cells
    rw [Memory.getElem?_slice _ _ _ _ (by omega) (by decide),
      Memory.getElem?_slice _ _ _ _ (by omega) (by decide), Nat.zero_add] at cells
    exact (Option.some.inj cells).symm
  refine .intro ((((Machine.installed image feed seed).setPointer 0).setCallPointer 0).setDepth 0) _
    fun address used => ?_
  rw [InUse, callPointer_setDepth, callPointer_setCallPointer _ _ (by decide)] at used
  have cell : address = Layout.depthCell ∨ address = Layout.callPointerCell ∨
      address = Layout.pointerLowCell ∨ address = Layout.pointerHighCell ∨
      address < Layout.codeSize := by
    have empty : ((((Machine.installed image feed seed).setPointer 0).setCallPointer 0).setDepth
        0).depth = 0 := rfl
    simp only [empty, Layout.callStackStart_eq, Layout.stackStart_eq, Layout.depthCell_eq,
      Layout.callPointerCell_eq, Layout.pointerLowCell_eq, Layout.pointerHighCell_eq,
      Layout.codeSize_eq] at *
    omega
  exact Memory.read_write_congr _ address _ (cell.imp_right fun cell =>
    Memory.read_write_congr _ address _ (cell.imp_right fun cell =>
      Memory.read_write_congr _ address _ (cell.imp_right fun cell =>
        Memory.read_write_congr _ address _ (cell.imp_right (code address)))))

theorem start {image other : Image} (same : image.codeRegion = other.codeRegion) (feed : Feed)
    (seed : UInt64) : Twins (start image feed seed) (start other feed seed) :=
  (installed same feed seed).pushAll _

end Twins

/-- The bytes behind what is in use of either stack. -/
def Spare (machine : Machine) (address : Nat) : Prop :=
  Layout.callStackStart + machine.callPointer ≤ address ∧ address < Layout.stackStart ∨
    Layout.stackStart + machine.depth ≤ address

/-- Bytes that are not in use can be changed. -/
theorem Twins.of_spare {machine : Machine} (bound : machine.callPointer ≤ Layout.callStackSize)
    {memory : Memory}
    (same : ∀ address, ¬machine.Spare address →
      memory.read address = machine.memory.read address) :
    Twins machine { machine with memory := memory } := by
  refine .intro machine memory fun address used => same address ?_
  simp only [InUse, Spare, Layout.callStackStart_eq, Layout.callStackSize_eq,
    Layout.stackStart_eq] at *
  omega

end Machine

/-- Execution depends only on the code region. Two images that agree there, fed alike, give the
same answers to every sequence of calls, whatever the images say of the length of their program
and hold behind the code region. And at any moment of any run, the bytes behind the two stacks can
be changed without a trace: the machine looks the same, and so does everything that comes
later. -/
theorem answers_eq_of_codeRegion_eq (first second : Image)
    (agree : first.codeRegion = second.codeRegion) (feed : Feed) :
    (∀ seed calls, Call.answers calls (Machine.start first feed seed) =
      Call.answers calls (Machine.start second feed seed)) ∧
    ∀ machine, Reached first feed machine → ∀ memory : Memory,
      (∀ address, ¬machine.Spare address →
        memory.read address = machine.memory.read address) →
      { machine with memory := memory }.appearance = machine.appearance ∧
        ∀ calls, Call.answers calls { machine with memory := memory } =
          Call.answers calls machine := by
  refine ⟨fun seed calls => ?_, fun machine reached memory same => ?_⟩
  · exact ((Machine.Twins.start agree feed seed).answers_eq calls).symm
  · obtain ⟨seed, sound⟩ := reached.exists_sound
    have twins := Machine.Twins.of_spare sound.callPointer_le same
    exact ⟨twins.appearance_eq, twins.answers_eq⟩

/-- An image with a byte in the area of the data stack ends like the empty one; and with one value
on the stack, the byte above it may be changed. -/
theorem answers_eq_of_littered :
    Call.answers [(.run, 2)] (Machine.start Image.empty ⟨[], none, [5]⟩ 0) =
        Call.answers [(.run, 2)]
          (Machine.start ⟨Memory.zero.write 8000 7, 3, by decide⟩ ⟨[], none, [5]⟩ 0) ∧
      Call.answers [(.run, 2)]
          { Machine.start Image.empty ⟨[], none, [5]⟩ 0 with
            memory := (Machine.start Image.empty ⟨[], none, [5]⟩ 0).memory.write 7937 9 } =
        Call.answers [(.run, 2)] (Machine.start Image.empty ⟨[], none, [5]⟩ 0) := by
  have agree : Image.empty.codeRegion =
      (⟨Memory.zero.write 8000 7, 3, by decide⟩ : Image).codeRegion :=
    (Memory.slice_write_outside _ _ _ _ _ (Or.inr (by decide))).symm
  have same := answers_eq_of_codeRegion_eq _ _ agree ⟨[], none, [5]⟩
  refine ⟨same.1 0 _, (same.2 _ (.start _ _ 0) _ fun address kept => ?_).2 _⟩
  refine Memory.read_write_other _ _ _ _ fun here => kept (Or.inr ?_)
  rw [← here]
  exact Nat.le_refl (Layout.stackStart + 1)

end ByteStack
