/-
This file shows that loading a machine leaves nothing of what was done with it
before. The seed of its random bytes is the one thing that loading takes over, and
neither driving a machine nor loading it changes that. So a machine that has been
used in any way is, once it is loaded, the machine that was just made with its
seed, and answers like that one ever after.

What a machine looks like then is said in full: each cell of memory, whatever bytes
the image holds where the control cells are, and each of the other fields.
-/

import ByteStack.Proofs.Machine.Extent

namespace ByteStack

/-! ### Using a machine -/

/-- What can be asked of a machine, loading included. A call comes with its fuel. -/
inductive Request where
  | call (call : Call) (fuel : Nat)
  | load (image : Image) (feed : Feed)

/-- What a request makes of a machine, and the fault that it reports. -/
def Request.make (machine : Machine) : Request → Option (Machine × Option Fault)
  | .call asked fuel => asked.make fuel machine
  | .load image feed => some (machine.load image feed, none)

/-- The machine after each of some requests, with the fault that was reported. Nothing comes after
a run that did not end. -/
def Request.answers : List Request → Machine → List (Machine × Option Fault)
  | [], _ => []
  | request :: rest, machine =>
    match request.make machine with
    | none => []
    | some (next, fault?) => (next, fault?) :: answers rest next

/-- Machines that were made with this seed and then used in any way. -/
inductive Used (seed : UInt64) : Machine → Prop where
  | start (image : Image) (feed : Feed) : Used seed (Machine.start image feed seed)
  | request {machine next : Machine} {fault? : Option Fault} (request : Request)
      (before : Used seed machine) (made : request.make machine = some (next, fault?)) :
      Used seed next

namespace Machine

variable {machine : Machine} {seed : UInt64}

/-! ### The seed -/

@[simp] theorem seed_push (machine : Machine) (value : Int8) :
    (machine.push value).seed = machine.seed := rfl

@[simp] theorem seed_drop (machine : Machine) : machine.drop.seed = machine.seed := rfl

theorem seed_jump (machine : Machine) : machine.jump.seed = machine.seed := rfl

theorem seed_halt (machine : Machine) : machine.halt.1.seed = machine.seed := by
  obtain halted | ⟨kind, _, halted⟩ := machine.halt_cases
  · rw [halted]
  · rw [halted]
    rfl

theorem seed_jumpIf (machine : Machine) (test : Int8 → Bool) :
    (machine.jumpIf test).seed = machine.seed := by
  unfold jumpIf
  split <;> rfl

theorem seed_execute (machine : Machine) (operation : Operation) :
    (machine.execute operation).1.seed = machine.seed := by
  cases operation with
  | inp =>
    rw [execute]
    split
    · exact seed_halt machine
    · rfl
  | out =>
    rw [execute, emit]
    split <;> rfl
  | jez | jnz | jlz | jgz => exact seed_jumpIf machine _
  | jsr =>
    rw [execute, call]
    dsimp only
    split
    · rfl
    · exact seed_jump _
  | ret =>
    rw [execute, giveBack]
    dsimp only
    split <;> rfl
  | hlt => exact seed_halt machine
  | dup | swp | rot | add | sub => simp only [execute, mapTopTwo, seed_push, seed_drop]
  | _ => rfl

theorem seed_step (machine : Machine) : machine.step.1.seed = machine.seed := by
  by_cases stopped : machine.status = .stopped
  · rw [step_of_stopped stopped]
  have course := course_step stopped
  generalize machine.step = result at course
  cases course with
  | outside | unknown | poor | rich => rfl
  | zero => exact seed_halt machine.begin
  | executes starts => exact seed_execute _ _

/-- Nothing that is done to a machine changes its seed. -/
theorem kept_seed (seed : UInt64) : Kept fun machine => machine.seed = seed where
  step machine same := machine.seed_step.trans same
  pause machine same := by
    unfold pause
    split <;> exact same
  resume machine same := by
    unfold resume
    split <;> exact same
  spend _ _ same := same

/-! ### A machine that was just loaded -/

/-- What a machine looks like that was just loaded, down to each cell of its memory. -/
structure Fresh (image : Image) (feed : Feed) (seed : UInt64) (machine : Machine) : Prop where
  pointer : machine.pointer = 0
  callPointer : machine.callPointer = 0
  depth : machine.depth = min Layout.stackSize feed.stack.length
  depthCell : machine.memory.read Layout.depthCell = UInt8.ofNat machine.depth
  stack : machine.stack = feed.stack.take Layout.stackSize
  /-- All cells but the control cells and those of the values on the stack hold the bytes of the
  image. -/
  memory : ∀ cell, cell < Layout.codeSize ∨ Layout.depthCell < cell ∧ cell < Layout.stackStart ∨
    Layout.stackStart + machine.depth ≤ cell → machine.memory.read cell = image.memory.read cell
  registers : machine.registers = Vector.replicate registerCount 0
  input : machine.input = feed.input
  output : machine.output = Outbox.empty
  expected : machine.expected?.map Array.toList = feed.expected?
  status : machine.status = .running
  fault : machine.fault? = none
  cycles : machine.cycles = 0
  current : machine.current = 0
  lastDump : machine.lastDump? = none
  seed : machine.seed = seed
  drawn : machine.drawn = 0

theorem Shows.stack_eq {scenario : Scenario} {state : ListMachine}
    (shows : Shows scenario machine state) : machine.stack = state.stack.reverse := by
  rw [← shows.view_eq, view]
  dsimp only
  rw [List.reverse_reverse]

/-- A start is a machine with an empty stack on which the initial values are put. -/
theorem exists_start_eq (image : Image) (feed : Feed) (seed : UInt64) :
    ∃ memory depth, start image feed seed =
      { installed image feed seed with memory := memory, depth := depth } := by
  obtain ⟨memory, depth, same⟩ := exchange_eq
    ((((installed image feed seed).setPointer 0).setCallPointer 0).setDepth 0) 0
    (feed.stack.take Layout.stackSize)
  exact ⟨memory, depth, same⟩

theorem depth_start (image : Image) (feed : Feed) (seed : UInt64) :
    (start image feed seed).depth = min Layout.stackSize feed.stack.length := by
  have pushed := depth_pushAll
    ((((installed image feed seed).setPointer 0).setCallPointer 0).setDepth 0)
    (feed.stack.take Layout.stackSize)
  rw [List.length_take] at pushed
  exact pushed.trans (Nat.zero_add _)

/-- The initial values and the control cells are all that is written. -/
theorem read_start (image : Image) (feed : Feed) (seed : UInt64) {cell : Nat}
    (apart : cell < Layout.codeSize ∨ Layout.depthCell < cell ∧ cell < Layout.stackStart ∨
      Layout.stackStart + (start image feed seed).depth ≤ cell) :
    (start image feed seed).memory.read cell = image.memory.read cell := by
  have bounds : cell ≠ Layout.depthCell ∧ cell ≠ Layout.callPointerCell ∧
      cell ≠ Layout.pointerHighCell ∧ cell ≠ Layout.pointerLowCell ∧
      (cell < Layout.stackStart ∨
        Layout.stackStart + (feed.stack.take Layout.stackSize).length ≤ cell) := by
    rw [depth_start, ← List.length_take] at apart
    simp only [Layout.codeSize_eq, Layout.depthCell_eq, Layout.stackStart_eq,
      Layout.callPointerCell_eq, Layout.pointerHighCell_eq, Layout.pointerLowCell_eq] at *
    omega
  obtain ⟨notDepth, notCalls, notHigh, notLow, outside⟩ := bounds
  have pushed := read_pushAll
    ((((installed image feed seed).setPointer 0).setCallPointer 0).setDepth 0)
    (feed.stack.take Layout.stackSize) notDepth (by
      rw [show ((((installed image feed seed).setPointer 0).setCallPointer 0).setDepth 0).depth = 0
        from rfl, Nat.zero_add]
      exact outside)
  rw [read_setDepth_other _ _ _ notDepth, read_setCallPointer_other _ _ _ notCalls,
    read_setPointer_other _ _ _ notHigh notLow] at pushed
  exact pushed

theorem fresh_start (image : Image) (feed : Feed) (seed : UInt64) :
    Fresh image feed seed (start image feed seed) := by
  have shows := shows_start image feed seed
  have used : (start image feed seed).callPointer = 0 := by
    rw [← shows.sound.length_calls]
    exact congrArg (fun state => 2 * state.calls.length) shows.view_eq
  obtain ⟨memory, depth, same⟩ := exists_start_eq image feed seed
  refine {
    pointer := shows.pointer_eq
    callPointer := used
    depth := depth_start image feed seed
    depthCell := shows.sound.depthCell
    stack := shows.stack_eq.trans (List.reverse_reverse _)
    memory := fun cell => read_start image feed seed
    registers := ?_
    input := ?_
    output := ?_
    expected := shows.sound.expected
    status := ?_
    fault := ?_
    cycles := ?_
    current := ?_
    lastDump := ?_
    seed := ?_
    drawn := ?_ }
  all_goals
    rw [same]
    rfl

end Machine

/-! ### Loading again -/

variable {seed : UInt64} {machine : Machine}

theorem Used.step (used : Used seed machine) : Used seed machine.step.1 :=
  @request seed machine machine.step.1 machine.step.2 (.call .step 0) used rfl

theorem Used.seed_eq (used : Used seed machine) : machine.seed = seed := by
  induction used with
  | start image feed => exact (Machine.fresh_start image feed seed).seed
  | request request before made inductionHypothesis =>
    cases request with
    | call asked fuel =>
      have session := Session.call asked fuel .start made
      exact ((Machine.kept_seed seed).session session inductionHypothesis).1
    | load image feed =>
      obtain ⟨rfl, _⟩ := Prod.mk.inj (Option.some.inj made)
      rw [Machine.load_eq_start]
      exact (Machine.fresh_start image feed _).seed.trans inductionHypothesis

/-- Loading erases all that was done before. Whatever was asked of a machine, loading it makes it
the machine that is made with its seed, the image and the feed; nothing but these can be found in
it; and whatever is asked of it later, it answers as that one. -/
theorem load_erases_history (used : Used seed machine) (image : Image) (feed : Feed) :
    machine.load image feed = Machine.start image feed seed ∧
      (machine.load image feed).Fresh image feed seed ∧
      ∀ requests, Request.answers requests (machine.load image feed) =
        Request.answers requests (Machine.start image feed seed) := by
  have same : machine.load image feed = Machine.start image feed seed := by
    rw [Machine.load_eq_start, used.seed_eq]
  rw [same]
  exact ⟨rfl, Machine.fresh_start image feed seed, fun _ => rfl⟩

/-- A machine that has drawn a random byte and put it on the stack. -/
theorem load_erases_history_random :
    ∃ machine, Used 7 machine ∧ machine.drawn = 1 ∧ machine.depth = 1 ∧
      machine.load Image.empty ⟨[], none, [5]⟩ = Machine.start Image.empty ⟨[], none, [5]⟩ 7 ∧
      (machine.load Image.empty ⟨[], none, [5]⟩).drawn = 0 ∧
      (machine.load Image.empty ⟨[], none, [5]⟩).stack = [5] := by
  obtain ⟨image, code⟩ := Image.exists_program [Operation.rng.code] (by decide)
  have fetch : image.codeRegion[0]? = some Operation.rng.code := by
    rw [code]
    rfl
  have fresh := Machine.fresh_start image ⟨[], none, []⟩ 7
  have empty : (Machine.start image ⟨[], none, []⟩ 7).depth = 0 := fresh.depth
  have starts := (Machine.shows_start image ⟨[], none, []⟩ 7).starts Status.noConfusion fetch
  have stepped := Machine.step_of_room starts (Nat.zero_le _) (by rw [empty]; decide)
  have used := (@Used.start 7 image ⟨[], none, []⟩).step
  obtain ⟨same, loaded, _⟩ := load_erases_history used Image.empty ⟨[], none, [5]⟩
  refine ⟨_, used, ?_, ?_, same, loaded.drawn, loaded.stack⟩
  · rw [stepped]
    exact congrArg (· + 1) fresh.drawn
  · rw [stepped]
    exact congrArg (· + 1) empty

end ByteStack
