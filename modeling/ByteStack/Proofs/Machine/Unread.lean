/-
This file shows that input which a program does not ask for makes no difference.
Two operations look at the input: reading takes its first value, and a dump shows
it. So a machine with further values behind its input does what it would have done
without them and carries them along, until nothing is left of the shorter input and
it is read all the same.

Reading comes after the check that the data stack has room. At a full stack the
step fails whether there is input or not, so the runs do not part there.
-/

import ByteStack.Proofs.Machine.Extent
import ByteStack.Proofs.Machine.Lifecycle

namespace ByteStack

/-- The dump, with further values behind the input that it shows. -/
def Dump.supplied (dump : Dump) (more : List Int8) : Dump :=
  { dump with input := dump.input ++ more }

namespace Machine

/-- The machine, with further values behind its input and behind the input that its last dump
shows. -/
def supplied (machine : Machine) (more : List Int8) : Machine :=
  { machine with
    input := machine.input ++ more
    lastDump? := machine.lastDump?.map fun dump => dump.supplied more }

/-- The next step reads an input of which nothing is left. -/
def ReadsEmpty (machine : Machine) : Prop :=
  machine.Starts .inp ∧ machine.depth < Layout.stackSize ∧ machine.input = []

/-- None of the first `count` steps reads an empty input. -/
def Fed (machine : Machine) (count : Nat) : Prop :=
  ∀ earlier < count, ¬(machine.steps earlier).ReadsEmpty

variable {machine : Machine} {count : Nat}

/-! ### What more input does not change -/

section

variable (machine : Machine) (more : List Int8)

@[simp] theorem top_supplied : (machine.supplied more).top = machine.top := rfl

@[simp] theorem pointer_supplied : (machine.supplied more).pointer = machine.pointer := rfl

@[simp] theorem callPointer_supplied :
    (machine.supplied more).callPointer = machine.callPointer := rfl

@[simp] theorem begin_supplied : (machine.supplied more).begin = machine.begin.supplied more := rfl

@[simp] theorem drop_supplied : (machine.supplied more).drop = machine.drop.supplied more := rfl

@[simp] theorem push_supplied (value : Int8) :
    (machine.supplied more).push value = (machine.push value).supplied more := rfl

@[simp] theorem setPointer_supplied (address : Nat) :
    (machine.supplied more).setPointer address = (machine.setPointer address).supplied more := rfl

@[simp] theorem jump_supplied : (machine.supplied more).jump = machine.jump.supplied more := rfl

@[simp] theorem jumpIf_supplied (test : Int8 → Bool) :
    (machine.supplied more).jumpIf test = (machine.jumpIf test).supplied more := by
  unfold jumpIf
  rw [top_supplied, drop_supplied, jump_supplied]
  split <;> rfl

theorem stack_supplied : (machine.supplied more).stack = machine.stack := rfl

theorem dump_supplied : (machine.supplied more).dump = machine.dump.supplied more := by
  simp only [dump, Dump.supplied, stack_supplied]
  rfl

theorem halt_supplied :
    (machine.supplied more).halt = (machine.halt.1.supplied more, machine.halt.2) := by
  unfold halt
  rw [show (machine.supplied more).expected? = machine.expected? from rfl,
    show (machine.supplied more).output = machine.output from rfl,
    show (machine.supplied more).depth = machine.depth from rfl]
  dsimp only
  split
  · rfl
  · split <;> rfl

theorem emit_supplied (value : Int8) :
    (machine.supplied more).emit value =
      ((machine.emit value).1.supplied more, (machine.emit value).2) := by
  unfold emit
  rw [show (machine.supplied more).expected? = machine.expected? from rfl,
    show (machine.supplied more).output = machine.output from rfl]
  dsimp only
  split <;> rfl

theorem call_supplied :
    (machine.supplied more).call = (machine.call.1.supplied more, machine.call.2) := by
  unfold call
  rw [callPointer_supplied, pointer_supplied]
  dsimp only
  split
  · rfl
  · have stored := jump_supplied
      ((machine.storeReturn machine.callPointer machine.pointer).setCallPointer
        (machine.callPointer + 2)) more
    exact congrArg (·, none) stored

theorem giveBack_supplied :
    (machine.supplied more).giveBack = (machine.giveBack.1.supplied more, machine.giveBack.2) := by
  unfold giveBack
  rw [callPointer_supplied, show (machine.supplied more).memory = machine.memory from rfl]
  dsimp only
  split <;> rfl

end

/-! ### One step -/

/-- Unless an operation reads an empty input, more input behind it does not matter. -/
theorem execute_supplied (more : List Int8) (operation : Operation)
    (fed : operation = .inp → machine.input ≠ []) :
    (machine.supplied more).execute operation =
      ((machine.execute operation).1.supplied more, (machine.execute operation).2) := by
  cases operation with
  | inp =>
    obtain ⟨value, rest, given⟩ := List.exists_cons_of_ne_nil (fed rfl)
    simp only [execute, show (machine.supplied more).input = machine.input ++ more from rfl, given,
      List.cons_append]
    rfl
  | out => exact emit_supplied machine.drop more machine.top
  | dup | swp | rot => simp only [execute, top_supplied, drop_supplied, push_supplied]
  | add | sub => simp only [execute, mapTopTwo, top_supplied, drop_supplied, push_supplied]
  | jez | jnz | jlz | jgz => simp only [execute, jumpIf_supplied]
  | jsr => exact machine.call_supplied more
  | ret => exact machine.giveBack_supplied more
  | hlt => exact machine.halt_supplied more
  | dmp =>
    rw [execute, execute, dump_supplied]
    rfl
  | _ => rfl

theorem perform_supplied (more : List Int8) (pointer : Nat) (operation : Operation)
    (fed : operation = .inp → machine.depth < Layout.stackSize → machine.input ≠ []) :
    (machine.supplied more).perform pointer operation =
      ((machine.perform pointer operation).1.supplied more,
        (machine.perform pointer operation).2) := by
  unfold perform
  rw [show (machine.supplied more).depth = machine.depth from rfl, setPointer_supplied]
  split
  · rfl
  · split
    · rfl
    · next room =>
      refine execute_supplied more operation fun reads => fed reads ?_
      subst reads
      exact Nat.lt_of_not_le fun full => room (Nat.lt_succ_of_le full)

/-- Unless a step reads an empty input, more input behind it does not matter. -/
theorem step_supplied (more : List Int8) (fed : ¬machine.ReadsEmpty) :
    (machine.supplied more).step = (machine.step.1.supplied more, machine.step.2) := by
  by_cases busy : ∃ operation, machine.Starts operation
  · obtain ⟨operation, starts⟩ := busy
    have also : (machine.supplied more).Starts operation := starts
    rw [step_of_starts starts, step_of_starts also, begin_supplied, pointer_supplied]
    refine perform_supplied more machine.pointer operation fun reads room empty => ?_
    subst reads
    exact fed ⟨starts, room, empty⟩
  unfold step
  rw [begin_supplied, pointer_supplied,
    show (machine.supplied more).status = machine.status from rfl]
  by_cases stopped : machine.status = .stopped
  · rw [if_pos stopped, if_pos stopped]
  rw [if_neg stopped, if_neg stopped]
  dsimp only
  by_cases outside : Layout.codeSize ≤ machine.pointer
  · rw [if_pos outside, if_pos outside]
    rfl
  rw [if_neg outside, if_neg outside,
    show (machine.begin.supplied more).memory = machine.begin.memory from rfl]
  split
  · exact halt_supplied machine.begin more
  · split
    · rfl
    · next operation found =>
      exact absurd ⟨operation, stopped, Nat.lt_of_not_le outside, found⟩ busy

/-- While no step reads an empty input, more input behind it does not matter. -/
theorem steps_supplied (more : List Int8) (fed : machine.Fed count) :
    (machine.supplied more).steps count = (machine.steps count).supplied more := by
  induction count with
  | zero => rfl
  | succ count inductionHypothesis =>
    rw [steps_succ, steps_succ,
      inductionHypothesis fun earlier less => fed earlier (Nat.lt_succ_of_lt less),
      step_supplied more (fed count (Nat.lt_succ_self count))]

/-! ### Runs -/

theorem resume_supplied (machine : Machine) (more : List Int8) :
    (machine.supplied more).resume = machine.resume.supplied more := by
  unfold resume
  rw [show (machine.supplied more).status = machine.status from rfl,
    show (machine.supplied more).fault? = machine.fault? from rfl]
  split <;> rfl

theorem resume_resume (machine : Machine) : machine.resume.resume = machine.resume := by
  by_cases waiting : machine.status = .paused ∧ machine.fault? = none
  · have running : machine.resume = { machine with status := .running } := if_pos waiting
    rw [running]
    exact if_neg fun again => nomatch again.1
  · have same : machine.resume = machine := if_neg waiting
    rw [same, same]

theorem readsEmpty_resume : machine.resume.ReadsEmpty ↔ machine.ReadsEmpty := by
  unfold resume
  split
  · next waiting =>
    have active : machine.status ≠ .stopped := by
      rw [waiting.1]
      exact Status.noConfusion
    unfold ReadsEmpty Starts
    exact and_congr_left' (and_congr_left' (iff_of_true Status.noConfusion active))
  · exact Iff.rfl

/-- With no budget left, a run through all pauses ends. -/
theorem runThrough_spent {budget? : Option Nat} {limit fuel : Nat}
    (running : machine.status = .running) (spent : machine.spentLimit? budget? = some limit) :
    machine.runThrough budget? (fuel + 1) = some (machine.spend limit) := by
  rw [runThrough, running]
  dsimp only
  rw [spent]
  rfl

/-- With budget left, a run through all pauses goes on with a step. -/
theorem runThrough_unspent {budget? : Option Nat} {fuel : Nat} (running : machine.status = .running)
    (unspent : machine.spentLimit? budget? = none) :
    machine.runThrough budget? (fuel + 1) =
      machine.step.2.elim (machine.step.1.runThrough budget? fuel)
        fun fault => some (machine.step.1, some fault) := by
  rw [runThrough, running]
  dsimp only
  rw [unspent]
  cases machine.step with
  | mk next report? => cases report? <;> rfl

end Machine

variable {image : Image} {feed : Feed} {machine last : Machine} {budget? : Option Nat}
  {fault? : Option Fault} {count : Nat}

open Machine

namespace Reached

/-- Machines that become the same when they are resumed also do so after a step. -/
theorem resume_step {other : Machine} (reached : Reached image feed machine)
    (also : Reached image feed other) (same : machine.resume = other.resume) :
    machine.step.1.resume = other.step.1.resume := by
  have stops {machine : Machine} (reached : Reached image feed machine) :
      machine.resume.status = .stopped ↔ machine.status = .stopped := by
    by_cases stopped : machine.status = .stopped
    · rw [resume_of_not_paused (stopped ▸ Status.noConfusion)]
    · rw [status_resume stopped (reached.clean stopped)]
      exact iff_of_false Status.noConfusion stopped
  by_cases stopped : machine.status = .stopped
  · have ended : other.status = .stopped := by
      rw [← stops also, ← same, stops reached]
      exact stopped
    rw [step_of_stopped stopped, step_of_stopped ended]
    exact same
  · have active : other.status ≠ .stopped := by
      rw [Ne, ← stops also, ← same, stops reached]
      exact stopped
    have clean := reached.clean stopped
    have alsoClean := also.clean active
    rw [resume_eq_awake stopped clean, resume_eq_awake active alsoClean] at same
    rw [(alike_step stopped clean).resumed, (alike_step active alsoClean).resumed, same]

/-- Steps of a machine that was resumed and of one that was not come out the same when they are
resumed. -/
theorem resume_steps (reached : Reached image feed machine) (count : Nat) :
    (machine.resume.steps count).resume = (machine.steps count).resume := by
  induction count with
  | zero => exact machine.resume_resume
  | succ count inductionHypothesis =>
    rw [steps_succ, steps_succ]
    exact (reached.resume.steps count).resume_step (reached.steps count) inductionHypothesis

theorem fed_resume (reached : Reached image feed machine) :
    machine.resume.Fed count ↔ machine.Fed count := by
  refine forall₂_congr fun earlier _ => not_congr ?_
  rw [← readsEmpty_resume, reached.resume_steps, readsEmpty_resume]

theorem cycles_le_runThrough (reached : Reached image feed machine) {fuel : Nat}
    (ended : machine.runThrough budget? fuel = some (last, fault?)) :
    machine.cycles ≤ last.cycles := by
  obtain ⟨seed, sound⟩ := reached.exists_sound
  obtain ⟨moves, takes⟩ := Call.takes_of_runThrough ended
  rw [takes.after_eq, sound.cycles_after]
  exact Nat.le_add_right _ _

/-- A run through all pauses that goes on with a step ends with it or behind it. -/
theorem cycles_step_le (reached : Reached image feed machine) {fuel : Nat}
    (ended : (machine.step.2.elim (machine.step.1.runThrough budget? fuel)
      fun fault => some (machine.step.1, some fault)) = some (last, fault?)) :
    machine.step.1.cycles ≤ last.cycles := by
  cases reported : machine.step.2 with
  | none =>
    rw [reported] at ended
    exact reached.step.cycles_le_runThrough ended
  | some fault =>
    rw [reported] at ended
    obtain ⟨rfl, _⟩ := Prod.mk.inj (Option.some.inj ended)
    exact Nat.le_refl _

/-- A run through all pauses that never reads an empty input ends in the same way with more
input. -/
theorem runThrough_supplied (reached : Reached image feed machine) (more : List Int8) {fuel : Nat}
    (ended : machine.runThrough budget? fuel = some (last, fault?))
    (fed : machine.Fed (last.cycles - machine.cycles)) :
    (machine.supplied more).runThrough budget? fuel = some (last.supplied more, fault?) := by
  induction fuel generalizing machine with
  | zero => exact nomatch ended
  | succ fuel inductionHypothesis =>
    have also : (machine.supplied more).status = machine.status := rfl
    cases status : machine.status with
    | stopped =>
      rw [runThrough, status] at ended
      obtain ⟨rfl, rfl⟩ := Prod.mk.inj (Option.some.inj ended)
      rw [runThrough, also, status]
      rfl
    | paused =>
      rw [runThrough, status] at ended
      rw [← cycles_resume machine, ← reached.fed_resume] at fed
      rw [runThrough, also, status, resume_supplied]
      exact inductionHypothesis reached.resume ended fed
    | running =>
      have budget : (machine.supplied more).spentLimit? budget? = machine.spentLimit? budget? := rfl
      cases spent : machine.spentLimit? budget? with
      | some limit =>
        rw [runThrough_spent status spent] at ended
        obtain ⟨rfl, rfl⟩ := Prod.mk.inj (Option.some.inj ended)
        exact runThrough_spent (also.trans status) (budget.trans spent)
      | none =>
        rw [runThrough_unspent status spent] at ended
        have active : machine.status ≠ .stopped := status ▸ Status.noConfusion
        have counted := cycles_step active (reached.clean active)
        have grown := reached.cycles_step_le ended
        have first : ¬machine.ReadsEmpty := fed 0 (by omega)
        rw [runThrough_unspent (also.trans status) (budget.trans spent), step_supplied more first]
        dsimp only
        cases reported : machine.step.2 with
        | none =>
          rw [reported] at ended
          refine inductionHypothesis reached.step ended fun earlier less => ?_
          have within : earlier < last.cycles - machine.step.1.cycles := less
          exact fed (earlier + 1) (by omega)
        | some fault =>
          rw [reported] at ended
          obtain ⟨rfl, rfl⟩ := Prod.mk.inj (Option.some.inj ended)
          rfl

end Reached

namespace Machine

/-! ### What is left over -/

theorem input_halt (machine : Machine) : machine.halt.1.input = machine.input := by
  obtain halted | ⟨kind, _, halted⟩ := machine.halt_cases
  · rw [halted]
  · rw [halted]
    rfl

/-- Reading an empty input ends the program, and the input stays empty. -/
theorem ReadsEmpty.stops (reads : machine.ReadsEmpty) :
    machine.step.1.status = .stopped ∧ machine.step.1.input = [] := by
  obtain ⟨starts, room, empty⟩ := reads
  have halted : machine.step =
      (machine.begin.setPointer (machine.pointer + Operation.inp.encodedLength)).halt := by
    rw [step_of_room starts (Nat.zero_le _) room, execute,
      show (machine.begin.setPointer _).input = machine.input from rfl, empty]
  rw [halted, status_halt, input_halt]
  exact ⟨rfl, empty⟩

/-- As long as something is left of the input, no step has read it when it was empty. -/
theorem fed_of_left (left : (machine.steps count).input ≠ []) : machine.Fed count := by
  intro earlier less reads
  obtain ⟨stopped, empty⟩ := reads.stops
  rw [← steps_succ] at stopped empty
  rw [steps_of_stopped stopped less, empty] at left
  exact left rfl

end Machine

/-- A run through all pauses that leaves something of the input has not read it when it was
empty. -/
theorem Reached.fed_of_runThrough (reached : Reached image feed machine) {fuel : Nat}
    (ended : machine.runThrough budget? fuel = some (last, fault?)) (left : last.input ≠ []) :
    machine.Fed (last.cycles - machine.cycles) := by
  obtain ⟨moves, takes⟩ := Call.takes_of_runThrough ended
  clear ended fuel
  induction takes with
  | nothing =>
    rw [Nat.sub_self]
    exact fun _ less => absurd less (Nat.not_lt_zero _)
  | @move machine last move rest allows onward inductionHypothesis =>
    cases allows with
    | through running unspent =>
      have active : machine.status ≠ .stopped := running ▸ Status.noConfusion
      have counted := cycles_step active (reached.clean active)
      have further := inductionHypothesis reached.step left
      intro earlier less reads
      cases earlier with
      | zero =>
        obtain ⟨stopped, empty⟩ := ReadsEmpty.stops reads
        exact left (onward.eq_of_stopped stopped ▸ empty)
      | succ earlier =>
        refine further earlier ?_ reads
        change earlier < last.cycles - machine.step.1.cycles
        omega
    | awaken paused =>
      have further := inductionHypothesis reached.resume left
      rw [← cycles_resume machine, ← reached.fed_resume]
      exact further
    | spend running spent =>
      obtain rfl := onward.eq_of_stopped rfl
      rw [show ((Move.spend _).make machine).cycles = machine.cycles from rfl, Nat.sub_self]
      exact fun _ less => absurd less (Nat.not_lt_zero _)

namespace Machine

/-! ### More input -/

theorem pushAll_supplied (machine : Machine) (more values : List Int8) :
    (machine.supplied more).pushAll values = (machine.pushAll values).supplied more := by
  induction values generalizing machine with
  | nil => rfl
  | cons value rest inductionHypothesis => exact inductionHypothesis (machine.push value)

/-- At the start the runs differ in their input. -/
theorem start_supplied (image : Image) (input more : List Int8) (expected? : Option (List Int8))
    (stack : List Int8) (seed : UInt64) :
    start image ⟨input ++ more, expected?, stack⟩ seed =
      (start image ⟨input, expected?, stack⟩ seed).supplied more :=
  pushAll_supplied ((((installed image ⟨input, expected?, stack⟩ seed).setPointer 0).setCallPointer
    0).setDepth 0) more _

/-- How a machine that has more input goes along with one that has less. -/
structure GoesAlong (more : List Int8) (short long : Machine) : Prop where
  /-- Single steps take both to the same machine but for the input and what a dump shows of it. -/
  steps : ∀ count, short.Fed count → long.steps count = (short.steps count).supplied more
  /-- A run through all pauses, with or without a budget, ends with the same fault or none, after
  the same number of cycles, and with everything else but the input the same, too. -/
  runThrough : ∀ budget? fuel last fault?, short.runThrough budget? fuel = some (last, fault?) →
    short.Fed last.cycles → long.runThrough budget? fuel = some (last.supplied more, fault?)
  /-- The condition holds while something is left of the shorter input. -/
  left : ∀ count, (short.steps count).input ≠ [] → short.Fed count
  /-- So a run that leaves something of it ends in the same way with more input. -/
  unread : ∀ budget? fuel last fault?, short.runThrough budget? fuel = some (last, fault?) →
    last.input ≠ [] → long.runThrough budget? fuel = some (last.supplied more, fault?)

/-- Input that is not read does not matter. As long as no step reads an input of which nothing is
left, a machine with more input goes along with one that was started in the same way with less. -/
theorem goesAlong_start (image : Image) (input more : List Int8) (expected? : Option (List Int8))
    (stack : List Int8) (seed : UInt64) :
    GoesAlong more (start image ⟨input, expected?, stack⟩ seed)
      (start image ⟨input ++ more, expected?, stack⟩ seed) := by
  have fresh : (start image ⟨input, expected?, stack⟩ seed).cycles = 0 :=
    (shows_start image ⟨input, expected?, stack⟩ seed).cycles_eq
  have reached : Reached image ⟨input, expected?, stack⟩
      (start image ⟨input, expected?, stack⟩ seed) :=
    .start image ⟨input, expected?, stack⟩ seed
  rw [start_supplied]
  constructor
  case steps => exact fun count => steps_supplied more
  case runThrough =>
    intro budget? fuel last fault? ended fed
    refine reached.runThrough_supplied more ended ?_
    rw [fresh]
    exact fed
  case left => exact fun count => fed_of_left
  case unread =>
    intro budget? fuel last fault? ended left
    exact reached.runThrough_supplied more ended (reached.fed_of_runThrough ended left)

/-- A program that asks for a dump, given one value and then one more behind it. -/
theorem goesAlong_start_dump :
    ∃ image : Image, (start image ⟨[5], none, []⟩ 0).Fed 1 ∧
      (start image ⟨[5, 6], none, []⟩ 0).steps 1 =
        ((start image ⟨[5], none, []⟩ 0).steps 1).supplied [6] ∧
      ((start image ⟨[5, 6], none, []⟩ 0).steps 1).lastDump?.map Dump.input = some [5, 6] := by
  obtain ⟨image, code⟩ := Image.exists_program [Operation.dmp.code] (by decide)
  have fetch : image.codeRegion[0]? = some Operation.dmp.code := by
    rw [code]
    rfl
  have begun := shows_start image ⟨[5], none, []⟩ 0
  have given : (start image ⟨[5], none, []⟩ 0).input = [5] :=
    congrArg ListMachine.input begun.view_eq
  have along : GoesAlong [6] (start image ⟨[5], none, []⟩ 0) (start image ⟨[5, 6], none, []⟩ 0) :=
    goesAlong_start image [5] [6] none [] 0
  have fed : (start image ⟨[5], none, []⟩ 0).Fed 1 := by
    intro earlier less reads
    obtain rfl := Nat.lt_one_iff.mp less
    exact List.cons_ne_nil _ _ (given.symm.trans reads.2.2)
  have same := along.steps 1 fed
  have starts := begun.starts Status.noConfusion fetch
  have noted : ((start image ⟨[5], none, []⟩ 0).steps 1).lastDump? =
      some ((start image ⟨[5], none, []⟩ 0).begin.setPointer
        ((start image ⟨[5], none, []⟩ 0).pointer + Operation.dmp.encodedLength)).dump := by
    rw [steps_succ, steps, begun.sound.step_of_starts starts rfl rfl]
    rfl
  refine ⟨image, fed, same, ?_⟩
  rw [same, supplied, noted]
  exact congrArg some (congrArg (· ++ [6]) given)

end Machine

end ByteStack
