/-
This file follows the status of a machine through its life. A machine runs or is
paused until it stops, and stopping is for good: whatever is asked of a stopped
machine changes nothing, and what is reported is what was recorded when it
stopped. Before that, each move changes the status in its own few ways, and the
number of cycles is the number of steps that were taken before the machine had
stopped.

A run takes many moves. Each of them is made of a machine that stands somewhere
between the start and the end of the run, so what holds after any moves holds
inside of a run, too.
-/

import ByteStack.Proofs.Machine.Failure
import ByteStack.Proofs.Machine.Interruption

namespace ByteStack

variable {machine next : Machine} {fault? : Option Fault}

/-! ### Calls as moves -/

/-- The moves that a call may make of a machine. -/
inductive Call.Allows : Call → Machine → Move → Prop where
  | step {machine : Machine} : Allows .step machine .step
  | pause {machine : Machine} : Allows .pause machine .pause
  | resume {machine : Machine} : Allows .resume machine .resume
  | run {machine : Machine} (running : machine.status = .running) : Allows .run machine .step
  | through {machine : Machine} {budget? : Option Nat} (running : machine.status = .running)
      (unspent : machine.spentLimit? budget? = none) : Allows (.runThrough budget?) machine .step
  | awaken {machine : Machine} {budget? : Option Nat} (paused : machine.status = .paused) :
      Allows (.runThrough budget?) machine .resume
  | spend {machine : Machine} {budget? : Option Nat} {limit : Nat}
      (running : machine.status = .running) (spent : machine.spentLimit? budget? = some limit) :
      Allows (.runThrough budget?) machine (.spend limit)

/-- A call gets from one machine to another by moves that it may make. -/
inductive Call.Takes (call : Call) : Machine → List Move → Machine → Prop where
  | nothing {machine : Machine} : Takes call machine [] machine
  | move {machine next : Machine} {move : Move} {rest : List Move}
      (allows : call.Allows machine move) (onward : Takes call (move.make machine) rest next) :
      Takes call machine (move :: rest) next

namespace Call

theorem Takes.after_eq {call : Call} {moves : List Move} (takes : call.Takes machine moves next) :
    next = machine.after moves := by
  induction takes with
  | nothing => rfl
  | move allows onward inductionHypothesis => exact inductionHypothesis

theorem Allows.takes {call : Call} {move : Move} (allows : call.Allows machine move) :
    call.Takes machine [move] (move.make machine) :=
  .move allows .nothing

theorem takes_of_run {fuel : Nat} (ended : machine.run fuel = some (next, fault?)) :
    ∃ moves, Takes .run machine moves next := by
  induction fuel generalizing machine with
  | zero => exact nomatch ended
  | succ fuel inductionHypothesis =>
    rw [Machine.run] at ended
    by_cases running : machine.status = .running
    · rw [if_pos running] at ended
      cases stepped : machine.step with
      | mk further report? =>
        obtain rfl : machine.step.1 = further := congrArg Prod.fst stepped
        rw [stepped] at ended
        cases report? with
        | none =>
          obtain ⟨moves, takes⟩ := inductionHypothesis ended
          exact ⟨.step :: moves, .move (.run running) takes⟩
        | some fault =>
          obtain ⟨rfl, rfl⟩ := Prod.mk.inj (Option.some.inj ended)
          exact ⟨_, (Allows.run running).takes⟩
    · rw [if_neg running] at ended
      obtain ⟨rfl, rfl⟩ := Prod.mk.inj (Option.some.inj ended)
      exact ⟨[], .nothing⟩

theorem takes_of_runThrough {budget? : Option Nat} {fuel : Nat}
    (ended : machine.runThrough budget? fuel = some (next, fault?)) :
    ∃ moves, Takes (.runThrough budget?) machine moves next := by
  induction fuel generalizing machine with
  | zero => exact nomatch ended
  | succ fuel inductionHypothesis =>
    rw [Machine.runThrough] at ended
    cases status : machine.status with
    | stopped =>
      rw [status] at ended
      obtain ⟨rfl, rfl⟩ := Prod.mk.inj (Option.some.inj ended)
      exact ⟨[], .nothing⟩
    | paused =>
      rw [status] at ended
      obtain ⟨moves, takes⟩ := inductionHypothesis ended
      exact ⟨.resume :: moves, .move (.awaken status) takes⟩
    | running =>
      rw [status] at ended
      dsimp only at ended
      cases spent : machine.spentLimit? budget? with
      | some limit =>
        rw [spent] at ended
        obtain rfl : (machine.spend limit).1 = next := congrArg Prod.fst (Option.some.inj ended)
        exact ⟨_, (Allows.spend status spent).takes⟩
      | none =>
        rw [spent] at ended
        cases stepped : machine.step with
        | mk further report? =>
          obtain rfl : machine.step.1 = further := congrArg Prod.fst stepped
          rw [stepped] at ended
          cases report? with
          | none =>
            obtain ⟨moves, takes⟩ := inductionHypothesis ended
            exact ⟨.step :: moves, .move (.through status spent) takes⟩
          | some fault =>
            obtain ⟨rfl, rfl⟩ := Prod.mk.inj (Option.some.inj ended)
            exact ⟨_, (Allows.through status spent).takes⟩

/-- Every call is made of moves. -/
theorem takes_of_make {call : Call} {fuel : Nat}
    (made : call.make fuel machine = some (next, fault?)) :
    ∃ moves, call.Takes machine moves next := by
  cases call with
  | step =>
    obtain rfl : machine.step.1 = next := congrArg Prod.fst (Option.some.inj made)
    exact ⟨_, Allows.step.takes⟩
  | run => exact takes_of_run made
  | runThrough budget? => exact takes_of_runThrough made
  | pause =>
    obtain ⟨rfl, rfl⟩ := Prod.mk.inj (Option.some.inj made)
    exact ⟨_, Allows.pause.takes⟩
  | resume =>
    obtain ⟨rfl, rfl⟩ := Prod.mk.inj (Option.some.inj made)
    exact ⟨_, Allows.resume.takes⟩

/-- What a call answers when the machine has stopped: a run tells how it ended, and the other
calls have nothing to say. -/
def lastAnswer (machine : Machine) : Call → Option Fault
  | .run | .runThrough _ => machine.fault?
  | .step | .pause | .resume => none

theorem make_of_stopped (stopped : machine.status = .stopped) (call : Call) (fuel : Nat) :
    call.make (fuel + 1) machine = some (machine, call.lastAnswer machine) := by
  have notRunning : machine.status ≠ .running := by
    rw [stopped]
    exact Status.noConfusion
  have notPaused : machine.status ≠ .paused := by
    rw [stopped]
    exact Status.noConfusion
  cases call with
  | step => rw [make, Machine.step, if_pos stopped, lastAnswer]
  | run => rw [make, Machine.run, if_neg notRunning, lastAnswer]
  | runThrough budget? =>
    rw [make, Machine.runThrough, stopped]
    rfl
  | pause => rw [make, Machine.pause, if_neg notRunning, lastAnswer]
  | resume => rw [make, Machine.resume_of_not_paused notPaused, lastAnswer]

theorem Allows.make_eq {call : Call} {move : Move} (allows : call.Allows machine move)
    (stopped : machine.status = .stopped) : move.make machine = machine := by
  cases allows with
  | step => exact Machine.step_of_stopped stopped
  | pause => exact if_neg (stopped ▸ nofun)
  | resume => exact Machine.resume_of_not_paused (stopped ▸ nofun)
  | run running | through running _ | spend running _ => exact nomatch stopped.symm.trans running
  | awaken paused => exact nomatch stopped.symm.trans paused

/-- No moves that a call makes change a stopped machine. -/
theorem Takes.eq_of_stopped {call : Call} {moves : List Move}
    (takes : call.Takes machine moves next) (stopped : machine.status = .stopped) :
    next = machine := by
  induction takes with
  | nothing => rfl
  | move allows onward inductionHypothesis =>
    have same := allows.make_eq stopped
    rw [same] at inductionHypothesis
    exact inductionHypothesis stopped

end Call

namespace Machine

/-- Whatever is asked of a stopped machine leaves it as it is. -/
theorem eq_of_session_of_stopped (stopped : machine.status = .stopped)
    (session : Session machine next fault?) : next = machine := by
  induction session with
  | start => rfl
  | call call fuel before made inductionHypothesis =>
    obtain ⟨moves, takes⟩ := Call.takes_of_make made
    rw [inductionHypothesis] at takes
    exact takes.eq_of_stopped stopped

/-! ### How the status changes -/

/-- What a move makes of the status of a machine that has not stopped. -/
inductive Turns (machine : Machine) : Move → Status → Prop where
  | goesOn (quiet : machine.step.2 = none) (noBreak : ¬machine.Performs .brk)
      (noEnd : ¬machine.Halts) : Turns machine .step machine.status
  | breaks (performs : machine.Performs .brk) : Turns machine .step .paused
  | halts (halts : machine.Halts) : Turns machine .step .stopped
  | fails {fault : Fault} (failed : machine.step.2 = some fault) : Turns machine .step .stopped
  | pauses : Turns machine .pause .paused
  | resumes : Turns machine .resume .running
  | spends (limit : Nat) : Turns machine (.spend limit) .stopped

theorem status_halt (machine : Machine) : machine.halt.1.status = .stopped := by
  obtain halted | ⟨kind, _, halted⟩ := machine.halt_cases
  · rw [halted]
  · rw [halted]
    rfl

/-- The program ends at an operation for which there is room exactly if the operation ends it. -/
theorem Starts.halts_iff {operation : Operation} (starts : machine.Starts operation)
    (room : machine.depth - operation.pops + operation.pushes ≤ Layout.stackSize) :
    machine.Halts ↔ machine.Ends operation := by
  have ⟨active, inside, found⟩ := starts
  have nonzero : machine.memory.read machine.pointer ≠ 0 := by
    rw [← Operation.code_of_ofCode? found]
    exact operation.code_ne_zero
  unfold Halts
  rw [found]
  constructor
  · rintro ⟨_, _, zero | halts | ⟨reads, empty, _⟩⟩
    · exact absurd zero nonzero
    · exact .inl (Option.some.inj halts)
    · exact .inr ⟨Option.some.inj reads, empty⟩
  · rintro (rfl | ⟨rfl, empty⟩)
    · exact ⟨active, inside, .inr (.inl rfl)⟩
    · exact ⟨active, inside, .inr (.inr ⟨rfl, empty, room⟩)⟩

/-- A step without a fault ends the program, breaks, or leaves the status alone. -/
theorem turns_of_quiet (active : machine.status ≠ .stopped) (quiet : machine.step.2 = none) :
    machine.Turns .step machine.step.1.status := by
  have course := course_step active
  obtain ⟨result, stepped⟩ : ∃ result, machine.step = result := ⟨_, rfl⟩
  rw [stepped] at course
  cases course with
  | outside | unknown | poor | rich =>
    rw [stepped] at quiet
    exact nomatch quiet
  | zero inside zero =>
    rw [stepped, status_halt]
    exact .halts ⟨active, inside, .inl zero⟩
  | @executes operation starts enough room =>
    have effect := effect_execute
      (machine.begin.setPointer (machine.pointer + operation.encodedLength)) operation
    rw [← stepped] at effect
    obtain ⟨result, same⟩ : ∃ result, machine.step = result := ⟨_, rfl⟩
    rw [same] at effect
    cases effect with
    | goesOn goesOn status =>
      have noEnd := mt (starts.halts_iff room).mp goesOn
      rw [same, status]
      by_cases breaks : operation = .brk
      · subst breaks
        exact .breaks ⟨starts, quiet⟩
      · rw [if_neg breaks]
        exact .goesOn quiet (fun performs => breaks (starts.unique performs.1)) noEnd
    | ends ends =>
      rw [same, status_halt]
      exact .halts ((starts.halts_iff room).mpr ends)
    | refused | unfit =>
      rw [same] at quiet
      exact nomatch quiet

theorem turns_step (active : machine.status ≠ .stopped) :
    machine.Turns .step machine.step.1.status := by
  cases reported : machine.step.2 with
  | none => exact turns_of_quiet active reported
  | some fault =>
    obtain ⟨left, _, _, stepped⟩ := exists_exit active reported
    rw [stepped]
    exact .fails reported

theorem turns_move (active : machine.status ≠ .stopped) (clean : machine.fault? = none)
    (move : Move) : machine.Turns move (move.make machine).status := by
  cases move with
  | step => exact turns_step active
  | pause =>
    have paused : machine.pause.status = .paused := by
      cases status : machine.status with
      | stopped => exact absurd status active
      | paused => rw [pause, if_neg (status ▸ nofun), status]
      | running => rw [pause, if_pos status]
    rw [Move.make, paused]
    exact .pauses
  | resume =>
    rw [Move.make, status_resume active clean]
    exact .resumes
  | spend limit => exact .spends limit

/-! ### How cycles are counted -/

/-- How many steps some moves take before the machine has stopped. -/
def started : List Move → Machine → Nat
  | [], _ => 0
  | move :: rest, machine =>
    (if move = .step ∧ machine.status ≠ .stopped then 1 else 0) + started rest (move.make machine)

theorem Sound.clean {scenario : Scenario} (sound : machine.Sound scenario)
    (active : machine.status ≠ .stopped) : machine.fault? = none :=
  Decidable.not_not.mp (mt sound.stopped_of_fault active)

theorem Sound.cycles_make {scenario : Scenario} (sound : machine.Sound scenario) (move : Move) :
    (move.make machine).cycles =
      machine.cycles + if move = .step ∧ machine.status ≠ .stopped then 1 else 0 := by
  cases move with
  | step =>
    by_cases stopped : machine.status = .stopped
    · rw [Move.make, step_of_stopped stopped, if_neg fun both => both.2 stopped, Nat.add_zero]
    · rw [Move.make, cycles_step stopped (sound.clean stopped), if_pos ⟨rfl, stopped⟩]
  | pause => exact machine.cycles_pause
  | resume => exact machine.cycles_resume
  | spend limit => rfl

theorem Sound.cycles_after {scenario : Scenario} (sound : machine.Sound scenario)
    (moves : List Move) :
    (machine.after moves).cycles = machine.cycles + started moves machine := by
  induction moves generalizing machine with
  | nil => rfl
  | cons move rest inductionHypothesis =>
    rw [after, inductionHypothesis (kept_sound.move sound move), sound.cycles_make, started,
      Nat.add_assoc]

/-! ### The life of a machine -/

/-- What can be said of a machine at any moment of its life. -/
structure Lifecycle (machine : Machine) : Prop where
  /-- A fault is recorded only when the machine stops. -/
  stopped_of_fault : machine.fault? ≠ none → machine.status = .stopped
  /-- Nothing changes a stopped machine. -/
  final : machine.status = .stopped → ∀ next fault?, Session machine next fault? → next = machine
  /-- Every call on a stopped machine ends at once, and a run reports the recorded fault. -/
  answers : machine.status = .stopped → ∀ call fuel,
    Call.make (fuel + 1) machine call = some (machine, call.lastAnswer machine)
  /-- Each move has its own few ways to change the status. -/
  turns : machine.status ≠ .stopped → ∀ move, machine.Turns move (Move.make machine move).status
  /-- A cycle is counted for each step before the machine has stopped, and for nothing else. -/
  counts : ∀ moves, (machine.after moves).cycles = machine.cycles + started moves machine
  /-- A call is made of moves, each of which it may make where it is made. -/
  made : ∀ call fuel next fault?, Call.make fuel machine call = some (next, fault?) →
    ∃ moves, call.Takes machine moves next ∧ next = machine.after moves

theorem Sound.lifecycle {scenario : Scenario} (sound : machine.Sound scenario) :
    machine.Lifecycle where
  stopped_of_fault := sound.stopped_of_fault
  final stopped _ _ := eq_of_session_of_stopped stopped
  answers stopped := Call.make_of_stopped stopped
  turns active := turns_move active (sound.clean active)
  counts := sound.cycles_after
  made call fuel next fault? made := by
    obtain ⟨moves, takes⟩ := Call.takes_of_make made
    exact ⟨moves, takes, takes.after_eq⟩

/-- The life of every machine, from the start and after any moves. Everything that can be done to a
machine is made of moves. -/
theorem lifecycle_after (image : Image) (feed : Feed) (seed : UInt64) :
    (∀ moves, ((start image feed seed).after moves).Lifecycle) ∧
      ∀ machine fault?, Session (start image feed seed) machine fault? →
        ∃ moves, machine = (start image feed seed).after moves := by
  have start := (shows_start image feed seed).sound
  exact ⟨fun moves => (kept_sound.after start moves).lifecycle, fun _ _ => exists_moves⟩

end Machine

end ByteStack
