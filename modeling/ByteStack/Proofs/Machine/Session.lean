/-
This file is about everything that can be done to a machine from outside: single
steps, runs with and without a budget, pausing and resuming, in any order. A run
is nothing but steps and resumptions, followed at most by a stop when the budget
is used up. So what these few moves keep holds at every moment of every session.
-/

import ByteStack.Machine.Run

namespace ByteStack

/-- What can be asked of a machine. -/
inductive Call where
  | step
  | run
  | runThrough (budget? : Option Nat)
  | pause
  | resume
deriving DecidableEq

/-- What a call makes of a machine, and the fault that it reports. A run need not end; when it
does, some amount of fuel is enough. -/
def Call.make (fuel : Nat) (machine : Machine) : Call → Option (Machine × Option Fault)
  | .step => some machine.step
  | .run => machine.run fuel
  | .runThrough budget? => machine.runThrough budget? fuel
  | .pause => some (machine.pause, none)
  | .resume => some (machine.resume, none)

/-- The machines that come out of a sequence of calls, with the fault that the last call
reported. The machines that a run passes through are among them, because a run takes single
steps. -/
inductive Session (origin : Machine) : Machine → Option Fault → Prop where
  | start : Session origin origin none
  | call {machine next : Machine} {earlier? fault? : Option Fault} (call : Call) (fuel : Nat)
      (before : Session origin machine earlier?)
      (made : call.make fuel machine = some (next, fault?)) : Session origin next fault?

theorem Session.step {origin machine : Machine} {fault? : Option Fault}
    (session : Session origin machine fault?) : Session origin machine.step.1 machine.step.2 :=
  .call .step 0 session rfl

namespace Machine

/-- A machine whose budget is used up. -/
def spend (machine : Machine) (limit : Nat) : Machine × Option Fault :=
  { machine with current := machine.pointer }.fail (.cycleBudgetExceeded limit)

/-! ### What is reported -/

/-- A fault that is reported has also been recorded. -/
def Reports (result : Machine × Option Fault) : Prop :=
  ∀ fault, result.2 = some fault → result.1.fault? = some fault

theorem reports_none (machine : Machine) : Reports (machine, none) :=
  fun _ => nofun

theorem reports_fail (machine : Machine) (kind : FaultKind) : Reports (machine.fail kind) :=
  fun _ same => same

theorem reports_halt (machine : Machine) : Reports machine.halt := by
  unfold halt
  dsimp only
  split
  · exact reports_fail _ _
  · split
    · exact reports_fail _ _
    · exact reports_none _

theorem reports_emit (machine : Machine) (value : Int8) : Reports (machine.emit value) := by
  unfold emit
  dsimp only
  split
  · exact reports_fail _ _
  · exact reports_none _

theorem reports_call (machine : Machine) : Reports machine.call := by
  unfold call
  dsimp only
  split
  · exact reports_fail _ _
  · exact reports_none _

theorem reports_giveBack (machine : Machine) : Reports machine.giveBack := by
  unfold giveBack
  dsimp only
  split
  · exact reports_fail _ _
  · exact reports_none _

theorem reports_execute (machine : Machine) (operation : Operation) :
    Reports (machine.execute operation) := by
  cases operation with
  | inp =>
    rw [execute]
    split
    · exact reports_halt _
    · exact reports_none _
  | out => exact reports_emit _ _
  | jsr => exact reports_call _
  | ret => exact reports_giveBack _
  | hlt => exact reports_halt _
  | _ => exact reports_none _

theorem reports_perform (machine : Machine) (pointer : Nat) (operation : Operation) :
    Reports (machine.perform pointer operation) := by
  unfold perform
  split
  · exact reports_fail _ _
  · split
    · exact reports_fail _ _
    · exact reports_execute _ _

theorem reports_step (machine : Machine) : Reports machine.step := by
  unfold step
  split
  · exact reports_none _
  · dsimp only
    split
    · exact reports_fail _ _
    · split
      · exact reports_halt _
      · split
        · exact reports_fail _ _
        · exact reports_perform _ _ _

/-! ### What is kept -/

/-- A property that every move from outside keeps. -/
structure Kept (property : Machine → Prop) : Prop where
  step : ∀ machine, property machine → property machine.step.1
  pause : ∀ machine, property machine → property machine.pause
  resume : ∀ machine, property machine → property machine.resume
  spend : ∀ machine limit, property machine → property (machine.spend limit).1

variable {property : Machine → Prop} {machine next : Machine} {fault? : Option Fault}

theorem Kept.run (kept : Kept property) {fuel : Nat} (holds : property machine)
    (ended : machine.run fuel = some (next, fault?)) :
    property next ∧ Reports (next, fault?) := by
  induction fuel generalizing machine with
  | zero => exact nomatch ended
  | succ fuel inductionHypothesis =>
    rw [Machine.run] at ended
    by_cases running : machine.status = .running
    · rw [if_pos running] at ended
      have after := kept.step machine holds
      have honest := reports_step machine
      cases stepped : machine.step with
      | mk further report? =>
        rw [stepped] at ended after honest
        cases report? with
        | none => exact inductionHypothesis after ended
        | some fault =>
          obtain ⟨rfl, rfl⟩ := Prod.mk.inj (Option.some.inj ended)
          exact ⟨after, honest⟩
    · rw [if_neg running] at ended
      obtain ⟨rfl, rfl⟩ := Prod.mk.inj (Option.some.inj ended)
      exact ⟨holds, fun _ same => same⟩

theorem Kept.runThrough (kept : Kept property) {budget? : Option Nat} {fuel : Nat}
    (holds : property machine) (ended : machine.runThrough budget? fuel = some (next, fault?)) :
    property next ∧ Reports (next, fault?) := by
  induction fuel generalizing machine with
  | zero => exact nomatch ended
  | succ fuel inductionHypothesis =>
    rw [Machine.runThrough] at ended
    cases status : machine.status with
    | stopped =>
      rw [status] at ended
      obtain ⟨rfl, rfl⟩ := Prod.mk.inj (Option.some.inj ended)
      exact ⟨holds, fun _ same => same⟩
    | paused =>
      rw [status] at ended
      exact inductionHypothesis (kept.resume machine holds) ended
    | running =>
      rw [status] at ended
      dsimp only at ended
      cases spent : machine.spentLimit? budget? with
      | some limit =>
        rw [spent] at ended
        have after := kept.spend machine limit holds
        have honest : Reports (machine.spend limit) := reports_fail _ _
        rw [show machine.spend limit = (next, fault?) from Option.some.inj ended] at after honest
        exact ⟨after, honest⟩
      | none =>
        rw [spent] at ended
        have after := kept.step machine holds
        have honest := reports_step machine
        cases stepped : machine.step with
        | mk further report? =>
          rw [stepped] at ended after honest
          cases report? with
          | none => exact inductionHypothesis after ended
          | some fault =>
            obtain ⟨rfl, rfl⟩ := Prod.mk.inj (Option.some.inj ended)
            exact ⟨after, honest⟩

/-- What holds at the start and is kept by every move holds throughout a session, and every
fault that is reported has been recorded. -/
theorem Kept.session (kept : Kept property) {origin : Machine}
    (session : Session origin machine fault?) (holds : property origin) :
    property machine ∧ Reports (machine, fault?) := by
  induction session with
  | start => exact ⟨holds, reports_none _⟩
  | @call machine next earlier? fault? call fuel before made inductionHypothesis =>
    have held := inductionHypothesis.1
    cases call with
    | step =>
      have after := kept.step machine held
      have honest := reports_step machine
      rw [show machine.step = (next, fault?) from Option.some.inj made] at after honest
      exact ⟨after, honest⟩
    | run => exact kept.run held made
    | runThrough budget? => exact kept.runThrough held made
    | pause =>
      obtain ⟨rfl, rfl⟩ := Prod.mk.inj (Option.some.inj made)
      exact ⟨kept.pause machine held, reports_none _⟩
    | resume =>
      obtain ⟨rfl, rfl⟩ := Prod.mk.inj (Option.some.inj made)
      exact ⟨kept.resume machine held, reports_none _⟩

end Machine

end ByteStack
