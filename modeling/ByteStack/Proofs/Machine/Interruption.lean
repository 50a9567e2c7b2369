/-
This file shows that it does not matter how a run is interrupted. A machine may
be paused and resumed, moved on by single steps, also while it is paused, or run
up to its next break, in any order. When it is then run through all pauses, it
ends where it would have ended without any of this, and reports the same.

The budget counts over the whole life of a machine, so what was executed in
between must lie within it. Then every single step is one that the run would
have taken itself, up to the difference between a running and a paused machine.
-/

import ByteStack.Proofs.Machine.Budget

namespace ByteStack

/-- The machines that come out of single steps, runs up to a break, pauses and resumptions, in any
order. Only a run through all pauses is left out, since it ends the run. -/
inductive Driven (origin : Machine) : Machine → Prop where
  | start : Driven origin origin
  | call {machine next : Machine} {fault? : Option Fault} (call : Call) (fuel : Nat)
      (partly : ∀ budget?, call ≠ .runThrough budget?) (before : Driven origin machine)
      (made : call.make fuel machine = some (next, fault?)) : Driven origin next

theorem Driven.step {origin machine : Machine} (driven : Driven origin machine) :
    Driven origin machine.step.1 :=
  .call .step 0 (fun _ => Call.noConfusion) driven rfl

theorem Driven.pause {origin machine : Machine} (driven : Driven origin machine) :
    Driven origin machine.pause :=
  .call .pause 0 (fun _ => Call.noConfusion) driven rfl

theorem Driven.resume {origin machine : Machine} (driven : Driven origin machine) :
    Driven origin machine.resume :=
  .call .resume 0 (fun _ => Call.noConfusion) driven rfl

namespace Machine

variable {machine next : Machine} {budget? : Option Nat} {result : Machine × Option Fault}

/-! ### Fuel -/

/-- A run that has ended does so with more fuel, too. -/
theorem runThrough_succ {fuel : Nat} (ended : machine.runThrough budget? fuel = some result) :
    machine.runThrough budget? (fuel + 1) = some result := by
  induction fuel generalizing machine with
  | zero => exact nomatch ended
  | succ fuel inductionHypothesis =>
    rw [runThrough] at ended ⊢
    cases status : machine.status with
    | stopped =>
      rw [status] at ended
      exact ended
    | paused =>
      rw [status] at ended
      exact inductionHypothesis ended
    | running =>
      rw [status] at ended
      dsimp only at ended ⊢
      cases spent : machine.spentLimit? budget? with
      | some limit =>
        rw [spent] at ended
        exact ended
      | none =>
        rw [spent] at ended
        cases stepped : machine.step with
        | mk further report? =>
          rw [stepped] at ended
          cases report? with
          | none => exact inductionHypothesis ended
          | some fault => exact ended

/-- A run ends when some amount of fuel is enough for it. -/
theorem endsWith_iff :
    machine.EndsWith budget? result ↔ ∃ fuel, machine.runThrough budget? fuel = some result := by
  constructor
  · rintro ⟨enough, all⟩
    exact ⟨enough, all enough (Nat.le_refl _)⟩
  · rintro ⟨enough, ended⟩
    refine ⟨enough, fun fuel le => ?_⟩
    induction fuel, le using Nat.le_induction with
    | base => exact ended
    | succ fuel le inductionHypothesis => exact runThrough_succ inductionHypothesis

/-! ### Runs up to a break -/

/-- A run up to a break is nothing but steps. -/
theorem exists_steps_of_run {fuel : Nat} {fault? : Option Fault}
    (ended : machine.run fuel = some (next, fault?)) : ∃ count, next = machine.steps count := by
  induction fuel generalizing machine with
  | zero => exact nomatch ended
  | succ fuel inductionHypothesis =>
    rw [Machine.run] at ended
    by_cases running : machine.status = .running
    · rw [if_pos running] at ended
      cases stepped : machine.step with
      | mk further report? =>
        rw [stepped] at ended
        have first : further = machine.step.1 := by rw [stepped]
        cases report? with
        | none =>
          obtain ⟨count, rfl⟩ := inductionHypothesis ended
          exact ⟨count + 1, by rw [first]; rfl⟩
        | some fault =>
          obtain ⟨rfl, rfl⟩ := Prod.mk.inj (Option.some.inj ended)
          exact ⟨1, first⟩
    · rw [if_neg running] at ended
      obtain ⟨rfl, rfl⟩ := Prod.mk.inj (Option.some.inj ended)
      exact ⟨0, rfl⟩

theorem cycles_pause (machine : Machine) : machine.pause.cycles = machine.cycles := by
  unfold pause
  split <;> rfl

end Machine

variable {image : Image} {feed : Feed} {machine next : Machine} {budget? : Option Nat}
  {result : Machine × Option Fault}

namespace Reached

open Machine

/-! ### Single steps -/

theorem cycles_le_step (reached : Reached image feed machine) :
    machine.cycles ≤ machine.step.1.cycles := by
  by_cases stopped : machine.status = .stopped
  · rw [step_of_stopped stopped]
  · rw [cycles_step stopped (reached.clean stopped)]
    exact Nat.le_succ _

/-- A step that reports no fault is the first thing that a run through all pauses does. -/
theorem endsWith_quiet (reached : Reached image feed machine) (active : machine.status ≠ .stopped)
    (quiet : machine.step.2 = none) (unspent : machine.spentLimit? budget? = none)
    (ends : machine.EndsWith budget? result) : machine.step.1.EndsWith budget? result := by
  have clean := reached.clean active
  have alike := alike_step active clean
  rw [← endsWith_resume, alike.resumed, endsWith_resume]
  rw [← endsWith_resume] at ends
  refine (endsWith_of_next fun fuel => ?_).mp ends
  have left : machine.awake.spentLimit? budget? = none := unspent
  rw [resume_eq_awake active clean, runThrough, show machine.awake.status = .running from rfl]
  dsimp only
  rw [left]
  cases stepped : machine.awake.step with
  | mk further report? =>
    have none := alike.fault
    rw [quiet, stepped] at none
    dsimp only at none
    rw [← none]

/-- A step within the budget does not change how a run through all pauses ends. -/
theorem endsWith_step_iff (reached : Reached image feed machine)
    (allowed : ∀ limit, budget? = some limit → machine.step.1.cycles ≤ limit) :
    machine.step.1.EndsWith budget? result ↔ machine.EndsWith budget? result := by
  by_cases stopped : machine.status = .stopped
  · rw [step_of_stopped stopped]
  have unspent (limit : Nat) (given : budget? = some limit) : machine.cycles < limit := by
    have bound := allowed limit given
    rw [cycles_step stopped (reached.clean stopped)] at bound
    exact bound
  have forth (result : Machine × Option Fault) (ends : machine.step.1.EndsWith budget? result) :
      machine.EndsWith budget? result :=
    reached.endsWith_step stopped unspent ends
  refine ⟨forth result, fun ends => ?_⟩
  by_cases ended : machine.step.1.status = .stopped
  · -- The step was the last one, so there is only one way for the run to end.
    have last : machine.step.1.EndsWith budget? _ := endsWith_of_stopped ended
    rw [ends.unique (forth _ last)]
    exact last
  · have quiet : machine.step.2 = none := by
      cases reported : machine.step.2 with
      | none => rfl
      | some fault =>
        have recorded := reports_step machine fault reported
        exact absurd (reached.step.stopped_of_fault (recorded ▸ Option.some_ne_none fault)) ended
    exact reached.endsWith_quiet stopped quiet (spentLimit?_eq_none unspent) ends

/-- Any number of steps within the budget does not change how a run through all pauses ends. -/
theorem endsWith_steps_iff (reached : Reached image feed machine) (count : Nat)
    (allowed : ∀ limit, budget? = some limit → (machine.steps count).cycles ≤ limit) :
    (machine.steps count).EndsWith budget? result ↔ machine.EndsWith budget? result := by
  induction count with
  | zero => exact Iff.rfl
  | succ count inductionHypothesis =>
    rw [steps_succ] at allowed ⊢
    have before := (reached.steps count).cycles_le_step
    rw [(reached.steps count).endsWith_step_iff allowed]
    exact inductionHypothesis fun limit given => Nat.le_trans before (allowed limit given)

theorem cycles_le_steps (reached : Reached image feed machine) (count : Nat) :
    machine.cycles ≤ (machine.steps count).cycles := by
  induction count with
  | zero => exact Nat.le_refl _
  | succ count inductionHypothesis =>
    rw [steps_succ]
    exact Nat.le_trans inductionHypothesis (reached.steps count).cycles_le_step

/-! ### Calls -/

theorem driven (reached : Reached image feed machine) (driven : Driven machine next) :
    Reached image feed next := by
  induction driven with
  | start => exact reached
  | call call fuel partly before made inductionHypothesis =>
    exact .call call fuel inductionHypothesis made

/-- A call only adds to the count, and within the budget it does not change how a run through all
pauses ends. -/
theorem endsWith_call (reached : Reached image feed machine) {call : Call} {fuel : Nat}
    {fault? : Option Fault} (partly : ∀ budget?, call ≠ .runThrough budget?)
    (made : call.make fuel machine = some (next, fault?)) :
    machine.cycles ≤ next.cycles ∧
      ((∀ limit, budget? = some limit → next.cycles ≤ limit) →
        (next.EndsWith budget? result ↔ machine.EndsWith budget? result)) := by
  cases call with
  | step =>
    obtain rfl : machine.step.1 = next := congrArg Prod.fst (Option.some.inj made)
    exact ⟨reached.cycles_le_step, reached.endsWith_step_iff⟩
  | run =>
    obtain ⟨count, rfl⟩ := exists_steps_of_run made
    exact ⟨reached.cycles_le_steps count, reached.endsWith_steps_iff count⟩
  | runThrough budget? => exact absurd rfl (partly budget?)
  | pause =>
    obtain ⟨rfl, rfl⟩ := Prod.mk.inj (Option.some.inj made)
    exact ⟨Nat.le_of_eq machine.cycles_pause.symm, fun _ => reached.endsWith_pause⟩
  | resume =>
    obtain ⟨rfl, rfl⟩ := Prod.mk.inj (Option.some.inj made)
    exact ⟨Nat.le_of_eq machine.cycles_resume.symm, fun _ => endsWith_resume⟩

end Reached

namespace Machine

/-- Pausing, resuming, single steps and runs up to a break, in any order, do not change how a run
through all pauses ends, as long as they stay within its budget: it ends at the same machine with
the same report, or not at all. -/
theorem runThrough_of_driven (reached : Reached image feed machine)
    (driven : Driven machine next)
    (allowed : ∀ limit, budget? = some limit → next.cycles ≤ limit)
    (result : Machine × Option Fault) :
    (∃ fuel, next.runThrough budget? fuel = some result) ↔
      ∃ fuel, machine.runThrough budget? fuel = some result := by
  rw [← endsWith_iff, ← endsWith_iff]
  induction driven with
  | start => exact Iff.rfl
  | call call fuel partly before made inductionHypothesis =>
    obtain ⟨grown, same⟩ := (reached.driven before).endsWith_call partly made
    rw [same allowed]
    exact inductionHypothesis fun limit given => Nat.le_trans grown (allowed limit given)

/-- A machine that is paused at once, moved on to the break of its program and over it by single
steps, and resumed in between. Whatever budget is not used up by then, it ends as it does from the
start: with one for the last instruction by itself, with a smaller one cut off in front of it. -/
theorem runThrough_of_driven_paused :
    ∃ image next last, Driven (start image ⟨[], none, []⟩ 0) next ∧ next.cycles = 3 ∧
      (∀ limit, 3 ≤ limit → ∀ result,
        (∃ fuel, next.runThrough (some limit) fuel = some result) ↔
          ∃ fuel, (start image ⟨[], none, []⟩ 0).runThrough (some limit) fuel = some result) ∧
      (∃ fuel, (start image ⟨[], none, []⟩ 0).runThrough (some 4) fuel = some (last, none)) ∧
      last.cycles = 4 ∧
      ∃ cutOff fuel, (start image ⟨[], none, []⟩ 0).runThrough (some 3) fuel =
        some (cutOff, some ⟨.cycleBudgetExceeded 3, 4⟩) := by
  obtain ⟨image, code⟩ := Image.exists_program [Operation.psh.code, 7, Operation.brk.code,
    Operation.del.code, Operation.hlt.code] (by decide)
  have reached := Reached.start image ⟨[], none, []⟩ 0
  have driven :=
    (@Driven.start (start image ⟨[], none, []⟩ 0)).pause.step.resume.step.resume.step
  have later := reached.driven driven
  have pushed := (shows_start_of_codeRegion code ⟨[], none, []⟩ 0).paused.step
  change Shows _ _ { ListMachine.start ⟨[], none, []⟩ with
    stack := [7], pointer := 2, cycles := 1, status := .paused } at pushed
  have broken := pushed.resumed.step
  change Shows _ _ { ListMachine.start ⟨[], none, []⟩ with
    stack := [7], pointer := 3, cycles := 2, status := .paused } at broken
  have shows := broken.resumed.step
  change Shows _ _ { ListMachine.start ⟨[], none, []⟩ with pointer := 4, cycles := 3 } at shows
  generalize (start image ⟨[], none, []⟩ 0).pause.step.1.resume.step.1.resume.step.1 = next
    at driven later shows
  have cycles : next.cycles = 3 := shows.cycles_eq
  have same (limit : Nat) (enough : 3 ≤ limit) (result : Machine × Option Fault) :
      (∃ fuel, next.runThrough (some limit) fuel = some result) ↔
        ∃ fuel, (start image ⟨[], none, []⟩ 0).runThrough (some limit) fuel = some result := by
    refine runThrough_of_driven reached driven (fun _ given => ?_) result
    rw [← Option.some.inj given, cycles]
    exact enough
  have active : next.status ≠ .stopped := shows.status_eq.trans_ne nofun
  have clean : next.fault? = none := shows.fault?_eq
  have ended : next.step.1.EndsWith (some 4) _ := endsWith_of_stopped shows.step.status_eq
  rw [shows.step.fault?_eq, later.endsWith_step_iff fun limit given => by
    rw [← Option.some.inj given, cycles_step active clean, cycles]] at ended
  have cutOff : next.EndsWith (some 3) _ :=
    endsWith_of_spent active clean (Nat.le_of_eq cycles.symm)
  rw [spend, shows.pointer_eq] at cutOff
  exact ⟨image, next, next.step.1, driven, cycles, same,
    (same 4 (by decide) _).mp (endsWith_iff.mp ended), shows.step.cycles_eq,
    _, (same 3 (by decide) _).mp (endsWith_iff.mp cutOff)⟩

end Machine

end ByteStack
