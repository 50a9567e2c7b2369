/-
This file shows what a run through all pauses does under a budget, in terms of
single steps. A run that can stop by itself within the budget ends where as many
single steps end. Any other run is cut off when the budget is used up, after
exactly that many steps. So every run under a budget ends.

A single step works on a paused machine as on a running one, but leaves it
paused, where the run would have resumed it. The two stay the same in everything
else. That a machine with a fault is stopped, and never paused, is what lets the
run resume it: resuming would do nothing otherwise, and the run would not end.
-/

import ByteStack.Proofs.Machine.Expecting
import ByteStack.Proofs.Machine.Reached
import Mathlib.Data.Nat.Find

namespace ByteStack

namespace Machine

variable {machine before : Machine} {budget? : Option Nat} {result other : Machine × Option Fault}
  {count limit : Nat}

/-! ### Running and paused -/

/-- The machine, running. -/
def awake (machine : Machine) : Machine :=
  { machine with status := .running }

/-- Resuming is for paused machines only. -/
theorem resume_of_not_paused (other : machine.status ≠ .paused) : machine.resume = machine :=
  if_neg fun waiting => other waiting.1

theorem resume_eq_awake (active : machine.status ≠ .stopped) (clean : machine.fault? = none) :
    machine.resume = machine.awake := by
  cases status : machine.status with
  | stopped => exact absurd status active
  | paused => exact if_pos ⟨status, clean⟩
  | running => rw [resume_of_not_paused (status ▸ nofun), awake, ← status]

theorem top_awake (machine : Machine) : machine.awake.top = machine.top := rfl

theorem drop_awake (machine : Machine) : machine.awake.drop = machine.drop.awake := rfl

theorem push_awake (machine : Machine) (value : Int8) :
    machine.awake.push value = (machine.push value).awake := rfl

theorem jumpIf_awake (machine : Machine) (test : Int8 → Bool) :
    machine.awake.jumpIf test = (machine.jumpIf test).awake := by
  unfold jumpIf
  rw [top_awake]
  split <;> rfl

/-- Two results of one instruction, the second from a running machine, that become the same when
both machines are resumed, and do not change the count. -/
structure Alike (before : Machine) (first second : Machine × Option Fault) : Prop where
  resumed : first.1.resume = second.1.resume
  fault : first.2 = second.2
  cycles : first.1.cycles = before.cycles

theorem Alike.of_active (active : machine.status ≠ .stopped) (clean : machine.fault? = none)
    (cycles : machine.cycles = before.cycles) :
    Alike before (machine, none) (machine.awake, none) where
  resumed := by
    have running : machine.awake.status ≠ .paused := Status.noConfusion
    rw [resume_eq_awake active clean, resume_of_not_paused running]
  fault := rfl
  cycles := cycles

/-- What holds in the middle of a step, after the check that the machine is not stopped. -/
structure Live (before machine : Machine) : Prop where
  leaves : Leaves before machine
  active : before.status ≠ .stopped
  clean : before.fault? = none

namespace Live

theorem status_ne_stopped (live : Live before machine) : machine.status ≠ .stopped :=
  live.leaves.status.symm ▸ live.active

theorem fault_eq_none (live : Live before machine) : machine.fault? = none :=
  live.leaves.fault.trans live.clean

theorem alike (live : Live before machine) :
    Alike before (machine, none) (machine.awake, none) :=
  .of_active live.status_ne_stopped live.fault_eq_none live.leaves.cycles

theorem fail (live : Live before machine) (kind : FaultKind) :
    Alike before (machine.fail kind) (machine.awake.fail kind) :=
  ⟨rfl, rfl, live.leaves.cycles⟩

theorem halt (live : Live before machine) : Alike before machine.halt machine.awake.halt := by
  refine ⟨rfl, rfl, ?_⟩
  rw [← live.leaves.cycles]
  unfold Machine.halt
  dsimp only
  split
  · rfl
  · split <;> rfl

theorem emit (live : Live before machine) (value : Int8) :
    Alike before (machine.emit value) (machine.awake.emit value) := by
  unfold Machine.emit
  rw [show machine.awake.expected? = machine.expected? from rfl,
    show machine.awake.output = machine.output from rfl]
  dsimp only
  split
  · exact ⟨rfl, rfl, live.leaves.cycles⟩
  · exact @Alike.of_active { machine with output := machine.output.push value } before
      live.status_ne_stopped live.fault_eq_none live.leaves.cycles

theorem call (live : Live before machine) : Alike before machine.call machine.awake.call := by
  unfold Machine.call
  rw [show machine.awake.callPointer = machine.callPointer from rfl]
  dsimp only
  split
  · exact live.fail .callStackOverflow
  · have stored := live.leaves.storeReturn machine.callPointer machine.pointer
    have called := (stored.setCallPointer (machine.callPointer + 2)).jump
    exact alike ⟨called, live.active, live.clean⟩

theorem giveBack (live : Live before machine) :
    Alike before machine.giveBack machine.awake.giveBack := by
  unfold Machine.giveBack
  rw [show machine.awake.callPointer = machine.callPointer from rfl]
  dsimp only
  split
  · exact live.fail .callStackUnderflow
  · have back := (live.leaves.setCallPointer (machine.callPointer - 2)).setPointer
      (addressOf (machine.memory.read (Layout.callStackStart + (machine.callPointer - 2)))
        (machine.memory.read (Layout.callStackStart + (machine.callPointer - 2) + 1)))
    exact alike ⟨back, live.active, live.clean⟩

theorem execute (live : Live before machine) (operation : Operation) :
    Alike before (machine.execute operation) (machine.awake.execute operation) := by
  have leaves := live.leaves
  have done {after : Machine} (leaves : Leaves before after) :
      Alike before (after, none) (after.awake, none) :=
    alike ⟨leaves, live.active, live.clean⟩
  cases operation with
  | inp =>
    cases given : machine.input with
    | nil =>
      simp only [Machine.execute, show machine.awake.input = machine.input from rfl, given]
      exact live.halt
    | cons value rest =>
      simp only [Machine.execute, show machine.awake.input = machine.input from rfl, given]
      exact done ((leaves.takeInput rest).push value)
  | out =>
    have dropped : Live before machine.drop := ⟨leaves.drop, live.active, live.clean⟩
    exact dropped.emit machine.top
  | del => exact done leaves.drop
  | dup => exact done ((leaves.drop.push machine.top).push machine.top)
  | swp => exact done ((leaves.drop.drop.push machine.top).push machine.drop.top)
  | rot =>
    simp only [Machine.execute, top_awake, drop_awake, push_awake]
    exact done (((leaves.drop.drop.drop.push machine.drop.top).push machine.top).push
      machine.drop.drop.top)
  | len => exact done (leaves.push (Int8.ofNat machine.depth))
  | pze => exact done (leaves.push 0)
  | psh => exact done (leaves.push (machine.operandByte 1).toInt8)
  | inc => exact done (leaves.mapTop (· + 1))
  | dec => exact done (leaves.mapTop (· - 1))
  | neg => exact done (leaves.mapTop (- ·))
  | add => exact done (leaves.mapTopTwo (· + ·))
  | sub => exact done (leaves.mapTopTwo (· - ·))
  | jmp => exact done leaves.jump
  | jez | jnz | jlz | jgz =>
    simp only [Machine.execute, jumpIf_awake]
    exact done (leaves.jumpIf _)
  | jsr => exact live.call
  | ret => exact live.giveBack
  | lod => exact done (leaves.push machine.registers[machine.operandRegister])
  | sav => exact done (leaves.drop.setRegister machine.operandRegister machine.top)
  | hlt => exact live.halt
  | brk => exact ⟨rfl, rfl, leaves.cycles⟩
  | rng => exact done (leaves.draw.push (Keystream.byte machine.seed machine.drawn).toInt8)
  | dmp => exact done (leaves.noteDump machine.dump)

theorem perform (live : Live before machine) (pointer : Nat) (operation : Operation) :
    Alike before (machine.perform pointer operation)
      (machine.awake.perform pointer operation) := by
  unfold Machine.perform
  rw [show machine.awake.depth = machine.depth from rfl]
  split
  · exact live.fail .stackUnderflow
  · split
    · exact live.fail .stackOverflow
    · have moved : Live before (machine.setPointer (pointer + operation.encodedLength)) :=
        ⟨live.leaves.setPointer _, live.active, live.clean⟩
      exact moved.execute operation

end Live

/-- A step of a paused machine is a step of the same machine running, up to resuming. -/
theorem alike_step (active : machine.status ≠ .stopped) (clean : machine.fault? = none) :
    Alike machine.begin machine.step machine.awake.step := by
  have live : Live machine.begin machine.begin :=
    ⟨⟨rfl, rfl, rfl, rfl, rfl, rfl⟩, active, clean⟩
  unfold step
  rw [if_neg active, if_neg (show machine.awake.status ≠ .stopped from nofun),
    show machine.awake.pointer = machine.pointer from rfl,
    show machine.awake.begin = machine.begin.awake from rfl]
  dsimp only
  rw [show machine.begin.awake.memory = machine.begin.memory from rfl]
  split
  · exact live.fail _
  · split
    · exact live.halt
    · split
      · exact live.fail _
      · exact live.perform _ _

/-- Every instruction that is started counts, whatever becomes of it. -/
theorem cycles_step (active : machine.status ≠ .stopped) (clean : machine.fault? = none) :
    machine.step.1.cycles = machine.cycles + 1 :=
  (alike_step active clean).cycles

/-! ### What resuming does not change -/

theorem status_resume (active : machine.status ≠ .stopped) (clean : machine.fault? = none) :
    machine.resume.status = .running := by
  rw [resume_eq_awake active clean]
  rfl

theorem cycles_resume (machine : Machine) : machine.resume.cycles = machine.cycles := by
  unfold resume
  split <;> rfl

theorem spend_resume (machine : Machine) (limit : Nat) :
    machine.resume.spend limit = machine.spend limit := by
  unfold resume
  split <;> rfl

/-! ### How a run ends -/

/-- The run through all pauses ends with this result, given enough fuel. -/
def EndsWith (machine : Machine) (budget? : Option Nat) (result : Machine × Option Fault) : Prop :=
  ∃ enough, ∀ fuel, enough ≤ fuel → machine.runThrough budget? fuel = some result

theorem EndsWith.unique (ends : machine.EndsWith budget? result)
    (also : machine.EndsWith budget? other) : result = other := by
  obtain ⟨enough, all⟩ := ends
  obtain ⟨plenty, more⟩ := also
  have first := all (max enough plenty) (Nat.le_max_left _ _)
  have second := more (max enough plenty) (Nat.le_max_right _ _)
  exact Option.some.inj (first.symm.trans second)

/-- What the first look at the machine decides. -/
theorem EndsWith.of_look
    (look : ∀ fuel, machine.runThrough budget? (fuel + 1) = some result) :
    machine.EndsWith budget? result := by
  refine ⟨1, fun fuel enough => ?_⟩
  obtain ⟨rest, rfl⟩ := Nat.exists_eq_add_of_le' enough
  exact look rest

/-- What is left to another machine after the first look. -/
theorem endsWith_of_next {next : Machine}
    (look : ∀ fuel, machine.runThrough budget? (fuel + 1) = next.runThrough budget? fuel) :
    machine.EndsWith budget? result ↔ next.EndsWith budget? result := by
  constructor
  · rintro ⟨enough, all⟩
    exact ⟨enough, fun fuel le => (look fuel).symm.trans (all (fuel + 1) (Nat.le_succ_of_le le))⟩
  · rintro ⟨enough, all⟩
    refine ⟨enough + 1, fun fuel le => ?_⟩
    obtain ⟨rest, rfl⟩ := Nat.exists_eq_add_of_le' (Nat.le_of_add_left_le le)
    exact (look rest).trans (all rest (Nat.le_of_succ_le_succ le))

theorem endsWith_of_stopped (stopped : machine.status = .stopped) :
    machine.EndsWith budget? (machine, machine.fault?) := by
  refine .of_look fun fuel => ?_
  rw [runThrough, stopped]

/-- Resuming first makes no difference. -/
theorem endsWith_resume :
    machine.resume.EndsWith budget? result ↔ machine.EndsWith budget? result := by
  cases status : machine.status with
  | running | stopped => rw [resume_of_not_paused (status ▸ nofun)]
  | paused =>
    refine (endsWith_of_next fun fuel => ?_).symm
    rw [runThrough, status]

theorem spentLimit?_eq_none (unspent : ∀ limit, budget? = some limit → machine.cycles < limit) :
    machine.spentLimit? budget? = none := by
  refine Option.filter_eq_none_iff.mpr fun limit given => ?_
  rw [decide_eq_true_eq]
  exact Nat.not_le_of_lt (unspent limit given)

theorem endsWith_of_spent (active : machine.status ≠ .stopped) (clean : machine.fault? = none)
    (spent : limit ≤ machine.cycles) :
    machine.EndsWith (some limit) (machine.spend limit) := by
  rw [← endsWith_resume, ← spend_resume]
  refine .of_look fun fuel => ?_
  have used : machine.resume.spentLimit? (some limit) = some limit := by
    rw [spentLimit?, cycles_resume]
    exact if_pos (decide_eq_true spent)
  rw [runThrough, status_resume active clean]
  dsimp only
  rw [used]
  rfl

end Machine

variable {image : Image} {feed : Feed} {machine : Machine} {budget? : Option Nat}
  {result : Machine × Option Fault} {count limit : Nat}

namespace Reached

open Machine

theorem resume (reached : Reached image feed machine) : Reached image feed machine.resume :=
  .call .resume 0 reached rfl

theorem stopped_of_fault (reached : Reached image feed machine) (fault : machine.fault? ≠ none) :
    machine.status = .stopped := by
  obtain ⟨seed, sound⟩ := reached.exists_sound
  exact sound.stopped_of_fault fault

theorem clean (reached : Reached image feed machine) (active : machine.status ≠ .stopped) :
    machine.fault? = none := by
  cases recorded : machine.fault? with
  | none => rfl
  | some fault =>
    exact absurd (reached.stopped_of_fault (recorded ▸ Option.some_ne_none fault)) active

/-- A running machine whose budget is not used up takes a step. -/
theorem endsWith_running (reached : Reached image feed machine)
    (running : machine.status = .running) (unspent : machine.spentLimit? budget? = none)
    (ends : machine.step.1.EndsWith budget? result) : machine.EndsWith budget? result := by
  cases stepped : machine.step with
  | mk next report? =>
    rw [stepped] at ends
    cases report? with
    | none =>
      refine (endsWith_of_next fun fuel => ?_).mpr ends
      rw [runThrough, running]
      dsimp only
      rw [unspent, stepped]
    | some fault =>
      -- The run reports the fault at once, where another look would have found it recorded.
      have recorded : next.fault? = some fault := by
        have honest := reports_step machine
        rw [stepped] at honest
        exact honest fault rfl
      have after : Reached image feed next := by
        have reachedNext := reached.step
        rw [stepped] at reachedNext
        exact reachedNext
      have stopped := after.stopped_of_fault (recorded ▸ Option.some_ne_none fault)
      have last := (endsWith_of_stopped stopped).unique ends
      rw [recorded] at last
      refine .of_look fun fuel => ?_
      rw [runThrough, running]
      dsimp only
      rw [unspent, stepped, ← last]

/-- A machine whose budget is not used up takes a step, also when it is paused. -/
theorem endsWith_step (reached : Reached image feed machine) (active : machine.status ≠ .stopped)
    (unspent : ∀ limit, budget? = some limit → machine.cycles < limit)
    (ends : machine.step.1.EndsWith budget? result) : machine.EndsWith budget? result := by
  have clean := reached.clean active
  have left : machine.resume.spentLimit? budget? = none := by
    refine spentLimit?_eq_none fun limit given => ?_
    rw [cycles_resume]
    exact unspent limit given
  have next : machine.resume.step.1.EndsWith budget? result := by
    rw [← endsWith_resume, resume_eq_awake active clean, ← (alike_step active clean).resumed,
      endsWith_resume]
    exact ends
  exact endsWith_resume.mp (reached.resume.endsWith_running (status_resume active clean) left next)

/-- While the machine is not stopped, every step counts, also those of a paused machine. -/
theorem cycles_steps (reached : Reached image feed machine)
    (active : ∀ earlier < count, (machine.steps earlier).status ≠ .stopped) :
    (machine.steps count).cycles = machine.cycles + count := by
  induction count with
  | zero => rfl
  | succ count inductionHypothesis =>
    have still := active count (Nat.lt_succ_self count)
    rw [steps_succ, cycles_step still ((reached.steps count).clean still),
      inductionHypothesis fun earlier less => active earlier (Nat.lt_succ_of_lt less),
      Nat.add_assoc]

/-- A run takes as many steps as the budget allows. -/
theorem endsWith_steps (reached : Reached image feed machine)
    (active : ∀ earlier < count, (machine.steps earlier).status ≠ .stopped)
    (unspent : ∀ limit, budget? = some limit → machine.cycles + count ≤ limit)
    (ends : (machine.steps count).EndsWith budget? result) : machine.EndsWith budget? result := by
  induction count with
  | zero => exact ends
  | succ count inductionHypothesis =>
    have earlier (index : Nat) (less : index < count) := active index (Nat.lt_succ_of_lt less)
    refine inductionHypothesis earlier (fun limit given => ?_) ?_
    · exact Nat.le_of_succ_le (unspent limit given)
    · rw [steps_succ] at ends
      refine (reached.steps count).endsWith_step (active count (Nat.lt_succ_self count)) ?_ ends
      intro limit given
      rw [reached.cycles_steps earlier]
      exact unspent limit given

end Reached

/-! ### Budgets -/

namespace Machine

/-- The least number of steps after which the machine is stopped. -/
structure StopsAfter (machine : Machine) (count : Nat) : Prop where
  stopped : (machine.steps count).status = .stopped
  active : ∀ earlier < count, (machine.steps earlier).status ≠ .stopped

theorem exists_stopsAfter (stopped : (machine.steps count).status = .stopped) :
    ∃ least ≤ count, machine.StopsAfter least := by
  have some : ∃ count, (machine.steps count).status = .stopped := ⟨count, stopped⟩
  exact ⟨Nat.find some, Nat.find_min' some stopped, Nat.find_spec some, fun _ => Nat.find_min some⟩

/-- Further steps leave a machine as it stopped. -/
theorem steps_of_stopped {later : Nat} (stopped : (machine.steps count).status = .stopped)
    (le : count ≤ later) : machine.steps later = machine.steps count := by
  induction le with
  | refl => rfl
  | step le inductionHypothesis =>
    rw [steps_succ, inductionHypothesis, step_of_stopped stopped]

/-- A machine stops only once. -/
theorem StopsAfter.unique {other : Nat} (stops : machine.StopsAfter count)
    (also : machine.StopsAfter other) : count = other := by
  rcases Nat.lt_trichotomy count other with less | same | less
  · exact absurd stops.stopped (also.active count less)
  · exact same
  · exact absurd also.stopped (stops.active other less)

/-- How the run through all pauses ends under a budget, compared with single steps. -/
structure Budgeted (machine : Machine) (limit : Nat) : Prop where
  ends : ∃ result, machine.EndsWith (some limit) result
  /-- A stopped machine stays as it is. -/
  stopped : machine.status = .stopped →
    ∀ budget?, machine.EndsWith budget? (machine, machine.fault?)
  /-- A run that stops by itself within the budget does so under every larger budget and without
  one, and always at the same machine. -/
  within : ∀ count, machine.StopsAfter count → machine.cycles + count ≤ limit →
    ∀ budget?, (∀ larger, budget? = some larger → limit ≤ larger) →
      machine.EndsWith budget? (machine.steps count, (machine.steps count).fault?)
  /-- Any other run is cut off when exactly as many instructions have been started as the budget
  allows. -/
  spent : (∀ count, machine.StopsAfter count → limit < machine.cycles + count) →
    machine.cycles ≤ limit → ∃ last fault, last = machine.steps (limit - machine.cycles) ∧
      last.cycles = limit ∧ fault = ⟨.cycleBudgetExceeded limit, last.pointer⟩ ∧
      machine.EndsWith (some limit)
        ({ last with status := .stopped, current := last.pointer, fault? := some fault },
          some fault)
  /-- Nothing is executed when the budget was used up before. -/
  exceeded : machine.status ≠ .stopped → limit < machine.cycles →
    ∃ fault, fault = ⟨.cycleBudgetExceeded limit, machine.pointer⟩ ∧
      machine.EndsWith (some limit)
        ({ machine with status := .stopped, current := machine.pointer, fault? := some fault },
          some fault)
  /-- Each step takes one cycle, whether the machine is running or paused. -/
  cycles : ∀ count, (∀ earlier < count, (machine.steps earlier).status ≠ .stopped) →
    (machine.steps count).cycles = machine.cycles + count
  /-- Pausing first makes no difference. -/
  pause : ∀ budget? result,
    machine.pause.EndsWith budget? result ↔ machine.EndsWith budget? result

end Machine

open Machine

theorem Reached.endsWith_within (reached : Reached image feed machine)
    (stops : machine.StopsAfter count)
    (enough : ∀ limit, budget? = some limit → machine.cycles + count ≤ limit) :
    machine.EndsWith budget? (machine.steps count, (machine.steps count).fault?) :=
  reached.endsWith_steps stops.active enough (endsWith_of_stopped stops.stopped)

/-- Unless the machine stops by itself before, it goes on until the budget is used up. -/
theorem Reached.endsWith_spent (reached : Reached image feed machine)
    (never : ∀ count, machine.StopsAfter count → limit < machine.cycles + count)
    (left : machine.cycles ≤ limit) :
    (machine.steps (limit - machine.cycles)).cycles = limit ∧
      machine.EndsWith (some limit) ((machine.steps (limit - machine.cycles)).spend limit) := by
  have active (count : Nat) (short : count ≤ limit - machine.cycles) :
      (machine.steps count).status ≠ .stopped := by
    intro stopped
    -- Being stopped after some steps means having stopped by itself within the budget.
    obtain ⟨least, le, stops⟩ := exists_stopsAfter stopped
    have := never least stops
    omega
  have earlier (count : Nat) (less : count < limit - machine.cycles) :=
    active count (Nat.le_of_lt less)
  have last := active _ (Nat.le_refl _)
  have cycles : (machine.steps (limit - machine.cycles)).cycles = limit := by
    rw [reached.cycles_steps earlier, Nat.add_sub_cancel' left]
  refine ⟨cycles, reached.endsWith_steps earlier (fun other given => ?_) ?_⟩
  · rw [Nat.add_sub_cancel' left]
    exact Nat.le_of_eq (Option.some.inj given)
  · exact endsWith_of_spent last ((reached.steps _).clean last) (Nat.le_of_eq cycles.symm)

theorem Reached.exists_endsWith (reached : Reached image feed machine) (limit : Nat) :
    ∃ result, machine.EndsWith (some limit) result := by
  by_cases stops : ∃ count, machine.StopsAfter count ∧ machine.cycles + count ≤ limit
  · obtain ⟨count, stopped, within⟩ := stops
    refine ⟨_, reached.endsWith_within stopped fun other given => ?_⟩
    rw [← Option.some.inj given]
    exact within
  by_cases left : machine.cycles ≤ limit
  · exact ⟨_, (reached.endsWith_spent (fun count stopped =>
      Nat.lt_of_not_le fun within => stops ⟨count, stopped, within⟩) left).2⟩
  by_cases stopped : machine.status = .stopped
  · exact ⟨_, endsWith_of_stopped stopped⟩
  · exact ⟨_, endsWith_of_spent stopped (reached.clean stopped) (Nat.le_of_not_le left)⟩

theorem Reached.endsWith_pause (reached : Reached image feed machine) :
    machine.pause.EndsWith budget? result ↔ machine.EndsWith budget? result := by
  unfold Machine.pause
  split
  · next running =>
    have active : machine.status ≠ .stopped := by
      rw [running]
      exact nofun
    have again : { machine with status := .paused }.resume = machine := by
      have woken := @resume_eq_awake { machine with status := .paused } nofun (reached.clean active)
      rw [woken, awake, ← running]
    rw [← endsWith_resume, again]
  · exact Iff.rfl

/-- A run under a budget always ends. When single steps stop the machine within the budget, the
run ends as they do, and a larger budget changes nothing. Otherwise the run is cut off after as
many steps as the budget allows. -/
theorem budgeted_of_reached (reached : Reached image feed machine) (limit : Nat) :
    machine.Budgeted limit where
  ends := reached.exists_endsWith limit
  stopped stopped _ := endsWith_of_stopped stopped
  within count stops bound budget? larger :=
    reached.endsWith_within stops fun more given => Nat.le_trans bound (larger more given)
  spent never left := by
    obtain ⟨cycles, ends⟩ := reached.endsWith_spent never left
    exact ⟨_, _, rfl, cycles, rfl, ends⟩
  exceeded active beyond :=
    ⟨_, rfl, endsWith_of_spent active (reached.clean active) (Nat.le_of_lt beyond)⟩
  cycles count := reached.cycles_steps
  pause budget? result := reached.endsWith_pause

/-- A program that has run up to its break, with two instructions left. A budget that allows for
both, and no budget at all, lets it end by itself. A smaller one cuts it off in front of the last
instruction, or where it is. -/
theorem budgeted_of_reached_paused :
    ∃ image machine, Reached image ⟨[], none, []⟩ machine ∧ machine.status = .paused ∧
      machine.cycles = 2 ∧
      (∃ last, last.cycles = 4 ∧ last.pointer = 5 ∧
        ∀ budget?, (∀ larger, budget? = some larger → 4 ≤ larger) →
          machine.EndsWith budget? (last, none)) ∧
      (∃ last, machine.EndsWith (some 3) (last, some ⟨.cycleBudgetExceeded 3, 4⟩) ∧
        last.cycles = 3) ∧
      machine.EndsWith (some 2)
        ({ machine with
            status := .stopped, current := 3, fault? := some ⟨.cycleBudgetExceeded 2, 3⟩ },
          some ⟨.cycleBudgetExceeded 2, 3⟩) := by
  obtain ⟨image, code⟩ := Image.exists_program [Operation.psh.code, 7, Operation.brk.code,
    Operation.del.code, Operation.hlt.code] (by decide)
  have reached := (Reached.start image ⟨[], none, []⟩ 0).steps 2
  have shows := (shows_start_of_codeRegion code ⟨[], none, []⟩ 0).steps 2
  generalize (start image ⟨[], none, []⟩ 0).steps 2 = machine at reached shows
  have cycles : machine.cycles = 2 := shows.cycles_eq
  have active : ∀ count < 2, (machine.steps count).status ≠ .stopped
    | 0, _ => (shows.steps 0).status_eq.trans_ne nofun
    | 1, _ => (shows.steps 1).status_eq.trans_ne nofun
  have stops : machine.StopsAfter 2 := ⟨(shows.steps 2).status_eq, active⟩
  have never (limit : Nat) (less : limit < 4) (count : Nat) (also : machine.StopsAfter count) :
      limit < machine.cycles + count := by
    rw [cycles, ← stops.unique also]
    exact less
  have ended := (budgeted_of_reached reached 4).within 2 stops (by rw [cycles])
  rw [(shows.steps 2).fault?_eq] at ended
  obtain ⟨_, _, rfl, three, rfl, cutOff⟩ :=
    (budgeted_of_reached reached 3).spent (never 3 (by decide)) (by rw [cycles]; decide)
  obtain ⟨_, _, rfl, _, rfl, atOnce⟩ :=
    (budgeted_of_reached reached 2).spent (never 2 (by decide)) (by rw [cycles])
  rw [cycles] at three cutOff atOnce
  rw [show (machine.steps (3 - 2)).pointer = 4 from (shows.steps 1).pointer_eq] at cutOff
  rw [show (machine.steps (2 - 2)).pointer = 3 from shows.pointer_eq] at atOnce
  exact ⟨image, machine, reached, shows.status_eq, cycles,
    ⟨_, (shows.steps 2).cycles_eq, (shows.steps 2).pointer_eq, ended⟩, ⟨_, cutOff, three⟩, atOnce⟩

end ByteStack
