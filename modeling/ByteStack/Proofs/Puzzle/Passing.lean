/-
This file says what it means that a program passes a run of a puzzle, without
any grading. A machine of its own is fed the inbox and is not told what to put
out. It stops by itself without a fault, has put out the outbox by then, and
needed no more cycles than the budget of the run allows, if there is one.

The machine that is graded is told, and stops at the first value that is wrong.
Still it ends without a fault just when the program passes, after as many cycles
and with the same output.
-/

import ByteStack.Proofs.Machine.Budget
import ByteStack.Proofs.Machine.Grading
import ByteStack.Puzzle.Grading

namespace ByteStack

/-! ### The end of a run -/

namespace Machine

variable {machine free graded : Machine} {expected : List Int8} {count : Nat}

/-- A machine stops in a good state after so many steps, when it is stopped in a good state then,
and was not before. -/
theorem stopsAfter_and_iff (good : Machine → Prop) :
    machine.StopsAfter count ∧ good (machine.steps count) ↔
      ((machine.steps count).status = .stopped ∧ good (machine.steps count)) ∧
        ∀ earlier < count,
          ¬((machine.steps earlier).status = .stopped ∧ good (machine.steps earlier)) := by
  constructor
  · rintro ⟨stops, well⟩
    exact ⟨⟨stops.stopped, well⟩, fun earlier less already => stops.active earlier less already.1⟩
  · rintro ⟨⟨stopped, well⟩, first⟩
    refine ⟨⟨stopped, fun earlier less already => first earlier less ⟨already, ?_⟩⟩, well⟩
    rw [← steps_of_stopped already (Nat.le_of_lt less)]
    exact well

theorem related_steps_start (image : Image) (input stack expected : List Int8) (seed : UInt64)
    (count : Nat) :
    Related expected ((start image ⟨input, none, stack⟩ seed).steps count)
      ((start image ⟨input, some expected, stack⟩ seed).steps count) := by
  have shows := shows_start image ⟨input, none, stack⟩ seed
  have running : (start image ⟨input, none, stack⟩ seed).status = .running :=
    shows.status_eq
  have active : (start image ⟨input, none, stack⟩ seed).status ≠ .stopped := running ▸ nofun
  have silent : (start image ⟨input, none, stack⟩ seed).output.toList = [] :=
    congrArg ListMachine.output shows.view_eq
  rw [start_expecting]
  exact (Related.of_silent active silent).steps (fun count => (shows.steps count).sound) rfl count

/-- The graded run stops without a fault after so many steps, when the free run does with the
expected output. -/
theorem stopsAfter_clean_iff
    (related : ∀ count, Related expected (free.steps count) (graded.steps count)) :
    graded.StopsAfter count ∧ (graded.steps count).fault? = none ↔
      free.StopsAfter count ∧ (free.steps count).fault? = none ∧
        (free.steps count).output.toList = expected := by
  rw [stopsAfter_and_iff fun machine => machine.fault? = none,
    stopsAfter_and_iff fun machine => machine.fault? = none ∧ machine.output.toList = expected]
  simp only [fun count => (related count).verdict]

end Machine

/-! ### Passing -/

namespace Puzzle

variable {settings : RunSettings} {assembly : Assembly} {run : PuzzleRun} {count : Nat}

/-- The machine at the start of a run that is not graded. -/
def freeMachineOf (settings : RunSettings) (assembly : Assembly) (run : PuzzleRun) : Machine :=
  Machine.start assembly.image ⟨run.inbox, none, []⟩ settings.seed

/-- The program passes the run in so many cycles. -/
structure Passes (settings : RunSettings) (assembly : Assembly) (run : PuzzleRun) (count : Nat) :
    Prop where
  stops : (freeMachineOf settings assembly run).StopsAfter count
  clean : ((freeMachineOf settings assembly run).steps count).fault? = none
  output : ((freeMachineOf settings assembly run).steps count).output.toList = run.outbox
  within : ∀ limit, budget? settings run = some limit → count ≤ limit

/-- The run has a budget, or its machine stops by itself. -/
def Bounded (settings : RunSettings) (assembly : Assembly) (run : PuzzleRun) : Prop :=
  budget? settings run ≠ none ∨
    ∃ count, ((machineOf settings assembly run).steps count).status = .stopped

theorem related_steps (settings : RunSettings) (assembly : Assembly) (run : PuzzleRun)
    (count : Nat) :
    Machine.Related run.outbox ((freeMachineOf settings assembly run).steps count)
      ((machineOf settings assembly run).steps count) :=
  Machine.related_steps_start assembly.image run.inbox [] run.outbox settings.seed count

/-- The program passes when the graded machine stops within the budget without a fault. -/
theorem passes_iff :
    Passes settings assembly run count ↔
      ((machineOf settings assembly run).StopsAfter count ∧
        ((machineOf settings assembly run).steps count).fault? = none) ∧
          ∀ limit, budget? settings run = some limit → count ≤ limit := by
  rw [Machine.stopsAfter_clean_iff (related_steps settings assembly run)]
  exact ⟨fun passes => ⟨⟨passes.stops, passes.clean, passes.output⟩, passes.within⟩,
    fun ⟨⟨stops, clean, output⟩, within⟩ => ⟨stops, clean, output, within⟩⟩

/-- Whether the program passes can be read off the machine of lists. -/
theorem passes_of_lists {last : ListMachine} {code : List UInt8}
    (known : assembly.image.codeRegion = code)
    (active : ∀ earlier < count, ((ListMachine.start ⟨run.inbox, none, []⟩).steps
      ⟨code, none, Keystream.byte settings.seed⟩ earlier).status ≠ .stopped)
    (ended : (ListMachine.start ⟨run.inbox, none, []⟩).steps
      ⟨code, none, Keystream.byte settings.seed⟩ count = last)
    (stopped : last.status = .stopped) (clean : last.fault? = none)
    (output : last.output = run.outbox)
    (within : ∀ limit, budget? settings run = some limit → count ≤ limit) :
    Passes settings assembly run count := by
  have start := Machine.shows_start_of_codeRegion known ⟨run.inbox, none, []⟩ settings.seed
  have shown := start.steps count
  rw [ended] at shown
  refine ⟨⟨shown.status_eq.trans stopped, fun earlier less already => ?_⟩,
    shown.fault?_eq.trans clean, (congrArg ListMachine.output shown.view_eq).trans output, within⟩
  exact active earlier less ((start.steps earlier).status_eq.symm.trans already)

theorem reached_machineOf (settings : RunSettings) (assembly : Assembly) (run : PuzzleRun) :
    Reached assembly.image ⟨run.inbox, some run.outbox, []⟩ (machineOf settings assembly run) :=
  .start assembly.image _ settings.seed

theorem cycles_machineOf (settings : RunSettings) (assembly : Assembly) (run : PuzzleRun) :
    (machineOf settings assembly run).cycles = 0 :=
  have shows := Machine.shows_start assembly.image ⟨run.inbox, some run.outbox, []⟩ settings.seed
  shows.cycles_eq

/-! ### How the graded run ends -/

/-- The end of a run tells whether the program passes, and in how many cycles. -/
structure Tells (settings : RunSettings) (assembly : Assembly) (run : PuzzleRun)
    (result : Machine × Option Fault) : Prop where
  passes : result.2 = none ↔ ∃ count, Passes settings assembly run count
  counts : ∀ count, Passes settings assembly run count →
    result.1.cycles = count ∧ result.1.output.toList = run.outbox
  within : ∀ limit, budget? settings run = some limit → result.1.cycles ≤ limit

/-- A graded machine that stops by itself within the budget. -/
theorem tells_of_stopsAfter (stops : (machineOf settings assembly run).StopsAfter count)
    (within : ∀ limit, budget? settings run = some limit → count ≤ limit) :
    Tells settings assembly run ((machineOf settings assembly run).steps count,
      ((machineOf settings assembly run).steps count).fault?) := by
  have cycles : ((machineOf settings assembly run).steps count).cycles = count := by
    rw [(reached_machineOf settings assembly run).cycles_steps stops.active, cycles_machineOf,
      Nat.zero_add]
  refine ⟨⟨fun clean => ⟨count, passes_iff.mpr ⟨⟨stops, clean⟩, within⟩⟩, ?_⟩, ?_, ?_⟩
  · rintro ⟨other, passes⟩
    obtain ⟨⟨also, clean⟩, _⟩ := passes_iff.mp passes
    obtain rfl := stops.unique also
    exact clean
  · intro other passes
    obtain ⟨⟨also, clean⟩, _⟩ := passes_iff.mp passes
    obtain rfl := stops.unique also
    refine ⟨cycles, ?_⟩
    rw [(related_steps settings assembly run count).output_eq clean]
    exact passes.output
  · intro limit given
    rw [cycles]
    exact within limit given

/-- A graded machine that is cut off by the budget. -/
theorem tells_of_spent {limit : Nat} (given : budget? settings run = some limit)
    (never : ∀ count, (machineOf settings assembly run).StopsAfter count → limit < count)
    {last : Machine} (cycles : last.cycles = limit) :
    Tells settings assembly run (last.spend limit) := by
  have fails (count : Nat) : ¬Passes settings assembly run count := by
    intro passes
    obtain ⟨⟨stops, _⟩, within⟩ := passes_iff.mp passes
    exact Nat.not_le_of_lt (never count stops) (within limit given)
  refine ⟨⟨nofun, fun ⟨count, passes⟩ => absurd passes (fails count)⟩,
    fun count passes => absurd passes (fails count), ?_⟩
  intro other also
  rw [← Option.some.inj (given.symm.trans also)]
  exact Nat.le_of_eq cycles

/-- The graded run ends. -/
theorem exists_endsWith (bounded : Bounded settings assembly run) :
    ∃ result, (machineOf settings assembly run).EndsWith (budget? settings run) result ∧
      Tells settings assembly run result := by
  have reached := reached_machineOf settings assembly run
  have fresh := cycles_machineOf settings assembly run
  by_cases stops : ∃ count, (machineOf settings assembly run).StopsAfter count ∧
      ∀ limit, budget? settings run = some limit → count ≤ limit
  · obtain ⟨count, stops, within⟩ := stops
    refine ⟨_, reached.endsWith_within stops ?_, tells_of_stopsAfter stops within⟩
    rw [fresh, Nat.zero_add]
    exact within
  · cases given : budget? settings run with
    | none =>
      obtain ⟨count, stopped⟩ := bounded.resolve_left fun budgeted => budgeted given
      obtain ⟨least, _, first⟩ := Machine.exists_stopsAfter stopped
      exact absurd ⟨least, first, by rw [given]; exact nofun⟩ stops
    | some limit =>
      have never (count : Nat) (stopped : (machineOf settings assembly run).StopsAfter count) :
          limit < count := by
        refine Nat.lt_of_not_le fun within => stops ⟨count, stopped, fun other also => ?_⟩
        rw [← Option.some.inj (given.symm.trans also)]
        exact within
      obtain ⟨cycles, ends⟩ := reached.endsWith_spent
        (fun count stopped => by rw [fresh, Nat.zero_add]; exact never count stopped)
        (by rw [fresh]; exact Nat.zero_le limit)
      exact ⟨_, ends, tells_of_spent given never cycles⟩

end Puzzle

end ByteStack
