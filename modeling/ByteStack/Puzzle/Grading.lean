/-
This file grades a program against a puzzle. Every run of the puzzle is
executed on a machine of its own, whatever became of the runs before it. A run
passes when its machine stops without a fault, which includes that it put out
exactly the outbox.
-/

import ByteStack.Diagnostic
import ByteStack.Machine.Run
import ByteStack.Puzzle.Basic

namespace ByteStack

/-- How to execute runs. -/
structure RunSettings where
  seed : UInt64
  /-- The cycle budget of runs that do not set their own. -/
  maxCycles? : Option UInt64

/-- What became of one run. -/
structure RunVerdict where
  /-- Counts from zero. -/
  index : Nat
  passed : Bool
  cycles : Nat
  output : List Int8
  fault? : Option Fault
  /-- The fault as it is shown. -/
  diagnostic? : Option String
deriving DecidableEq

/-- What became of all runs of a puzzle. -/
structure PuzzleVerdict where
  puzzle : String
  runs : List RunVerdict
  /-- The code size of the program, in bytes. -/
  size : Nat
  sizeGoal : Nat
deriving DecidableEq

namespace PuzzleVerdict

def passed (verdict : PuzzleVerdict) : Bool :=
  verdict.runs.all fun run => run.passed

def passCount (verdict : PuzzleVerdict) : Nat :=
  verdict.runs.countP fun run => run.passed

def meetsSizeGoal (verdict : PuzzleVerdict) : Bool :=
  verdict.size ≤ verdict.sizeGoal

def cycleCount (verdict : PuzzleVerdict) : Nat :=
  verdict.runs.foldl (fun total run => total + run.cycles) 0

end PuzzleVerdict

namespace Puzzle

/-- The cycle budget of a run. Its own comes before that of the settings. -/
def budget? (settings : RunSettings) (run : PuzzleRun) : Option Nat :=
  (run.cycles?.or settings.maxCycles?).map UInt64.toNat

/-- The machine at the start of a run. -/
def machineOf (settings : RunSettings) (assembly : Assembly) (run : PuzzleRun) : Machine :=
  Machine.start assembly.image ⟨run.inbox, some run.outbox, []⟩ settings.seed

/-- Grades one run. There is no verdict when the fuel is used up. -/
def gradeRun (fuel : Nat) (settings : RunSettings) (assembly : Assembly) (index : Nat)
    (run : PuzzleRun) : Option RunVerdict :=
  ((machineOf settings assembly run).runThrough (budget? settings run) fuel).map
    fun (machine, fault?) =>
      { index := index
        passed := fault?.isNone
        cycles := machine.cycles
        output := machine.output.toList
        fault? := fault?
        diagnostic? := fault?.map fun fault => (Diagnostic.ofFault assembly.map fault).render }

/-- Grades runs, of which the first one has the given index. -/
def gradeRuns (fuel : Nat) (settings : RunSettings) (assembly : Assembly) (index : Nat) :
    List PuzzleRun → Option (List RunVerdict)
  | [] => some []
  | run :: runs =>
    (gradeRun fuel settings assembly index run).bind fun verdict =>
      (gradeRuns fuel settings assembly (index + 1) runs).map (verdict :: ·)

/-- Grades all runs of a puzzle. -/
def grade (fuel : Nat) (settings : RunSettings) (assembly : Assembly) (puzzle : Puzzle) :
    Option PuzzleVerdict :=
  (gradeRuns fuel settings assembly 0 puzzle.runs).map fun runs =>
    { puzzle := puzzle.name
      runs := runs
      size := assembly.image.codeLength
      sizeGoal := puzzle.sizeGoal.toNat }

end Puzzle

end ByteStack
