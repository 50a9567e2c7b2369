/-
This file shows what the grading of a puzzle comes to. Each run has one verdict,
in the order of the runs. The verdict on a run says whether the program passes
it, and depends on nothing but the run, the program and the settings: neither on
the other runs nor on the place of the run among them, which is only noted.
-/

import ByteStack.Proofs.Puzzle.Passing

namespace ByteStack.Puzzle

variable {settings : RunSettings} {assembly : Assembly} {run : PuzzleRun} {runs : List PuzzleRun}
  {report : PuzzleRun → RunVerdict} {fuel : Nat}

/-! ### One run -/

/-- The verdict is right about the run. -/
structure Right (settings : RunSettings) (assembly : Assembly) (run : PuzzleRun)
    (verdict : RunVerdict) : Prop where
  passed : verdict.passed = true ↔ ∃ count, Passes settings assembly run count
  /-- A run that is passed has the cycles and the output of the run without grading. -/
  counted : ∀ count, Passes settings assembly run count →
    verdict.cycles = count ∧ verdict.output = run.outbox ∧
      verdict.fault? = none ∧ verdict.diagnostic? = none
  /-- A run that is not passed has a fault and shows it. -/
  explained : verdict.passed = false → ∃ fault, verdict.fault? = some fault ∧
    verdict.diagnostic? = some (Diagnostic.ofFault assembly.map fault).render
  within : ∀ limit, budget? settings run = some limit → verdict.cycles ≤ limit

/-- A verdict that is made of the end of the run is right. -/
theorem Tells.right {last : Machine} {fault? : Option Fault}
    (tells : Tells settings assembly run (last, fault?)) (index : Nat) :
    Right settings assembly run
      ⟨index, fault?.isNone, last.cycles, last.output.toList, fault?,
        fault?.map fun fault => (Diagnostic.ofFault assembly.map fault).render⟩ where
  passed := Option.isNone_iff_eq_none.trans tells.passes
  counted := by
    intro count passes
    obtain ⟨cycles, output⟩ := tells.counts count passes
    obtain rfl : fault? = none := tells.passes.mpr ⟨count, passes⟩
    exact ⟨cycles, output, rfl, rfl⟩
  explained := by
    intro failed
    obtain ⟨fault, rfl⟩ := Option.ne_none_iff_exists'.mp fun none => by
      rw [show fault? = _ from none] at failed
      exact nomatch failed
    exact ⟨fault, rfl, rfl⟩
  within := tells.within

/-- With so much fuel the run comes to this verdict, into which its number is put. -/
def ComesTo (fuel : Nat) (settings : RunSettings) (assembly : Assembly) (run : PuzzleRun)
    (verdict : RunVerdict) : Prop :=
  ∀ index, gradeRun fuel settings assembly index run = some { verdict with index := index }

/-- A run that has a budget or stops by itself comes to a verdict, which is right. -/
theorem exists_comesTo (bounded : Bounded settings assembly run) :
    ∃ verdict, Right settings assembly run verdict ∧
      ∃ enough, ∀ fuel, enough ≤ fuel → ComesTo fuel settings assembly run verdict := by
  obtain ⟨⟨last, fault?⟩, ⟨enough, ends⟩, tells⟩ := exists_endsWith bounded
  refine ⟨_, tells.right 0, enough, fun fuel le index => ?_⟩
  rw [gradeRun, ends fuel le]
  rfl

/-- The run of a verdict has ended, without a fault just when it is passed. -/
theorem ComesTo.exists_runThrough {verdict : RunVerdict}
    (comes : ComesTo fuel settings assembly run verdict) :
    ∃ last fault?, (machineOf settings assembly run).runThrough (budget? settings run) fuel =
      some (last, fault?) ∧ verdict.passed = fault?.isNone := by
  obtain ⟨⟨last, fault?⟩, ended, made⟩ := Option.map_eq_some_iff.mp (comes 0)
  exact ⟨last, fault?, ended, (congrArg RunVerdict.passed made).symm⟩

/-! ### All runs -/

/-- Each run that comes to a verdict has its own. -/
theorem exists_report (settings : RunSettings) (assembly : Assembly) :
    ∃ report : PuzzleRun → RunVerdict, ∀ run, Bounded settings assembly run →
      Right settings assembly run (report run) ∧
        ∃ enough, ∀ fuel, enough ≤ fuel → ComesTo fuel settings assembly run (report run) := by
  have each (run : PuzzleRun) : ∃ verdict, Bounded settings assembly run →
      Right settings assembly run verdict ∧
        ∃ enough, ∀ fuel, enough ≤ fuel → ComesTo fuel settings assembly run verdict := by
    by_cases bounded : Bounded settings assembly run
    · obtain ⟨verdict, right⟩ := exists_comesTo bounded
      exact ⟨verdict, fun _ => right⟩
    · exact ⟨⟨0, false, 0, [], none, none⟩, fun bounds => absurd bounds bounded⟩
  exact Classical.axiomOfChoice each

/-- What each run comes to, all runs together come to. -/
theorem gradeRuns_eq (index : Nat)
    (comes : ∀ run ∈ runs, ComesTo fuel settings assembly run (report run)) :
    gradeRuns fuel settings assembly index runs =
      some (runs.mapIdx fun place run => { report run with index := index + place }) := by
  induction runs generalizing index with
  | nil => rfl
  | cons run rest inductionHypothesis =>
    have later := inductionHypothesis (index + 1) fun run member =>
      comes run (List.mem_cons_of_mem _ member)
    rw [gradeRuns, comes run List.mem_cons_self index, later, List.mapIdx_cons]
    simp only [Option.bind_some, Option.map_some, Nat.add_zero, Nat.add_assoc, Nat.add_comm 1]

/-- There is fuel that is enough for each of the runs. -/
theorem exists_fuel {graded : Nat → PuzzleRun → Prop}
    (each : ∀ run ∈ runs, ∃ enough, ∀ fuel, enough ≤ fuel → graded fuel run) :
    ∃ enough, ∀ fuel, enough ≤ fuel → ∀ run ∈ runs, graded fuel run := by
  induction runs with
  | nil => exact ⟨0, fun _ _ _ member => absurd member List.not_mem_nil⟩
  | cons run rest inductionHypothesis =>
    obtain ⟨first, one⟩ := each run List.mem_cons_self
    obtain ⟨second, others⟩ := inductionHypothesis fun run member =>
      each run (List.mem_cons_of_mem _ member)
    refine ⟨max first second, fun fuel le other member => ?_⟩
    rcases List.mem_cons.mp member with rfl | later
    · exact one fuel (Nat.le_trans (Nat.le_max_left _ _) le)
    · exact others fuel (Nat.le_trans (Nat.le_max_right _ _) le) other later

/-- A program passes a puzzle when it passes each run, whatever the runs are numbered. -/
theorem passed_iff (verdict : PuzzleVerdict)
    (same : verdict.runs = runs.mapIdx fun index run => { report run with index := index }) :
    verdict.passed = true ↔ ∀ run ∈ runs, (report run).passed = true := by
  rw [PuzzleVerdict.passed, same, List.all_eq_true]
  simp only [List.mem_mapIdx, forall_exists_index]
  constructor
  · intro all run member
    obtain ⟨index, inside, rfl⟩ := List.mem_iff_getElem.mp member
    exact all { report _ with index := index } index inside rfl
  · rintro all _ index inside rfl
    exact all _ (List.getElem_mem inside)

end ByteStack.Puzzle
