/-
This file is about the two commands that grade a program. One executes all runs
of a puzzle and is a success when the program passes each of them. The other
executes the program once. When it is fed the inbox of a run and told to expect
the outbox, under the budget of the run, it is a success just when the program
passes that run.
-/

import ByteStack.CommandLine.Execution
import ByteStack.Proofs.Assembly.Encoding
import ByteStack.Proofs.CommandLine.Arguments
import ByteStack.Proofs.Puzzle.Grading

namespace ByteStack.CommandLine

variable {files : Files} {file puzzleFile source : String} {assembly : Assembly}
  {settings : RunSettings} {fuel : Nat}

/-- The command line comes to an outcome, which is a success just when the statement holds. -/
def SucceedsIff (files : Files) (fuel : Nat) (fresh : UInt64) (arguments : List String)
    (holds : Prop) : Prop :=
  ∃ outcome, execute files fuel fresh arguments = .done outcome ∧ (outcome.status = 0 ↔ holds)

theorem assembleFile_eq_ok (read : textOf files file = .ok source)
    (made : Assembly.ofSource source = .ok assembly) : assembleFile files file = .ok assembly := by
  rw [assembleFile, read]
  dsimp only
  rw [made]

/-- Executing a program once on what a run feeds it and expects of it tells whether it passes. -/
theorem succeedsIff_run {run : PuzzleRun} {verdict : RunVerdict}
    (comes : Puzzle.ComesTo fuel settings assembly run verdict) (nonempty : run.outbox ≠ [])
    (read : textOf files file = .ok source) (made : Assembly.ofSource source = .ok assembly)
    (named : file ≠ "") (fresh : UInt64) :
    SucceedsIff files fuel fresh (runArguments file run.inbox run.outbox settings.seed
      (run.cycles?.or settings.maxCycles?)) (verdict.passed = true) := by
  obtain ⟨last, fault?, ended, passed⟩ := comes.exists_runThrough
  rw [Puzzle.machineOf, Puzzle.budget?] at ended
  unfold SucceedsIff
  rw [execute, ofArguments?_run named run.inbox nonempty]
  dsimp only [Command.execute]
  rw [executeRun, if_neg Bool.false_ne_true, assembleFile_eq_ok read made]
  dsimp only [Option.getD_some]
  rw [ended, passed]
  cases fault? with
  | none => exact ⟨_, rfl, iff_of_true rfl rfl⟩
  | some fault => exact ⟨_, rfl, iff_of_false Nat.one_ne_zero Bool.false_ne_true⟩

/-- Grading a program is a success when it passes each run. -/
theorem succeedsIff_validate {puzzle : Puzzle} {verdict : PuzzleVerdict}
    (graded : puzzle.grade fuel settings assembly = some verdict)
    (read : textOf files file = .ok source) (made : Assembly.ofSource source = .ok assembly)
    (loaded : loadPuzzle files puzzleFile = .ok puzzle) (named : file ≠ "")
    (also : puzzleFile ≠ "") (fresh : UInt64) :
    SucceedsIff files fuel fresh (validateArguments file puzzleFile settings.seed
      settings.maxCycles?) (verdict.passed = true) := by
  unfold SucceedsIff
  rw [execute, ofArguments?_validate named also]
  dsimp only [Command.execute]
  rw [executeValidate, assembleFile_eq_ok read made]
  dsimp only [Option.getD_some]
  rw [loaded]
  dsimp only
  rw [graded]
  dsimp only
  refine ⟨_, rfl, ?_⟩
  cases verdict.passed with
  | true => exact iff_of_true rfl rfl
  | false => exact iff_of_false Nat.one_ne_zero Bool.false_ne_true

/-- The verdicts on a program are exact and independent of each other. There is one for each run,
in order, and it depends on nothing but the run, the program and the settings, except for its
number. It says whether the program passes the run. The commands that grade the program succeed
when their verdicts say so. -/
theorem verdicts_exact {source : String} {assembly : Assembly}
    (made : Assembly.ofSource source = .ok assembly) (settings : RunSettings) :
    ∃ report : PuzzleRun → RunVerdict, ∀ puzzle : Puzzle,
      (∀ run ∈ puzzle.runs, Puzzle.Bounded settings assembly run) →
      ∃ verdict : PuzzleVerdict,
        verdict.runs = puzzle.runs.mapIdx (fun index run => { report run with index := index }) ∧
        (∀ run ∈ puzzle.runs, Puzzle.Right settings assembly run (report run)) ∧
        (verdict.passed = true ↔ ∀ run ∈ puzzle.runs, (report run).passed = true) ∧
        ∃ enough, ∀ fuel, enough ≤ fuel →
          puzzle.grade fuel settings assembly = some verdict ∧
          ∀ files file fresh, file ≠ "" → textOf files file = .ok source →
            (∀ puzzleFile, puzzleFile ≠ "" → loadPuzzle files puzzleFile = .ok puzzle →
              SucceedsIff files fuel fresh
                (validateArguments file puzzleFile settings.seed settings.maxCycles?)
                (verdict.passed = true)) ∧
            ∀ run ∈ puzzle.runs, run.outbox ≠ [] →
              SucceedsIff files fuel fresh
                (runArguments file run.inbox run.outbox settings.seed
                  (run.cycles?.or settings.maxCycles?))
                ((report run).passed = true) := by
  obtain ⟨report, right⟩ := Puzzle.exists_report settings assembly
  refine ⟨report, fun puzzle bounded => ?_⟩
  obtain ⟨enough, comes⟩ := Puzzle.exists_fuel fun run member => (right run (bounded run member)).2
  refine ⟨⟨puzzle.name, _, assembly.image.codeLength, puzzle.sizeGoal.toNat⟩, rfl,
    fun run member => (right run (bounded run member)).1, Puzzle.passed_iff _ rfl, enough,
    fun fuel le => ?_⟩
  have graded : puzzle.grade fuel settings assembly = some ⟨puzzle.name,
      puzzle.runs.mapIdx fun index run => { report run with index := index },
      assembly.image.codeLength, puzzle.sizeGoal.toNat⟩ := by
    rw [Puzzle.grade, Puzzle.gradeRuns_eq 0 (comes fuel le)]
    simp only [Option.map_some, Nat.zero_add]
  refine ⟨graded, fun files file fresh named read => ⟨?_, ?_⟩⟩
  · intro puzzleFile also loaded
    exact succeedsIff_validate graded read made loaded named also fresh
  · intro run member nonempty
    exact succeedsIff_run (comes fuel le run member) nonempty read made named fresh

/-- A program that copies one value, with exactly the three cycles that it needs. -/
theorem verdicts_exact_copy :
    ∃ assembly verdict enough, Assembly.ofSource "INP OUT" = .ok assembly ∧
      verdict.runs.map RunVerdict.cycles = [3] ∧ verdict.passed = true ∧
      ∀ fuel, enough ≤ fuel →
        Puzzle.grade fuel ⟨7, none⟩ assembly ⟨"Copy", "", "", 2, [⟨[5], [5], some 3⟩]⟩ =
          some verdict ∧
        ∃ outcome, execute (fun _ => .ok [73, 78, 80, 32, 79, 85, 84]) fuel 0
            (runArguments "copy" [5] [5] 7 (some 3)) = .done outcome ∧ outcome.status = 0 := by
  have read : tokensOf "INP OUT" = .ok [⟨.mnemonic, "INP", 0⟩, ⟨.mnemonic, "OUT", 4⟩] := by
    decide +kernel
  have spelled : Program.Spelled [⟨.mnemonic, "INP", 0⟩, ⟨.mnemonic, "OUT", 4⟩]
      [.instruction ⟨.mnemonic, "INP", 0⟩ .inp .nothing,
        .instruction ⟨.mnemonic, "OUT", 4⟩ .out .nothing] :=
    .plain rfl rfl rfl (.plain rfl rfl rfl .nothing)
  obtain ⟨assembly, made⟩ := Assembly.exists_ofSource read spelled ⟨by decide, by decide, by decide⟩
  have right := Assembly.assembled_of_spelled made read spelled
  have passes : Puzzle.Passes ⟨7, none⟩ assembly ⟨[5], [5], some 3⟩ 3 := by
    have code : assembly.image.codeRegion = [1, 2] ++ List.replicate 7898 0 := by
      rw [right.codeRegion_eq, right.code_eq]
      rfl
    refine Puzzle.passes_of_lists code ?_ rfl rfl rfl rfl ?_
    · intro earlier less
      match earlier, less with
      | 0, _ | 1, _ | 2, _ => exact nofun
    · intro limit given
      exact Nat.le_of_eq (Option.some.inj given)
  obtain ⟨report, each⟩ := verdicts_exact made ⟨7, none⟩
  obtain ⟨verdict, runs, correct, passed, enough, graded⟩ :=
    each ⟨"Copy", "", "", 2, [⟨[5], [5], some 3⟩]⟩ fun run member => by
      rw [List.mem_singleton.mp member]
      exact Or.inl nofun
  have exactly := correct ⟨[5], [5], some 3⟩ List.mem_cons_self
  have well := exactly.passed.mpr ⟨3, passes⟩
  refine ⟨assembly, verdict, enough, made, ?_, ?_, fun fuel le => ⟨(graded fuel le).1, ?_⟩⟩
  · rw [runs]
    exact congrArg (fun cycles => [cycles]) (exactly.counted 3 passes).1
  · refine passed.mpr fun run member => ?_
    rw [List.mem_singleton.mp member]
    exact well
  · have text : textOf (fun _ => .ok [73, 78, 80, 32, 79, 85, 84]) "copy" = .ok "INP OUT" := rfl
    obtain ⟨outcome, done, success⟩ := ((graded fuel le).2 _ "copy" 0 (by decide) text).2
      ⟨[5], [5], some 3⟩ List.mem_cons_self (List.cons_ne_nil _ _)
    exact ⟨outcome, done, success.mpr well⟩

end ByteStack.CommandLine
