/-
This file carries out commands. The contents of files are given by a function,
so that a command is a plain function of its arguments and its files. The one
command that writes a file says what it would write, and what it would print
when the file could be written and when it could not.
-/

import ByteStack.CommandLine.Arguments
import ByteStack.CommandLine.File
import ByteStack.Image.Stored
import ByteStack.Listing
import ByteStack.Puzzle.Reader
import ByteStack.Source.Dump
import ByteStack.Text.Lines

namespace ByteStack.CommandLine

/-! ### Outcomes -/

/-- What a command prints and how it ends. -/
structure Outcome where
  /-- The exit status, zero for success. -/
  status : Nat
  output : String
  errors : String
deriving DecidableEq

namespace Outcome

/-- The command was successful. -/
def success (output : String) : Outcome :=
  ⟨0, output, ""⟩

/-- The command failed with messages, one to a line, after it had printed something. -/
def failure (output : String) (messages : List String) : Outcome :=
  ⟨1, output, String.join (messages.map fun message => message ++ "\n")⟩

/-- The command line could not be understood. -/
def usage : Outcome :=
  ⟨2, "", "error: unknown or incomplete command line\n"⟩

end Outcome

/-- What a command comes to. -/
inductive Reply where
  | done (outcome : Outcome)
  /-- A file is to be written. The outcome depends on whether that is possible. -/
  | write (file : String) (bytes : List UInt8) (written : Outcome)
      (refused : FileError → Outcome)
  /-- The fuel was used up. -/
  | unfinished

/-! ### Programs -/

def readFailure (file : String) (error : FileError) : Outcome :=
  .failure "" ["Failed to read '" ++ file ++ "': " ++ error.message]

/-- The assembly of a file that holds the text of a program. -/
def assembleFile (files : Files) (file : String) : Except Outcome Assembly :=
  match textOf files file with
  | .error error => .error (readFailure file error)
  | .ok source =>
    match Assembly.ofSource source with
    | .ok assembly => .ok assembly
    | .error error =>
      .error (.failure "" ((Diagnostic.ofSourceError source error).map Diagnostic.render))

/-- The image of a file that holds a stored one. It has no text. -/
def loadFile (files : Files) (file : String) : Except Outcome Assembly :=
  match files file with
  | .error error => .error (readFailure file error)
  | .ok bytes =>
    match Image.decode? bytes with
    | .ok image => .ok ⟨image, SourceMap.empty⟩
    | .error error => .error (.failure "" [error.message])

/-! ### Commands -/

def programName : String := "stackpuzzle"

def programVersion : String := "0.1.0"

/-- Executes a program once. A run without a seed uses `fresh`. -/
def executeRun (files : Files) (fuel : Nat) (fresh : UInt64) (file : String)
    (options : RunOptions) : Reply :=
  match (if options.isImage then loadFile files file else assembleFile files file) with
  | .error outcome => .done outcome
  | .ok assembly =>
    let listing := if options.listing then Listing.table assembly.image else ""
    let machine := Machine.start assembly.image ⟨options.input, options.expected?, []⟩
      (options.seed?.getD fresh)
    match machine.runThrough (options.maxCycles?.map UInt64.toNat) fuel with
    | none => .unfinished
    | some (machine, fault?) =>
      let output := listing ++ Text.bracketed machine.output.toList ++ "\n"
      match fault? with
      | none => .done (.success output)
      | some fault => .done (.failure output [(Diagnostic.ofFault assembly.map fault).render])

/-- The lines about one run. -/
def verdictLines (verdict : RunVerdict) : String :=
  "  run " ++ Text.natural (verdict.index + 1) ++ ": " ++ (if verdict.passed then "PASS" else "FAIL")
    ++ " (" ++ Text.natural verdict.cycles ++ " cycles)\n"
    ++ match verdict.diagnostic? with
      | none => ""
      | some diagnostic =>
        String.join ((Text.lines diagnostic).map fun line => "    " ++ line ++ "\n")

/-- The verdict on a program as it is printed. -/
def verdictText (verdict : PuzzleVerdict) : String :=
  verdict.puzzle ++ "\n" ++ String.join (verdict.runs.map verdictLines)
    ++ Text.natural verdict.passCount ++ "/" ++ Text.natural verdict.runs.length
    ++ " runs passed, size " ++ Text.natural verdict.size ++ " (goal "
    ++ Text.natural verdict.sizeGoal ++ "), " ++ Text.natural verdict.cycleCount
    ++ " total cycles\n"

/-- The puzzle of a file. -/
def loadPuzzle (files : Files) (file : String) : Except Outcome Puzzle :=
  match textOf files file with
  | .error error => .error (.failure "" ["unable to read puzzle: " ++ error.message])
  | .ok text =>
    match Puzzle.ofText text with
    | .ok puzzle => .ok puzzle
    | .error error => .error (.failure "" [error.message])

/-- Grades a program against a puzzle. -/
def executeValidate (files : Files) (fuel : Nat) (settings : RunSettings)
    (file puzzleFile : String) : Reply :=
  match assembleFile files file with
  | .error outcome => .done outcome
  | .ok assembly =>
    match loadPuzzle files puzzleFile with
    | .error outcome => .done outcome
    | .ok puzzle =>
      match puzzle.grade fuel settings assembly with
      | none => .unfinished
      | some verdict => .done ⟨if verdict.passed then 0 else 1, verdictText verdict, ""⟩

/-- Assembles a program for a file. -/
def executeBuild (files : Files) (file output : String) : Reply :=
  match assembleFile files file with
  | .error outcome => .done outcome
  | .ok assembly =>
    .write output assembly.image.encode
      (.success ("wrote " ++ output ++ " (" ++ Text.natural assembly.image.codeLength
        ++ " code bytes)\n"))
      fun error => .failure "" ["Failed to write '" ++ output ++ "': " ++ error.message]

/-- Shows the tokens of a program. -/
def executeTokens (files : Files) (file : String) (color : Bool) : Reply :=
  match textOf files file with
  | .error error => .done (readFailure file error)
  | .ok source =>
    match tokensOf source with
    | .ok tokens => .done (.success (TokenDump.render color source tokens))
    | .error error =>
      .done (.failure "" [(Diagnostic.ofLexicalError source.toList error).render])

/-- Carries out a command. Runs without a seed use `fresh`. -/
def Command.execute (files : Files) (fuel : Nat) (fresh : UInt64) : Command → Reply
  | .run file options => executeRun files fuel fresh file options
  | .validate file puzzle seed? maxCycles? =>
    executeValidate files fuel ⟨seed?.getD fresh, maxCycles?⟩ file puzzle
  | .build file output => executeBuild files file output
  | .tokens file color => executeTokens files file color
  | .version => .done (.success (programName ++ " " ++ programVersion ++ "\n"))

/-- Carries out a command line. -/
def execute (files : Files) (fuel : Nat) (fresh : UInt64) (arguments : List String) : Reply :=
  match Command.ofArguments? arguments with
  | some command => command.execute files fuel fresh
  | none => .done .usage

/-- The files that a command reads. -/
def Command.filesRead : Command → List String
  | .run file _ => [file]
  | .validate file puzzle _ _ => [file, puzzle]
  | .build file _ => [file]
  | .tokens file _ => [file]
  | .version => []

end ByteStack.CommandLine
