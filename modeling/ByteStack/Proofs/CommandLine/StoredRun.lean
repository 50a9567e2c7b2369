/-
This file compares a program with the image that was built of it. The image is
read back as it was stored, so both are executed on one and the same machine:
they print the same listing and the same values, and end with the same status. An
image has no text. Where an error of the program is shown on its line, with a
caret, the error of the image is only named; the message and the hint are the
same. A program without instructions has no line to show, and then there is no
difference at all.
-/

import ByteStack.CommandLine.Session
import ByteStack.Proofs.CommandLine.Folder
import ByteStack.Proofs.CommandLine.Grading
import ByteStack.Proofs.FaultLocation
import ByteStack.Proofs.Image.Stored

namespace ByteStack

variable {source : String} {tokens : List Token} {assembly : Assembly}

theorem Image.decode?_encode (image : Image) : decode? image.encode = .ok image := by
  have parts := image.reads_parts.whole []
  rw [List.append_nil] at parts
  rw [decode?, decodeParts_eq, parts]
  exact image.ofBlock?_toList

/-! ### Where faults are shown -/

/-- Every offset of a program with instructions is shown at one of its mnemonics. -/
theorem Program.Assembled.exists_shown {program : Program}
    (right : program.Assembled source assembly) (read : tokensOf source = .ok tokens)
    (spelled : Spelled tokens program) (nonempty : 0 < program.size) (offset : Nat) :
    ∃ location mnemonic, assembly.map.locationOf? offset = some location ∧ mnemonic ∈ tokens ∧
      location.Marks source.toList mnemonic := by
  have some : assembly.map.entries ≠ [] := by
    rw [right.map]
    exact List.reverse_ne_nil_iff.mpr (starts_ne_nil nonempty)
  obtain ⟨entry, recorded, answer⟩ := SourceMap.exists_tokenAt? some offset
  rw [right.map] at recorded
  have member := List.mem_reverse.mp recorded
  obtain ⟨location, found, marks⟩ := right.exists_location read spelled member answer
  exact ⟨location, entry.2, found, (spelled.mem_of_mem_starts member).1, marks⟩

/-- A program without instructions has no place to show. -/
theorem Program.Assembled.locationOf?_eq_none {program : Program}
    (right : program.Assembled source assembly) (empty : program.size = 0) (offset : Nat) :
    assembly.map.locationOf? offset = none := by
  have none : assembly.map.entries = [] := by
    rw [right.map, starts_eq_nil empty]
    rfl
  rw [SourceMap.locationOf?, SourceMap.tokenAt?_of_nil none]
  rfl

namespace CommandLine

/-! ### Outcomes -/

/-- What follows a message when there is a hint. -/
def hintText : Option String → String
  | none => ""
  | some hint => "\nhint: " ++ hint

/-- The outcome of a program and that of its image. Both have the same output and end with the same
status. A fault has one message and one hint in both, and differs in the place that is shown. -/
inductive RunsAlike (source : String) (assembly : Assembly) : Outcome → Outcome → Prop where
  | success (output : String) : RunsAlike source assembly ⟨0, output, ""⟩ ⟨0, output, ""⟩
  /-- A program without instructions has no place to show. -/
  | unplaced (output : String) (fault : Fault) (empty : assembly.image.codeLength = 0) :
      RunsAlike source assembly
        ⟨1, output, "error: " ++ fault.message ++ hintText fault.kind.hint? ++ "\n"⟩
        ⟨1, output, "error: " ++ fault.message ++ hintText fault.kind.hint? ++ "\n"⟩
  /-- The place is that of a mnemonic of the source. -/
  | placed (output : String) (fault : Fault) (location : Location) (tokens : List Token)
      (mnemonic : Token) (nonempty : 0 < assembly.image.codeLength)
      (read : tokensOf source = .ok tokens) (member : mnemonic ∈ tokens)
      (marks : location.Marks source.toList mnemonic) :
      RunsAlike source assembly
        ⟨1, output, "error on line " ++ Text.natural location.lineNumber ++ ": " ++ fault.message
          ++ "\n" ++ location.line ++ "\n" ++ location.marker ++ hintText fault.kind.hint?
          ++ "\n"⟩
        ⟨1, output, "error: " ++ fault.message ++ hintText fault.kind.hint? ++ "\n"⟩

/-- What becomes of a program once it is loaded, unless the fuel is used up. -/
def outcomeOf? (fuel : Nat) (fresh : UInt64) (options : RunOptions) (assembly : Assembly) :
    Option Outcome :=
  let listing := if options.listing then Listing.table assembly.image else ""
  let machine := Machine.start assembly.image ⟨options.input, options.expected?, []⟩
    (options.seed?.getD fresh)
  (machine.runThrough (options.maxCycles?.map UInt64.toNat) fuel).map fun (machine, fault?) =>
    let output := listing ++ Text.bracketed machine.output.toList ++ "\n"
    match fault? with
    | none => .success output
    | some fault => .failure output [(Diagnostic.ofFault assembly.map fault).render]

theorem failure_eq (output message : String) :
    Outcome.failure output [message] = ⟨1, output, message ++ "\n"⟩ := by
  rw [Outcome.failure, List.map_singleton, String.join, List.foldl_cons, List.foldl_nil,
    String.empty_append]

/-- An error without a place is only named. -/
theorem render_unplaced (message : String) (hint? : Option String) :
    (Diagnostic.mk message none hint?).render = "error: " ++ message ++ hintText hint? := by
  cases hint? with
  | none => exact String.append_empty.symm
  | some hint => exact String.append_assoc

theorem render_placed (message : String) (location : Location) (hint? : Option String) :
    (Diagnostic.mk message (some location) hint?).render =
      "error on line " ++ Text.natural location.lineNumber ++ ": " ++ message ++ "\n"
        ++ location.line ++ "\n" ++ location.marker ++ hintText hint? := by
  cases hint? with
  | none => exact String.append_empty.symm
  | some hint => exact String.append_assoc

/-- A program and its image fail alike. -/
theorem runsAlike_failure (made : Assembly.ofSource source = .ok assembly) (output : String)
    (fault : Fault) :
    RunsAlike source assembly
      (.failure output [(Diagnostic.ofFault assembly.map fault).render])
      (.failure output [(Diagnostic.ofFault SourceMap.empty fault).render]) := by
  obtain ⟨tokens, read, made⟩ := Assembly.exists_tokens made
  obtain ⟨program, spelled, right⟩ := Assembly.exists_program made
  have bare : SourceMap.empty.locationOf? fault.offset = none := rfl
  rw [failure_eq, failure_eq, Diagnostic.ofFault, Diagnostic.ofFault, bare, render_unplaced]
  rcases Nat.eq_zero_or_pos program.size with empty | nonempty
  · rw [right.locationOf?_eq_none empty, render_unplaced]
    exact .unplaced _ _ (right.codeLength.trans empty)
  · obtain ⟨location, mnemonic, found, member, marks⟩ :=
      right.exists_shown read spelled nonempty fault.offset
    rw [found, render_placed]
    exact .placed _ _ _ _ _ (right.codeLength ▸ nonempty) read member marks

/-- A program and its image come to the same end on the same machine. -/
theorem outcomeOf?_alike (made : Assembly.ofSource source = .ok assembly) (fuel : Nat)
    (fresh : UInt64) (options : RunOptions) :
    (outcomeOf? fuel fresh { options with isImage := false } assembly = none ∧
      outcomeOf? fuel fresh { options with isImage := true } ⟨assembly.image, SourceMap.empty⟩ =
        none) ∨
    ∃ first second,
      outcomeOf? fuel fresh { options with isImage := false } assembly = some first ∧
      outcomeOf? fuel fresh { options with isImage := true } ⟨assembly.image, SourceMap.empty⟩ =
        some second ∧ RunsAlike source assembly first second := by
  unfold outcomeOf?
  dsimp only
  match (Machine.start assembly.image ⟨options.input, options.expected?, []⟩
    (options.seed?.getD fresh)).runThrough (options.maxCycles?.map UInt64.toNat) fuel with
  | none => exact .inl ⟨rfl, rfl⟩
  | some (machine, none) => exact .inr ⟨_, _, rfl, rfl, .success _⟩
  | some (machine, some fault) => exact .inr ⟨_, _, rfl, rfl, runsAlike_failure made _ fault⟩

/-! ### Building -/

variable {folder next : Folder} {file output : String} {building : List String} {fuel : Nat}
  {fresh : UInt64} {built : Outcome}

/-- A successful build leaves a file that loads as the image of the program. -/
theorem loadFile_of_build (made : Assembly.ofSource source = .ok assembly)
    (command : Command.ofArguments? building = some (.build file output))
    (text : textOf folder.read file = .ok source)
    (performed : folder.perform fuel fresh building = some (built, next))
    (success : built.status = 0) :
    loadFile next.read output = .ok ⟨assembly.image, SourceMap.empty⟩ := by
  rw [Folder.perform, execute, command] at performed
  dsimp only [Command.execute] at performed
  rw [executeBuild, assembleFile_eq_ok text made] at performed
  dsimp only at performed
  cases written : folder.write output assembly.image.encode with
  | error error =>
    rw [written] at performed
    have refused := (Prod.mk.inj (Option.some.inj performed)).1
    cases (congrArg Outcome.status refused).trans success
  | ok last =>
    rw [written] at performed
    rw [← (Prod.mk.inj (Option.some.inj performed)).2, loadFile, Folder.read_of_write written]
    dsimp only
    rw [Image.decode?_encode]

/-- A program that was loaded is executed, and nothing is written. -/
theorem perform_run {arguments : List String} {options : RunOptions}
    (command : Command.ofArguments? arguments = some (.run file options))
    (loaded : (if options.isImage then loadFile folder.read file
      else assembleFile folder.read file) = .ok assembly) (fuel : Nat) (fresh : UInt64) :
    folder.perform fuel fresh arguments =
      (outcomeOf? fuel fresh options assembly).map fun outcome => (outcome, folder) := by
  rw [Folder.perform, execute, command]
  dsimp only [Command.execute]
  rw [executeRun, loaded, outcomeOf?]
  dsimp only
  cases (Machine.start assembly.image ⟨options.input, options.expected?, []⟩
    (options.seed?.getD fresh)).runThrough (options.maxCycles?.map UInt64.toNat) fuel with
  | none => rfl
  | some ended =>
    obtain ⟨machine, fault?⟩ := ended
    cases fault? with
    | none => rfl
    | some fault => rfl

/-- What was built of a program behaves like the program. Whatever the input, the expected output,
the seed, the budget and the wish for a listing are, and wherever the program is kept, executing
either prints the same and ends alike. -/
theorem stored_runs_alike (made : Assembly.ofSource source = .ok assembly)
    (build : Command.ofArguments? building = some (.build file output))
    (text : textOf folder.read file = .ok source)
    (performed : folder.perform fuel fresh building = some (built, next))
    (success : built.status = 0) {home : Folder} {program : String}
    (kept : textOf home.read program = .ok source) (options : RunOptions)
    {plain stored : List String}
    (first : Command.ofArguments? plain = some (.run program { options with isImage := false }))
    (second : Command.ofArguments? stored = some (.run output { options with isImage := true }))
    (fuel : Nat) (fresh : UInt64) :
    (home.perform fuel fresh plain = none ∧ next.perform fuel fresh stored = none) ∨
    ∃ ofProgram ofImage, home.perform fuel fresh plain = some (ofProgram, home) ∧
      next.perform fuel fresh stored = some (ofImage, next) ∧
      RunsAlike source assembly ofProgram ofImage := by
  rw [perform_run first (assembleFile_eq_ok kept made),
    perform_run second (loadFile_of_build made build text performed success)]
  rcases outcomeOf?_alike made fuel fresh options with
    ⟨ofProgram, ofImage⟩ | ⟨_, _, ofProgram, ofImage, alike⟩
  · exact .inl ⟨by rw [ofProgram]; rfl, by rw [ofImage]; rfl⟩
  · exact .inr ⟨_, _, by rw [ofProgram]; rfl, by rw [ofImage]; rfl, alike⟩

/-- A text of one character is not cut at slashes when it is none itself. -/
theorem splitOn_slash {text : String} (first : ¬String.Pos.Raw.atEnd text 0)
    (other : ¬(String.Pos.Raw.get text 0 == String.Pos.Raw.get "/" 0) = true)
    (last : String.Pos.Raw.atEnd text (String.Pos.Raw.next text 0)) :
    text.splitOn "/" = [String.Pos.Raw.extract text 0 (String.Pos.Raw.next text 0)] := by
  rw [String.splitOn, if_neg (by decide), String.splitOnAux, if_neg first, if_neg other,
    show String.Pos.Raw.unoffsetBy 0 0 = 0 from rfl, String.splitOnAux, if_pos last]
  rfl

/-- A program that has no cycle left for its first instruction. -/
theorem stored_runs_alike_interrupted :
    ∃ home next : Folder, ∃ assembly ofProgram ofImage,
      Assembly.ofSource "INP OUT" = .ok assembly ∧
      home.perform 1 0 ["run", "a", "--max-cycles", "0"] = some (ofProgram, home) ∧
      next.perform 1 0 ["run", "b", "--max-cycles", "0", "--image"] = some (ofImage, next) ∧
      ofProgram.status = 1 ∧ RunsAlike "INP OUT" assembly ofProgram ofImage := by
  have read : tokensOf "INP OUT" = .ok [⟨.mnemonic, "INP", 0⟩, ⟨.mnemonic, "OUT", 4⟩] := by
    decide +kernel
  have spelled : Program.Spelled [⟨.mnemonic, "INP", 0⟩, ⟨.mnemonic, "OUT", 4⟩]
      [.instruction ⟨.mnemonic, "INP", 0⟩ .inp .nothing,
        .instruction ⟨.mnemonic, "OUT", 4⟩ .out .nothing] :=
    .plain rfl rfl rfl (.plain rfl rfl rfl .nothing)
  obtain ⟨assembly, made⟩ := Assembly.exists_ofSource read spelled ⟨by decide, by decide, by decide⟩
  let home : Folder := ⟨[(["a"], .file [73, 78, 80, 32, 79, 85, 84])]⟩
  have source : Path.ofText? "a" = .ok ⟨[], ["a"], false⟩ := by
    rw [Path.ofText?, Path.ofText, splitOn_slash (by decide) (by decide) (by decide)]
    decide +kernel
  have output : Path.ofText? "b" = .ok ⟨[], ["b"], false⟩ := by
    rw [Path.ofText?, Path.ofText, splitOn_slash (by decide) (by decide) (by decide)]
    decide +kernel
  have kept : textOf home.read "a" = .ok "INP OUT" := by
    rw [textOf, Folder.read, source]
    rfl
  have building : Command.ofArguments? ["build", "a", "-o", "b"] = some (.build "a" "b") := by
    decide +kernel
  have plain : Command.ofArguments? ["run", "a", "--max-cycles", "0"] =
      some (.run "a" ⟨[], none, false, none, some 0, false⟩) := by decide +kernel
  have stored : Command.ofArguments? ["run", "b", "--max-cycles", "0", "--image"] =
      some (.run "b" ⟨[], none, false, none, some 0, true⟩) := by decide +kernel
  have written (bytes : List UInt8) : home.write "b" bytes = .ok (home.put ["b"] bytes) := by
    rw [Folder.write, output]
    rfl
  have performed : home.perform 1 0 ["build", "a", "-o", "b"] =
      some (.success ("wrote " ++ "b" ++ " (" ++ Text.natural assembly.image.codeLength
        ++ " code bytes)\n"), home.put ["b"] assembly.image.encode) := by
    rw [Folder.perform, execute, building]
    dsimp only [Command.execute]
    rw [executeBuild, assembleFile_eq_ok kept made]
    dsimp only
    rw [written]
  have ended := perform_run plain (assembleFile_eq_ok kept made) 1 0
  rcases stored_runs_alike made building kept performed rfl kept
      ⟨[], none, false, none, some 0, false⟩ plain stored 1 0 with
    ⟨unfinished, -⟩ | ⟨ofProgram, ofImage, first, second, alike⟩
  · exact absurd (ended.symm.trans unfinished) (Option.some_ne_none _)
  · have status := congrArg (fun pair => pair.map fun pair => pair.1.status)
      (first.symm.trans ended)
    exact ⟨home, _, assembly, ofProgram, ofImage, made, first, second,
      Option.some.inj status, alike⟩

end CommandLine

end ByteStack
