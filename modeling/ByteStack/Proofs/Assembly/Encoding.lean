/-
This file is the correctness of the assembler. Tokens can be assembled just when
they spell a program that is assemblable, and the image is then the code of that
program with zeros behind it.
-/

import ByteStack.Proofs.Assembly.Emission
import ByteStack.Proofs.Memory

namespace ByteStack

/-! ### From programs to images -/

/-- An assembly that is right for a program: the image is its code with zeros behind it, and
the map leads from the start of each instruction to its mnemonic. -/
structure Program.Assembled (program : Program) (source : String) (assembly : Assembly) : Prop where
  assemblable : program.Assemblable
  codeLength : assembly.image.codeLength = program.size
  memory : assembly.image.memory.toList =
    program.code ++ List.replicate (Layout.imageSize - program.size) 0
  map : assembly.map = ⟨source.toList, (program.starts 0).reverse⟩

namespace Program

variable {program : Program} {source : String} {assembly : Assembly}

/-- The program is all of the code. -/
theorem Assembled.code_eq (right : program.Assembled source assembly) :
    assembly.image.code = program.code := by
  have front : (program.code ++ List.replicate (Layout.imageSize - program.size) 0).take
      program.code.length = program.code := List.take_left
  rw [length_code] at front
  rw [Image.code, Memory.slice_eq, List.drop_zero, Nat.sub_zero, right.memory, right.codeLength]
  exact front

/-- Behind the program the code region is empty. -/
theorem Assembled.codeRegion_eq (right : program.Assembled source assembly) :
    assembly.image.codeRegion =
      assembly.image.code ++ List.replicate (Layout.codeSize - program.size) 0 := by
  have fits := right.assemblable.fits
  rw [right.code_eq, Image.codeRegion, Memory.slice_eq, List.drop_zero, Nat.sub_zero,
    right.memory, List.take_append, length_code, List.take_replicate,
    List.take_of_length_le (by rw [length_code]; exact fits),
    Nat.min_eq_left (Nat.sub_le_sub_right (by decide) _)]

end Program

/-- There is an image of all code that fits. -/
theorem Image.ofCode?_eq_ok {code : List UInt8} (fits : code.length ≤ Layout.codeSize) :
    ∃ image, Image.ofCode? code = .ok image ∧ image.codeLength = code.length ∧
      image.memory.toList = code ++ List.replicate (Layout.imageSize - code.length) 0 := by
  unfold Image.ofCode?
  rw [dif_pos fits]
  refine ⟨_, rfl, rfl, ?_⟩
  exact Memory.toList_ofBytes code (Nat.le_trans fits (by decide))

namespace Assembly

variable {tokens : List Token} {source : String} {program : Program}

/-- A program that is emitted without an error and whose labels can be resolved is assembled. -/
theorem ofTokens_of_emitted {last : Emission}
    (emits : (Emission.start source).acceptAll (Statement.ofTokens tokens) = ([], last))
    (emitted : Emitted source program last)
    (resolved : ∀ name ∈ program.usedNames, name ∈ program.definedNames) :
    ∃ assembly, ofTokens tokens source = .ok assembly ∧ program.Assembled source assembly := by
  have fits : program.code.length ≤ Layout.codeSize := by
    rw [Program.length_code]
    exact emitted.fits
  obtain ⟨image, found, length, memory⟩ := Image.ofCode?_eq_ok fits
  rw [Program.length_code] at length memory
  refine ⟨⟨image, last.map⟩, ?_, ⟨emitted.defined, resolved, emitted.fits⟩, length, memory,
    emitted.map⟩
  rw [ofTokens, emits]
  dsimp only
  rw [if_neg (by decide), emitted.unresolved_eq_nil.mpr resolved, if_neg (by decide),
    emitted.resolve, found]

/-- An assembly that succeeds is right for the program that its tokens spell. -/
theorem exists_program {assembly : Assembly} (made : ofTokens tokens source = .ok assembly) :
    ∃ program, Program.Spelled tokens program ∧ program.Assembled source assembly := by
  cases emits : (Emission.start source).acceptAll (Statement.ofTokens tokens) with
  | mk errors last =>
    have clean : errors = [] := by
      by_contra wrong
      rw [ofTokens, emits] at made
      dsimp only at made
      rw [if_pos (by simpa using wrong)] at made
      exact nomatch made
    subst clean
    obtain ⟨program, read, emitted⟩ := (Emitted.start source).acceptAll (congrArg Prod.fst emits)
    rw [emits, List.nil_append] at emitted
    have resolved : ∀ name ∈ program.usedNames, name ∈ program.definedNames := by
      rw [← emitted.unresolved_eq_nil]
      by_contra wrong
      rw [ofTokens, emits] at made
      dsimp only at made
      rw [if_neg (by decide), if_pos (by simpa using wrong)] at made
      exact nomatch made
    obtain ⟨other, same, right⟩ := ofTokens_of_emitted emits emitted resolved
    obtain rfl := Except.ok.inj (made.symm.trans same)
    exact ⟨program, (Statement.ofTokens_eq_map_ok _ _).mp read, right⟩

/-- Tokens that spell an assemblable program are assembled. -/
theorem exists_assembly (spelled : Program.Spelled tokens program)
    (assemblable : program.Assemblable) : ∃ assembly, ofTokens tokens source = .ok assembly := by
  have read := Statement.ofTokens_of_spelled spelled
  have clean : ((Emission.start source).acceptAll (program.map .ok)).1 = [] :=
    (Emitted.start source).acceptAll_clean assemblable.distinct assemblable.fits
  obtain ⟨more, same, emitted⟩ := (Emitted.start source).acceptAll clean
  obtain rfl : program = more := (List.map_inj_right fun _ _ => Except.ok.inj).mp same
  have emits : (Emission.start source).acceptAll (Statement.ofTokens tokens) =
      ([], ((Emission.start source).acceptAll (program.map .ok)).2) := by
    rw [read, ← clean]
  obtain ⟨assembly, made, _⟩ := ofTokens_of_emitted emits emitted assemblable.resolved
  exact ⟨assembly, made⟩

/-- A source is assembled through its tokens. -/
theorem exists_tokens {assembly : Assembly} (made : ofSource source = .ok assembly) :
    ∃ tokens, tokensOf source = .ok tokens ∧ ofTokens tokens source = .ok assembly := by
  unfold ofSource at made
  cases read : tokensOf source with
  | error error =>
    rw [read] at made
    exact nomatch made
  | ok tokens =>
    rw [read] at made
    dsimp only at made
    cases result : ofTokens tokens source with
    | error errors =>
      rw [result] at made
      exact nomatch made
    | ok other =>
      rw [result] at made
      obtain rfl := Except.ok.inj made
      exact ⟨tokens, rfl, result⟩

/-- A source whose tokens spell an assemblable program is assembled. -/
theorem exists_ofSource (read : tokensOf source = .ok tokens)
    (spelled : Program.Spelled tokens program) (assemblable : program.Assemblable) :
    ∃ assembly, ofSource source = .ok assembly := by
  obtain ⟨assembly, made⟩ : ∃ assembly, ofTokens tokens source = .ok assembly :=
    exists_assembly spelled assemblable
  refine ⟨assembly, ?_⟩
  rw [ofSource, read]
  dsimp only
  rw [made]

/-- The program that the tokens of a source spell is the one that was assembled. -/
theorem assembled_of_spelled {assembly : Assembly} (made : ofSource source = .ok assembly)
    (read : tokensOf source = .ok tokens) (spelled : Program.Spelled tokens program) :
    program.Assembled source assembly := by
  obtain ⟨others, also, made⟩ := exists_tokens made
  obtain rfl := Except.ok.inj (read.symm.trans also)
  obtain ⟨other, same, right⟩ := exists_program made
  obtain rfl := spelled.unique same
  exact right

/-! ### The assembler is correct -/

/-- Tokens can be assembled just when they spell an assemblable program. The image is then the
code of that program, with zeros behind it. -/
theorem ofTokens_correct (tokens : List Token) (source : String) :
    ((∃ assembly, ofTokens tokens source = .ok assembly) ↔
      ∃ program, Program.Spelled tokens program ∧ program.Assemblable) ∧
    ∀ assembly program, ofTokens tokens source = .ok assembly → Program.Spelled tokens program →
      assembly.image.codeLength = program.size ∧
      assembly.image.memory.toList =
        program.code ++ List.replicate (Layout.imageSize - program.size) 0 := by
  refine ⟨⟨?_, ?_⟩, ?_⟩
  · rintro ⟨assembly, made⟩
    obtain ⟨program, spelled, right⟩ := exists_program made
    exact ⟨program, spelled, right.assemblable⟩
  · rintro ⟨program, spelled, assemblable⟩
    exact exists_assembly spelled assemblable
  · intro assembly program made spelled
    obtain ⟨other, also, right⟩ := exists_program made
    obtain rfl := spelled.unique also
    exact ⟨right.codeLength, right.memory⟩

/-- A jump forward to the end of the program. -/
theorem ofTokens_correct_forward :
    ∃ assembly, ofTokens [⟨.mnemonic, "JMP", 0⟩, ⟨.label, "end", 4⟩, ⟨.mnemonic, "LAB", 9⟩,
        ⟨.label, "end", 13⟩] "JMP #end LAB #end" = .ok assembly ∧
      assembly.image.codeLength = 3 ∧
      assembly.image.memory.toList = [0x10, 0x00, 0x03] ++ List.replicate 8189 0 := by
  have spelled : Program.Spelled
      [⟨.mnemonic, "JMP", 0⟩, ⟨.label, "end", 4⟩, ⟨.mnemonic, "LAB", 9⟩, ⟨.label, "end", 13⟩]
      [.instruction ⟨.mnemonic, "JMP", 0⟩ .jmp (.label "end"), .define "end" 13] :=
    .withOperand rfl rfl (.label rfl) (.define rfl rfl rfl .nothing)
  have correct := ofTokens_correct
    [⟨.mnemonic, "JMP", 0⟩, ⟨.label, "end", 4⟩, ⟨.mnemonic, "LAB", 9⟩, ⟨.label, "end", 13⟩]
    "JMP #end LAB #end"
  obtain ⟨assembly, made⟩ := correct.1.mpr
    ⟨_, spelled, by decide, by decide, by decide⟩
  obtain ⟨length, memory⟩ := correct.2 assembly _ made spelled
  exact ⟨assembly, made, length, memory⟩

end Assembly

end ByteStack
