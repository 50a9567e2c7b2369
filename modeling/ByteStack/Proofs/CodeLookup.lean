/-
This file looks an offset of the code up in the map of its program. Every byte of
the code is one of the bytes of one instruction, and the answer is the mnemonic of
that instruction, because its start is nearer than that of any other. Only the
second byte of an address is farther from the start of its own instruction than
from the next one, so there the answer is the next mnemonic, if there is one.
-/

import ByteStack.Proofs.Assembly.Boundary
import ByteStack.Proofs.FaultLocation
import ByteStack.Proofs.Source.Nearest

namespace ByteStack

variable {program before after : Program} {source : String} {assembly : Assembly} {offset : Nat}
  {mnemonic : Token} {operation : Operation} {argument : Argument}

/-- Only an address takes more than one byte. -/
theorem OperandKind.width_le_one {kind : OperandKind} (other : kind ≠ .label) :
    kind.width ≤ 1 := by
  cases kind with
  | none => exact Nat.zero_le _
  | number => exact Nat.le_refl _
  | register => exact Nat.le_refl _
  | label => exact absurd rfl other

namespace Program

/-! ### Bytes and their statements -/

/-- The byte at the offset is one of those of a statement. -/
structure Encloses (program before : Program) (statement : Statement) (after : Program)
    (offset : Nat) : Prop where
  whole : program = before ++ statement :: after
  lower : before.size ≤ offset
  upper : offset < before.size + statement.size

/-- Every byte of the code is one of an instruction. -/
theorem exists_encloses (inside : offset < program.size) :
    ∃ before mnemonic operation argument after,
      program.Encloses before (.instruction mnemonic operation argument) after offset := by
  induction program generalizing offset with
  | nil => exact absurd inside (Nat.not_lt_zero _)
  | cons statement rest inductionHypothesis =>
    have split : size (statement :: rest) = statement.size + size rest := rfl
    by_cases here : offset < statement.size
    · cases statement with
      | define name position => exact absurd here (Nat.not_lt_zero _)
      | instruction mnemonic operation argument =>
        refine ⟨[], mnemonic, operation, argument, rest, rfl, Nat.zero_le _, ?_⟩
        rw [show size [] = 0 from rfl, Nat.zero_add]
        exact here
    · obtain ⟨before, mnemonic, operation, argument, after, whole, lower, upper⟩ :=
        inductionHypothesis (show offset - statement.size < size rest by omega)
      have front : size (statement :: before) = statement.size + size before := rfl
      exact ⟨statement :: before, mnemonic, operation, argument, after, congrArg _ whole,
        by omega, by omega⟩

/-- The byte at the offset is the one of the statement that is as far from its start. -/
theorem Encloses.getElem?_code {statement : Statement}
    (encloses : program.Encloses before statement after offset) :
    program.code[offset]? = (statement.encode program.address)[offset - before.size]? := by
  obtain ⟨distance, rfl⟩ := Nat.exists_eq_add_of_le encloses.lower
  rw [Nat.add_sub_cancel_left]
  exact Program.getElem?_code encloses.whole (Nat.lt_of_add_lt_add_left encloses.upper)

/-! ### The next instruction -/

/-- The mnemonic of the first instruction of a program. -/
def firstMnemonic? : Program → Option Token
  | [] => none
  | .define _ _ :: rest => firstMnemonic? rest
  | .instruction mnemonic _ _ :: _ => some mnemonic

/-- The first instruction of a program stands where the program does. -/
theorem head?_starts (program : Program) (offset : Nat) :
    (program.starts offset).head? = program.firstMnemonic?.map (offset, ·) := by
  induction program with
  | nil => rfl
  | cons statement rest inductionHypothesis =>
    cases statement with
    | define name position => exact inductionHypothesis
    | instruction mnemonic operation argument => rfl

/-! ### Nearest starts -/

/-- The map answers with the mnemonic of the instruction whose start is nearest. -/
theorem Assembled.tokenAt?_of_forall (right : program.Assembled source assembly) {start : Nat}
    (member : (start, mnemonic) ∈ program.starts 0)
    (least : ∀ other ∈ program.starts 0, Nat.dist start offset < Nat.dist other.1 offset ∨
      Nat.dist start offset = Nat.dist other.1 offset ∧ start ≤ other.1) :
    assembly.map.tokenAt? offset = some mnemonic := by
  have recorded : (start, mnemonic) ∈ assembly.map.entries := by
    rw [right.map]
    exact List.mem_reverse.mpr member
  refine right.falling.tokenAt?_eq_some_iff.mpr
    ⟨start, SourceMap.nearest_of_forall recorded fun other among => ?_,
      right.falling.lookup_eq_some.mpr recorded⟩
  rw [right.map] at among
  exact least other (List.mem_reverse.mp among)

/-- The starts of a program are those in front of an instruction, its own, and those behind. -/
theorem Encloses.starts_eq
    (encloses : program.Encloses before (.instruction mnemonic operation argument) after offset) :
    program.starts 0 = before.starts 0 ++ (before.size, mnemonic) ::
      after.starts (before.size + (1 + argument.width)) := by
  rw [encloses.whole, starts_append, Nat.zero_add]
  rfl

/-- No instruction starts inside another one. -/
theorem Encloses.start_le_or
    (encloses : program.Encloses before (.instruction mnemonic operation argument) after offset)
    {other : Nat × Token} (member : other ∈ program.starts 0) :
    other.1 ≤ before.size ∨ other ∈ after.starts (before.size + (1 + argument.width)) := by
  rw [encloses.starts_eq] at member
  rcases List.mem_append.mp member with front | later
  · have low := start_lt front
    rw [Nat.zero_add] at low
    exact Or.inl (Nat.le_of_lt low)
  · rcases List.mem_cons.mp later with rfl | behind
    · exact Or.inl (Nat.le_refl _)
    · exact Or.inr behind

/-- Inside an instruction the map answers with its mnemonic, or at the second byte of an address
with that of the next instruction. -/
theorem Assembled.tokenAt?_of_encloses (right : program.Assembled source assembly)
    (width : argument.width = operation.operand.width)
    (encloses : program.Encloses before (.instruction mnemonic operation argument) after offset) :
    assembly.map.tokenAt? offset =
      some (if operation.operand = .label ∧ offset = before.size + 2
        then after.firstMnemonic?.getD mnemonic else mnemonic) := by
  have own : (before.size, mnemonic) ∈ program.starts 0 := by
    rw [encloses.starts_eq]
    exact List.mem_append_right _ List.mem_cons_self
  have lower := encloses.lower
  have upper : offset < before.size + (1 + argument.width) := encloses.upper
  by_cases far : operation.operand = .label ∧ offset = before.size + 2
  · rw [if_pos far]
    obtain ⟨label, rfl⟩ := far
    rw [label] at width
    have three : 1 + argument.width = 3 := congrArg (1 + ·) width
    have head := head?_starts after (before.size + (1 + argument.width))
    cases next : after.firstMnemonic? with
    | none =>
      rw [next, Option.map_none, List.head?_eq_none_iff] at head
      refine right.tokenAt?_of_forall own fun other among => ?_
      have low : other.1 ≤ before.size := by
        rcases encloses.start_le_or among with low | behind
        · exact low
        · exact absurd (head ▸ behind) List.not_mem_nil
      simp only [Nat.dist]
      omega
    | some token =>
      rw [next, Option.map_some] at head
      have following : (before.size + (1 + argument.width), token) ∈ program.starts 0 := by
        rw [encloses.starts_eq]
        exact List.mem_append_right _ (List.mem_cons_of_mem _ (List.mem_of_head? head))
      refine right.tokenAt?_of_forall following fun other among => ?_
      have side := (encloses.start_le_or among).imp_right le_start
      simp only [Nat.dist]
      omega
  · rw [if_neg far]
    refine right.tokenAt?_of_forall own fun other among => ?_
    have side := (encloses.start_le_or among).imp_right le_start
    -- The offset is in the first half of the bytes.
    have near : 2 * (offset - before.size) ≤ 1 + argument.width := by
      by_cases label : operation.operand = .label
      · have notLast : offset ≠ before.size + 2 := fun last => far ⟨label, last⟩
        rw [label] at width
        have two : argument.width = 2 := width
        omega
      · have short := OperandKind.width_le_one label
        omega
    simp only [Nat.dist]
    omega

end Program

/-- A map to which tokens are added answers every offset with the last token that was added at
the nearest one, and counts each offset once. So in the code that was assembled from a program
every byte belongs to an instruction, and the answer there is its mnemonic, except that it is the
next one at the second byte of an address that another instruction follows. -/
theorem tokens_found_nearest :
    (∀ (source : String) (added : List (Nat × Token)) (offset : Nat),
      ((SourceMap.ofAdded source added).tokenAt? offset = none ↔ added = []) ∧
      (∀ token, (SourceMap.ofAdded source added).tokenAt? offset = some token ↔
        ∃ found, Nearest (added.map Prod.fst).toFinset offset found ∧
          added.reverse.lookup found = some token) ∧
      (SourceMap.ofAdded source added).size = (added.map Prod.fst).toFinset.card) ∧
    ∀ (tokens : List Token) (source : String) (assembly : Assembly),
      Assembly.ofTokens tokens source = .ok assembly →
      ∃ program, Program.Spelled tokens program ∧ assembly.image.code = program.code ∧
        assembly.image.codeLength = program.size ∧
        (∀ offset < assembly.image.codeLength, ∃ before mnemonic operation argument after,
          program.Encloses before (.instruction mnemonic operation argument) after offset) ∧
        ∀ before mnemonic operation argument after offset,
          program.Encloses before (.instruction mnemonic operation argument) after offset →
          program.code[offset]? =
            ((Statement.instruction mnemonic operation argument).encode
              program.address)[offset - before.size]? ∧
          assembly.map.tokenAt? offset =
            some (if operation.operand = .label ∧ offset = before.size + 2
              then after.firstMnemonic?.getD mnemonic else mnemonic) := by
  refine ⟨fun source added offset => ⟨SourceMap.tokenAt?_ofAdded_eq_none source added offset,
    SourceMap.tokenAt?_ofAdded_eq_some source added offset,
    SourceMap.size_ofAdded source added⟩, ?_⟩
  intro tokens source assembly made
  obtain ⟨program, spelled, right⟩ := Assembly.exists_program made
  refine ⟨program, spelled, right.code_eq, right.codeLength, ?_, ?_⟩
  · intro offset inside
    rw [right.codeLength] at inside
    exact Program.exists_encloses inside
  · intro before mnemonic operation argument after offset encloses
    have member : .instruction mnemonic operation argument ∈ program := by
      rw [encloses.whole]
      exact List.mem_append_right _ List.mem_cons_self
    exact ⟨encloses.getElem?_code, right.tokenAt?_of_encloses (spelled.width_eq member) encloses⟩

/-- A jump over one instruction. The second byte of its address is nearer to that one. -/
theorem tokens_found_nearest_jump :
    ∃ assembly, Assembly.ofTokens [⟨.mnemonic, "JMP", 0⟩, ⟨.label, "end", 4⟩,
        ⟨.mnemonic, "DUP", 9⟩, ⟨.mnemonic, "LAB", 13⟩, ⟨.label, "end", 17⟩]
        "JMP #end DUP LAB #end" = .ok assembly ∧
      assembly.map.tokenAt? 1 = some ⟨.mnemonic, "JMP", 0⟩ ∧
      assembly.map.tokenAt? 2 = some ⟨.mnemonic, "DUP", 9⟩ := by
  have spelled : Program.Spelled
      [⟨.mnemonic, "JMP", 0⟩, ⟨.label, "end", 4⟩, ⟨.mnemonic, "DUP", 9⟩, ⟨.mnemonic, "LAB", 13⟩,
        ⟨.label, "end", 17⟩]
      [.instruction ⟨.mnemonic, "JMP", 0⟩ .jmp (.label "end"),
        .instruction ⟨.mnemonic, "DUP", 9⟩ .dup .nothing, .define "end" 17] :=
    .withOperand rfl rfl (.label rfl) (.plain rfl rfl rfl (.define rfl rfl rfl .nothing))
  obtain ⟨assembly, made⟩ := Assembly.exists_assembly spelled
    ⟨by decide, by decide, by decide⟩
  obtain ⟨program, same, _, _, _, answers⟩ := tokens_found_nearest.2 _ _ assembly made
  obtain rfl := spelled.unique same
  exact ⟨assembly, made, (answers [] _ _ _ _ 1 ⟨rfl, by decide, by decide⟩).2,
    (answers [] _ _ _ _ 2 ⟨rfl, by decide, by decide⟩).2⟩

end ByteStack
