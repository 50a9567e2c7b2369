/-
This file says what a program is once its tokens have been read, and what code
it stands for, without a word about how an assembler gets there. A program is a
list of statements. Each instruction takes a fixed number of bytes, a label
names the sum of the bytes in front of its definition, and the code is the bytes
of the instructions one after the other.

A program can be assembled when no label is defined twice, every label that is
used is defined somewhere, and the code fits into the code region.
-/

import ByteStack.Assembly.Statement
import ByteStack.Image.Basic

namespace ByteStack

/-! ### Statements -/

/-- The bytes of an argument, when the addresses of labels are known. -/
def Argument.encode (address : String → Nat) : Argument → List UInt8
  | .nothing => []
  | .byte value => [value]
  | .label name => [highByte (address name), lowByte (address name)]

namespace Statement

/-- How many bytes the statement takes in the code. -/
def size : Statement → Nat
  | .define _ _ => 0
  | .instruction _ _ argument => 1 + argument.width

/-- The bytes of a statement, when the addresses of labels are known. -/
def encode (address : String → Nat) : Statement → List UInt8
  | .define _ _ => []
  | .instruction _ operation argument => operation.code :: argument.encode address

/-- The label that the statement defines. -/
def definedName? : Statement → Option String
  | .define name _ => some name
  | .instruction _ _ _ => none

/-- The label that the statement uses. -/
def usedName? : Statement → Option String
  | .instruction _ _ (.label name) => some name
  | _ => none

theorem length_encode (address : String → Nat) (statement : Statement) :
    (statement.encode address).length = statement.size := by
  cases statement with
  | define name position => rfl
  | instruction mnemonic operation argument =>
    cases argument <;> rfl

end Statement

/-! ### Programs -/

/-- The statements of a program, in order. -/
abbrev Program := List Statement

namespace Program

/-- The bytes of the whole code. -/
def size : Program → Nat
  | [] => 0
  | statement :: rest => statement.size + size rest

/-- The names that are defined, once for each definition. -/
def definedNames (program : Program) : List String :=
  program.filterMap Statement.definedName?

/-- The names that are used, once for each use. -/
def usedNames (program : Program) : List String :=
  program.filterMap Statement.usedName?

/-- The address of a label: the bytes in front of its first definition. -/
def addressOf? (name : String) : Program → Option Nat
  | [] => none
  | statement :: rest =>
    if statement.definedName? = some name then some 0
    else (addressOf? name rest).map (statement.size + ·)

/-- The address of a label, with zero for one that is not defined. -/
def address (program : Program) (name : String) : Nat :=
  (program.addressOf? name).getD 0

/-- The code of a program. -/
def code (program : Program) : List UInt8 :=
  program.flatMap (Statement.encode program.address)

/-- The offset and the mnemonic of each instruction, when the first one stands at `offset`. -/
def starts (offset : Nat) : Program → List (Nat × Token)
  | [] => []
  | .define _ _ :: rest => starts offset rest
  | .instruction mnemonic operation argument :: rest =>
    (offset, mnemonic) ::
      starts (offset + (Statement.instruction mnemonic operation argument).size) rest

/-- What a program must fulfil so that there is code for it. -/
structure Assemblable (program : Program) : Prop where
  /-- No label is defined twice. -/
  distinct : program.definedNames.Nodup
  /-- Every label that is used is defined somewhere. -/
  resolved : ∀ name ∈ program.usedNames, name ∈ program.definedNames
  fits : program.size ≤ Layout.codeSize

/-! ### Programs in two parts -/

variable (before after : Program) (name : String)

theorem size_append : size (before ++ after) = before.size + after.size := by
  induction before with
  | nil => exact (Nat.zero_add _).symm
  | cons statement rest inductionHypothesis =>
    rw [List.cons_append, size, size, inductionHypothesis, Nat.add_assoc]

theorem size_singleton (statement : Statement) : size [statement] = statement.size :=
  Nat.add_zero _

theorem definedNames_append :
    definedNames (before ++ after) = before.definedNames ++ after.definedNames :=
  List.filterMap_append

theorem usedNames_append :
    usedNames (before ++ after) = before.usedNames ++ after.usedNames :=
  List.filterMap_append

theorem starts_append (offset : Nat) :
    starts offset (before ++ after) =
      starts offset before ++ starts (offset + before.size) after := by
  induction before generalizing offset with
  | nil => rfl
  | cons statement rest inductionHypothesis =>
    cases statement with
    | define name position =>
      rw [List.cons_append, starts, starts, inductionHypothesis,
        show size (.define name position :: rest) = size rest from Nat.zero_add _]
    | instruction mnemonic operation argument =>
      rw [List.cons_append, starts, starts, inductionHypothesis, List.cons_append, Nat.add_assoc]
      rfl

/-- A label has an address just when it is defined. -/
theorem addressOf?_isSome (program : Program) :
    (program.addressOf? name).isSome ↔ name ∈ program.definedNames := by
  induction program with
  | nil => simp [addressOf?, definedNames]
  | cons statement rest inductionHypothesis =>
    unfold addressOf? definedNames
    rw [List.filterMap_cons]
    by_cases here : statement.definedName? = some name
    · rw [if_pos here, here]
      simp
    · rw [if_neg here, Option.isSome_map, inductionHypothesis]
      cases other : statement.definedName? with
      | none => rfl
      | some defined =>
        rw [other] at here
        have different : name ≠ defined := fun same => here (congrArg some same.symm)
        simp [definedNames, different]

theorem addressOf?_eq_none (program : Program) :
    program.addressOf? name = none ↔ name ∉ program.definedNames := by
  rw [← addressOf?_isSome, Option.not_isSome_iff_eq_none]

/-- A label that the first part defines keeps its address; another one is looked up behind. -/
theorem addressOf?_append :
    addressOf? name (before ++ after) =
      (addressOf? name before).or ((addressOf? name after).map (before.size + ·)) := by
  induction before with
  | nil => simp [addressOf?, size]
  | cons statement rest inductionHypothesis =>
    rw [List.cons_append, addressOf?, addressOf?]
    by_cases here : statement.definedName? = some name
    · rw [if_pos here, if_pos here]
      rfl
    · rw [if_neg here, if_neg here, inductionHypothesis,
        show size (statement :: rest) = statement.size + size rest from rfl]
      cases addressOf? name rest with
      | some address => rfl
      | none =>
        cases addressOf? name after with
        | none => rfl
        | some address => simp [Nat.add_assoc]

/-- An address is a place between two statements. -/
theorem exists_of_addressOf?_eq_some {program : Program} {address : Nat}
    (found : program.addressOf? name = some address) :
    ∃ before after, program = before ++ after ∧ address = size before := by
  induction program generalizing address with
  | nil => simp [addressOf?] at found
  | cons statement rest inductionHypothesis =>
    unfold addressOf? at found
    by_cases here : statement.definedName? = some name
    · rw [if_pos here] at found
      obtain rfl := Option.some.inj found
      exact ⟨[], statement :: rest, rfl, rfl⟩
    · rw [if_neg here] at found
      obtain ⟨inner, there, rfl⟩ := Option.map_eq_some_iff.mp found
      obtain ⟨before, after, rfl, rfl⟩ := inductionHypothesis there
      exact ⟨statement :: before, after, rfl, rfl⟩

/-! ### Code in two parts -/

theorem length_flatMap_encode (address : String → Nat) (program : Program) :
    (program.flatMap (Statement.encode address)).length = program.size := by
  induction program with
  | nil => rfl
  | cons statement rest inductionHypothesis =>
    rw [List.flatMap_cons, List.length_append, inductionHypothesis, Statement.length_encode]
    rfl

theorem length_code (program : Program) : program.code.length = program.size :=
  length_flatMap_encode _ _

end Program

end ByteStack
