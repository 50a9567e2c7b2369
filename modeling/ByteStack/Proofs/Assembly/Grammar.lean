/-
This file is the grammar of programs, stated as a relation between tokens and
statements: a list of tokens spells a program when it splits from left to right
into instructions and definitions of labels, each with a known mnemonic and with
the operand that the catalog demands. The reader of statements finds the program
that the tokens spell, and finds nothing but errors when they spell none.
-/

import ByteStack.Proofs.Assembly.Program

namespace ByteStack

/-! ### Numbers -/

namespace Text

/-- A literal that denotes a value up to a limit: at least one decimal digit, and perhaps a
plus sign in front of the digits. -/
def Denotes (limit : Nat) (literal : String) (value : Nat) : Prop :=
  ∃ digits : List Char, (literal.toList = digits ∨ literal.toList = '+' :: digits) ∧
    digits ≠ [] ∧ (∀ digit ∈ digits, digit.isDigit) ∧ valueOf 10 digits = value ∧ value ≤ limit

theorem magnitude?_eq_some (limit value : Nat) (digits : List Char) :
    magnitude? limit digits = some value ↔
      digits ≠ [] ∧ (∀ digit ∈ digits, digit.isDigit) ∧ valueOf 10 digits = value ∧
        value ≤ limit := by
  unfold magnitude?
  by_cases shape : digits ≠ [] ∧ ∀ digit ∈ digits, digit.isDigit
  · have passes : (!digits.isEmpty && digits.all Char.isDigit) = true := by
      simpa using shape
    rw [if_pos passes, valueUpTo_eq_min limit 10 (by decide)]
    by_cases small : valueOf 10 digits ≤ limit
    · rw [Nat.min_eq_right (Nat.le_succ_of_le small), if_pos small]
      constructor
      · rintro found
        obtain rfl := Option.some.inj found
        exact ⟨shape.1, shape.2, rfl, small⟩
      · rintro ⟨_, _, rfl, _⟩
        rfl
    · have large : limit + 1 ≤ valueOf 10 digits := Nat.lt_of_not_le small
      rw [Nat.min_eq_left large, if_neg (Nat.not_succ_le_self limit)]
      constructor
      · exact nofun
      · rintro ⟨_, _, rfl, bound⟩
        exact absurd bound small
  · have stops : ¬(!digits.isEmpty && digits.all Char.isDigit) = true := by
      simpa using shape
    rw [if_neg stops]
    constructor
    · exact nofun
    · rintro ⟨some, each, _⟩
      exact absurd ⟨some, each⟩ shape

theorem unsigned?_eq_some (limit value : Nat) (literal : String) :
    unsigned? limit literal = some value ↔ Denotes limit literal value := by
  unfold unsigned? Denotes
  split
  · next digits spelled =>
    rw [magnitude?_eq_some, spelled]
    constructor
    · rintro ⟨some, each, same, bound⟩
      exact ⟨digits, Or.inr rfl, some, each, same, bound⟩
    · rintro ⟨others, first | second, some, each, same, bound⟩
      · -- A plus sign is no digit, so the sign is not one of the digits.
        subst first
        exact absurd (each '+' List.mem_cons_self) (by decide)
      · obtain rfl := (List.cons.inj second).2
        exact ⟨some, each, same, bound⟩
  · next digits noSign =>
    rw [magnitude?_eq_some]
    constructor
    · rintro ⟨some, each, same, bound⟩
      exact ⟨_, Or.inl rfl, some, each, same, bound⟩
    · rintro ⟨others, rfl | second, some, each, same, bound⟩
      · exact ⟨some, each, same, bound⟩
      · exact absurd second (noSign others)

/-- The decimal text of a number denotes that number. -/
theorem Denotes.eq_of_natural {limit number value : Nat}
    (denotes : Denotes limit (natural number) value) : value = number := by
  obtain ⟨digits, spelled, some, each, rfl, _⟩ := denotes
  rw [natural, String.toList_ofList] at spelled
  rcases spelled with plain | signed
  · rw [← plain]
    exact Nat.ofDigitChars_ten_toDigits
  · have sign : '+' ∈ Nat.toDigits 10 number := by
      rw [signed]
      exact List.mem_cons_self
    exact absurd (Nat.isDigit_of_mem_toDigits (by decide) (by decide) sign) (by decide)

end Text

/-! ### Operands -/

/-- A token of the right kind, and the argument that it stands for. -/
inductive Argument.Spelled : OperandKind → Token → Argument → Prop where
  | number {token : Token} {value : Nat} (kind : token.kind = .number)
      (denotes : Text.Denotes 65535 token.literal value) :
      Spelled .number token (.byte (UInt8.ofNat value))
  | register {token : Token} {value : Nat} (kind : token.kind = .register)
      (denotes : Text.Denotes 255 token.literal value) :
      Spelled .register token (.byte (UInt8.ofNat value))
  | label {token : Token} (kind : token.kind = .label) :
      Spelled .label token (.label token.literal)

namespace Argument

theorem ofToken?_eq_some (expected : OperandKind) (token : Token) (argument : Argument) :
    ofToken? expected token = some argument ↔ Spelled expected token argument := by
  constructor
  · intro found
    unfold ofToken? at found
    split at found
    · next kind =>
      obtain ⟨value, denotes, rfl⟩ := Option.map_eq_some_iff.mp found
      exact .number kind ((Text.unsigned?_eq_some _ _ _).mp denotes)
    · next kind =>
      obtain ⟨value, denotes, rfl⟩ := Option.map_eq_some_iff.mp found
      exact .register kind ((Text.unsigned?_eq_some _ _ _).mp denotes)
    · next kind =>
      obtain rfl := Option.some.inj found
      exact .label kind
    · exact nomatch found
  · intro spelled
    unfold ofToken?
    cases spelled with
    | number kind denotes =>
      rw [kind, (Text.unsigned?_eq_some largestNumber _ _).mpr denotes]
      rfl
    | register kind denotes =>
      rw [kind, (Text.unsigned?_eq_some largestRegister _ _).mpr denotes]
      rfl
    | label kind => rw [kind]

/-- Where an operand is spelled, one is due. -/
theorem Spelled.demanded {expected : OperandKind} {token : Token} {argument : Argument}
    (spelled : Spelled expected token argument) : expected ≠ .none := by
  cases spelled <;> exact nofun

/-- An operand takes the bytes that the catalog says. -/
theorem Spelled.width_eq {expected : OperandKind} {token : Token} {argument : Argument}
    (spelled : Spelled expected token argument) : argument.width = expected.width := by
  cases spelled <;> rfl

end Argument

/-! ### Programs -/

namespace Program

/-- The tokens split from left to right into the statements of the program. -/
inductive Spelled : List Token → Program → Prop where
  | nothing : Spelled [] []
  | plain {token : Token} {operation : Operation} {tokens : List Token} {program : Program}
      (kind : token.kind = .mnemonic) (name : token.literal = operation.mnemonic)
      (alone : operation.operand = .none) (rest : Spelled tokens program) :
      Spelled (token :: tokens) (.instruction token operation .nothing :: program)
  | withOperand {token operand : Token} {operation : Operation} {argument : Argument}
      {tokens : List Token} {program : Program}
      (kind : token.kind = .mnemonic) (name : token.literal = operation.mnemonic)
      (spelled : Argument.Spelled operation.operand operand argument)
      (rest : Spelled tokens program) :
      Spelled (token :: operand :: tokens) (.instruction token operation argument :: program)
  | define {token label : Token} {tokens : List Token} {program : Program}
      (kind : token.kind = .mnemonic) (name : token.literal = "LAB")
      (labelKind : label.kind = .label) (rest : Spelled tokens program) :
      Spelled (token :: label :: tokens) (.define label.literal label.position :: program)

end Program

namespace Mnemonic

theorem ofName?_eq_some (name : String) (meaning : Mnemonic) :
    ofName? name = some meaning ↔
      match meaning with
      | .operation named => name = named.mnemonic
      | .defineLabel => name = "LAB" := by
  unfold ofName?
  cases meaning with
  | operation named =>
    constructor
    · intro found
      by_cases same : name = defineLabelName
      · rw [if_pos same] at found
        exact nomatch found
      · rw [if_neg same, Option.map_eq_some_iff] at found
        obtain ⟨other, listed, equal⟩ := found
        obtain rfl := Mnemonic.operation.inj equal
        exact (Operation.mnemonic_of_ofMnemonic? listed).symm
    · rintro rfl
      exact ofName?_mnemonic named
  | defineLabel =>
    constructor
    · intro found
      by_cases same : name = defineLabelName
      · exact same
      · rw [if_neg same, Option.map_eq_some_iff] at found
        obtain ⟨other, _, equal⟩ := found
        exact nomatch equal
    · intro same
      exact if_pos same

/-- Only an operation can stand without an operand. -/
theorem operand_ne_none {meaning : Mnemonic}
    (demand : ∀ named, meaning = .operation named → meaning.operand = .none → False) :
    meaning.operand ≠ .none := by
  cases meaning with
  | operation named => exact demand named rfl
  | defineLabel => exact nofun

end Mnemonic

namespace Statement

/-- The reader of statements reads an instruction or a definition with its operand just when
the catalog knows the mnemonic and the operand is what it demands. -/
theorem ofOperand_eq_ok (token operand : Token) (mnemonic : Mnemonic) (statement : Statement) :
    ofOperand token mnemonic operand = .ok statement ↔
      ∃ argument, Argument.Spelled mnemonic.operand operand argument ∧
        statement = match mnemonic with
          | .operation operation => .instruction token operation argument
          | .defineLabel => .define operand.literal operand.position := by
  unfold ofOperand
  cases read : Argument.ofToken? mnemonic.operand operand with
  | none =>
    constructor
    · intro result
      cases mnemonic <;> exact nomatch result
    · rintro ⟨argument, spelled, _⟩
      rw [(Argument.ofToken?_eq_some _ _ _).mpr spelled] at read
      exact nomatch read
  | some argument =>
    have spelled := (Argument.ofToken?_eq_some _ _ _).mp read
    have only : ∀ other, Argument.Spelled mnemonic.operand operand other → other = argument := by
      intro other also
      rw [(Argument.ofToken?_eq_some _ _ _).mpr also] at read
      exact Option.some.inj read
    cases mnemonic with
    | operation operation =>
      constructor
      · intro result
        exact ⟨argument, spelled, (Except.ok.inj result).symm⟩
      · rintro ⟨other, also, rfl⟩
        rw [only other also]
    | defineLabel =>
      constructor
      · intro result
        exact ⟨argument, spelled, (Except.ok.inj result).symm⟩
      · rintro ⟨_, _, rfl⟩
        rfl

/-- A mnemonic that stands alone is a whole instruction. -/
theorem ofTokens_plain {token : Token} {operation : Operation} (kind : token.kind = .mnemonic)
    (known : Mnemonic.ofName? token.literal = some (.operation operation))
    (alone : operation.operand = .none) (rest : List Token) :
    ofTokens (token :: rest) =
      .ok (.instruction token operation .nothing) :: ofTokens rest := by
  have empty : (Mnemonic.operation operation).operand = .none := alone
  rw [ofTokens.eq_def]
  simp only [kind, known, empty, ne_eq, not_true_eq_false, if_false]

/-- A mnemonic that demands an operand takes the next token, whatever that is. -/
theorem ofTokens_withOperand {token : Token} {mnemonic : Mnemonic}
    (kind : token.kind = .mnemonic) (known : Mnemonic.ofName? token.literal = some mnemonic)
    (demands : mnemonic.operand ≠ .none) (operand : Token) (rest : List Token) :
    ofTokens (token :: operand :: rest) =
      ofOperand token mnemonic operand :: ofTokens rest := by
  rw [ofTokens.eq_def]
  simp only [kind, known, ne_eq, not_true_eq_false, if_false]
  split
  · next _ _ _ alone => exact absurd alone demands
  · rfl

/-- A mnemonic that demands an operand cannot come last. -/
theorem ofTokens_last {token : Token} {mnemonic : Mnemonic} (kind : token.kind = .mnemonic)
    (known : Mnemonic.ofName? token.literal = some mnemonic)
    (demands : mnemonic.operand ≠ .none) :
    ofTokens [token] = [.error ⟨.unexpectedEnd, token.position⟩] := by
  rw [ofTokens.eq_def]
  simp only [kind, known, ne_eq, not_true_eq_false, if_false]
  split
  · next _ _ _ alone => exact absurd alone demands
  · rfl

/-- The reader of statements finds the program that the tokens spell. -/
theorem ofTokens_of_spelled {tokens : List Token} {program : Program}
    (spelled : Program.Spelled tokens program) : ofTokens tokens = program.map .ok := by
  induction spelled with
  | nothing => rfl
  | @plain token operation tokens program kind name alone rest inductionHypothesis =>
    have known : Mnemonic.ofName? token.literal = some (.operation operation) :=
      (Mnemonic.ofName?_eq_some _ _).mpr name
    rw [ofTokens_plain kind known alone, inductionHypothesis, List.map_cons]
  | @withOperand token operand operation argument tokens program kind name spelled rest
      inductionHypothesis =>
    have known : Mnemonic.ofName? token.literal = some (.operation operation) :=
      (Mnemonic.ofName?_eq_some _ _).mpr name
    have read : ofOperand token (.operation operation) operand =
        .ok (.instruction token operation argument) :=
      (ofOperand_eq_ok _ _ _ _).mpr ⟨argument, spelled, rfl⟩
    rw [ofTokens_withOperand kind known spelled.demanded, read, inductionHypothesis, List.map_cons]
  | @define token label tokens program kind name labelKind rest inductionHypothesis =>
    have known : Mnemonic.ofName? token.literal = some .defineLabel :=
      (Mnemonic.ofName?_eq_some _ _).mpr name
    have read : ofOperand token .defineLabel label = .ok (.define label.literal label.position) :=
      (ofOperand_eq_ok _ _ _ _).mpr ⟨_, .label labelKind, rfl⟩
    rw [ofTokens_withOperand kind known (by exact nofun), read, inductionHypothesis, List.map_cons]

/-- When the reader of statements meets no error, the tokens spell what it found. -/
theorem spelled_of_ofTokens {tokens : List Token} {program : Program}
    (found : ofTokens tokens = program.map .ok) : Program.Spelled tokens program := by
  induction tokens using ofTokens.induct generalizing program with
  | case1 =>
    obtain rfl := List.map_eq_nil_iff.mp found.symm
    exact .nothing
  | case2 token rest wrong =>
    rw [ofTokens, if_pos wrong] at found
    obtain ⟨statement, others, _, impossible, _⟩ := List.map_eq_cons_iff.mp found.symm
    exact nomatch impossible
  | case3 token rest kind unknown inductionHypothesis =>
    rw [ofTokens, if_neg kind, unknown] at found
    obtain ⟨statement, others, _, impossible, _⟩ := List.map_eq_cons_iff.mp found.symm
    exact nomatch impossible
  | case4 token rest kind operation known alone inductionHypothesis =>
    rw [ofTokens_plain (Decidable.not_not.mp kind) known alone] at found
    obtain ⟨statement, others, rfl, same, more⟩ := List.map_eq_cons_iff.mp found.symm
    obtain rfl := Except.ok.inj same
    exact .plain (Decidable.not_not.mp kind) ((Mnemonic.ofName?_eq_some _ _).mp known) alone
      (inductionHypothesis more.symm)
  | case5 token kind mnemonic known demand =>
    rw [ofTokens_last (Decidable.not_not.mp kind) known
      (Mnemonic.operand_ne_none demand)] at found
    obtain ⟨statement, others, _, impossible, _⟩ := List.map_eq_cons_iff.mp found.symm
    exact nomatch impossible
  | case6 token kind mnemonic known operand rest demand inductionHypothesis =>
    rw [ofTokens_withOperand (Decidable.not_not.mp kind) known
      (Mnemonic.operand_ne_none demand)] at found
    obtain ⟨statement, others, rfl, same, more⟩ := List.map_eq_cons_iff.mp found.symm
    obtain ⟨argument, spelled, rfl⟩ := (ofOperand_eq_ok _ _ _ _).mp same.symm
    have named := (Mnemonic.ofName?_eq_some _ _).mp known
    have others := inductionHypothesis more.symm
    cases mnemonic with
    | operation operation => exact .withOperand (Decidable.not_not.mp kind) named spelled others
    | defineLabel =>
      cases spelled with
      | label labelKind => exact .define (Decidable.not_not.mp kind) named labelKind others

theorem ofTokens_eq_map_ok (tokens : List Token) (program : Program) :
    ofTokens tokens = program.map .ok ↔ Program.Spelled tokens program :=
  ⟨spelled_of_ofTokens, ofTokens_of_spelled⟩

end Statement

/-- Tokens spell one program at most. -/
theorem Program.Spelled.unique {tokens : List Token} {program other : Program}
    (spelled : Spelled tokens program) (also : Spelled tokens other) : program = other := by
  have same := (Statement.ofTokens_of_spelled spelled).symm.trans
    (Statement.ofTokens_of_spelled also)
  exact (List.map_inj_right fun _ _ => Except.ok.inj).mp same

/-- An instruction of a program takes the bytes that the catalog says. -/
theorem Program.Spelled.width_eq {tokens : List Token} {program : Program}
    (spelled : Spelled tokens program) {mnemonic : Token} {operation : Operation}
    {argument : Argument} (member : .instruction mnemonic operation argument ∈ program) :
    argument.width = operation.operand.width := by
  induction spelled with
  | nothing => exact nomatch member
  | plain kind name alone rest inductionHypothesis =>
    rcases List.mem_cons.mp member with here | later
    · cases here
      rw [alone]
      rfl
    · exact inductionHypothesis later
  | withOperand kind name spelled rest inductionHypothesis =>
    rcases List.mem_cons.mp member with here | later
    · cases here
      exact spelled.width_eq
    · exact inductionHypothesis later
  | define kind name labelKind rest inductionHypothesis =>
    rcases List.mem_cons.mp member with here | later
    · exact nomatch here
    · exact inductionHypothesis later

end ByteStack
