/-
This file says exactly which errors an assembly reports. Tokens are scanned from
the left, one statement at a time. Each error says how many tokens it costs and
whether the scan goes on behind them; what was accepted before stays accepted.
Labels that are never set are reported only if the scan found nothing.

The scan is stated as a relation with one rule for each thing that can be met.
It is total, and the assembler follows it: the induction carries what has been
emitted for the statements accepted so far, so that whether a statement fits, or
defines a label again, is decided by the program alone.
-/

import ByteStack.Proofs.Assembly.Encoding
import ByteStack.Proofs.Assembly.Mention

namespace ByteStack

/-! ### Mnemonics and single statements -/

/-- Behind a mnemonic with this name such an operand is due, or none. -/
inductive Demands : String → OperandKind → Prop where
  | operation (operation : Operation) : Demands operation.mnemonic operation.operand
  | define : Demands "LAB" .label

/-- The tokens are one statement. -/
inductive Statement.Spelled : List Token → Statement → Prop where
  | plain {token : Token} {operation : Operation} (kind : token.kind = .mnemonic)
      (name : token.literal = operation.mnemonic) (alone : operation.operand = .none) :
      Spelled [token] (.instruction token operation .nothing)
  | withOperand {token operand : Token} {operation : Operation} {argument : Argument}
      (kind : token.kind = .mnemonic) (name : token.literal = operation.mnemonic)
      (spelled : Argument.Spelled operation.operand operand argument) :
      Spelled [token, operand] (.instruction token operation argument)
  | define {token label : Token} (kind : token.kind = .mnemonic) (name : token.literal = "LAB")
      (labelKind : label.kind = .label) :
      Spelled [token, label] (.define label.literal label.position)

theorem demands_iff {name : String} {operand : OperandKind} :
    Demands name operand ↔
      ∃ mnemonic, Mnemonic.ofName? name = some mnemonic ∧ mnemonic.operand = operand := by
  constructor
  · intro demands
    cases demands with
    | operation operation => exact ⟨.operation operation, Mnemonic.ofName?_mnemonic _, rfl⟩
    | define => exact ⟨.defineLabel, rfl, rfl⟩
  · rintro ⟨mnemonic, known, rfl⟩
    have named := (Mnemonic.ofName?_eq_some _ _).mp known
    cases mnemonic with
    | operation operation =>
      obtain rfl : name = operation.mnemonic := named
      exact .operation operation
    | defineLabel =>
      obtain rfl : name = "LAB" := named
      exact .define

theorem ofName?_eq_none {name : String} :
    Mnemonic.ofName? name = none ↔ ∀ operand, ¬Demands name operand := by
  simp only [demands_iff, not_exists, not_and, Option.eq_none_iff_forall_ne_some]
  exact ⟨fun unknown operand mnemonic known => absurd known (unknown mnemonic),
    fun none mnemonic known => none _ mnemonic known rfl⟩

namespace Statement

theorem ofOperand_eq_error {token found : Token} {mnemonic : Mnemonic}
    (wrong : ∀ argument, ¬Argument.Spelled mnemonic.operand found argument) :
    ofOperand token mnemonic found =
      .error ⟨.unexpectedOperand mnemonic.operand.tokenKind found.kind, found.position⟩ := by
  have unread : Argument.ofToken? mnemonic.operand found = none := by
    rw [Option.eq_none_iff_forall_ne_some]
    exact fun argument read => wrong argument ((Argument.ofToken?_eq_some _ _ _).mp read)
  unfold ofOperand
  rw [unread]
  cases mnemonic <;> rfl

/-- A statement is read, whatever follows it. -/
theorem Spelled.ofTokens_eq {front : List Token} {statement : Statement}
    (spelled : Spelled front statement) (rest : List Token) :
    ofTokens (front ++ rest) = .ok statement :: ofTokens rest := by
  cases spelled with
  | plain kind name alone =>
    exact ofTokens_plain kind ((Mnemonic.ofName?_eq_some _ (.operation _)).mpr name) alone rest
  | @withOperand token operand operation argument kind name argumentSpelled =>
    have read : ofOperand token (.operation operation) operand =
        .ok (.instruction token operation argument) :=
      (ofOperand_eq_ok _ _ _ _).mpr ⟨argument, argumentSpelled, rfl⟩
    rw [← read]
    exact ofTokens_withOperand kind ((Mnemonic.ofName?_eq_some _ (.operation _)).mpr name)
      argumentSpelled.demanded operand rest
  | @define token label kind name labelKind =>
    have read : ofOperand token .defineLabel label = .ok (.define label.literal label.position) :=
      (ofOperand_eq_ok _ _ _ _).mpr ⟨_, .label labelKind, rfl⟩
    rw [← read]
    exact ofTokens_withOperand kind ((Mnemonic.ofName?_eq_some _ .defineLabel).mpr name)
      (by exact nofun) label rest

/-- An instruction takes the bytes that the catalog says. -/
theorem Spelled.size_eq {front : List Token} {mnemonic : Token} {operation : Operation}
    {argument : Argument} (spelled : Spelled front (.instruction mnemonic operation argument)) :
    (Statement.instruction mnemonic operation argument).size = operation.encodedLength := by
  cases spelled with
  | plain kind name alone => rw [Operation.encodedLength, alone]; rfl
  | withOperand kind name argumentSpelled =>
    rw [Operation.encodedLength, ← argumentSpelled.width_eq]
    rfl

end Statement

/-! ### The scan -/

/-- When the statements in front have been accepted, the tokens are scanned with these errors, and
these are all the statements that are accepted in the end. -/
inductive Scanned : Program → List Token → List AssemblyError → Program → Prop where
  | finished (before : Program) : Scanned before [] [] before
  /-- Something that is no mnemonic ends the scan. -/
  | notAnOperation (before : Program) {token : Token} (rest : List Token)
      (kind : token.kind ≠ .mnemonic) :
      Scanned before (token :: rest) [⟨.notAnOperation token.literal, token.position⟩] before
  /-- An unknown mnemonic costs one token. -/
  | unknown {before after : Program} {token : Token} {rest : List Token}
      {errors : List AssemblyError} (kind : token.kind = .mnemonic)
      (unknown : ∀ operand, ¬Demands token.literal operand)
      (more : Scanned before rest errors after) :
      Scanned before (token :: rest)
        (⟨.invalidOperationName token.literal, token.position⟩ :: errors) after
  /-- A mnemonic whose operand is missing ends the scan. -/
  | unfinished (before : Program) {token : Token} {operand : OperandKind}
      (kind : token.kind = .mnemonic) (demands : Demands token.literal operand)
      (due : operand ≠ .none) :
      Scanned before [token] [⟨.unexpectedEnd, token.position⟩] before
  /-- A wrong operand costs two tokens, itself and the mnemonic. -/
  | wrongOperand {before after : Program} {token found : Token} {operand : OperandKind}
      {rest : List Token} {errors : List AssemblyError} (kind : token.kind = .mnemonic)
      (demands : Demands token.literal operand) (due : operand ≠ .none)
      (wrong : ∀ argument, ¬Argument.Spelled operand found argument)
      (more : Scanned before rest errors after) :
      Scanned before (token :: found :: rest)
        (⟨.unexpectedOperand operand.tokenKind found.kind, found.position⟩ :: errors) after
  /-- A label is defined for the first time. -/
  | define {before after : Program} {front rest : List Token} {name : String} {position : Nat}
      {errors : List AssemblyError} (spelled : Statement.Spelled front (.define name position))
      (fresh : name ∉ before.definedNames)
      (more : Scanned (before ++ [.define name position]) rest errors after) :
      Scanned before (front ++ rest) errors after
  /-- A label is defined again, and keeps its first definition. -/
  | defineAgain {before after : Program} {front rest : List Token} {name : String} {position : Nat}
      {errors : List AssemblyError} (spelled : Statement.Spelled front (.define name position))
      (known : name ∈ before.definedNames) (more : Scanned before rest errors after) :
      Scanned before (front ++ rest) (⟨.labelReset name, position⟩ :: errors) after
  | instruction {before after : Program} {front rest : List Token} {mnemonic : Token}
      {operation : Operation} {argument : Argument} {errors : List AssemblyError}
      (spelled : Statement.Spelled front (.instruction mnemonic operation argument))
      (fits : before.size + operation.encodedLength ≤ 7900)
      (more : Scanned (before ++ [.instruction mnemonic operation argument]) rest errors after) :
      Scanned before (front ++ rest) errors after
  /-- An instruction that does not fit into the code region ends the scan. -/
  | overflow (before : Program) {front : List Token} (rest : List Token) {mnemonic : Token}
      {operation : Operation} {argument : Argument}
      (spelled : Statement.Spelled front (.instruction mnemonic operation argument))
      (full : 7900 < before.size + operation.encodedLength) :
      Scanned before (front ++ rest) [⟨.codeOverflow, mnemonic.position⟩] before

/-- No label that is never set keeps anything from being read. -/
theorem Program.isStructural_neverSet (program : Program) :
    ∀ error ∈ program.neverSet.dropLast, error.fault.isStructural = false := by
  intro error member
  obtain ⟨name, _, rfl⟩ := List.mem_map.mp (List.dropLast_subset _ member)
  rfl

namespace Scanned

variable {source : String} {before after : Program} {tokens : List Token}
  {errors : List AssemblyError} {emission : Emission}

/-! ### Every list of tokens can be scanned -/

theorem exists_statement {front rest : List Token} {statement : Statement}
    (spelled : Statement.Spelled front statement)
    (more : ∀ before, ∃ errors after, Scanned before rest errors after) (before : Program) :
    ∃ errors after, Scanned before (front ++ rest) errors after := by
  cases statement with
  | define name position =>
    by_cases known : name ∈ before.definedNames
    · obtain ⟨errors, after, scanned⟩ := more before
      exact ⟨_, after, .defineAgain spelled known scanned⟩
    · obtain ⟨errors, after, scanned⟩ := more (before ++ [.define name position])
      exact ⟨errors, after, .define spelled known scanned⟩
  | instruction mnemonic operation argument =>
    by_cases fits : before.size + operation.encodedLength ≤ 7900
    · obtain ⟨errors, after, scanned⟩ := more (before ++ [.instruction mnemonic operation argument])
      exact ⟨errors, after, .instruction spelled fits scanned⟩
    · exact ⟨_, before, .overflow before rest spelled (Nat.lt_of_not_le fits)⟩

theorem exists_errors (before : Program) (tokens : List Token) :
    ∃ errors after, Scanned before tokens errors after := by
  induction tokens using Statement.ofTokens.induct generalizing before with
  | case1 => exact ⟨[], before, .finished before⟩
  | case2 token rest wrong => exact ⟨_, before, .notAnOperation before rest wrong⟩
  | case3 token rest kind unknown inductionHypothesis =>
    obtain ⟨errors, after, scanned⟩ := inductionHypothesis before
    exact ⟨_, after, .unknown (Decidable.not_not.mp kind) (ofName?_eq_none.mp unknown) scanned⟩
  | case4 token rest kind operation known alone inductionHypothesis =>
    have named := (Mnemonic.ofName?_eq_some _ (.operation _)).mp known
    have spelled : Statement.Spelled [token] (.instruction token operation .nothing) :=
      .plain (Decidable.not_not.mp kind) named alone
    exact exists_statement spelled inductionHypothesis before
  | case5 token kind mnemonic known demand =>
    exact ⟨_, before, .unfinished before (Decidable.not_not.mp kind)
      (demands_iff.mpr ⟨mnemonic, known, rfl⟩) (Mnemonic.operand_ne_none demand)⟩
  | case6 token kind mnemonic known operand rest demand inductionHypothesis =>
    have kind := Decidable.not_not.mp kind
    have named := (Mnemonic.ofName?_eq_some _ _).mp known
    by_cases right : ∃ argument, Argument.Spelled mnemonic.operand operand argument
    · obtain ⟨argument, spelled⟩ := right
      cases mnemonic with
      | operation operation =>
        exact exists_statement (.withOperand kind named spelled) inductionHypothesis before
      | defineLabel =>
        cases spelled with
        | label labelKind =>
          exact exists_statement (.define kind named labelKind) inductionHypothesis before
    · obtain ⟨errors, after, scanned⟩ := inductionHypothesis before
      exact ⟨_, after, .wrongOperand kind (demands_iff.mpr ⟨mnemonic, known, rfl⟩)
        (Mnemonic.operand_ne_none demand) (not_exists.mp right) scanned⟩

/-! ### The assembler follows the scan -/

/-- The emission of all statements meets the errors of the scan, and what it has emitted in the end
are the statements that the scan accepts. -/
theorem acceptAll (scanned : Scanned before tokens errors after)
    (emitted : Emitted source before emission) (listed : Listed before emission.labels) :
    ∃ last, emission.acceptAll (Statement.ofTokens tokens) = (errors, last) ∧
      Emitted source after last ∧ Listed after last.labels := by
  induction scanned generalizing emission with
  | finished before => exact ⟨emission, rfl, emitted, listed⟩
  | notAnOperation before rest kind =>
    refine ⟨emission, ?_, emitted, listed⟩
    rw [Statement.ofTokens, if_pos kind]
    rfl
  | unknown kind unknown more inductionHypothesis =>
    obtain ⟨last, accepted, done⟩ := inductionHypothesis emitted listed
    refine ⟨last, ?_, done⟩
    rw [Statement.ofTokens, if_neg (not_not_intro kind), ofName?_eq_none.mpr unknown,
      Emission.acceptAll, accepted]
  | unfinished before kind demands due =>
    obtain ⟨mnemonic, known, rfl⟩ := demands_iff.mp demands
    refine ⟨emission, ?_, emitted, listed⟩
    rw [Statement.ofTokens_last kind known due]
    rfl
  | wrongOperand kind demands due wrong more inductionHypothesis =>
    obtain ⟨mnemonic, known, rfl⟩ := demands_iff.mp demands
    obtain ⟨last, accepted, done⟩ := inductionHypothesis emitted listed
    refine ⟨last, ?_, done⟩
    rw [Statement.ofTokens_withOperand kind known due, Statement.ofOperand_eq_error wrong,
      Emission.acceptAll, accepted]
  | @define before after front rest name position errors spelled fresh more inductionHypothesis =>
    have free := (emitted.refusal?_define name position).mpr fresh
    obtain ⟨last, accepted, done⟩ := inductionHypothesis (emitted.accept free) (listed.accept _)
    refine ⟨last, ?_, done⟩
    rw [spelled.ofTokens_eq, Emission.acceptAll, free]
    exact accepted
  | @defineAgain before after front rest name position errors spelled known more
      inductionHypothesis =>
    have defined : Label.isDefined name emission.labels = true := by
      rw [Label.isDefined_eq, emitted.addresses]
      exact (Program.addressOf?_isSome name before).mpr known
    have refused : emission.refusal? (.define name position) =
        some ⟨.labelReset name, position⟩ := if_pos defined
    obtain ⟨last, accepted, done⟩ := inductionHypothesis emitted listed
    refine ⟨last, ?_, done⟩
    rw [spelled.ofTokens_eq, Emission.acceptAll, refused]
    dsimp only
    rw [if_neg (by exact Bool.false_ne_true), accepted]
  | @instruction before after front rest mnemonic operation argument errors spelled fits more
      inductionHypothesis =>
    have free : emission.refusal? (.instruction mnemonic operation argument) = none := by
      rw [emitted.refusal?_instruction]
      exact (spelled.size_eq ▸ fits :)
    obtain ⟨last, accepted, done⟩ := inductionHypothesis (emitted.accept free) (listed.accept _)
    refine ⟨last, ?_, done⟩
    rw [spelled.ofTokens_eq, Emission.acceptAll, free]
    exact accepted
  | @overflow before front rest mnemonic operation argument spelled full =>
    have large : Layout.codeSize < emission.code.size + 1 + argument.width := by
      rw [emitted.size, Nat.add_assoc]
      exact (spelled.size_eq ▸ full :)
    have refused : emission.refusal? (.instruction mnemonic operation argument) =
        some ⟨.codeOverflow, mnemonic.position⟩ := if_pos large
    refine ⟨emission, ?_, emitted, listed⟩
    rw [spelled.ofTokens_eq, Emission.acceptAll, refused]
    rfl

/-- Nothing is scanned behind a structural error. -/
theorem isStructural_dropLast (scanned : Scanned before tokens errors after) :
    ∀ error ∈ errors.dropLast, error.fault.isStructural = false := by
  have behind {first : AssemblyError} {errors : List AssemblyError}
      (harmless : first.fault.isStructural = false)
      (others : ∀ error ∈ errors.dropLast, error.fault.isStructural = false) :
      ∀ error ∈ (first :: errors).dropLast, error.fault.isStructural = false := by
    cases errors with
    | nil => exact nofun
    | cons second rest =>
      rw [List.dropLast_cons_cons]
      exact List.forall_mem_cons.mpr ⟨harmless, others⟩
  induction scanned with
  | finished | notAnOperation | unfinished | overflow => exact nofun
  | unknown _ _ _ inductionHypothesis => exact behind rfl inductionHypothesis
  | wrongOperand _ _ _ _ _ inductionHypothesis => exact behind rfl inductionHypothesis
  | defineAgain _ _ _ inductionHypothesis => exact behind rfl inductionHypothesis
  | define _ _ _ inductionHypothesis => exact inductionHypothesis
  | instruction _ _ _ inductionHypothesis => exact inductionHypothesis

end Scanned

/-! ### What is reported -/

namespace Assembly

variable {tokens : List Token} {source : String} {found errors : List AssemblyError}
  {program : Program}

/-- What a scan found is reported. -/
theorem ofTokens_of_found (scanned : Scanned [] tokens found program) (wrong : found ≠ []) :
    ofTokens tokens source = .error found := by
  obtain ⟨last, accepted, _⟩ := scanned.acceptAll (Emitted.start source) Listed.start
  rw [ofTokens, accepted]
  dsimp only
  rw [if_pos (by simpa using wrong)]

/-- When a scan found nothing, the labels that are never set are reported. -/
theorem ofTokens_of_neverSet (scanned : Scanned [] tokens [] program)
    (wrong : program.neverSet ≠ []) : ofTokens tokens source = .error program.neverSet := by
  obtain ⟨last, accepted, emitted, listed⟩ := scanned.acceptAll (Emitted.start source) Listed.start
  rw [ofTokens, accepted]
  dsimp only
  rw [if_neg (by decide), listed.unresolved_eq emitted, if_pos (by simpa using wrong)]

/-- Without an error of either kind there is an assembly. -/
theorem ofTokens_of_clean (scanned : Scanned [] tokens [] program)
    (clean : program.neverSet = []) : ∃ assembly, ofTokens tokens source = .ok assembly := by
  obtain ⟨last, accepted, emitted, listed⟩ := scanned.acceptAll (Emitted.start source) Listed.start
  have resolved := emitted.unresolved_eq_nil.mp ((listed.unresolved_eq emitted).trans clean)
  obtain ⟨assembly, made, _⟩ := ofTokens_of_emitted accepted emitted resolved
  exact ⟨assembly, made⟩

/-- An assembly reports just what a scan of its tokens found, or, when the scan found nothing, the
labels that are used but never set. Only the last error can be one behind which nothing is read. -/
theorem ofTokens_report (tokens : List Token) (source : String) (errors : List AssemblyError) :
    (ofTokens tokens source = .error errors ↔
      ∃ found program, Scanned [] tokens found program ∧ errors ≠ [] ∧
        errors = if found = [] then program.neverSet else found) ∧
    (ofTokens tokens source = .error errors →
      ∀ error ∈ errors.dropLast, error.fault.isStructural = false) := by
  obtain ⟨found, program, scanned⟩ := Scanned.exists_errors [] tokens
  have report {errors : List AssemblyError} (reported : ofTokens tokens source = .error errors) :
      errors ≠ [] ∧ errors = if found = [] then program.neverSet else found := by
    by_cases clean : found = []
    · subst clean
      by_cases set : program.neverSet = []
      · obtain ⟨assembly, made⟩ : ∃ assembly, ofTokens tokens source = .ok assembly :=
          ofTokens_of_clean scanned set
        exact nomatch made.symm.trans reported
      · obtain rfl := Except.error.inj ((ofTokens_of_neverSet scanned set).symm.trans reported)
        exact ⟨set, (if_pos rfl).symm⟩
    · obtain rfl := Except.error.inj ((ofTokens_of_found scanned clean).symm.trans reported)
      exact ⟨clean, (if_neg clean).symm⟩
  refine ⟨⟨fun reported => ⟨found, program, scanned, report reported⟩, ?_⟩, fun reported => ?_⟩
  · rintro ⟨found, program, scanned, wrong, rfl⟩
    by_cases clean : found = []
    · subst clean
      rw [if_pos rfl] at wrong ⊢
      exact ofTokens_of_neverSet scanned wrong
    · rw [if_neg clean]
      exact ofTokens_of_found scanned clean
  · rw [(report reported).2]
    split
    · exact program.isStructural_neverSet
    · exact scanned.isStructural_dropLast

/-- The scan goes on behind an unknown mnemonic and behind a wrong operand, but not behind a
register where a statement should begin. -/
theorem ofTokens_report_recovery :
    ofTokens [⟨.mnemonic, "FOO", 0⟩, ⟨.mnemonic, "PSH", 4⟩, ⟨.label, "X", 8⟩, ⟨.register, "3", 11⟩,
        ⟨.mnemonic, "BAR", 14⟩] "FOO PSH #X &3 BAR" =
      .error [⟨.invalidOperationName "FOO", 0⟩, ⟨.unexpectedOperand .number .label, 8⟩,
        ⟨.notAnOperation "3", 11⟩] ∧
      (AssemblyFault.unexpectedOperand .number .label).isStructural = false := by
  have unknown : ∀ operand, ¬Demands "FOO" operand := ofName?_eq_none.mp (by decide)
  have due : Operation.psh.operand ≠ .none := nofun
  have wrong : ∀ argument, ¬Argument.Spelled Operation.psh.operand ⟨.label, "X", 8⟩ argument := by
    rintro argument ⟨kind, _⟩
    exact nomatch kind
  have last : Scanned [] [⟨.register, "3", 11⟩, ⟨.mnemonic, "BAR", 14⟩]
      [⟨.notAnOperation "3", 11⟩] [] :=
    .notAnOperation [] _ nofun
  have scanned : Scanned [] [⟨.mnemonic, "FOO", 0⟩, ⟨.mnemonic, "PSH", 4⟩, ⟨.label, "X", 8⟩,
      ⟨.register, "3", 11⟩, ⟨.mnemonic, "BAR", 14⟩]
      [⟨.invalidOperationName "FOO", 0⟩, ⟨.unexpectedOperand .number .label, 8⟩,
        ⟨.notAnOperation "3", 11⟩] [] :=
    .unknown rfl unknown (.wrongOperand rfl (.operation .psh) due wrong last)
  have reported := (ofTokens_report _ "FOO PSH #X &3 BAR" _).1.mpr
    ⟨_, [], scanned, List.cons_ne_nil _ _, rfl⟩
  exact ⟨reported, (ofTokens_report _ _ _).2 reported _
    (List.mem_cons_of_mem _ List.mem_cons_self)⟩

end Assembly

end ByteStack
