/-
This file follows the value of an operand through the whole system. A number is
written with digits in one of two bases. The lexer turns it into a decimal text,
the assembler reads that text again and keeps its low byte, the listing shows the
byte without a sign, and the machine takes it with one.

Each of these conversions is exact on what the one before it makes. A number that
is too large is refused by the lexer already, so the assembler never meets a
number or a register that it cannot read.
-/

import ByteStack.Proofs.Assembly.Listing
import ByteStack.Proofs.Assembly.Placement
import ByteStack.Proofs.Assembly.Report
import ByteStack.Proofs.Machine.Listed
import ByteStack.Proofs.Source.Spelling

namespace ByteStack

variable {source : String} {tokens : List Token} {operation : Operation} {operand : Token}
  {value : UInt8} {assembly : Assembly}

/-! ### Operands that a lexer has made -/

/-- The decimal text of a number within the limit denotes that number. -/
theorem Text.denotes_natural {limit number : Nat} (small : number ≤ limit) :
    Denotes limit (natural number) number :=
  ⟨Nat.toDigits 10 number, Or.inl String.toList_ofList, Nat.toDigits_ne_nil,
    fun _ member => Nat.isDigit_of_mem_toDigits (by decide) (by decide) member,
    Nat.ofDigitChars_ten_toDigits, small⟩

/-- A digit denotes its value. -/
theorem Text.denotes_digit {digit : Char} (isDigit : digit.isDigit) :
    Denotes 255 (String.ofList [digit]) (digit.toNat - '0'.toNat) := by
  have bounds := toNat_of_isDigit isDigit
  rw [← natural_of_isDigit isDigit]
  exact denotes_natural (Nat.le_trans (Nat.sub_le _ _) (by omega))

/-- A token that a lexer has made is an operand wherever its kind is due. -/
theorem Token.WellSpelt.exists_argument {token : Token} (spelt : token.WellSpelt)
    {expected : OperandKind} (due : expected ≠ .none) (kind : expected.tokenKind = token.kind) :
    ∃ argument, Argument.Spelled expected token argument := by
  unfold Token.WellSpelt at spelt
  cases expected with
  | none => exact absurd rfl due
  | number =>
    rw [← kind] at spelt
    obtain ⟨number, small, literal⟩ := spelt
    exact ⟨_, .number kind.symm (literal ▸ Text.denotes_natural small)⟩
  | register =>
    rw [← kind] at spelt
    obtain ⟨digit, isDigit, literal⟩ := spelt
    exact ⟨_, .register kind.symm (literal ▸ Text.denotes_digit isDigit)⟩
  | label => exact ⟨_, .label kind.symm⟩

/-- The error does not report an operand of the very kind that was due. -/
def AssemblyError.TellsApart (error : AssemblyError) : Prop :=
  ∀ expected found, error.fault = .unexpectedOperand expected found → expected ≠ found

/-- An error that is about no operand. -/
theorem AssemblyError.tellsApart_of_ne {error : AssemblyError}
    (other : ∀ expected found, error.fault ≠ .unexpectedOperand expected found) :
    error.TellsApart :=
  fun expected found same => absurd same (other expected found)

/-- A scan of tokens that a lexer has made finds no operand of the right kind wrong. -/
theorem Scanned.tellsApart {before after : Program} {errors : List AssemblyError}
    (scanned : Scanned before tokens errors after) (lexed : ∀ token ∈ tokens, token.WellSpelt) :
    ∀ error ∈ errors, error.TellsApart := by
  induction scanned with
  | finished => exact nofun
  | notAnOperation | unfinished | overflow =>
    exact List.forall_mem_singleton.mpr (AssemblyError.tellsApart_of_ne nofun)
  | unknown kind unknown more inductionHypothesis =>
    exact List.forall_mem_cons.mpr ⟨AssemblyError.tellsApart_of_ne nofun,
      inductionHypothesis (List.forall_mem_cons.mp lexed).2⟩
  | wrongOperand kind demands due wrong more inductionHypothesis =>
    have behind := List.forall_mem_cons.mp (List.forall_mem_cons.mp lexed).2
    refine List.forall_mem_cons.mpr ⟨?_, inductionHypothesis behind.2⟩
    rintro expected found ⟨⟩ same
    obtain ⟨argument, spelled⟩ := behind.1.exists_argument due same
    exact wrong argument spelled
  | define spelled fresh more inductionHypothesis
  | instruction spelled fits more inductionHypothesis =>
    exact inductionHypothesis (List.forall_mem_append.mp lexed).2
  | defineAgain spelled known more inductionHypothesis =>
    exact List.forall_mem_cons.mpr ⟨AssemblyError.tellsApart_of_ne nofun,
      inductionHypothesis (List.forall_mem_append.mp lexed).2⟩

/-- An assembly of such tokens reports no operand of the right kind. -/
theorem Assembly.tellsApart_of_ofTokens {errors : List AssemblyError}
    (lexed : ∀ token ∈ tokens, token.WellSpelt)
    (reported : ofTokens tokens source = .error errors) :
    ∀ error ∈ errors, error.TellsApart := by
  obtain ⟨found, program, scanned⟩ := Scanned.exists_errors [] tokens
  by_cases clean : found = []
  · subst clean
    by_cases set : program.neverSet = []
    · obtain ⟨assembly, made⟩ : ∃ assembly, ofTokens tokens source = .ok assembly :=
        ofTokens_of_clean scanned set
      exact nomatch made.symm.trans reported
    · obtain rfl := Except.error.inj ((ofTokens_of_neverSet scanned set).symm.trans reported)
      intro error member
      obtain ⟨name, _, rfl⟩ := List.mem_map.mp member
      exact AssemblyError.tellsApart_of_ne nofun
  · obtain rfl := Except.error.inj ((ofTokens_of_found scanned clean).symm.trans reported)
    exact scanned.tellsApart lexed

theorem Assembly.tellsApart_of_ofSource {errors : List AssemblyError}
    (reported : ofSource source = .error (.assembly errors)) :
    ∀ error ∈ errors, error.TellsApart := by
  cases read : tokensOf source with
  | error error =>
    rw [ofSource, read] at reported
    cases reported
  | ok tokens =>
    rw [Assembly.ofSource_of_tokensOf read] at reported
    cases result : ofTokens tokens source with
    | ok assembly =>
      rw [result] at reported
      cases reported
    | error others =>
      rw [result] at reported
      obtain rfl := SourceError.assembly.inj (Except.error.inj reported)
      exact tellsApart_of_ofTokens (segmented_of_tokensOf read).wellSpelt result

/-! ### Texts of one instruction -/

/-- Mnemonics are three capital letters. -/
theorem Operation.mnemonic_letters (operation : Operation) :
    operation.mnemonic.toList.length = 3 ∧
      ∀ letter ∈ operation.mnemonic.toList, letter.isUpper := by
  rw [← List.all_eq_true]
  cases operation <;> exact ⟨rfl, rfl⟩

/-- What stands behind a mnemonic and a blank is read on its own, four characters further. -/
theorem tokensOf_behind (operation : Operation) (letters : List Char) :
    tokensOf (operation.mnemonic ++ " " ++ String.ofList letters) =
      (Reading.ofText 4 (letters.map Char.toUpper)).outcome.map
        (⟨.mnemonic, operation.mnemonic, 0⟩ :: ·) := by
  obtain ⟨length, upper⟩ := operation.mnemonic_letters
  have segment : Segment operation.mnemonic.toList (' ' :: letters.map Char.toUpper)
      (some (.mnemonic, operation.mnemonic.toList)) := by
    refine .mnemonic ⟨fun empty => ?_, upper, fun next member => ?_⟩
    · rw [empty] at length
      exact nomatch length
    · obtain rfl := Option.some.inj member
      decide
  have text : (operation.mnemonic ++ " " ++ String.ofList letters).toList.map Char.toUpper =
      operation.mnemonic.toList ++ ' ' :: letters.map Char.toUpper := by
    rw [String.toList_append, String.toList_append, List.append_assoc, List.map_append,
      segment.map_toUpper, List.map_append, String.toList_ofList (l := letters)]
    rfl
  rw [tokensOf_eq, text, Reading.outcome_token segment, length, Reading.outcome_blank (by decide),
    String.ofList_toList]

theorem tokensOf_instruction (operation : Operation) {letters literal : List Char}
    {kind : TokenKind} (segment : Segment letters [] (some (kind, literal))) :
    tokensOf (operation.mnemonic ++ " " ++ String.ofList letters) =
      .ok [⟨.mnemonic, operation.mnemonic, 0⟩, ⟨kind, String.ofList literal, 4⟩] := by
  have read := Reading.outcome_token segment 4
  rw [List.append_nil, Reading.outcome_nil] at read
  rw [tokensOf_behind, segment.map_toUpper, read]
  rfl

/-! ### One instruction with an operand -/

/-- The image holds this instruction alone, and listing and machine agree on its operand. -/
structure Assembly.Holds (assembly : Assembly) (operation : Operation) (value : UInt8)
    (operand : Operand) (text : String) : Prop where
  code : assembly.image.code = [operation.code, value]
  listed : Listing.ofImage assembly.image = [⟨0, .instruction operation operand⟩]
  text : Listing.text assembly.image = operation.mnemonic ++ " " ++ text
  executed : ∀ feed machine, Reached assembly.image feed machine → machine.status ≠ .stopped →
    machine.pointer = 0 → machine.step = machine.obey operation operand

/-- The program that consists of an operation with a byte as its operand. -/
def Program.single (operation : Operation) (value : UInt8) : Program :=
  [.instruction ⟨.mnemonic, operation.mnemonic, 0⟩ operation (.byte value)]

theorem Program.assemblable_single (operation : Operation) (value : UInt8) :
    (single operation value).Assemblable :=
  ⟨List.nodup_nil, nofun, by show 2 ≤ 7900; decide⟩

theorem Program.spelled_single
    (spelled : Argument.Spelled operation.operand operand (.byte value)) :
    Spelled [⟨.mnemonic, operation.mnemonic, 0⟩, operand] (single operation value) :=
  .withOperand rfl rfl spelled .nothing

namespace Program.Assembled

/-- An instruction that is all of the program is listed, and executed as it is listed. -/
theorem holds (right : (single operation value).Assembled source assembly)
    (width : operation.operand.width = 1) {shown : Operand} {text : String}
    (operandShown : ∀ rest, Operand.ofBytes operation.operand (value :: rest) = shown)
    (written : (Decoded.instruction operation shown).text = operation.mnemonic ++ " " ++ text) :
    assembly.Holds operation value shown text := by
  have listed : Listing.ofImage assembly.image = [⟨0, .instruction operation shown⟩] := by
    have walked := @Listing.ofBytes_instruction (fun _ => 0) operation (.byte value) width.symm 0
      (List.replicate (Layout.codeSize - (single operation value).size) 0)
    rw [Listing.ofBytes_replicate] at walked
    rw [Listing.ofImage, right.codeRegion_eq, right.code_eq]
    exact walked.trans (by rw [← operandShown]; rfl)
  refine ⟨right.code_eq, listed, ?_, ?_⟩
  · rw [Listing.text, listed, List.map_singleton, written]
    exact String.intercalate_singleton
  · intro feed machine reached active place
    obtain ⟨seed, sound⟩ := reached.exists_sound
    have member : ⟨0, .instruction operation shown⟩ ∈ Listing.ofImage assembly.image := by
      rw [listed]
      exact List.mem_cons_self
    refine (sound.obeys active member place).whole operation shown rfl ?_
    rw [Operation.encodedLength, width]
    show 2 ≤ 7900
    decide

/-- Programs with the same code have the same image. -/
theorem image_eq {program : Program} {other : String} {another : Assembly}
    (right : program.Assembled source assembly) (also : program.Assembled other another) :
    assembly.image = another.image := by
  have bytes : assembly.image.memory.toList = another.image.memory.toList :=
    right.memory.trans also.memory.symm
  have memory : assembly.image.memory = another.image.memory :=
    congrArg Memory.mk (Vector.toList_inj.mp bytes)
  have length : assembly.image.codeLength = another.image.codeLength :=
    right.codeLength.trans also.codeLength.symm
  obtain ⟨⟨_, _, _⟩, _⟩ := assembly
  obtain ⟨⟨_, _, _⟩, _⟩ := another
  obtain rfl := memory
  obtain rfl := length
  rfl

end Program.Assembled

/-! ### Numbers -/

/-- The two ways to write a number. -/
inductive NumberBase where
  | decimal
  | hexadecimal
deriving DecidableEq

namespace NumberBase

/-- What stands in front of the digits. -/
def sign : NumberBase → String
  | .decimal => ""
  | .hexadecimal => "$"

def radix : NumberBase → Nat
  | .decimal => 10
  | .hexadecimal => 16

/-- The number that the digits denote. -/
def valueOf (base : NumberBase) (digits : String) : Nat :=
  Text.valueOf base.radix digits.toList

/-- The text of a program that pushes the number. -/
def push (base : NumberBase) (digits : String) : String :=
  "PSH " ++ base.sign ++ digits

end NumberBase

/-- A text of decimal digits, at least one. -/
structure IsNumeral (digits : String) : Prop where
  nonempty : digits ≠ ""
  each : ∀ digit ∈ digits.toList, digit.isDigit

/-- What becomes of a number in a program that pushes it. -/
structure NumberKept (base : NumberBase) (digits : String) : Prop where
  assembles : (∃ assembly, Assembly.ofSource (base.push digits) = .ok assembly) ↔
    base.valueOf digits ≤ 65535
  /-- A number that is too large is shown where it begins, at its sign if it has one. -/
  refused : 65535 < base.valueOf digits →
    tokensOf (base.push digits) = .error ⟨.invalidNumber digits, 4⟩ ∧
      Assembly.ofSource (base.push digits) = .error (.lexical ⟨.invalidNumber digits, 4⟩)
  holds : ∀ assembly, Assembly.ofSource (base.push digits) = .ok assembly →
    assembly.Holds .psh (UInt8.ofNat (base.valueOf digits % 256))
      (.number (UInt8.ofNat (base.valueOf digits % 256)))
      (Text.natural (base.valueOf digits % 256))
  pushed : ∀ assembly feed machine, Assembly.ofSource (base.push digits) = .ok assembly →
    Reached assembly.image feed machine → machine.status ≠ .stopped → machine.pointer = 0 →
    machine.depth < 256 → machine.step.2 = none ∧
      machine.step.1.stack =
        machine.stack ++ [(UInt8.ofNat (base.valueOf digits % 256)).toInt8]
  /-- However a number is written, the image is the same. -/
  same : ∀ (other : NumberBase) (written : String), IsNumeral written →
    other.valueOf written = base.valueOf digits →
    ∀ assembly another, Assembly.ofSource (base.push digits) = .ok assembly →
      Assembly.ofSource (other.push written) = .ok another → assembly.image = another.image

namespace IsNumeral

variable {digits : String} {base : NumberBase}

theorem longestRun (numeral : IsNumeral digits) : LongestRun Char.isDigit digits.toList [] where
  nonempty := fun empty => numeral.nonempty (String.toList_eq_nil_iff.mp empty)
  each := numeral.each
  ends := nofun

theorem push_eq (base : NumberBase) (digits : String) :
    base.push digits =
      Operation.psh.mnemonic ++ " " ++ String.ofList (base.sign.toList ++ digits.toList) := by
  rw [String.ofList_append, String.ofList_toList, String.ofList_toList, ← String.append_assoc]
  rfl

/-- A number that is small enough becomes a token with its decimal text. -/
theorem tokensOf_push (numeral : IsNumeral digits) (small : base.valueOf digits ≤ 65535) :
    tokensOf (base.push digits) =
      .ok [⟨.mnemonic, "PSH", 0⟩, ⟨.number, Text.natural (base.valueOf digits), 4⟩] := by
  rw [push_eq]
  cases base with
  | decimal => exact tokensOf_instruction .psh (.decimal numeral.longestRun small)
  | hexadecimal => exact tokensOf_instruction .psh (.hex numeral.longestRun small)

/-- At a number that is too large the scanner meets a fault. -/
theorem outcome_large (numeral : IsNumeral digits) (large : 65535 < base.valueOf digits)
    (position : Nat) :
    (Reading.ofText position (base.sign.toList ++ digits.toList)).outcome =
      .error ⟨.invalidNumber digits, position⟩ := by
  have longest := numeral.longestRun
  have spelled : digits = String.ofList digits.toList := String.ofList_toList.symm
  unfold NumberBase.valueOf at large
  generalize digits.toList = letters at longest spelled large
  subst spelled
  cases base with
  | decimal =>
    cases letters with
    | nil => exact absurd rfl longest.nonempty
    | cons first rest =>
      have run := longest.takeWhile_tail
      rw [List.append_nil] at run
      have fault : Lexeme.scan first rest = .fault (.invalidNumber (String.ofList (first :: rest)))
          (rest.length + 1) := by
        rw [Lexeme.scan_digit longest.passes, run]
        exact Lexeme.number_of_lt (by decide) large _
      exact Reading.outcome_fault fault position
  | hexadecimal =>
    refine Reading.outcome_fault
      (show Lexeme.scan '$' letters = .fault _ (letters.length + 1) from ?_) position
    have run := longest.takeWhile_append
    rw [List.append_nil] at run
    rw [Lexeme.scan_hex, Lexeme.hexNumber, run,
      ← Lexeme.number_of_lt (by decide) large letters.length]
    cases letters with
    | nil => exact absurd rfl longest.nonempty
    | cons next others => rfl

theorem tokensOf_push_large (numeral : IsNumeral digits) (large : 65535 < base.valueOf digits) :
    tokensOf (base.push digits) = .error ⟨.invalidNumber digits, 4⟩ := by
  have capital : (base.sign.toList ++ digits.toList).map Char.toUpper =
      base.sign.toList ++ digits.toList := by
    rw [List.map_append]
    congr 1
    · cases base <;> rfl
    · exact (List.map_congr_left fun digit member => toUpper_of_isDigit (numeral.each digit member))
        |>.trans (List.map_id' _)
  rw [push_eq, tokensOf_behind, capital, numeral.outcome_large large]
  rfl

/-- The program of a number that is small enough. -/
theorem assembled (numeral : IsNumeral digits) (small : base.valueOf digits ≤ 65535) :
    ∃ assembly, Assembly.ofSource (base.push digits) = .ok assembly ∧
      (Program.single .psh (UInt8.ofNat (base.valueOf digits))).Assembled (base.push digits)
        assembly := by
  have read := numeral.tokensOf_push small
  have operand : Argument.Spelled Operation.psh.operand
      ⟨.number, Text.natural (base.valueOf digits), 4⟩
      (.byte (UInt8.ofNat (base.valueOf digits))) :=
    .number rfl (Text.denotes_natural small)
  have spelled := Program.spelled_single operand
  obtain ⟨assembly, made⟩ := Assembly.exists_ofSource read spelled (Program.assemblable_single _ _)
  exact ⟨assembly, made, Assembly.assembled_of_spelled made read spelled⟩

theorem small_of_made (numeral : IsNumeral digits) {assembly : Assembly}
    (made : Assembly.ofSource (base.push digits) = .ok assembly) :
    base.valueOf digits ≤ 65535 := by
  by_contra large
  rw [Assembly.ofSource, numeral.tokensOf_push_large (Nat.lt_of_not_le large)] at made
  cases made

/-- Whatever is made of a number is right for it. -/
theorem assembled_of_made (numeral : IsNumeral digits) {assembly : Assembly}
    (made : Assembly.ofSource (base.push digits) = .ok assembly) :
    (Program.single .psh (UInt8.ofNat (base.valueOf digits % 256))).Assembled (base.push digits)
      assembly := by
  obtain ⟨other, also, right⟩ := numeral.assembled (numeral.small_of_made made)
  obtain rfl := Except.ok.inj (also.symm.trans made)
  rw [show UInt8.ofNat (base.valueOf digits % 256) = UInt8.ofNat (base.valueOf digits) from
    UInt8.ofNat_mod_size]
  exact right

theorem holds (numeral : IsNumeral digits) {assembly : Assembly}
    (made : Assembly.ofSource (base.push digits) = .ok assembly) :
    assembly.Holds .psh (UInt8.ofNat (base.valueOf digits % 256))
      (.number (UInt8.ofNat (base.valueOf digits % 256)))
      (Text.natural (base.valueOf digits % 256)) := by
  refine (numeral.assembled_of_made made).holds rfl (fun _ => rfl) ?_
  rw [Decoded.text, UInt8.toNat_ofNat', Nat.mod_mod]

/-- A number is kept through all conversions. -/
theorem kept (numeral : IsNumeral digits) (base : NumberBase) : NumberKept base digits where
  assembles := by
    constructor
    · rintro ⟨assembly, made⟩
      exact numeral.small_of_made made
    · intro small
      obtain ⟨assembly, made, _⟩ := numeral.assembled small
      exact ⟨assembly, made⟩
  refused large := by
    have refused := numeral.tokensOf_push_large large
    refine ⟨refused, ?_⟩
    rw [Assembly.ofSource, refused]
  holds assembly made := numeral.holds made
  pushed assembly feed machine made reached active place room := by
    have room : machine.depth < Layout.stackSize := room
    rw [(numeral.holds made).executed feed machine reached active place]
    refine ⟨?_, Machine.stack_obey_psh room _⟩
    rw [Machine.obey, show Operation.psh.pops = 0 from rfl, show Operation.psh.pushes = 1 from rfl,
      if_neg (Nat.not_lt_zero _),
      if_neg (Nat.not_lt.mpr (show machine.depth - 0 + 1 ≤ Layout.stackSize from room))]
    rfl
  same other written also equal assembly another made remade := by
    have right := also.assembled_of_made remade
    rw [equal] at right
    exact (numeral.assembled_of_made made).image_eq right

end IsNumeral

/-! ### Registers -/

/-- What becomes of a register in a program that consists of one operation on it. -/
def RegisterKept (operation : Operation) (digit : Char) : Prop :=
  ∃ assembly,
    Assembly.ofSource (operation.mnemonic ++ " &" ++ String.ofList [digit]) = .ok assembly ∧
    assembly.Holds operation (UInt8.ofNat (digit.toNat - '0'.toNat))
      (.register (UInt8.ofNat (digit.toNat - '0'.toNat))) ("r" ++ String.ofList [digit])

/-- A register is kept through all conversions. -/
theorem registerKept (due : operation.operand = .register) {digit : Char}
    (isDigit : digit.isDigit) : RegisterKept operation digit := by
  have text : operation.mnemonic ++ " &" ++ String.ofList [digit] =
      operation.mnemonic ++ " " ++ String.ofList ['&', digit] := by
    rw [show ['&', digit] = ['&'] ++ [digit] from rfl, String.ofList_append,
      show " &" = " " ++ String.ofList ['&'] from rfl]
    simp only [String.append_assoc]
  have segment : Segment ['&', digit] [] (some (.register, [digit])) :=
    .register isDigit (by exact nofun)
  have read := tokensOf_instruction operation segment
  have spelled : Argument.Spelled operation.operand ⟨.register, String.ofList [digit], 4⟩
      (.byte (UInt8.ofNat (digit.toNat - '0'.toNat))) := by
    rw [due]
    exact .register rfl (Text.denotes_digit isDigit)
  have program := Program.spelled_single spelled
  obtain ⟨assembly, made⟩ := Assembly.exists_ofSource read program (Program.assemblable_single _ _)
  have right := Assembly.assembled_of_spelled made read program
  have bounds := toNat_of_isDigit isDigit
  refine ⟨assembly, text ▸ made, right.holds (by rw [due]; rfl) (fun _ => by rw [due]; rfl) ?_⟩
  show operation.mnemonic ++ " r" ++ Text.natural (UInt8.ofNat _).toNat = _
  rw [UInt8.toNat_ofNat', Nat.mod_eq_of_lt (by omega), Text.natural_of_isDigit isDigit]
  simp only [String.append_assoc]
  rfl

/-! ### Operands keep their value -/

/-- A number that a program writes with digits, in either base, keeps its value through assembly,
listing and execution, and so does a register. It is refused just when it is too large, by the
lexer. So every number and every register that the lexer makes is an operand, and no assembly of a
source reports an operand of the kind that it expected. -/
theorem operands_keep_value {digits : String} (numeral : IsNumeral digits) :
    (∀ base, NumberKept base digits) ∧
    (∀ operation digit, Operation.operand operation = .register → digit.isDigit →
      RegisterKept operation digit) ∧
    ∀ source,
      (∀ tokens, tokensOf source = .ok tokens → ∀ token ∈ tokens, ∀ expected, expected ≠ .none →
        OperandKind.tokenKind expected = token.kind →
        ∃ argument, Argument.ofToken? expected token = some argument) ∧
      ∀ errors, Assembly.ofSource source = .error (.assembly errors) →
        ∀ error ∈ errors, ∀ expected found,
          error.fault = .unexpectedOperand expected found → expected ≠ found := by
  refine ⟨numeral.kept, fun operation digit due isDigit => registerKept due isDigit,
    fun source => ⟨?_, ?_⟩⟩
  · intro tokens read token member expected due kind
    have spelt := (segmented_of_tokensOf read).wellSpelt token member
    obtain ⟨argument, spelled⟩ := spelt.exists_argument due kind
    exact ⟨argument, (Argument.ofToken?_eq_some _ _ _).mpr spelled⟩
  · intro errors reported
    exact Assembly.tellsApart_of_ofSource reported

/-- Digits with a zero in front that denote more than a byte can hold, in either base. -/
theorem operands_keep_value_large :
    IsNumeral "0399" ∧
      (∃ assembly, Assembly.ofSource "PSH 0399" = .ok assembly ∧
        assembly.image.code = [0x09, 143] ∧ Listing.text assembly.image = "PSH 143") ∧
      ∃ assembly, Assembly.ofSource "PSH $0399" = .ok assembly ∧
        assembly.image.code = [0x09, 0x99] ∧ Listing.text assembly.image = "PSH 153" := by
  have numeral : IsNumeral "0399" := ⟨by decide, by simp⟩
  have kept := (operands_keep_value numeral).1
  obtain ⟨decimal, made⟩ := (kept .decimal).assembles.mpr (by decide)
  obtain ⟨hexadecimal, remade⟩ := (kept .hexadecimal).assembles.mpr (by decide)
  have first := (kept .decimal).holds decimal made
  have second := (kept .hexadecimal).holds hexadecimal remade
  exact ⟨numeral, ⟨decimal, made, first.code, first.text⟩,
    hexadecimal, remade, second.code, second.text⟩

end ByteStack
