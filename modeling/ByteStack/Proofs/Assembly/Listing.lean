/-
This file shows that a listing gives an assembled program back. The instructions
of a source, the definitions of labels left out, stand in the listing in the same
order, each where the bytes of the earlier ones end, with the value of its
operand or the address of its label. The map of the assembly leads from the same
places to the mnemonics of the same instructions.

A listing ends at the first zero byte that stands where an instruction should
begin. Operands may well be zero. The walk through the code does not stop at
them, because it goes from instruction to instruction just as the code was
written.
-/

import ByteStack.Listing
import ByteStack.Proofs.Assembly.Boundary
import ByteStack.Proofs.Assembly.Encoding
import ByteStack.Proofs.Source.Segmentation
import Mathlib.Algebra.GroupWithZero.Nat

namespace ByteStack

/-! ### Instructions of a source -/

/-- An operand as a listing shows it, as a value and as a text, when the addresses of labels are
known. A number keeps its low byte. -/
inductive Operand.Listed (address : String → Nat) : OperandKind → Token → Operand → String → Prop
    where
  | number {token : Token} {value : Nat} (kind : token.kind = .number) (small : value ≤ 65535)
      (literal : token.literal = Text.natural value) :
      Listed address .number token (.number (UInt8.ofNat (value % 256)))
        (Text.natural (value % 256))
  | register {token : Token} {digit : Char} (kind : token.kind = .register)
      (isDigit : digit.isDigit) (literal : token.literal = String.ofList [digit]) :
      Listed address .register token (.register (UInt8.ofNat (digit.toNat - '0'.toNat)))
        ("r" ++ token.literal)
  | label {token : Token} (kind : token.kind = .label) :
      Listed address .label token (.address (address token.literal))
        (Text.natural (address token.literal))

namespace Listing

/-- An instruction of a source: its mnemonic, what a listing shows of it, and how that is
written. -/
structure Line where
  mnemonic : Token
  listed : ListedInstruction
  text : String

/-- The tokens split into instructions, whose code begins at the first offset and ends at the last
one, and into definitions of labels, which are not listed. -/
inductive Lines (address : String → Nat) : Nat → List Token → List Line → Nat → Prop where
  | nothing {offset : Nat} : Lines address offset [] [] offset
  | define {offset stop : Nat} {token label : Token} {tokens : List Token} {lines : List Line}
      (kind : token.kind = .mnemonic) (name : token.literal = "LAB")
      (labelKind : label.kind = .label)
      (rest : Lines address offset tokens lines stop) :
      Lines address offset (token :: label :: tokens) lines stop
  | plain {offset stop : Nat} {token : Token} {operation : Operation} {tokens : List Token}
      {lines : List Line} (kind : token.kind = .mnemonic)
      (name : token.literal = operation.mnemonic) (alone : operation.operand = .none)
      (rest : Lines address (offset + operation.encodedLength) tokens lines stop) :
      Lines address offset (token :: tokens)
        (⟨token, ⟨offset, .instruction operation .none⟩, token.literal⟩ :: lines) stop
  | withOperand {offset stop : Nat} {token operand : Token} {operation : Operation}
      {shown : Operand} {text : String} {tokens : List Token} {lines : List Line}
      (kind : token.kind = .mnemonic) (name : token.literal = operation.mnemonic)
      (listed : Operand.Listed address operation.operand operand shown text)
      (rest : Lines address (offset + operation.encodedLength) tokens lines stop) :
      Lines address offset (token :: operand :: tokens)
        (⟨token, ⟨offset, .instruction operation shown⟩, token.literal ++ " " ++ text⟩ :: lines)
        stop

/-- An assembly, its listing and its map all show the instructions of a source. -/
structure GivesBack (assembly : Assembly) (tokens : List Token) (address : String → Nat)
    (lines : List Line) : Prop where
  /-- The last instruction ends where the code ends. -/
  split : Lines address 0 tokens lines assembly.image.codeLength
  listed : ofImage assembly.image = lines.map Line.listed
  /-- An instruction stands behind the bytes of the earlier ones. -/
  offset : ∀ (index : Nat) (line : Line), lines[index]? = some line →
    line.listed.offset =
      ((lines.take index).map fun earlier => earlier.listed.decoded.length).sum
  map : assembly.map.entries.reverse = lines.map fun line => (line.listed.offset, line.mnemonic)
  text : text assembly.image = " ".intercalate (lines.map Line.text)

end Listing

variable {address : String → Nat} {program : Program} {tokens : List Token} {offset stop : Nat}
  {lines : List Listing.Line}

/-! ### Operands -/

theorem toNat_of_isDigit {digit : Char} (isDigit : digit.isDigit) :
    48 ≤ digit.toNat ∧ digit.toNat ≤ 57 := by
  simp only [Char.isDigit, ge_iff_le, Bool.and_eq_true, decide_eq_true_eq,
    UInt32.le_iff_toNat_le] at isDigit
  exact isDigit

/-- A digit is the decimal text of its value. -/
theorem Text.natural_of_isDigit {digit : Char} (isDigit : digit.isDigit) :
    natural (digit.toNat - '0'.toNat) = String.ofList [digit] := by
  have bounds := toNat_of_isDigit isDigit
  have digits : ∀ value < 10, Nat.digitChar value = Char.ofNat (48 + value) := by decide
  rw [show '0'.toNat = 48 from rfl, natural, Nat.toDigits_of_lt_base (by omega),
    digits _ (by omega), Nat.add_sub_cancel' bounds.1, Char.ofNat_toNat]

/-- An operand that a lexer has made is shown as it stands in the code. -/
theorem Argument.Spelled.listed {kind : OperandKind} {operand : Token} {argument : Argument}
    (spelled : Argument.Spelled kind operand argument) (lexed : operand.WellSpelt)
    (small : ∀ name, address name < 65536) (rest : List UInt8) (operation : Operation) :
    ∃ text, Operand.Listed address kind operand
        (Operand.ofBytes kind (argument.encode address ++ rest)) text ∧
      (Decoded.instruction operation
        (Operand.ofBytes kind (argument.encode address ++ rest))).text =
          operation.mnemonic ++ " " ++ text := by
  unfold Token.WellSpelt at lexed
  cases spelled with
  | @number _ value kind denotes =>
    rw [kind] at lexed
    obtain ⟨number, bound, literal⟩ := lexed
    rw [literal] at denotes
    obtain rfl := denotes.eq_of_natural
    have low : UInt8.ofNat (value % 256) = UInt8.ofNat value := UInt8.ofNat_mod_size
    refine ⟨Text.natural (value % 256), ?_, ?_⟩
    · have listed : Operand.Listed address .number operand _ _ := .number kind bound literal
      rw [low] at listed
      exact listed
    · show operation.mnemonic ++ " " ++ Text.natural (UInt8.ofNat value).toNat = _
      rw [UInt8.toNat_ofNat']
  | @register _ value kind denotes =>
    rw [kind] at lexed
    obtain ⟨digit, isDigit, literal⟩ := lexed
    rw [literal, ← Text.natural_of_isDigit isDigit] at denotes
    obtain rfl := denotes.eq_of_natural
    have bound : digit.toNat - '0'.toNat < 2 ^ 8 := by
      have := toNat_of_isDigit isDigit
      omega
    refine ⟨_, .register kind isDigit literal, ?_⟩
    show operation.mnemonic ++ " r" ++ Text.natural (UInt8.ofNat _).toNat = _
    rw [UInt8.toNat_ofNat', Nat.mod_eq_of_lt bound, Text.natural_of_isDigit isDigit, literal]
    simp only [String.append_assoc]
    rfl
  | label kind =>
    have shown : Operand.ofBytes .label
        ((Argument.label operand.literal).encode address ++ rest) =
          .address (address operand.literal) := by
      show Operand.address (addressOf (highByte _) (lowByte _)) = _
      rw [addressOf_bytes (small _)]
    rw [shown]
    exact ⟨_, .label kind, rfl⟩

/-! ### Walking through the code -/

namespace Listing

/-- Where nothing but zeros stands, nothing is listed. -/
theorem ofBytes_replicate (offset count : Nat) : ofBytes offset (List.replicate count 0) = [] := by
  cases count with
  | zero => rw [List.replicate_zero, ofBytes]
  | succ count => rw [List.replicate_succ, ofBytes, if_pos rfl]

/-- An instruction is listed as a whole, and the walk goes on behind it. -/
theorem ofBytes_instruction (operation : Operation) {argument : Argument}
    (width : argument.width = operation.operand.width) (offset : Nat) (rest : List UInt8) :
    ofBytes offset (operation.code :: (argument.encode address ++ rest)) =
      ⟨offset, .instruction operation
        (Operand.ofBytes operation.operand (argument.encode address ++ rest))⟩ ::
          ofBytes (offset + operation.encodedLength) rest := by
  have decoded : Decoded.ofBytes operation.code (argument.encode address ++ rest) =
      .instruction operation
        (Operand.ofBytes operation.operand (argument.encode address ++ rest)) := by
    rw [Decoded.ofBytes, Operation.ofCode?_code]
  have behind : (argument.encode address ++ rest).drop (operation.encodedLength - 1) = rest := by
    refine List.drop_left' ?_
    rw [Operation.encodedLength, Nat.add_sub_cancel_left, ← width]
    cases argument <;> rfl
  rw [ofBytes, if_neg operation.code_ne_zero, decoded]
  dsimp only [Decoded.length]
  rw [behind]

/-- The same instructions are found in the tokens from an offset on, in the code with zeros behind
it, and among the starts. -/
structure Walked (address : String → Nat) (count offset : Nat) (tokens : List Token)
    (program : Program) (lines : List Line) : Prop where
  split : Lines address offset tokens lines (offset + program.size)
  listed : ofBytes offset (program.flatMap (Statement.encode address) ++ List.replicate count 0) =
    lines.map Line.listed
  starts : program.starts offset = lines.map fun line => (line.listed.offset, line.mnemonic)
  texts : ∀ line ∈ lines, line.listed.decoded.text = line.text

/-- One more instruction in front. -/
theorem Walked.cons {count : Nat} {argument : Argument} {operation : Operation} {more : List Token}
    (walked : Walked address count (offset + operation.encodedLength) tokens program lines)
    {line : Line}
    (split : Lines address offset more (line :: lines)
      (offset + operation.encodedLength + program.size))
    (width : argument.width = operation.operand.width)
    (listed : line.listed = ⟨offset, .instruction operation (Operand.ofBytes operation.operand
      (argument.encode address ++
        (program.flatMap (Statement.encode address) ++ List.replicate count 0)))⟩)
    (text : line.listed.decoded.text = line.text) :
    Walked address count offset more (.instruction line.mnemonic operation argument :: program)
      (line :: lines) := by
  have size : (Statement.instruction line.mnemonic operation argument).size =
      operation.encodedLength := by
    rw [Statement.size, width]
    rfl
  exact {
    split := by
      rw [Program.size, size, ← Nat.add_assoc]
      exact split
    listed := by
      rw [List.flatMap_cons, List.append_assoc, List.map_cons, listed, ← walked.listed]
      exact ofBytes_instruction operation width offset _
    starts := by
      rw [Program.starts, size, walked.starts, List.map_cons, listed]
    texts := by
      intro other member
      rcases List.mem_cons.mp member with rfl | later
      · exact text
      · exact walked.texts other later }

/-- A program whose tokens come from a lexer is listed as its tokens are. -/
theorem exists_walked (spelled : Program.Spelled tokens program)
    (lexed : ∀ token ∈ tokens, token.WellSpelt) (small : ∀ name, address name < 65536)
    (count offset : Nat) : ∃ lines, Walked address count offset tokens program lines := by
  induction spelled generalizing offset with
  | nothing =>
    refine ⟨[], .nothing, ?_, rfl, ?_⟩
    · rw [List.flatMap_nil, List.nil_append]
      exact ofBytes_replicate offset count
    · intro line member
      exact absurd member List.not_mem_nil
  | @plain token operation tokens program kind name alone rest inductionHypothesis =>
    obtain ⟨lines, walked⟩ :=
      inductionHypothesis (fun other member => lexed other (List.mem_cons_of_mem _ member))
        (offset + operation.encodedLength)
    have width : Argument.nothing.width = operation.operand.width := by
      rw [alone]
      rfl
    have shown : ListedInstruction.mk offset (.instruction operation .none) =
        ⟨offset, .instruction operation (Operand.ofBytes operation.operand
          (Argument.nothing.encode address ++
            (program.flatMap (Statement.encode address) ++ List.replicate count 0)))⟩ := by
      rw [alone]
      rfl
    exact ⟨_, walked.cons (.plain kind name alone walked.split) width shown name.symm⟩
  | @withOperand token operand operation argument tokens program kind name spelled rest
      inductionHypothesis =>
    obtain ⟨lines, walked⟩ :=
      inductionHypothesis
        (fun other member =>
          lexed other (List.mem_cons_of_mem _ (List.mem_cons_of_mem _ member)))
        (offset + operation.encodedLength)
    have well := lexed operand (List.mem_cons_of_mem _ List.mem_cons_self)
    obtain ⟨text, listed, written⟩ := spelled.listed well small
      (program.flatMap (Statement.encode address) ++ List.replicate count 0) operation
    rw [← name] at written
    exact ⟨_, walked.cons (.withOperand kind name listed walked.split) spelled.width_eq rfl written⟩
  | @define token label tokens program kind name labelKind rest inductionHypothesis =>
    obtain ⟨lines, walked⟩ :=
      inductionHypothesis
        (fun other member =>
          lexed other (List.mem_cons_of_mem _ (List.mem_cons_of_mem _ member))) offset
    refine ⟨lines, ?_, walked.listed, walked.starts, walked.texts⟩
    rw [Program.size, show (Statement.define label.literal label.position).size = 0 from rfl,
      Nat.zero_add]
    exact .define kind name labelKind walked.split

/-- An instruction stands behind the bytes of the earlier ones. -/
theorem Lines.offset_eq (split : Lines address offset tokens lines stop) {index : Nat} {line : Line}
    (there : lines[index]? = some line) :
    line.listed.offset = offset +
      ((lines.take index).map fun earlier => earlier.listed.decoded.length).sum := by
  induction split generalizing index with
  | nothing => exact nomatch there
  | define kind name labelKind rest inductionHypothesis => exact inductionHypothesis there
  | plain kind name alone rest inductionHypothesis
  | withOperand kind name listed rest inductionHypothesis =>
    cases index with
    | zero =>
      obtain rfl := Option.some.inj there
      rfl
    | succ index =>
      rw [inductionHypothesis there, List.take_succ_cons, List.map_cons, List.sum_cons,
        Nat.add_assoc]
      rfl

end Listing

/-! ### Whole programs -/

/-- No label stands behind the end of the code. -/
theorem Program.address_le_size (program : Program) (name : String) :
    program.address name ≤ program.size := by
  unfold address
  cases found : program.addressOf? name with
  | none => exact Nat.zero_le _
  | some value =>
    obtain ⟨before, after, rfl, rfl⟩ := exists_of_addressOf?_eq_some name found
    rw [size_append]
    exact Nat.le_add_right _ _

/-- An image that is assembled from a source is listed as the instructions of that source. -/
theorem Listing.exists_givesBack {source : String} {assembly : Assembly}
    (made : Assembly.ofSource source = .ok assembly) :
    ∃ tokens program lines, tokensOf source = .ok tokens ∧ Program.Spelled tokens program ∧
      GivesBack assembly tokens program.address lines := by
  obtain ⟨tokens, read, made⟩ := Assembly.exists_tokens made
  obtain ⟨program, spelled, right⟩ := Assembly.exists_program made
  have small : ∀ name, program.address name < 65536 := by
    intro name
    have bound := Nat.le_trans (program.address_le_size name) right.assemblable.fits
    rw [Layout.codeSize_eq] at bound
    omega
  obtain ⟨lines, walked⟩ := exists_walked spelled (segmented_of_tokensOf read).wellSpelt small
    (Layout.codeSize - program.size) 0
  have split := walked.split
  rw [Nat.zero_add, ← right.codeLength] at split
  have whole : ofImage assembly.image = lines.map Line.listed := by
    rw [ofImage, right.codeRegion_eq, right.code_eq]
    exact walked.listed
  refine ⟨tokens, program, lines, read, spelled, split, whole, ?_, ?_, ?_⟩
  · intro index line there
    rw [split.offset_eq there, Nat.zero_add]
  · rw [right.map, List.reverse_reverse]
    exact walked.starts
  · rw [Listing.text, whole, List.map_map]
    exact congrArg _ (List.map_congr_left walked.texts)

/-- A number that does not fit into a byte, a register, and a jump to the end of the code. -/
theorem Listing.exists_givesBack_jump :
    ∃ assembly, Assembly.ofSource "PSH 300 SAV &3 JMP #END LAB #END" = .ok assembly ∧
      ∃ tokens program lines, tokensOf "PSH 300 SAV &3 JMP #END LAB #END" = .ok tokens ∧
        Program.Spelled tokens program ∧ GivesBack assembly tokens program.address lines := by
  have read : tokensOf "PSH 300 SAV &3 JMP #END LAB #END" = .ok [⟨.mnemonic, "PSH", 0⟩,
      ⟨.number, "300", 4⟩, ⟨.mnemonic, "SAV", 8⟩, ⟨.register, "3", 12⟩, ⟨.mnemonic, "JMP", 15⟩,
      ⟨.label, "END", 19⟩, ⟨.mnemonic, "LAB", 24⟩, ⟨.label, "END", 28⟩] := by
    decide +kernel
  have number : Text.Denotes 65535 "300" 300 := (Text.unsigned?_eq_some _ _ _).mp rfl
  have register : Text.Denotes 255 "3" 3 := (Text.unsigned?_eq_some _ _ _).mp rfl
  have spelled : Program.Spelled [⟨.mnemonic, "PSH", 0⟩,
      ⟨.number, "300", 4⟩, ⟨.mnemonic, "SAV", 8⟩, ⟨.register, "3", 12⟩, ⟨.mnemonic, "JMP", 15⟩,
      ⟨.label, "END", 19⟩, ⟨.mnemonic, "LAB", 24⟩, ⟨.label, "END", 28⟩]
      [.instruction ⟨.mnemonic, "PSH", 0⟩ .psh (.byte (UInt8.ofNat 300)),
        .instruction ⟨.mnemonic, "SAV", 8⟩ .sav (.byte (UInt8.ofNat 3)),
        .instruction ⟨.mnemonic, "JMP", 15⟩ .jmp (.label "END"), .define "END" 28] :=
    .withOperand rfl rfl (.number rfl number) (.withOperand rfl rfl (.register rfl register)
      (.withOperand rfl rfl (.label rfl) (.define rfl rfl rfl .nothing)))
  obtain ⟨assembly, made⟩ := Assembly.exists_ofSource read spelled
    ⟨by decide, by decide, by decide⟩
  exact ⟨assembly, made, exists_givesBack made⟩

end ByteStack
