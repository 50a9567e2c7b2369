/-
This file is about listings of arbitrary code, whoever wrote it. A listing cuts a
code region into pieces that lie side by side: instructions, and single bytes
that are no opcodes. The cut begins at the front of the region and ends at the
first zero byte where a piece should begin, or behind the end of the region.

Nothing is lost on the way. Each piece has the bytes that it was made of, an
operand that the end of the region cuts off is filled up with zeros, and so the
pieces one after the other are the region again, as far as the cut goes. How long
the image says its program is plays no part.
-/

import ByteStack.Listing
import ByteStack.Proofs.Memory

namespace ByteStack

/-! ### Bytes of what is listed -/

/-- The bytes of an operand, the high byte of an address first. -/
def Operand.encode : Operand → List UInt8
  | .none => []
  | .number value => [value]
  | .register index => [index]
  | .address target => [highByte target, lowByte target]

/-- The bytes of an instruction. An unknown byte stands for itself. -/
def Decoded.encode : Decoded → List UInt8
  | .instruction operation operand => operation.code :: operand.encode
  | .unknown byte => [byte]

theorem Decoded.length_pos (decoded : Decoded) : 0 < decoded.length := by
  cases decoded with
  | instruction operation operand => exact Nat.lt_of_lt_of_le Nat.one_pos (Nat.le_add_right 1 _)
  | unknown byte => exact Nat.one_pos

/-- An operand has the bytes it was made of, with zeros for those that are missing. -/
theorem Operand.encode_ofBytes (kind : OperandKind) (rest : List UInt8) :
    (ofBytes kind rest).encode = (rest ++ [0, 0]).take kind.width := by
  cases kind with
  | none => rfl
  | number | register => cases rest <;> rfl
  | label =>
    rcases rest with _ | ⟨high, _ | ⟨low, others⟩⟩
    · rfl
    all_goals
      show [highByte (addressOf _ _), lowByte (addressOf _ _)] = _
      rw [highByte_addressOf, lowByte_addressOf]
      rfl

/-- What is decoded has the bytes it was decoded from, with zeros for those that are missing. -/
theorem Decoded.encode_ofBytes (code : UInt8) (rest : List UInt8) :
    (ofBytes code rest).encode = (code :: rest ++ [0, 0]).take (ofBytes code rest).length := by
  unfold ofBytes
  cases found : Operation.ofCode? code with
  | none => rfl
  | some operation =>
    show operation.code :: (Operand.ofBytes operation.operand rest).encode = _
    rw [Operation.code_of_ofCode? found, Operand.encode_ofBytes, Decoded.length,
      Operation.encodedLength, Nat.add_comm 1, List.cons_append, List.take_succ_cons]

theorem Image.length_codeRegion (image : Image) : image.codeRegion.length = Layout.codeSize := by
  rw [codeRegion, Memory.length_slice _ _ _ (by decide), Nat.sub_zero]

namespace Listing

/-! ### Where pieces stand -/

/-- What is listed stands in the code, and is decoded from the bytes that follow. -/
theorem exists_of_mem {offset : Nat} {region : List UInt8} {listed : ListedInstruction}
    (member : listed ∈ ofBytes offset region) :
    ∃ distance code rest, listed.offset = offset + distance ∧
      region.drop distance = code :: rest ∧ code ≠ 0 ∧
      listed.decoded = Decoded.ofBytes code rest := by
  induction offset, region using ofBytes.induct with
  | case1 offset =>
    rw [ofBytes] at member
    exact nomatch member
  | case2 offset rest =>
    rw [ofBytes, if_pos rfl] at member
    exact nomatch member
  | case3 offset code rest nonzero decoded inductionHypothesis =>
    rw [ofBytes, if_neg nonzero] at member
    obtain rfl | later := List.mem_cons.mp member
    · exact ⟨0, code, rest, rfl, rfl, nonzero, rfl⟩
    · obtain ⟨distance, byte, behind, place, shape, start, shown⟩ := inductionHypothesis later
      refine ⟨decoded.length - 1 + distance + 1, byte, behind, ?_, ?_, start, shown⟩
      · have positive := decoded.length_pos
        rw [place]
        omega
      · rw [List.drop_succ_cons, ← List.drop_drop]
        exact shape

/-- What is listed of an image is decoded from its code region. -/
theorem fetched_of_mem {image : Image} {listed : ListedInstruction}
    (member : listed ∈ ofImage image) :
    ∃ code, image.codeRegion[listed.offset]? = some code ∧ code ≠ 0 ∧
      listed.decoded = Decoded.ofBytes code (image.codeRegion.drop (listed.offset + 1)) := by
  obtain ⟨distance, code, rest, place, shape, nonzero, shown⟩ := exists_of_mem member
  rw [Nat.zero_add] at place
  refine ⟨code, ?_, nonzero, ?_⟩
  · rw [place, ← Nat.add_zero distance, ← List.getElem?_drop, shape]
    rfl
  · rw [shown, place, ← List.drop_drop, shape]
    rfl

/-! ### Pieces side by side -/

/-- The pieces stand side by side: the first one at the first offset, each other one where the one
in front of it ends, and the last one ends at the second offset. -/
inductive Tiles : Nat → List ListedInstruction → Nat → Prop where
  | nothing {offset : Nat} : Tiles offset [] offset
  | next {offset stop : Nat} {decoded : Decoded} {pieces : List ListedInstruction}
      (rest : Tiles (offset + decoded.length) pieces stop) :
      Tiles offset (⟨offset, decoded⟩ :: pieces) stop

/-- The bytes of all pieces, one after the other. -/
def encode (pieces : List ListedInstruction) : List UInt8 :=
  pieces.flatMap fun listed => listed.decoded.encode

/-- The pieces tell where they end. -/
theorem Tiles.unique {offset first second : Nat} {pieces : List ListedInstruction}
    (tiles : Tiles offset pieces first) (other : Tiles offset pieces second) : first = second := by
  induction tiles with
  | nothing =>
    cases other
    rfl
  | next rest inductionHypothesis =>
    cases other with
    | next others => exact inductionHypothesis others

/-- The pieces of a region, which end `size` bytes behind its front. -/
structure Cuts (offset : Nat) (region : List UInt8) (size : Nat) : Prop where
  tiles : Tiles offset (ofBytes offset region) (offset + size)
  /-- There is nothing left, or a zero byte where a piece should begin. -/
  ends : region.length ≤ size ∨ region[size]? = some 0
  /-- The bytes of the pieces are those of the region, with zeros behind it. -/
  encode_eq : encode (ofBytes offset region) = (region ++ [0, 0]).take size

variable {offset size : Nat}

/-- Nothing is cut off an empty region. -/
theorem Cuts.size_eq_zero (cuts : Cuts offset [] size) : size = 0 := by
  have tiles := cuts.tiles
  rw [ofBytes] at tiles
  have same : offset + size = offset := tiles.unique .nothing
  omega

/-- One more piece in front. -/
theorem Cuts.cons {code : UInt8} {rest : List UInt8} (nonzero : code ≠ 0) {decoded : Decoded}
    (front : Decoded.ofBytes code rest = decoded)
    (cuts : Cuts (offset + decoded.length) (rest.drop (decoded.length - 1)) size) :
    Cuts offset (code :: rest) (decoded.length + size) := by
  obtain ⟨before, exact⟩ : ∃ before, decoded.length = before + 1 :=
    Nat.exists_eq_succ_of_ne_zero (Nat.ne_of_gt decoded.length_pos)
  have pieces : ofBytes offset (code :: rest) = ⟨offset, decoded⟩ ::
      ofBytes (offset + decoded.length) (rest.drop (decoded.length - 1)) := by
    rw [ofBytes, if_neg nonzero, front]
  refine ⟨?_, ?_, ?_⟩
  · rw [pieces, ← Nat.add_assoc]
    exact .next cuts.tiles
  · rw [exact, Nat.add_right_comm, List.length_cons, List.getElem?_cons_succ]
    refine cuts.ends.imp (fun short => ?_) (fun zero => ?_)
    · rw [List.length_drop] at short
      omega
    · rw [List.getElem?_drop, exact] at zero
      exact zero
  · have bytes : encode (ofBytes offset (code :: rest)) =
        (code :: rest ++ [0, 0]).take decoded.length ++
          (rest.drop (decoded.length - 1) ++ [0, 0]).take size := by
      rw [pieces, ← cuts.encode_eq, ← front, ← Decoded.encode_ofBytes]
      rfl
    rw [bytes, List.take_add]
    refine congrArg _ ?_
    rw [exact, Nat.add_sub_cancel, List.cons_append, List.drop_succ_cons]
    by_cases inside : before ≤ rest.length
    · rw [List.drop_append_of_le_length inside]
    · -- The piece reaches beyond the region, and no other one follows.
      have nothing : rest.drop before = [] := List.drop_eq_nil_of_le (by omega)
      rw [exact, Nat.add_sub_cancel, nothing] at cuts
      rw [cuts.size_eq_zero, List.take_zero, List.take_zero]

/-- Every region is cut into pieces. -/
theorem exists_cuts (offset : Nat) (region : List UInt8) : ∃ size, Cuts offset region size := by
  induction offset, region using ofBytes.induct with
  | case1 offset =>
    refine ⟨0, ?_, .inl (Nat.le_refl 0), ?_⟩
    · rw [ofBytes]
      exact .nothing
    · rw [ofBytes]
      rfl
  | case2 offset rest =>
    refine ⟨0, ?_, .inr rfl, ?_⟩
    · rw [ofBytes, if_pos rfl]
      exact .nothing
    · rw [ofBytes, if_pos rfl]
      rfl
  | case3 offset code rest nonzero decoded inductionHypothesis =>
    obtain ⟨size, cuts⟩ := inductionHypothesis
    exact ⟨decoded.length + size, cuts.cons nonzero rfl⟩

/-- An unknown byte, and a jump that lacks its last byte. -/
example : encode (ofBytes 0 [0xEE, 0x10, 0x01]) = [0xEE, 0x10, 0x01, 0x00] := by cbv

/-! ### Listings of images -/

/-- The listing of an image cuts its code region into pieces, up to `stop`. -/
structure Partitions (image : Image) (stop : Nat) : Prop where
  tiles : Tiles 0 (ofImage image) stop
  /-- No piece begins with a zero byte. -/
  nonzero : ∀ listed ∈ ofImage image,
    ∃ byte, image.codeRegion[listed.offset]? = some byte ∧ byte ≠ 0
  ends : Layout.codeSize ≤ stop ∨ image.codeRegion[stop]? = some 0
  /-- The bytes of the pieces are the code up to there. -/
  encode_eq : (encode (ofImage image)).take Layout.codeSize =
    image.codeRegion.take (min stop Layout.codeSize)
  /-- What the end of the region cuts off is listed as zero. -/
  cutOff : ∀ byte ∈ (encode (ofImage image)).drop Layout.codeSize, byte = 0
  /-- Images that are listed alike have the same bytes there. -/
  determined : ∀ other : Image, ofImage other = ofImage image →
    other.codeRegion.take (min stop Layout.codeSize) =
      image.codeRegion.take (min stop Layout.codeSize)

theorem Cuts.encode_ofImage {image : Image} (cuts : Cuts 0 image.codeRegion size) :
    encode (ofImage image) = (image.codeRegion ++ [0, 0]).take size :=
  cuts.encode_eq

/-- The bytes of the pieces inside the region. -/
theorem Cuts.take_encode {image : Image} (cuts : Cuts 0 image.codeRegion size) :
    (encode (ofImage image)).take Layout.codeSize =
      image.codeRegion.take (min size Layout.codeSize) := by
  have inside : min Layout.codeSize size ≤ image.codeRegion.length :=
    image.length_codeRegion ▸ Nat.min_le_left _ _
  rw [cuts.encode_ofImage, List.take_take, List.take_append_of_le_length inside, Nat.min_comm]

/-- The bytes of the pieces behind the region. -/
theorem Cuts.eq_zero_of_mem_drop {image : Image} (cuts : Cuts 0 image.codeRegion size)
    {byte : UInt8} (member : byte ∈ (encode (ofImage image)).drop Layout.codeSize) : byte = 0 := by
  rw [cuts.encode_ofImage, List.drop_take, List.drop_left' image.length_codeRegion] at member
  simpa using List.mem_of_mem_take member

/-- A listing is a partition of the code up to the place where it ends, whatever the code is. -/
theorem exists_partitions (image : Image) : ∃ stop, Partitions image stop := by
  obtain ⟨stop, cuts⟩ := exists_cuts 0 image.codeRegion
  have tiles : Tiles 0 (ofImage image) stop := Nat.zero_add stop ▸ cuts.tiles
  refine ⟨stop, tiles, ?_, ?_, cuts.take_encode, fun byte => cuts.eq_zero_of_mem_drop, ?_⟩
  · intro listed member
    obtain ⟨byte, fetched, nonzero, _⟩ := fetched_of_mem member
    exact ⟨byte, fetched, nonzero⟩
  · exact image.length_codeRegion ▸ cuts.ends
  · intro other same
    obtain ⟨size, others⟩ := exists_cuts 0 other.codeRegion
    have ending : Tiles 0 (ofImage other) size := Nat.zero_add size ▸ others.tiles
    rw [same] at ending
    obtain rfl := tiles.unique ending
    rw [← others.take_encode, same, cuts.take_encode]

end Listing

end ByteStack
