/-
This file shows that a stored image can be read back. The stored form says
itself where it ends: whatever stands behind it is left alone, and no shorter
beginning of it is mistaken for an image, since every such beginning ends where
more bytes are due.

Both facts are facts about readers. They hold of a number of variable length by
induction on its groups of seven bits, they hold of a block of known size, and
they pass on to readers that are run one after the other.
-/

import ByteStack.Image.Stored
import ByteStack.Proofs.Memory
import Mathlib.Algebra.Group.Nat.Defs

namespace ByteStack

/-! ### Readers -/

/-- The reader takes just these bytes for the value and leaves alone what stands behind them. As
long as some of them are missing it runs out of bytes. -/
structure Reads {Value : Type} (reader : List UInt8 → Except CodecFault (Value × List UInt8))
    (written : List UInt8) (value : Value) : Prop where
  whole : ∀ behind, reader (written ++ behind) = .ok (value, behind)
  cut : ∀ front, front <+: written → front ≠ written → reader front = .error .endOfBuffer

namespace Reads

variable {First Second : Type} {front back : List UInt8} {value : First} {result : Second}
  {reader : List UInt8 → Except CodecFault (First × List UInt8)}

/-- What is read first decides how the rest is read. -/
theorem bind {next : First → List UInt8 → Except CodecFault (Second × List UInt8)}
    (first : Reads reader front value) (second : Reads (next value) back result) :
    Reads (fun bytes => reader bytes >>= fun found => next found.1 found.2) (front ++ back)
      result where
  whole behind := by
    rw [List.append_assoc, first.whole]
    exact second.whole behind
  cut taken shorter different := by
    rcases List.prefix_or_prefix_of_prefix shorter (List.prefix_append front back) with
      inside | ⟨more, rfl⟩
    · by_cases same : taken = front
      · have empty : [] ≠ back := by
          rintro rfl
          exact different (same.trans (List.append_nil front).symm)
        have begun := first.whole []
        rw [List.append_nil] at begun
        rw [same, begun]
        exact second.cut [] List.nil_prefix empty
      · rw [first.cut taken inside same]
        rfl
    · rw [first.whole]
      refine second.cut more ((List.prefix_append_right_inj front).mp shorter) ?_
      rintro rfl
      exact different rfl

/-- A change of the value changes nothing about the bytes. -/
theorem map (first : Reads reader front value) (change : First → Second) :
    Reads (fun bytes => (reader bytes).map fun found => (change found.1, found.2)) front
      (change value) where
  whole behind := by rw [first.whole]; rfl
  cut taken shorter different := by rw [first.cut taken shorter different]; rfl

end Reads

/-! ### Numbers of variable length -/

namespace Varint

theorem encode_of_lt {value : Nat} (small : value < 128) : encode value = [UInt8.ofNat value] := by
  rw [encode, if_pos small]

theorem encode_of_le {value : Nat} (large : 128 ≤ value) :
    encode value = UInt8.ofNat (value % 128 + 128) :: encode (value / 128) := by
  rw [encode, if_neg (Nat.not_lt_of_le large)]

/-- A number of one byte is read back, if that byte is not the last that is accepted or is not too
great for it. -/
theorem reads_byte {last left value : Nat} (small : value < 128)
    (fits : left = 0 → value ≤ last) :
    Reads (decodeUpTo last (left + 1)) [UInt8.ofNat value] value where
  whole behind := by
    have byte : (UInt8.ofNat value).toNat = value :=
      UInt8.toNat_ofNat_of_lt' (Nat.lt_trans small (by decide))
    rw [List.singleton_append, decodeUpTo, byte, if_pos small,
      if_neg fun tooGreat => Nat.not_lt_of_le (fits tooGreat.1) tooGreat.2]
  cut front shorter different := by
    have short := Nat.lt_of_le_of_ne shorter.length_le fun same =>
      different (shorter.eq_of_length same)
    obtain rfl := List.length_eq_zero_iff.mp (Nat.lt_one_iff.mp short)
    rfl

/-- A number is read back when it takes no more bytes than the reader accepts, and no greater last
byte if it takes as many. -/
theorem reads_encode {last left value : Nat} (sevenBits : last < 128)
    (bound : value < (last + 1) * 128 ^ left) :
    Reads (decodeUpTo last (left + 1)) (encode value) value := by
  induction left generalizing value with
  | zero =>
    rw [Nat.pow_zero, Nat.mul_one] at bound
    have small : value < 128 := Nat.lt_of_lt_of_le bound sevenBits
    rw [encode_of_lt small]
    exact reads_byte small fun _ => Nat.le_of_lt_succ bound
  | succ left inductionHypothesis =>
    by_cases small : value < 128
    · rw [encode_of_lt small]
      exact reads_byte small fun none => absurd none (Nat.succ_ne_zero left)
    have byte : (UInt8.ofNat (value % 128 + 128)).toNat = value % 128 + 128 :=
      UInt8.toNat_ofNat_of_lt' (Nat.add_lt_add_right (Nat.mod_lt value (by decide)) 128)
    have goesOn : ¬value % 128 + 128 < 128 := Nat.not_lt_of_le (Nat.le_add_left 128 _)
    have more : Reads (decodeUpTo last (left + 1)) (encode (value / 128)) (value / 128) := by
      refine inductionHypothesis (Nat.div_lt_of_lt_mul ?_)
      rw [Nat.pow_succ, ← Nat.mul_assoc, Nat.mul_comm] at bound
      exact bound
    rw [encode_of_le (Nat.le_of_not_lt small)]
    constructor
    · intro behind
      rw [List.cons_append, decodeUpTo, byte, if_neg goesOn, more.whole]
      dsimp only
      rw [Nat.add_mod_right, Nat.mod_mod, Nat.mod_add_div]
    · intro front shorter different
      cases front with
      | nil => rfl
      | cons first others =>
        obtain ⟨rfl, inside⟩ := List.cons_prefix_cons.mp shorter
        have incomplete : others ≠ encode (value / 128) := by
          rintro rfl
          exact different rfl
        rw [decodeUpTo, byte, if_neg goesOn, more.cut others inside incomplete]

end Varint

/-! ### Images -/

/-- Memory made of all the bytes of a memory is that memory. -/
theorem Memory.ofBytes_toList (memory : Memory) (fits : memory.toList.length ≤ Layout.imageSize) :
    ofBytes memory.toList fits = memory := by
  have same : (ofBytes memory.toList fits).toList = memory.toList := by
    rw [toList_ofBytes, length_toList, Nat.sub_self, List.replicate_zero, List.append_nil]
  exact congrArg mk (Vector.toList_inj.mp same)

namespace Image

/-- A block is read back when its size is known. -/
theorem reads_takeBytes (block : List UInt8) : Reads (takeBytes block.length) block block where
  whole behind := by
    rw [takeBytes, List.length_append, if_neg (Nat.not_lt_of_le (Nat.le_add_right _ _)),
      List.splitAt_eq, List.take_left, List.drop_left]
  cut front shorter different := by
    refine if_pos (Nat.lt_of_le_of_ne shorter.length_le fun same => ?_)
    exact different (shorter.eq_of_length same)

/-- Reads the length of the program behind a block. -/
def readLength (block rest : List UInt8) :
    Except CodecFault ((List UInt8 × Nat) × List UInt8) :=
  (Varint.decode Varint.word rest).map fun found => ((block, found.1), found.2)

/-- Reads a block of a known size and what stands behind it. -/
def readBody (count : Nat) (rest : List UInt8) :
    Except CodecFault ((List UInt8 × Nat) × List UInt8) :=
  takeBytes count rest >>= fun found => readLength found.1 found.2

/-- Reads the parts of a stored image and gives the bytes behind them. -/
def readParts (stored : List UInt8) : Except CodecFault ((List UInt8 × Nat) × List UInt8) :=
  Varint.decode Varint.longWord stored >>= fun found => readBody found.1 found.2

/-- The bytes behind the parts are forgotten. -/
theorem decodeParts_eq (stored : List UInt8) :
    decodeParts stored = (readParts stored).map Prod.fst := by
  unfold decodeParts readParts
  cases Varint.decode Varint.longWord stored with
  | error fault => rfl
  | ok count =>
    show (takeBytes count.1 count.2 >>= _) = (readBody count.1 count.2).map _
    unfold readBody
    cases takeBytes count.1 count.2 with
    | error fault => rfl
    | ok block =>
      show (Varint.decode Varint.word block.2 >>= _) = (readLength block.1 block.2).map _
      unfold readLength
      cases Varint.decode Varint.word block.2 <;> rfl

/-- The parts of a stored image are read one after the other. -/
theorem reads_parts (image : Image) :
    Reads readParts image.encode (image.memory.toList, image.codeLength) := by
  have count : Reads (Varint.decode Varint.longWord) (Varint.encode Layout.imageSize)
      Layout.imageSize :=
    Varint.reads_encode (by decide) (by decide)
  have block := reads_takeBytes image.memory.toList
  rw [Memory.length_toList] at block
  have length : Reads (Varint.decode Varint.word) (Varint.encode image.codeLength)
      image.codeLength :=
    Varint.reads_encode (by decide) (Nat.lt_of_le_of_lt image.codeLength_le (by decide))
  have body : Reads (readBody Layout.imageSize)
      (image.memory.toList ++ Varint.encode image.codeLength)
      (image.memory.toList, image.codeLength) :=
    block.bind (length.map fun found => (image.memory.toList, found))
  rw [encode, List.append_assoc]
  exact count.bind body

/-- The block and the code length of an image pass the checks. -/
theorem ofBlock?_toList (image : Image) :
    ofBlock? image.memory.toList image.codeLength = .ok image := by
  rw [ofBlock?, dif_pos image.memory.length_toList, dif_pos image.codeLength_le]
  simp only [Memory.ofBytes_toList]

/-- A stored image is read back, whatever stands behind it. Every shorter beginning of the stored
form is refused because bytes are missing. -/
theorem decode_encode (image : Image) :
    (∀ behind, decode? (image.encode ++ behind) = .ok image) ∧
    ∀ front, front <+: image.encode → front ≠ image.encode →
      decode? front = .error (.malformed .endOfBuffer) := by
  have reads := image.reads_parts
  constructor
  · intro behind
    have parts : decodeParts (image.encode ++ behind) =
        .ok (image.memory.toList, image.codeLength) := by
      rw [decodeParts_eq, reads.whole]
      rfl
    rw [decode?, parts]
    exact image.ofBlock?_toList
  · intro front shorter different
    have parts : decodeParts front = .error .endOfBuffer := by
      rw [decodeParts_eq, reads.cut front shorter different]
      rfl
    rw [decode?, parts]

/-- The stored form of an image without its last byte. -/
theorem decode_encode_dropLast :
    empty.encode.dropLast <+: empty.encode ∧ empty.encode.dropLast ≠ empty.encode ∧
      decode? empty.encode.dropLast = .error (.malformed .endOfBuffer) := by
  have shorter : empty.encode.dropLast <+: empty.encode := List.dropLast_prefix _
  have filled : 0 < empty.encode.length := by
    rw [encode, List.length_append, List.length_append, Memory.length_toList]
    simp only [Layout.imageSize_eq]
    omega
  have different : empty.encode.dropLast ≠ empty.encode := by
    intro same
    have length := congrArg List.length same
    rw [List.length_dropLast] at length
    omega
  exact ⟨shorter, different, empty.decode_encode.2 _ shorter different⟩

end Image

end ByteStack
