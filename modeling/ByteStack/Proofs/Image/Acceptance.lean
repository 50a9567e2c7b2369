/-
This file says exactly which stored bytes hold an image, and what is reported of
all others. The bytes must split into a number, as many bytes, a second number,
and a rest that is not looked at. Numbers may be longer than they have to be, up
to a bound. What cannot be split this way is reported where the first piece is
missing, reading from the left; only what can be split is then checked, first
for its size and then for the length of its program.

For a number there is nothing between a form that is accepted and a beginning
that is broken: the bytes whose high bit is set either end too early, go on for
too long, or are followed by the last byte. So each reader needs to be followed
only on the bytes it is meant for.
-/

import ByteStack.Proofs.Image.Stored

namespace ByteStack

/-! ### Numbers of variable length -/

namespace Varint

/-- The number that groups of seven bits stand for, the low group first. -/
def value (bytes : List UInt8) : Nat :=
  bytes.foldr (fun byte higher => byte.toNat % 128 + 128 * higher) 0

/-- The bytes are a form of the number: the high bit is set in all of them but the last, there are
no more of them than the bound allows, and when there are as many the last one is not too great. -/
structure Form (bound : Bound) (form : List UInt8) (number : Nat) : Prop where
  shape : ∃ more final, form = more ++ [final] ∧ (∀ byte ∈ more, 128 ≤ byte.toNat) ∧
    final.toNat < 128 ∧ (form.length = bound.length → final.toNat ≤ bound.last)
  short : form.length ≤ bound.length
  value_eq : value form = number

/-- No form of the number is accepted that has fewer bytes. -/
structure Shortest (bound : Bound) (form : List UInt8) (number : Nat) : Prop where
  accepted : Form bound form number
  least : ∀ other, Form bound other number → form.length ≤ other.length

/-- No form of a number begins the bytes. -/
inductive Broken (bound : Bound) : List UInt8 → CodecFault → Prop where
  /-- All bytes say that another one follows, and there is room for it. -/
  | endOfBuffer {bytes : List UInt8} (more : ∀ byte ∈ bytes, 128 ≤ byte.toNat)
      (short : bytes.length < bound.length) : Broken bound bytes .endOfBuffer
  /-- As many bytes as the bound allows, the last one too great to end the number. -/
  | unterminated {bytes rest : List UInt8} {final : UInt8}
      (more : ∀ byte ∈ bytes, 128 ≤ byte.toNat) (full : bytes.length + 1 = bound.length)
      (large : bound.last < final.toNat) :
      Broken bound (bytes ++ final :: rest) .unterminatedVarint

variable {bound : Bound} {form bytes rest : List UInt8} {number : Nat} {fault : CodecFault}

theorem value_append (more : List UInt8) (final : UInt8) (small : final.toNat < 128) :
    value (more ++ [final]) =
      more.foldr (fun byte higher => byte.toNat % 128 + 128 * higher) final.toNat := by
  rw [value, List.foldr_append, List.foldr_cons, List.foldr_nil, Nat.mod_eq_of_lt small]
  rfl

/-- The reader goes through bytes whose high bit is set and adds their groups to what follows. -/
theorem decodeUpTo_append (last left : Nat) (more : ∀ byte ∈ bytes, 128 ≤ byte.toNat) :
    decodeUpTo last (bytes.length + left) (bytes ++ rest) =
      (decodeUpTo last left rest).map fun found =>
        (bytes.foldr (fun byte higher => byte.toNat % 128 + 128 * higher) found.1, found.2) := by
  induction bytes with
  | nil =>
    rw [List.length_nil, Nat.zero_add, List.nil_append]
    cases decodeUpTo last left rest <;> rfl
  | cons byte others inductionHypothesis =>
    have goesOn : ¬byte.toNat < 128 := Nat.not_lt_of_le (more byte List.mem_cons_self)
    rw [List.length_cons, Nat.add_right_comm, List.cons_append, decodeUpTo, if_neg goesOn,
      inductionHypothesis fun other member => more other (List.mem_cons_of_mem _ member)]
    cases decodeUpTo last left rest <;> rfl

/-- A form of a number is read, whatever stands behind it. -/
theorem Form.decode_eq (accepted : Form bound form number) (rest : List UInt8) :
    decode bound (form ++ rest) = .ok (number, rest) := by
  obtain ⟨⟨more, final, rfl, goOn, ends, small⟩, short, rfl⟩ := accepted
  rw [List.length_append, List.length_singleton] at short small
  obtain ⟨left, room⟩ := Nat.exists_eq_add_of_le short
  rw [Nat.add_assoc, Nat.add_comm 1 left] at room
  have fits : ¬(left = 0 ∧ bound.last < final.toNat) := by
    rintro ⟨rfl, large⟩
    exact Nat.not_lt_of_le (small room.symm) large
  rw [decode, room, List.append_assoc, decodeUpTo_append _ _ goOn, List.singleton_append,
    decodeUpTo, if_pos ends, if_neg fits, value_append more final ends]
  rfl

/-- What is broken is refused. -/
theorem Broken.decode_eq (broken : Broken bound bytes fault) :
    decode bound bytes = .error fault := by
  cases broken with
  | endOfBuffer goOn short =>
    obtain ⟨left, room⟩ := Nat.exists_eq_add_of_lt short
    have read : decodeUpTo bound.last (bytes.length + (left + 1)) (bytes ++ []) = _ :=
      decodeUpTo_append bound.last (left + 1) goOn
    rw [List.append_nil] at read
    rw [decode, room, Nat.add_assoc, read]
    rfl
  | @unterminated more rest final goOn full large =>
    rw [decode, ← full, decodeUpTo_append _ _ goOn, decodeUpTo]
    by_cases ends : final.toNat < 128
    · rw [if_pos ends, if_pos ⟨rfl, large⟩]
      rfl
    · rw [if_neg ends]
      rfl

/-- Bytes begin with a form of a number or are broken. -/
theorem form_or_broken (bound : Bound) (some : 0 < bound.length) (sevenBits : bound.last < 128)
    (bytes : List UInt8) :
    (∃ form number rest, bytes = form ++ rest ∧ Form bound form number) ∨
      ∃ fault, Broken bound bytes fault := by
  obtain ⟨more, rest, rfl, goOn, ends⟩ : ∃ more rest, bytes = more ++ rest ∧
      (∀ byte ∈ more, 128 ≤ byte.toNat) ∧ ∀ final ∈ rest.head?, final.toNat < 128 := by
    refine ⟨bytes.takeWhile fun byte => 128 ≤ byte.toNat,
      bytes.dropWhile fun byte => 128 ≤ byte.toNat, List.takeWhile_append_dropWhile.symm,
      fun byte member => of_decide_eq_true (List.all_eq_true.mp List.all_takeWhile byte member),
      fun final first => ?_⟩
    have passed := List.head?_dropWhile_not (fun byte : UInt8 => decide (128 ≤ byte.toNat)) bytes
    rw [first] at passed
    exact Nat.lt_of_not_le (of_decide_eq_false passed)
  by_cases short : more.length < bound.length
  · cases rest with
    | nil =>
      rw [List.append_nil]
      exact Or.inr ⟨_, .endOfBuffer goOn short⟩
    | cons final rest =>
      by_cases small : more.length + 1 = bound.length → final.toNat ≤ bound.last
      · left
        have length : (more ++ [final]).length = more.length + 1 := by
          rw [List.length_append, List.length_singleton]
        refine ⟨more ++ [final], _, rest, by simp, ⟨more, final, rfl, goOn, ends final rfl, ?_⟩, ?_,
          rfl⟩
        · rw [length]
          exact small
        · rw [length]
          exact short
      · obtain ⟨full, large⟩ := Classical.not_imp.mp small
        exact Or.inr ⟨_, .unterminated goOn full (Nat.lt_of_not_le large)⟩
  · -- The byte at the bound says that another one follows.
    have bounded : bound.length - 1 < more.length := by omega
    have large := goOn more[bound.length - 1] (List.getElem_mem bounded)
    have split : more = more.take (bound.length - 1) ++
        more[bound.length - 1] :: more.drop (bound.length - 1 + 1) := by
      rw [← List.drop_eq_getElem_cons bounded, List.take_append_drop]
    right
    refine ⟨.unterminatedVarint, ?_⟩
    rw [split, List.append_assoc, List.cons_append]
    refine .unterminated (fun byte member => goOn byte (List.mem_of_mem_take member)) ?_
      (Nat.lt_of_lt_of_le sevenBits large)
    rw [List.length_take]
    omega

/-- Reading a number takes one of its forms off the bytes. -/
theorem decode_eq_ok (some : 0 < bound.length) (sevenBits : bound.last < 128) :
    decode bound bytes = .ok (number, rest) ↔
      ∃ form, bytes = form ++ rest ∧ Form bound form number := by
  constructor
  · intro read
    rcases form_or_broken _ some sevenBits bytes with ⟨form, other, behind, rfl, accepted⟩ |
      ⟨fault, broken⟩
    · obtain ⟨rfl, rfl⟩ := Prod.mk.inj (Except.ok.inj ((accepted.decode_eq behind).symm.trans read))
      exact ⟨form, rfl, accepted⟩
    · exact nomatch broken.decode_eq.symm.trans read
  · rintro ⟨form, rfl, accepted⟩
    exact accepted.decode_eq rest

/-! ### Shortest forms -/

/-- The writer gives a form back, unless it finds a shorter one. -/
theorem encode_value_eq_or_lt {more : List UInt8} {final : UInt8}
    (goOn : ∀ byte ∈ more, 128 ≤ byte.toNat) (ends : final.toNat < 128) :
    encode (value (more ++ [final])) = more ++ [final] ∨
      (encode (value (more ++ [final]))).length < (more ++ [final]).length := by
  induction more with
  | nil =>
    left
    rw [List.nil_append, value, List.foldr_cons, List.foldr_nil, Nat.mul_zero, Nat.add_zero,
      Nat.mod_eq_of_lt ends, encode_of_lt ends, UInt8.ofNat_toNat]
  | cons byte more inductionHypothesis =>
    have here := goOn byte List.mem_cons_self
    have bound := byte.toNat_lt
    have whole : value (byte :: more ++ [final]) =
        byte.toNat % 128 + 128 * value (more ++ [final]) := rfl
    rw [whole, List.cons_append, List.length_cons]
    by_cases zero : value (more ++ [final]) = 0
    · right
      rw [zero, encode_of_lt (by omega), List.length_append, List.length_singleton,
        List.length_singleton]
      omega
    · have low : UInt8.ofNat ((byte.toNat % 128 + 128 * value (more ++ [final])) % 128 + 128) =
          byte := by
        refine UInt8.toNat_inj.mp ?_
        rw [UInt8.toNat_ofNat']
        omega
      have high : (byte.toNat % 128 + 128 * value (more ++ [final])) / 128 =
          value (more ++ [final]) := by omega
      rw [encode_of_le (by omega), low, high, List.length_cons]
      rcases inductionHypothesis fun other member => goOn other (List.mem_cons_of_mem _ member) with
        same | shorter
      · exact Or.inl (congrArg _ same)
      · exact Or.inr (Nat.succ_lt_succ shorter)

/-- What the writer chooses is a form of the number, if the number is not too great. -/
theorem form_encode (some : 0 < bound.length) (sevenBits : bound.last < 128)
    (small : number < (bound.last + 1) * 128 ^ (bound.length - 1)) :
    Form bound (encode number) number := by
  have reads := (reads_encode sevenBits small).whole []
  rw [Nat.sub_add_cancel some] at reads
  obtain ⟨form, same, accepted⟩ := (decode_eq_ok some sevenBits).mp reads
  rw [List.append_nil, List.append_nil] at same
  rw [same]
  exact accepted

/-- What the writer chooses is the shortest form. -/
theorem Form.shortest (accepted : Form bound (encode number) number) :
    Shortest bound (encode number) number := by
  refine ⟨accepted, ?_⟩
  rintro other ⟨⟨more, final, rfl, goOn, ends, _⟩, _, rfl⟩
  rcases encode_value_eq_or_lt goOn ends with same | shorter
  · exact Nat.le_of_eq (congrArg List.length same)
  · exact Nat.le_of_lt shorter

/-- A form that is shorter than the bound has no last byte that could be too great. -/
theorem form_encode_of_lt (fewer : (encode number).length < bound.length) :
    Form bound (encode number) number := by
  have wide : Form ⟨number + 1, 127⟩ (encode number) number :=
    form_encode (Nat.succ_pos _) (Nat.lt_succ_self 127)
      (Nat.lt_of_lt_of_le (Nat.lt_pow_self (by decide)) (Nat.le_mul_of_pos_left _ (Nat.succ_pos _)))
  obtain ⟨⟨more, final, shape, goOn, ends, _⟩, _, same⟩ := wide
  exact ⟨⟨more, final, shape, goOn, ends, fun full => absurd full (Nat.ne_of_lt fewer)⟩,
    Nat.le_of_lt fewer, same⟩

/-- The writer chooses the shortest form. -/
theorem Shortest.encode_eq (shortest : Shortest bound form number) : encode number = form := by
  obtain ⟨⟨⟨more, final, rfl, goOn, ends, _⟩, short, rfl⟩, least⟩ := shortest
  rcases encode_value_eq_or_lt goOn ends with same | shorter
  · exact same
  · have accepted := form_encode_of_lt (Nat.lt_of_lt_of_le shorter short)
    exact absurd (least _ accepted) (Nat.not_le_of_lt shorter)

end Varint

/-! ### Stored images -/

namespace Image

/-- The bytes split into a form of the size of the block, the block, a form of the length of the
program, and a rest. -/
inductive Splits : List UInt8 → List UInt8 → Nat → Prop where
  | parts {front block back : List UInt8} {codeLength : Nat} (rest : List UInt8)
      (size : Varint.Form Varint.longWord front block.length)
      (length : Varint.Form Varint.word back codeLength) :
      Splits (front ++ block ++ back ++ rest) block codeLength

/-- The first piece that is missing, reading from the left. -/
inductive Torn : List UInt8 → CodecFault → Prop where
  /-- The bytes do not begin with a size. -/
  | size {stored : List UInt8} {fault : CodecFault}
      (broken : Varint.Broken Varint.longWord stored fault) : Torn stored fault
  /-- There are fewer bytes behind the size than it says. -/
  | block {front rest : List UInt8} {size : Nat}
      (announced : Varint.Form Varint.longWord front size) (short : rest.length < size) :
      Torn (front ++ rest) .endOfBuffer
  /-- The block is not followed by a length. -/
  | length {front block rest : List UInt8} {fault : CodecFault}
      (announced : Varint.Form Varint.longWord front block.length)
      (broken : Varint.Broken Varint.word rest fault) : Torn (front ++ block ++ rest) fault

variable {stored block : List UInt8} {codeLength : Nat} {fault : CodecFault}

theorem Splits.decodeParts_eq (splits : Splits stored block codeLength) :
    decodeParts stored = .ok (block, codeLength) := by
  obtain ⟨rest, size, length⟩ := splits
  rw [decodeParts_eq, readParts, List.append_assoc, List.append_assoc, size.decode_eq]
  show (takeBytes block.length (block ++ _) >>= _).map _ = _
  rw [(reads_takeBytes block).whole]
  show ((Varint.decode Varint.word (_ ++ rest)).map _).map _ = _
  rw [length.decode_eq]
  rfl

theorem Torn.decodeParts_eq (torn : Torn stored fault) : decodeParts stored = .error fault := by
  rw [Image.decodeParts_eq, readParts]
  cases torn with
  | size broken =>
    rw [broken.decode_eq]
    rfl
  | block announced short =>
    rw [announced.decode_eq]
    show (takeBytes _ _ >>= _).map _ = _
    rw [takeBytes, if_pos short]
    rfl
  | @length front block rest fault announced broken =>
    rw [List.append_assoc, announced.decode_eq]
    show (takeBytes block.length (block ++ rest) >>= _).map _ = _
    rw [(reads_takeBytes block).whole]
    show ((Varint.decode Varint.word rest).map _).map _ = _
    rw [broken.decode_eq]
    rfl

/-- Bytes can be split or a piece is missing. -/
theorem splits_or_torn (stored : List UInt8) :
    (∃ block codeLength, Splits stored block codeLength) ∨ ∃ fault, Torn stored fault := by
  rcases Varint.form_or_broken Varint.longWord (by decide) (by decide) stored with
    ⟨front, size, behind, rfl, announced⟩ | ⟨fault, broken⟩
  · by_cases short : behind.length < size
    · exact Or.inr ⟨_, .block announced short⟩
    · obtain ⟨block, behind, rfl, rfl⟩ : ∃ block rest, behind = block ++ rest ∧
          block.length = size :=
        ⟨behind.take size, behind.drop size, (List.take_append_drop _ _).symm,
          List.length_take_of_le (Nat.le_of_not_lt short)⟩
      rcases Varint.form_or_broken Varint.word (by decide) (by decide) behind with
        ⟨back, codeLength, rest, rfl, length⟩ | ⟨fault, broken⟩
      · left
        refine ⟨block, codeLength, ?_⟩
        rw [← List.append_assoc, ← List.append_assoc]
        exact .parts rest announced length
      · right
        refine ⟨fault, ?_⟩
        rw [← List.append_assoc]
        exact .length announced broken
  · exact Or.inr ⟨fault, .size broken⟩

theorem decodeParts_eq_error : decodeParts stored = .error fault ↔ Torn stored fault := by
  refine ⟨fun read => ?_, Torn.decodeParts_eq⟩
  rcases splits_or_torn stored with ⟨block, length, splits⟩ | ⟨other, torn⟩
  · exact nomatch splits.decodeParts_eq.symm.trans read
  · obtain rfl := Except.error.inj (torn.decodeParts_eq.symm.trans read)
    exact torn

/-! ### The checks -/

theorem ofBlock?_eq_ok {image : Image} : ofBlock? block codeLength = .ok image ↔
    block.length = Layout.imageSize ∧ codeLength ≤ Layout.codeSize ∧
      image.memory.toList = block ∧ image.codeLength = codeLength := by
  constructor
  · intro made
    unfold ofBlock? at made
    split at made
    · next whole =>
      split at made
      · next fits =>
        obtain rfl := Except.ok.inj made
        refine ⟨whole, fits, ?_, rfl⟩
        rw [Memory.toList_ofBytes, whole, Nat.sub_self, List.replicate_zero, List.append_nil]
      · cases made
    · cases made
  · rintro ⟨_, _, rfl, rfl⟩
    exact image.ofBlock?_toList

theorem ofBlock?_eq_error {error : ImageError} : ofBlock? block codeLength = .error error ↔
    block.length ≠ Layout.imageSize ∧ error = .wrongSize block.length ∨
      block.length = Layout.imageSize ∧ Layout.codeSize < codeLength ∧
        error = .codeOverflow codeLength := by
  unfold ofBlock?
  by_cases whole : block.length = Layout.imageSize
  · rw [dif_pos whole]
    by_cases fits : codeLength ≤ Layout.codeSize
    · rw [dif_pos fits]
      simp [whole, Nat.not_lt_of_le fits]
    · rw [dif_neg fits]
      simp [whole, Nat.lt_of_not_le fits, eq_comm]
  · rw [dif_neg whole]
    simp [whole, eq_comm]

theorem Splits.decode?_eq (splits : Splits stored block codeLength) :
    decode? stored = ofBlock? block codeLength := by
  unfold decode?
  rw [splits.decodeParts_eq]

/-- What is not reported of a missing piece is what the checks say of bytes that can be split. -/
theorem exists_splits {result : Except ImageError Image} (reported : decode? stored = result)
    (checked : ∀ fault, result ≠ .error (.malformed fault)) :
    ∃ block codeLength, Splits stored block codeLength ∧ ofBlock? block codeLength = result := by
  rcases splits_or_torn stored with ⟨block, codeLength, splits⟩ | ⟨fault, torn⟩
  · exact ⟨block, codeLength, splits, splits.decode?_eq.symm.trans reported⟩
  · unfold decode? at reported
    rw [torn.decodeParts_eq] at reported
    exact absurd reported.symm (checked fault)

/-- The checks come after everything has been read. -/
theorem ofBlock?_ne_malformed (block : List UInt8) (codeLength : Nat) (fault : CodecFault) :
    ofBlock? block codeLength ≠ .error (.malformed fault) := by
  intro same
  rcases ofBlock?_eq_error.mp same with ⟨_, impossible⟩ | ⟨_, _, impossible⟩ <;>
    exact nomatch impossible

theorem decode?_eq_malformed :
    decode? stored = .error (.malformed fault) ↔ Torn stored fault := by
  rw [← decodeParts_eq_error]
  unfold decode?
  cases decodeParts stored with
  | error other => exact ⟨fun same => by cases same; rfl, fun same => by cases same; rfl⟩
  | ok parts =>
    exact ⟨fun same => absurd same (ofBlock?_ne_malformed _ _ _), nofun⟩

/-- What an image is stored as splits into the shortest forms, without a rest. -/
theorem encode_eq_iff {image : Image} : image.encode = stored ↔
    ∃ front back, stored = front ++ image.memory.toList ++ back ∧
      Varint.Shortest Varint.longWord front Layout.imageSize ∧
      Varint.Shortest Varint.word back image.codeLength := by
  constructor
  · rintro rfl
    have size : Varint.Form Varint.longWord (Varint.encode Layout.imageSize) Layout.imageSize :=
      Varint.form_encode (by decide) (by decide) (by decide)
    have length : Varint.Form Varint.word (Varint.encode image.codeLength) image.codeLength :=
      Varint.form_encode (by decide) (by decide)
        (Nat.lt_of_le_of_lt image.codeLength_le (by decide))
    exact ⟨_, _, rfl, size.shortest, length.shortest⟩
  · rintro ⟨front, back, rfl, size, length⟩
    rw [encode, size.encode_eq, length.encode_eq]

/-! ### Which bytes hold an image -/

/-- The stored bytes hold an image just when they split into a size, a block of that size and a
length, with the size of an image and a length that fits into the code region; then it is the
image of that block and that length. Otherwise the first piece that is missing is reported, or the
size if everything is there, or the length if the size is right. The bytes are what the image is
stored as just when both forms are the shortest ones and nothing stands behind them. -/
theorem decode_exact (stored : List UInt8) :
    (∀ block codeLength,
      (∃ image, decode? stored = .ok image ∧ image.memory.toList = block ∧
        image.codeLength = codeLength) ↔
      block.length = 8192 ∧ codeLength ≤ 7900 ∧ Splits stored block codeLength) ∧
    (∀ fault, decode? stored = .error (.malformed fault) ↔ Torn stored fault) ∧
    (∀ size, decode? stored = .error (.wrongSize size) ↔
      size ≠ 8192 ∧ ∃ block codeLength, Splits stored block codeLength ∧ block.length = size) ∧
    (∀ codeLength, decode? stored = .error (.codeOverflow codeLength) ↔
      7900 < codeLength ∧ ∃ block, Splits stored block codeLength ∧ block.length = 8192) ∧
    ∀ image : Image, image.encode = stored ↔
      ∃ front back, stored = front ++ image.memory.toList ++ back ∧
        Varint.Shortest Varint.longWord front 8192 ∧
        Varint.Shortest Varint.word back image.codeLength := by
  refine ⟨?_, fun fault => decode?_eq_malformed, ?_, ?_, fun image => encode_eq_iff⟩
  · intro block codeLength
    constructor
    · rintro ⟨image, read, rfl, rfl⟩
      obtain ⟨block, codeLength, splits, made⟩ := exists_splits read nofun
      obtain ⟨whole, fits, rfl, rfl⟩ := ofBlock?_eq_ok.mp made
      exact ⟨whole, fits, splits⟩
    · rintro ⟨whole, fits, splits⟩
      cases made : ofBlock? block codeLength with
      | ok image =>
        exact ⟨image, splits.decode?_eq.trans made, (ofBlock?_eq_ok.mp made).2.2⟩
      | error error =>
        rcases ofBlock?_eq_error.mp made with ⟨wrong, _⟩ | ⟨_, large, _⟩
        · exact absurd whole wrong
        · exact absurd fits (Nat.not_le_of_lt large)
  · intro size
    constructor
    · intro read
      obtain ⟨block, codeLength, splits, made⟩ := exists_splits read nofun
      rcases ofBlock?_eq_error.mp made with ⟨wrong, same⟩ | ⟨_, _, same⟩
      · obtain rfl := ImageError.wrongSize.inj same
        exact ⟨wrong, block, codeLength, splits, rfl⟩
      · exact nomatch same
    · rintro ⟨wrong, block, codeLength, splits, rfl⟩
      exact splits.decode?_eq.trans (ofBlock?_eq_error.mpr (Or.inl ⟨wrong, rfl⟩))
  · intro codeLength
    constructor
    · intro read
      obtain ⟨block, length, splits, made⟩ := exists_splits read nofun
      rcases ofBlock?_eq_error.mp made with ⟨_, same⟩ | ⟨whole, large, same⟩
      · exact nomatch same
      · obtain rfl := ImageError.codeOverflow.inj same
        exact ⟨large, block, splits, whole⟩
    · rintro ⟨large, block, splits, whole⟩
      exact splits.decode?_eq.trans (ofBlock?_eq_error.mpr (Or.inr ⟨whole, large, rfl⟩))

end Image

end ByteStack
