/-
This file is about texts that differ in their layout and in the case of their
letters. Layout may be put in at the edges of tokens, directly before a token or
directly behind it. The tokens of the text stay the same, and each moves on by as
many characters as were put in before it.

Tokens need no separator where their characters tell them apart, so an edge may
have another token on its other side. What makes a token end there is that the
character behind it cannot be part of it. Layout begins with no such character,
and so it ends a token no less than what stood behind the token before.
-/

import ByteStack.Proofs.Source.Character
import Mathlib.Algebra.GroupWithZero.Nat
import Mathlib.Data.List.Forall2

namespace ByteStack

variable {text letters behind rest : List Char} {position : Nat} {tokens : List Token}
  {token? : Option (TokenKind × List Char)} {gaps : Nat → List Char}

/-! ### Layout and where it may be put in -/

/-- Text that separates tokens and is otherwise ignored: blanks, tabs, carriage returns, line feeds,
and comments that a line feed ends. -/
inductive LayoutText : List Char → Prop where
  | nothing : LayoutText []
  | blank {character : Char} {rest : List Char} (layout : isLayout character)
      (more : LayoutText rest) : LayoutText (character :: rest)
  | comment {words rest : List Char} (inside : ∀ character ∈ words, character ≠ '\n')
      (more : LayoutText rest) : LayoutText (';' :: (words ++ '\n' :: rest))

/-- A token of the text, whose first character stands at the first position, begins or ends at the
second one. -/
inductive TokenEdge : Nat → List Char → Nat → Prop where
  | front {position : Nat} {letters behind : List Char} {token : TokenKind × List Char}
      (segment : Segment letters behind (some token)) :
      TokenEdge position (letters ++ behind) position
  | back {position : Nat} {letters behind : List Char} {token : TokenKind × List Char}
      (segment : Segment letters behind (some token)) :
      TokenEdge position (letters ++ behind) (position + letters.length)
  | further {position place : Nat} {letters behind : List Char}
      {token? : Option (TokenKind × List Char)} (segment : Segment letters behind token?)
      (edge : TokenEdge (position + letters.length) behind place) :
      TokenEdge position (letters ++ behind) place

/-- The text, whose first character stands at the position, with something put in before each
character and at the end. -/
def insertGaps (gaps : Nat → List Char) (position : Nat) : List Char → List Char
  | [] => gaps position
  | first :: rest => gaps position ++ first :: insertGaps gaps (position + 1) rest

/-- How many characters are put in before all characters in front of the position. -/
def inserted (gaps : Nat → List Char) (position : Nat) : Nat :=
  ((List.range position).map fun place => (gaps place).length).sum

/-- The token where it stands when the gaps are filled: what is put in directly before it moves it,
too. -/
def Token.moved (gaps : Nat → List Char) (token : Token) : Token :=
  { token with position := token.position + inserted gaps (token.position + 1) }

/-- The second text differs from the first one in the case of ASCII letters only. -/
def Recased : List Char → List Char → Prop :=
  List.Forall₂ fun character other =>
    other = character ∨ other = character.toUpper ∨ other = character.toLower

/-- The second text is made of the first one by putting in layout at the edges of tokens, and by
changing the case of letters. -/
structure Relaid (source : String) (gaps : Nat → List Char) (other : String) : Prop where
  layout : ∀ place, LayoutText (gaps place)
  edges : ∀ place, gaps place ≠ [] → TokenEdge 0 (source.toList.map Char.toUpper) place
  recased : Recased (insertGaps gaps 0 source.toList) other.toList

/-! ### Edges of a text -/

/-- The segment that begins a text is the only one. -/
theorem Segment.unique {otherLetters otherBehind : List Char}
    {other? : Option (TokenKind × List Char)} (segment : Segment letters behind token?)
    (other : Segment otherLetters otherBehind other?)
    (same : letters ++ behind = otherLetters ++ otherBehind) :
    letters = otherLetters ∧ behind = otherBehind ∧ token? = other? := by
  obtain ⟨first, more, rfl⟩ := List.exists_cons_of_ne_nil segment.ne_nil
  obtain ⟨second, others, rfl⟩ := List.exists_cons_of_ne_nil other.ne_nil
  obtain rfl : first = second := (List.cons.inj same).1
  have tails : more ++ behind = others ++ otherBehind := (List.cons.inj same).2
  cases token? with
  | none =>
    obtain ⟨count, scanned, ends, _⟩ := segment.scan_layout
    cases other? with
    | none =>
      obtain ⟨otherCount, otherScanned, otherEnds, _⟩ := other.scan_layout
      rw [← tails, scanned] at otherScanned
      obtain rfl := Lexeme.layout.inj otherScanned
      obtain rfl : behind = otherBehind := by rw [← ends, ← otherEnds, tails]
      exact ⟨List.append_cancel_right same, rfl, rfl⟩
    | some token =>
      rw [tails, other.scan_token] at scanned
      exact nomatch scanned
  | some token =>
    have scanned := segment.scan_token
    cases other? with
    | none =>
      obtain ⟨_, otherScanned, _⟩ := other.scan_layout
      rw [tails, otherScanned] at scanned
      exact nomatch scanned
    | some otherToken =>
      rw [tails, other.scan_token] at scanned
      obtain ⟨kind, literal, length⟩ := Lexeme.token.inj scanned
      obtain ⟨rfl, rfl⟩ := List.append_inj tails length.symm
      exact ⟨rfl, rfl, congrArg some (Prod.ext kind literal).symm⟩

namespace TokenEdge

variable {place : Nat}

/-- The edges of a text are those of the segment at its front and those behind it. Layout has
none. -/
theorem of_segment (edge : TokenEdge position (letters ++ behind) place)
    (segment : Segment letters behind token?) :
    (token?.isSome ∧ (place = position ∨ place = position + letters.length)) ∨
      TokenEdge (position + letters.length) behind place := by
  generalize whole : letters ++ behind = text at edge
  cases edge with
  | front other =>
    obtain ⟨rfl, rfl, rfl⟩ := segment.unique other whole
    exact .inl ⟨rfl, .inl rfl⟩
  | back other =>
    obtain ⟨rfl, rfl, rfl⟩ := segment.unique other whole
    exact .inl ⟨rfl, .inr rfl⟩
  | further other edge =>
    obtain ⟨rfl, rfl, rfl⟩ := segment.unique other whole
    exact .inr edge

theorem le (edge : TokenEdge position text place) : position ≤ place := by
  induction edge with
  | front => exact Nat.le_refl _
  | back => exact Nat.le_add_right _ _
  | further segment edge inductionHypothesis =>
    exact Nat.le_trans (Nat.le_add_right _ _) inductionHypothesis

theorem text_ne_nil (edge : TokenEdge position text place) : text ≠ [] := by
  cases edge with
  | front segment | back segment | further segment _ =>
    exact List.append_ne_nil_of_left_ne_nil segment.ne_nil _

end TokenEdge

/-! ### Passing over layout -/

/-- Layout stands neither in words nor in numbers. -/
theorem not_isUpper_of_isLayout {character : Char} (layout : isLayout character) :
    ¬character.isUpper ∧ ¬character.isDigit :=
  ⟨fun upper => not_isLayout upper (by decide) layout,
    fun digit => not_isLayout digit (by decide) layout⟩

/-- Layout begins with no character that could belong to a token in front of it. -/
theorem LayoutText.apart (layout : LayoutText letters) {first : Char}
    (begins : first ∈ letters.head?) : ¬first.isUpper ∧ ¬first.isDigit := by
  cases layout with
  | nothing => exact nomatch begins
  | blank blank more =>
    obtain rfl := Option.some.inj begins
    exact not_isUpper_of_isLayout blank
  | comment inside more =>
    obtain rfl := Option.some.inj begins
    exact ⟨by decide, by decide⟩

namespace Reading

/-- A blank is passed over, whether or not other blanks follow it. -/
theorem outcome_blank {character : Char} (layout : isLayout character) (position : Nat)
    (rest : List Char) :
    (ofText position (character :: rest)).outcome = (ofText (position + 1) rest).outcome := by
  rw [ofText_layout (Lexeme.scan_layout layout rest)]
  cases rest with
  | nil => rfl
  | cons next others =>
    by_cases blank : isLayout next
    · rw [ofText_layout (Lexeme.scan_layout blank others), List.takeWhile_cons_of_pos blank,
        List.length_cons, List.drop_succ_cons, Nat.add_comm _ 1, Nat.add_assoc position]
    · rw [List.takeWhile_cons_of_neg blank, List.length_nil, List.drop_zero, Nat.zero_add]

/-- Layout is passed over, whatever follows it. -/
theorem outcome_layoutText (layout : LayoutText letters) (position : Nat) (rest : List Char) :
    (ofText position (letters ++ rest)).outcome =
      (ofText (position + letters.length) rest).outcome := by
  induction layout generalizing position with
  | nothing => rfl
  | @blank character others blank more inductionHypothesis =>
    rw [List.cons_append, outcome_blank blank, inductionHypothesis, List.length_cons,
      Nat.add_right_comm, Nat.add_assoc]
  | @comment words others inside more inductionHypothesis =>
    have line : ';' :: (words ++ '\n' :: others) ++ rest =
        ';' :: (words ++ ['\n']) ++ (others ++ rest) := by simp
    have length : (';' :: (words ++ '\n' :: others)).length =
        (';' :: (words ++ ['\n'])).length + others.length := by
      simp only [List.length_cons, List.length_append, List.length_nil]
      omega
    rw [line, outcome_layout (.comment inside), inductionHypothesis, length, Nat.add_assoc]

end Reading

/-- A segment of layout is layout text, unless it is a comment in the last line. -/
theorem Segment.layoutText (segment : Segment letters behind none) :
    LayoutText letters ∨ behind = [] := by
  cases segment with
  | blanks longest =>
    refine .inl ?_
    have each := longest.each
    clear longest
    induction letters with
    | nil => exact .nothing
    | cons first others inductionHypothesis =>
      exact .blank (each first List.mem_cons_self)
        (inductionHypothesis fun character member => each character (List.mem_cons_of_mem _ member))
  | comment inside => exact .inl (.comment inside .nothing)
  | lastComment => exact .inr rfl

/-! ### Tokens in front of other text -/

theorem LongestRun.replace {test : Char → Bool} {other : List Char}
    (longest : LongestRun test letters behind)
    (ends : ∀ next ∈ other.head?, next ∈ behind.head? ∨ ¬test next) :
    LongestRun test letters other where
  nonempty := longest.nonempty
  each := longest.each
  ends next member := (ends next member).elim (longest.ends next) id

/-- A token stays one when other text stands behind it, if that begins as the text before did, or
with a character that belongs to no token in front of it. -/
theorem Segment.replace {token : TokenKind × List Char} {other : List Char}
    (segment : Segment letters behind (some token))
    (apart : ∀ next ∈ other.head?, next ∈ behind.head? ∨ ¬next.isUpper ∧ ¬next.isDigit) :
    Segment letters other (some token) := by
  have letter : ∀ next ∈ other.head?, next ∈ behind.head? ∨ ¬next.isUpper :=
    fun next member => (apart next member).imp_right And.left
  have digit : ∀ next ∈ other.head?, next ∈ behind.head? ∨ ¬next.isDigit :=
    fun next member => (apart next member).imp_right And.right
  cases segment with
  | mnemonic longest => exact .mnemonic (longest.replace letter)
  | label longest => exact .label (longest.replace letter)
  | register isDigit alone =>
    exact .register isDigit fun next member => (apart next member).elim (alone next) id
  | decimal longest small => exact .decimal (longest.replace digit) small
  | hex longest small => exact .hex (longest.replace digit) small

/-! ### Putting layout in -/

theorem inserted_succ (gaps : Nat → List Char) (position : Nat) :
    inserted gaps (position + 1) = inserted gaps position + (gaps position).length := by
  rw [inserted, List.range_succ, List.map_append, List.sum_append]
  rfl

/-- Where nothing is put in, a stretch of the text stays as it is. -/
theorem insertGaps_append (letters behind : List Char)
    (none : ∀ place, position ≤ place → place < position + letters.length → gaps place = []) :
    insertGaps gaps position (letters ++ behind) =
        letters ++ insertGaps gaps (position + letters.length) behind ∧
      inserted gaps (position + letters.length) = inserted gaps position := by
  induction letters generalizing position with
  | nil => exact ⟨rfl, rfl⟩
  | cons first others inductionHypothesis =>
    have here : gaps position = [] :=
      none position (Nat.le_refl _) (Nat.lt_add_of_pos_right (Nat.succ_pos _))
    have shift : position + (first :: others).length = position + 1 + others.length := by
      rw [List.length_cons, Nat.add_right_comm, Nat.add_assoc]
    obtain ⟨text, count⟩ := @inductionHypothesis (position + 1) fun place low high =>
      none place (Nat.le_of_succ_le low) (shift ▸ high)
    rw [shift]
    refine ⟨?_, ?_⟩
    · rw [List.cons_append, insertGaps, here, text]
      rfl
    · rw [count, inserted_succ, here]
      rfl

/-- Where nothing is put in between, a stretch of the text stays as it is behind its gap. -/
theorem insertGaps_segment (nonempty : letters ≠ []) (behind : List Char)
    (none : ∀ place, position < place → place < position + letters.length → gaps place = []) :
    insertGaps gaps position (letters ++ behind) =
        gaps position ++ (letters ++ insertGaps gaps (position + letters.length) behind) ∧
      inserted gaps (position + letters.length) = inserted gaps (position + 1) := by
  obtain ⟨first, others, rfl⟩ := List.exists_cons_of_ne_nil nonempty
  have shift : position + (first :: others).length = position + 1 + others.length := by
    rw [List.length_cons, Nat.add_right_comm, Nat.add_assoc]
  obtain ⟨text, count⟩ := @insertGaps_append (position + 1) gaps others behind
    fun place low high => none place low (shift ▸ high)
  rw [shift, List.cons_append, insertGaps, text]
  exact ⟨rfl, count⟩

/-- What stands first when the gaps are filled: layout, or what stood first before. -/
theorem head_insertGaps (layout : ∀ place, LayoutText (gaps place)) {next : Char}
    (begins : next ∈ (insertGaps gaps position behind).head?) :
    next ∈ behind.head? ∨ ¬next.isUpper ∧ ¬next.isDigit := by
  cases empty : gaps position with
  | nil =>
    cases behind with
    | nil =>
      rw [insertGaps, empty] at begins
      exact nomatch begins
    | cons first others =>
      rw [insertGaps, empty] at begins
      exact .inl begins
  | cons first others =>
    have front : next ∈ (gaps position).head? := by
      cases behind with
      | nil => exact begins
      | cons other more =>
        rw [insertGaps, empty] at begins
        rw [empty]
        exact begins
    exact .inr ((layout position).apart front)

/-- Nothing is put in inside a segment. -/
theorem Segment.gap_eq_nil (segment : Segment letters behind token?)
    (edges : ∀ place, position < place → gaps place ≠ [] →
      TokenEdge position (letters ++ behind) place) {place : Nat}
    (low : position < place) (high : place < position + letters.length) : gaps place = [] := by
  by_contra some
  rcases (edges place low some).of_segment segment with ⟨_, rfl | rfl⟩ | later
  · exact Nat.lt_irrefl _ low
  · exact Nat.lt_irrefl _ high
  · exact Nat.not_le.mpr high later.le

/-- Behind a segment layout is put in at the edges that are left. -/
theorem Segment.edges_behind (segment : Segment letters behind token?)
    (edges : ∀ place, position < place → gaps place ≠ [] →
      TokenEdge position (letters ++ behind) place) :
    ∀ place, position + letters.length < place → gaps place ≠ [] →
      TokenEdge (position + letters.length) behind place := by
  intro place low some
  have front : position < place := Nat.lt_of_le_of_lt (Nat.le_add_right _ _) low
  rcases (edges place front some).of_segment segment with ⟨_, rfl | rfl⟩ | later
  · exact absurd front (Nat.lt_irrefl _)
  · exact absurd low (Nat.lt_irrefl _)
  · exact later

/-- What is put in before a segment is passed over. -/
theorem Segment.outcome_insertGaps (segment : Segment letters behind token?)
    (layout : LayoutText (gaps position))
    (edges : ∀ place, position < place → gaps place ≠ [] →
      TokenEdge position (letters ++ behind) place) :
    (Reading.ofText (position + inserted gaps position)
        (insertGaps gaps position (letters ++ behind))).outcome =
      (Reading.ofText (position + inserted gaps (position + 1))
        (letters ++ insertGaps gaps (position + letters.length) behind)).outcome ∧
      inserted gaps (position + letters.length) = inserted gaps (position + 1) := by
  obtain ⟨text, count⟩ := insertGaps_segment segment.ne_nil behind
    fun place => segment.gap_eq_nil edges
  refine ⟨?_, count⟩
  rw [text, Reading.outcome_layoutText layout, Nat.add_assoc, ← inserted_succ]

/-- A text that splits into segments has the same tokens when layout is put in at their edges. At
the front of the text there may be an edge of a token before it. -/
theorem Segmented.outcome_insertGaps (segmented : Segmented position text tokens rest)
    (whole : rest = []) (layout : ∀ place, LayoutText (gaps place))
    (edges : ∀ place, position < place → gaps place ≠ [] → TokenEdge position text place) :
    (Reading.ofText (position + inserted gaps position) (insertGaps gaps position text)).outcome =
      .ok (tokens.map (Token.moved gaps)) := by
  induction segmented with
  | @stop position rest =>
    subst whole
    have passed := Reading.outcome_layoutText (layout position)
      (position + inserted gaps position) []
    rw [List.append_nil, Reading.outcome_nil] at passed
    exact passed
  | @layout position letters behind rest tokens segment more inductionHypothesis =>
    obtain ⟨front, count⟩ := segment.outcome_insertGaps (layout position) edges
    have later := inductionHypothesis whole (segment.edges_behind edges)
    rw [count, Nat.add_right_comm] at later
    rw [front, ← later]
    rcases segment.layoutText with passed | rfl
    · exact Reading.outcome_layoutText passed _ _
    · -- No token ends behind a comment, so nothing stands behind the last one.
      have empty : gaps (position + letters.length) = [] := by
        by_contra some
        have positive := List.length_pos_iff.mpr segment.ne_nil
        rcases (edges _ (Nat.lt_add_of_pos_right positive) some).of_segment segment with
          ⟨token, _⟩ | edge
        · exact nomatch token
        · exact edge.text_ne_nil rfl
      rw [insertGaps, empty]
      exact Reading.outcome_layout segment _
  | @token position letters behind rest tokens kind literal segment more inductionHypothesis =>
    obtain ⟨front, count⟩ := segment.outcome_insertGaps (layout position) edges
    have later := inductionHypothesis whole (segment.edges_behind edges)
    rw [count, Nat.add_right_comm] at later
    have kept : Segment letters (insertGaps gaps (position + letters.length) behind)
        (some (kind, literal)) := segment.replace fun next => head_insertGaps layout
    rw [front, Reading.outcome_token kept, later]
    rfl

/-! ### Case -/

theorem toUpper_ne_newline {character : Char} (other : character ≠ '\n') :
    character.toUpper ≠ '\n' := by
  intro upper
  rcases toUpper_cases character with ⟨_, letter⟩ | same
  · rw [upper] at letter
    exact absurd letter (by decide)
  · exact other (same.symm.trans upper)

/-- A letter in the other case is the same in capitals. -/
theorem toUpper_eq_of_recased {character other : Char}
    (recased : other = character ∨ other = character.toUpper ∨ other = character.toLower) :
    other.toUpper = character.toUpper := by
  rcases recased with rfl | rfl | rfl
  · rfl
  · rcases toUpper_cases character with ⟨_, upper⟩ | same
    · exact toUpper_of_isUpper upper
    · rw [same, same]
  · unfold Char.toLower
    split
    · next upper =>
      have bounds : 65 ≤ character.val.toNat ∧ character.val.toNat ≤ 90 := upper
      have moved : (character.val + ('a'.val - 'A'.val)).toNat = character.val.toNat + 32 := by
        rw [UInt32.toNat_add, show ('a'.val - 'A'.val).toNat = 32 by decide]
        omega
      have small : 'a'.val ≤ character.val + ('a'.val - 'A'.val) ∧
          character.val + ('a'.val - 'A'.val) ≤ 'z'.val := by
        simp only [UInt32.le_iff_toNat_le, moved]
        exact ⟨Nat.add_le_add_right bounds.1 32, Nat.add_le_add_right bounds.2 32⟩
      rw [toUpper_of_lt (UInt32.lt_of_le_of_lt upper.2 (by decide))]
      refine (dif_pos small).trans (Char.ext ?_)
      show character.val + ('a'.val - 'A'.val) + ('A'.val - 'a'.val) = character.val
      rw [UInt32.add_assoc]
      exact UInt32.add_zero _
    · rfl

/-- Layout in capitals is layout. -/
theorem LayoutText.map_toUpper (layout : LayoutText letters) :
    LayoutText (letters.map Char.toUpper) := by
  induction layout with
  | nothing => exact .nothing
  | @blank character rest blank more inductionHypothesis =>
    rw [← isLayout_toUpper] at blank
    exact .blank blank inductionHypothesis
  | @comment words rest inside more inductionHypothesis =>
    rw [List.map_cons, List.map_append, List.map_cons]
    refine .comment (fun character member => ?_) inductionHypothesis
    obtain ⟨word, there, rfl⟩ := List.mem_map.mp member
    exact toUpper_ne_newline (inside word there)

theorem map_insertGaps (change : Char → Char) (gaps : Nat → List Char) (position : Nat)
    (text : List Char) :
    (insertGaps gaps position text).map change =
      insertGaps (fun place => (gaps place).map change) position (text.map change) := by
  induction text generalizing position with
  | nil => rfl
  | cons first rest inductionHypothesis =>
    rw [insertGaps, List.map_append, List.map_cons, inductionHypothesis]
    rfl

theorem inserted_map (change : Char → Char) (gaps : Nat → List Char) :
    inserted (fun place => (gaps place).map change) = inserted gaps := by
  funext position
  simp only [inserted, List.length_map]

/-- Texts that differ in case only are the same in capitals. -/
theorem Recased.map_toUpper {other : List Char} (recased : Recased text other) :
    other.map Char.toUpper = text.map Char.toUpper := by
  induction recased with
  | nil => rfl
  | cons same rest inductionHypothesis =>
    rw [List.map_cons, List.map_cons, inductionHypothesis]
    exact congrArg (· :: _) (toUpper_eq_of_recased same)

/-- Layout and case do not change the tokens of a source, only where they stand. -/
theorem Relaid.tokensOf_eq {source other : String} (relaid : Relaid source gaps other)
    (read : tokensOf source = .ok tokens) :
    tokensOf other = .ok (tokens.map (Token.moved gaps)) := by
  have edges : ∀ place, 0 < place → (gaps place).map Char.toUpper ≠ [] →
      TokenEdge 0 (source.toList.map Char.toUpper) place :=
    fun place _ some => relaid.edges place fun empty => some (congrArg _ empty)
  have moved := (segmented_of_tokensOf read).outcome_insertGaps rfl
    (fun place => (relaid.layout place).map_toUpper) edges
  rw [ByteStack.tokensOf_eq, relaid.recased.map_toUpper, map_insertGaps]
  refine moved.trans (congrArg _ (List.map_congr_left fun token _ => ?_))
  rw [Token.moved, inserted_map]
  rfl

end ByteStack
