/-
This file shows that the text of a puzzle is read back as the same puzzle. A
reader does not need to be told the default: the description and the solution
may be left out where they are empty, and each run may leave out that it has no
budget.
-/

import ByteStack.Proofs.Puzzle.Reading

namespace ByteStack

open Json

/-! ### Trees -/

namespace Json

def textValue (text : String) : Json :=
  .string (some text)

def integerValue (value : Int) : Json :=
  .number (some (.integer value))

def signedBytesValue (values : List Int8) : Json :=
  .array (values.map fun value => integerValue value.toInt) none

/-- The text of a tree, without blanks. -/
def toText (value : Json) : String :=
  String.ofList (value.symbols.flatMap Symbol.written)

/-- A text that may be left out if it is empty. -/
def textMember (brief : Bool) (name text : String) : List Member :=
  if brief ∧ text = "" then [] else [(some name, textValue text)]

end Json

/-- The tree of a run. A brief one does not say that there is no budget. -/
def PuzzleRun.toJson (brief : Bool) (run : PuzzleRun) : Json :=
  .object
    ([(some "inbox", signedBytesValue run.inbox), (some "outbox", signedBytesValue run.outbox)]
      ++ match run.cycles? with
        | some cycles => [(some "cycles", integerValue cycles.toNat)]
        | none => if brief then [] else [(some "cycles", .null)])
    none

/-- What a text of a puzzle leaves out where it would only say the default. -/
structure Puzzle.Brevity where
  description : Bool
  solution : Bool
  /-- Runs are counted from zero. -/
  cycles : Nat → Bool

/-- Nothing is left out. -/
def Puzzle.Brevity.none : Brevity := ⟨false, false, fun _ => false⟩

/-- The tree of a puzzle. -/
def Puzzle.toJson (brevity : Brevity) (puzzle : Puzzle) : Json :=
  .object
    ((some "name", textValue puzzle.name)
      :: (textMember brevity.description "description" puzzle.description
        ++ textMember brevity.solution "impl" puzzle.solution
        ++ [(some "size_goal", integerValue puzzle.sizeGoal.toNat),
          (some "runs",
            .array (puzzle.runs.mapIdx fun index run => run.toJson (brevity.cycles index)) none)]))
    none

/-! ### Writing -/

theorem symbols_object (members : List (String × Json)) :
    (Json.object (members.map fun member => (some member.1, member.2)) none).symbols =
      objectSymbols (members.map fun member => (member.1, member.2.symbols)) := by
  rw [symbols, memberParts_eq_map, objectSymbols, List.map_map, List.map_map]
  rfl

theorem symbols_signedBytesValue (values : List Int8) :
    (signedBytesValue values).symbols = signedBytesSymbols values := by
  rw [signedBytesValue, symbols, itemParts_eq_map, List.map_map]
  rfl

theorem PuzzleRun.symbols_toJson (run : PuzzleRun) : (run.toJson false).symbols = run.symbols := by
  obtain ⟨inbox, outbox, cycles?⟩ := run
  rw [PuzzleRun.symbols, ← symbols_signedBytesValue, ← symbols_signedBytesValue]
  cases cycles? with
  | none => exact symbols_object [("inbox", _), ("outbox", _), ("cycles", .null)]
  | some cycles => exact symbols_object [("inbox", _), ("outbox", _), ("cycles", integerValue _)]

theorem textMember_false (name text : String) :
    textMember false name text = [(some name, textValue text)] :=
  if_neg fun brief => Bool.false_ne_true brief.1

theorem mapIdx_eq_map {Item Result : Type} (change : Item → Result) (items : List Item) :
    (items.mapIdx fun _ item => change item) = items.map change := by
  induction items with
  | nil => rfl
  | cons item rest inductionHypothesis =>
    rw [List.mapIdx_cons, inductionHypothesis, List.map_cons]

theorem Puzzle.symbols_toJson (puzzle : Puzzle) :
    (puzzle.toJson .none).symbols = puzzle.symbols := by
  have runs : (Json.array (puzzle.runs.mapIdx fun _ run => run.toJson false) none).symbols =
      arraySymbols (puzzle.runs.map PuzzleRun.symbols) := by
    rw [Json.symbols, itemParts_eq_map, mapIdx_eq_map, List.map_map]
    exact congrArg arraySymbols (List.map_congr_left fun run _ => run.symbols_toJson)
  rw [Puzzle.symbols, ← runs, toJson]
  simp only [Brevity.none, textMember_false]
  exact symbols_object [("name", textValue _), ("description", textValue _), ("impl", textValue _),
    ("size_goal", integerValue _), ("runs", _)]

/-- Nothing is left out of the text that is written of a puzzle. -/
theorem Puzzle.toText_toJson (puzzle : Puzzle) : (puzzle.toJson .none).toText = puzzle.toText := by
  rw [Json.toText, symbols_toJson, Puzzle.toText]

/-- What is written of the value spells it. -/
structure Json.IsWritable (value : Json) : Prop where
  whole : value.IsWhole
  writable : ∀ symbol ∈ value.symbols, Symbol.Writable symbol

theorem Json.IsWritable.spells {value : Json} (writable : value.IsWritable) :
    value.Spells value.toText where
  whole := writable.whole
  spelled := by
    rw [toText, String.toList_ofList]
    exact Symbol.spelled_written writable.writable

theorem isWritable_text (text : String) : (textValue text).IsWritable :=
  ⟨trivial, List.forall_mem_singleton.mpr (.text text)⟩

theorem isWritable_integer {value : Int} (least : -(Number.greatestNegative : Int) ≤ value)
    (greatest : value ≤ Number.greatestSignificand) : (integerValue value).IsWritable :=
  ⟨trivial, List.forall_mem_singleton.mpr (.integer least greatest)⟩

theorem isWritable_array {items : List Json} (each : ∀ item ∈ items, item.IsWritable) :
    (Json.array items none).IsWritable where
  whole := ⟨areWhole_iff.mpr fun item member => (each item member).whole, rfl⟩
  writable := by
    have parts : ∀ part ∈ itemParts items, ∀ symbol ∈ part, Symbol.Writable symbol := by
      rw [itemParts_eq_map]
      exact List.forall_mem_map.mpr fun item member => (each item member).writable
    exact List.forall_mem_cons.mpr ⟨.openArray, List.forall_mem_append.mpr
      ⟨forall_separated _ .comma parts, List.forall_mem_singleton.mpr .closeArray⟩⟩

theorem isWritable_object {members : List Member}
    (each : ∀ member ∈ members, member.1.isSome ∧ member.2.IsWritable) :
    (Json.object members none).IsWritable where
  whole := ⟨membersWhole_iff.mpr fun member found => (each member found).2.whole, rfl⟩
  writable := by
    have parts : ∀ part ∈ memberParts members, ∀ symbol ∈ part, Symbol.Writable symbol := by
      rw [memberParts_eq_map]
      refine List.forall_mem_map.mpr fun member found => ?_
      obtain ⟨name, named⟩ := Option.isSome_iff_exists.mp (each member found).1
      rw [named]
      exact List.forall_mem_cons.mpr ⟨.text name, List.forall_mem_cons.mpr
        ⟨.colon, (each member found).2.writable⟩⟩
    exact List.forall_mem_cons.mpr ⟨.openObject, List.forall_mem_append.mpr
      ⟨forall_separated _ .comma parts, List.forall_mem_singleton.mpr .closeObject⟩⟩

theorem isWritable_signedBytes (values : List Int8) : (signedBytesValue values).IsWritable := by
  refine isWritable_array (List.forall_mem_map.mpr fun value _ => ?_)
  have least := value.le_toInt
  have greatest := value.toInt_lt
  refine isWritable_integer (Int.le_trans ?_ least) (Int.le_trans (Int.le_of_lt greatest) ?_) <;>
    decide

theorem isWritable_natural {value : Nat} (small : value < UInt64.size) :
    (integerValue value).IsWritable := by
  have greatest : value ≤ Number.greatestSignificand := Nat.le_of_lt_succ small
  exact isWritable_integer (Int.le_trans (by decide) (Int.natCast_nonneg value))
    (Int.ofNat_le.mpr greatest)

theorem PuzzleRun.isWritable_toJson (brief : Bool) (run : PuzzleRun) :
    (run.toJson brief).IsWritable := by
  refine isWritable_object (List.forall_mem_append.mpr ⟨?_, ?_⟩)
  · exact List.forall_mem_cons.mpr ⟨⟨rfl, isWritable_signedBytes _⟩,
      List.forall_mem_singleton.mpr ⟨rfl, isWritable_signedBytes _⟩⟩
  · cases run.cycles? with
    | some cycles =>
      exact List.forall_mem_singleton.mpr ⟨rfl, isWritable_natural cycles.toNat_lt⟩
    | none =>
      cases brief with
      | true => exact List.forall_mem_nil _
      | false =>
        exact List.forall_mem_singleton.mpr ⟨rfl, trivial, List.forall_mem_singleton.mpr .null⟩

theorem isWritable_textMember (brief : Bool) (name text : String) :
    ∀ member ∈ textMember brief name text, member.1.isSome ∧ member.2.IsWritable := by
  unfold textMember
  split
  · exact List.forall_mem_nil _
  · exact List.forall_mem_singleton.mpr ⟨rfl, isWritable_text text⟩

theorem Puzzle.isWritable_toJson (brevity : Brevity) (puzzle : Puzzle) :
    (puzzle.toJson brevity).IsWritable := by
  have goal : puzzle.sizeGoal.toNat < UInt64.size :=
    Nat.lt_of_lt_of_le puzzle.sizeGoal.toNat_lt (by decide)
  refine isWritable_object (List.forall_mem_cons.mpr ⟨⟨rfl, isWritable_text _⟩,
    List.forall_mem_append.mpr ⟨List.forall_mem_append.mpr
      ⟨isWritable_textMember _ _ _, isWritable_textMember _ _ _⟩,
    List.forall_mem_cons.mpr ⟨⟨rfl, isWritable_natural goal⟩,
      List.forall_mem_singleton.mpr ⟨rfl, isWritable_array fun item found => ?_⟩⟩⟩⟩)
  obtain ⟨index, bound, rfl⟩ := List.mem_mapIdx.mp found
  exact PuzzleRun.isWritable_toJson _ _

/-! ### Reading back -/

theorem readSignedBytes_value (values : List Int8) :
    readSignedBytes (signedBytesValue values) = .ok values := by
  refine readSequence_eq_ok.mpr ⟨_, rfl, List.forall₂_map_left_iff.mpr (List.forall₂_same.mpr ?_)⟩
  intro value _
  have least := value.le_toInt
  have greatest := value.toInt_lt
  exact map_eq_ok.mpr ⟨value.toInt, readInteger_eq_ok.mpr ⟨rfl, by omega, by omega⟩,
    Int8.ofInt_toInt value⟩

theorem readSizeGoal_value (goal : UInt32) : readSizeGoal (integerValue goal.toNat) = .ok goal := by
  have greatest := goal.toNat_lt
  exact map_eq_ok.mpr ⟨goal.toNat, readInteger_eq_ok.mpr ⟨rfl, by omega, by omega⟩,
    UInt32.ofNat_toNat⟩

theorem readCycles?_value (cycles : UInt64) :
    readCycles? (integerValue cycles.toNat) = .ok (some cycles) := by
  have greatest := cycles.toNat_lt
  exact map_eq_ok.mpr ⟨cycles.toNat, readInteger_eq_ok.mpr ⟨rfl, by omega, by omega⟩,
    congrArg some UInt64.ofNat_toNat⟩

theorem admits_of_mem {Fields : Type} {form : Form Fields} {name : String}
    (isField : name ∈ form.names) (value : Json) : form.Admits (some name, value) :=
  ⟨name, rfl, .inl isField⟩

/-- A run is read of its values, and of what stands behind them. -/
theorem PuzzleRun.ofJson_append (inbox outbox : List Int8) (back : List Member)
    {field? : Option (Option UInt64)} (rest : ∀ member ∈ back, form.Admits member)
    (noInbox : valuesOf "inbox" back = []) (noOutbox : valuesOf "outbox" back = [])
    (once : ReadsOnce readCycles? (valuesOf "cycles" back) field?) :
    ofJson (.object ([(some "inbox", signedBytesValue inbox),
      (some "outbox", signedBytesValue outbox)] ++ back) none) =
      .ok ⟨inbox, outbox, field?.getD none⟩ := by
  refine ofJson_object.mpr ⟨rfl, ⟨some inbox, some outbox, field?⟩,
    ⟨List.forall_mem_append.mpr ⟨?_, rest⟩, fun field listed => ?_⟩,
    toRun_eq_ok.mpr ⟨rfl, rfl, rfl⟩⟩
  · exact List.forall_mem_cons.mpr ⟨admits_of_mem (by decide) _,
      List.forall_mem_singleton.mpr (admits_of_mem (by decide) _)⟩
  rw [valuesOf_append]
  rcases mem_fields.mp listed with rfl | rfl | rfl
  · rw [show valuesOf inboxField.name back = [] from noInbox]
    exact .set (readSignedBytes_value inbox)
  · rw [show valuesOf outboxField.name back = [] from noOutbox]
    exact .set (readSignedBytes_value outbox)
  · exact once

/-- A run is read back, whether it says that there is no budget or not. -/
theorem PuzzleRun.ofJson_toJson (brief : Bool) (run : PuzzleRun) :
    ofJson (run.toJson brief) = .ok run := by
  obtain ⟨inbox, outbox, cycles?⟩ := run
  have known (value : Json) : ∀ member ∈ [(some "cycles", value)], form.Admits member :=
    List.forall_mem_singleton.mpr (admits_of_mem (by decide) value)
  cases cycles? with
  | some cycles =>
    exact ofJson_append inbox outbox _ (known _) rfl rfl (.set (readCycles?_value cycles))
  | none =>
    cases brief with
    | true => exact ofJson_append inbox outbox [] (List.forall_mem_nil _) rfl rfl .unset
    | false =>
      have none : readCycles? .null = .ok none := rfl
      exact ofJson_append inbox outbox _ (known _) rfl rfl (.set none)

theorem forall₂_mapIdx {Item Result : Type} {holds : Result → Item → Prop}
    {change : Nat → Item → Result} (items : List Item)
    (each : ∀ index item, holds (change index item) item) :
    List.Forall₂ holds (items.mapIdx change) items := by
  induction items generalizing change with
  | nil => exact .nil
  | cons item rest inductionHypothesis =>
    rw [List.mapIdx_cons]
    exact .cons (each 0 item) (inductionHypothesis fun index => each (index + 1))

/-- A text is read back, whether it is left out or not. -/
theorem exists_readsOnce_textMember (brief : Bool) (name text : String) :
    ∃ field?, ReadsOnce readText (valuesOf name (textMember brief name text)) field? ∧
      field?.getD "" = text := by
  unfold textMember
  split
  · next empty => exact ⟨none, .unset, empty.2.symm⟩
  · rw [valuesOf_self]
    exact ⟨some text, .set rfl, rfl⟩

theorem valuesOf_textMember {other name : String} (different : name ≠ other) (brief : Bool)
    (text : String) : valuesOf other (textMember brief name text) = [] := by
  unfold textMember
  split
  · rfl
  · exact valuesOf_ne (fun same => different (Option.some.inj same)) []

theorem admits_textMember {Fields : Type} {form : Form Fields} {name : String}
    (isField : name ∈ form.names) (brief : Bool) (text : String) :
    ∀ member ∈ textMember brief name text, form.Admits member := by
  unfold textMember
  split
  · exact List.forall_mem_nil _
  · exact List.forall_mem_singleton.mpr (admits_of_mem isField _)

/-- A puzzle is read back from its tree, whatever is left out. -/
theorem Puzzle.ofJson_toJson (brevity : Brevity) (puzzle : Puzzle) :
    ofJson (puzzle.toJson brevity) = .ok puzzle := by
  obtain ⟨name, description, solution, sizeGoal, runs⟩ := puzzle
  obtain ⟨description?, hasDescription, isDescription⟩ :=
    exists_readsOnce_textMember brevity.description "description" description
  obtain ⟨solution?, hasSolution, isSolution⟩ :=
    exists_readsOnce_textMember brevity.solution "impl" solution
  have hasRuns : readRuns (.array (runs.mapIdx fun index run =>
      run.toJson (brevity.cycles index)) none) = .ok runs :=
    readSequence_eq_ok.mpr ⟨_, rfl, forall₂_mapIdx runs fun _ _ => PuzzleRun.ofJson_toJson _ _⟩
  refine ofJson_object.mpr ⟨rfl, ⟨some name, description?, solution?, some sizeGoal, some runs⟩,
    ⟨?_, fun field listed => ?_⟩, toPuzzle_eq_ok.mpr ⟨rfl, isDescription, isSolution, rfl, rfl⟩⟩
  · exact List.forall_mem_cons.mpr ⟨admits_of_mem (by decide) _, List.forall_mem_append.mpr
      ⟨List.forall_mem_append.mpr ⟨admits_textMember (by decide) _ _,
        admits_textMember (by decide) _ _⟩,
      List.forall_mem_cons.mpr ⟨admits_of_mem (by decide) _,
        List.forall_mem_singleton.mpr (admits_of_mem (by decide) _)⟩⟩⟩
  -- The two texts that may be left out stand between the first field and the last two.
  rw [← List.singleton_append, valuesOf_append, valuesOf_append, valuesOf_append]
  rcases mem_fields.mp listed with rfl | rfl | rfl | rfl | rfl
  · rw [valuesOf_textMember (by decide), valuesOf_textMember (by decide)]
    exact .set rfl
  · rw [valuesOf_textMember (show "impl" ≠ descriptionField.name by decide), List.append_nil]
    rw [← List.append_nil (valuesOf _ _)] at hasDescription
    exact hasDescription
  · rw [valuesOf_textMember (show "description" ≠ solutionField.name by decide), List.nil_append]
    rw [← List.append_nil (valuesOf _ _)] at hasSolution
    exact hasSolution
  · rw [valuesOf_textMember (by decide), valuesOf_textMember (by decide)]
    exact .set (readSizeGoal_value sizeGoal)
  · rw [valuesOf_textMember (by decide), valuesOf_textMember (by decide)]
    exact .set hasRuns

/-- The text of a puzzle is read back as the same puzzle. So is the text from which the description
and the solution are left out where they are empty, and missing budgets of runs. -/
theorem Puzzle.ofText_toText (puzzle : Puzzle) :
    ofText puzzle.toText = .ok puzzle ∧
      ∀ brevity : Brevity, ofText (puzzle.toJson brevity).toText = .ok puzzle := by
  have brief (brevity : Brevity) : ofText (puzzle.toJson brevity).toText = .ok puzzle :=
    ofText_eq_ok.mpr ⟨_, (isWritable_toJson brevity puzzle).spells, ofJson_toJson brevity puzzle⟩
  exact ⟨toText_toJson puzzle ▸ brief .none, brief⟩

end ByteStack
