/-
This file says of which values runs and puzzles are read. Both are objects with
fields, or arrays that give the fields in order. Nothing that is read has a
break.
-/

import ByteStack.Proofs.Puzzle.Form

namespace ByteStack

open Json

/-! ### Arrays of fields -/

namespace Json

variable {Value : Type} {read : Json → Read Value} {items : List Json} {ending? : Option Break}
  {rest : Remaining}

theorem next?_eq_ok {value? : Option Value} :
    Remaining.next? ⟨items, ending?⟩ read = .ok (value?, rest) ↔
      (∃ item others value, items = item :: others ∧ read item = .ok value ∧
        value? = some value ∧ rest = ⟨others, ending?⟩) ∨
      (items = [] ∧ ending? = none ∧ value? = none ∧ rest = ⟨[], none⟩) := by
  cases items with
  | nil =>
    constructor
    · intro done
      obtain ⟨⟨⟩, ends, same⟩ := map_eq_ok.mp done
      obtain ⟨rfl, rfl⟩ := Prod.mk.inj same
      obtain rfl := checkEnding_eq_ok.mp ends
      exact .inr ⟨rfl, rfl, rfl, rfl⟩
    · rintro (⟨_, _, _, same, _⟩ | ⟨_, rfl, rfl, rfl⟩)
      · exact nomatch same
      · rfl
  | cons item others =>
    constructor
    · intro done
      obtain ⟨value, accepted, same⟩ := map_eq_ok.mp done
      obtain ⟨rfl, rfl⟩ := Prod.mk.inj same
      exact .inl ⟨item, others, value, rfl, accepted, rfl, rfl⟩
    · rintro (⟨_, _, value, same, accepted, rfl, rfl⟩ | ⟨same, _⟩)
      · obtain ⟨rfl, rfl⟩ := List.cons.inj same
        exact map_eq_ok.mpr ⟨value, accepted, rfl⟩
      · exact nomatch same

theorem next_eq_ok {value : Value} {missing : PuzzleFault} :
    Remaining.next ⟨items, ending?⟩ read missing = .ok (value, rest) ↔
      ∃ item others, items = item :: others ∧ read item = .ok value ∧ rest = ⟨others, ending?⟩ := by
  constructor
  · intro done
    unfold Remaining.next at done
    split at done
    · next next =>
      obtain ⟨rfl, rfl⟩ := Prod.mk.inj (Except.ok.inj done)
      rcases next?_eq_ok.mp next with ⟨item, others, _, rfl, accepted, same, rfl⟩ | ⟨_, _, same, _⟩
      · exact ⟨item, others, rfl, Option.some.inj same ▸ accepted, rfl⟩
      · exact nomatch same
    · exact nomatch done
    · exact nomatch done
  · rintro ⟨item, others, rfl, accepted, rfl⟩
    rw [Remaining.next, next?_eq_ok.mpr (.inl ⟨item, others, value, rfl, accepted, rfl, rfl⟩)]

theorem next_eq_error {item : Json} {missing : PuzzleFault} {error : PuzzleError}
    (refused : read item = .error error) :
    Remaining.next ⟨item :: items, ending?⟩ read missing = .error error := by
  rw [Remaining.next, Remaining.next?]
  dsimp only
  rw [refused]
  rfl

theorem close_eq_ok : Remaining.close ⟨items, ending?⟩ = .ok () ↔ items = [] ∧ ending? = none := by
  cases items with
  | nil =>
    exact ⟨fun ends => ⟨rfl, checkEnding_eq_ok.mp ends⟩, fun ends => checkEnding_eq_ok.mpr ends.2⟩
  | cons => exact iff_of_false nofun nofun

theorem required_eq_ok {name : String} {field? : Option Value} {value : Value} :
    required name field? = .ok value ↔ field? = some value := by
  cases field? with
  | none => exact iff_of_false nofun nofun
  | some other =>
    exact ⟨fun done => congrArg some (Except.ok.inj done), fun same => Option.some.inj same ▸ rfl⟩

end Json

/-! ### Runs -/

namespace PuzzleRun

def inboxField : NamedField Fields where
  name := "inbox"
  default? := none
  Value := List Int8
  read := readSignedBytes
  get := Fields.inbox?
  put := fun fields value? => { fields with inbox? := value? }

def outboxField : NamedField Fields where
  name := "outbox"
  default? := none
  Value := List Int8
  read := readSignedBytes
  get := Fields.outbox?
  put := fun fields value? => { fields with outbox? := value? }

def cyclesField : NamedField Fields where
  name := "cycles"
  default? := some .null
  Value := Option UInt64
  read := readCycles?
  get := Fields.cycles?
  put := fun fields value? => { fields with cycles? := value? }

theorem mem_fields {field : NamedField Fields} : field ∈ [inboxField, outboxField, cyclesField] ↔
    field = inboxField ∨ field = outboxField ∨ field = cyclesField := by
  simp only [List.mem_cons, List.not_mem_nil, or_false]

/-- The fields of a run. -/
def form : Form Fields where
  list := [inboxField, outboxField, cyclesField]
  empty := Fields.empty
  set := Fields.set
  nodup := by decide
  set_field := by
    intro field listed
    rcases mem_fields.mp listed with rfl | rfl | rfl <;> exact fun _ _ => rfl
  set_other := by
    intro name other fields value
    simp only [List.map_cons, List.map_nil, List.mem_cons, List.not_mem_nil, or_false,
      not_or] at other
    obtain ⟨notInbox, notOutbox, notCycles⟩ :
        name ≠ "inbox" ∧ name ≠ "outbox" ∧ name ≠ "cycles" := other
    rw [Fields.set, if_neg notInbox, if_neg notOutbox, if_neg notCycles]
    rfl
  get_put := by
    intro field listed
    rcases mem_fields.mp listed with rfl | rfl | rfl <;> exact fun _ _ => rfl
  get_put_ne := by
    intro field listed other also different
    rcases mem_fields.mp listed with rfl | rfl | rfl <;>
      rcases mem_fields.mp also with rfl | rfl | rfl <;>
        first
        | exact fun _ _ => rfl
        | exact absurd rfl different
  put_put_get := by
    intro field listed
    rcases mem_fields.mp listed with rfl | rfl | rfl <;> exact fun _ _ => rfl
  eq_empty_iff := by
    intro fields
    constructor
    · rintro rfl field listed
      rcases mem_fields.mp listed with rfl | rfl | rfl <;> rfl
    · intro unset
      obtain ⟨inbox?, outbox?, cycles?⟩ := fields
      obtain rfl : inbox? = none := unset inboxField (mem_fields.mpr (.inl rfl))
      obtain rfl : outbox? = none := unset outboxField (mem_fields.mpr (.inr (.inl rfl)))
      obtain rfl : cycles? = none := unset cyclesField (mem_fields.mpr (.inr (.inr rfl)))
      rfl

theorem acceptsWhole_bytes : AcceptsWhole readSignedBytes :=
  acceptsWhole_sequence (acceptsWhole_map (acceptsWhole_integer _ _) _)

theorem acceptsWhole_fields : ∀ field ∈ form.list, AcceptsWhole field.read := by
  intro field listed
  rcases mem_fields.mp listed with rfl | rfl | rfl
  · exact acceptsWhole_bytes
  · exact acceptsWhole_bytes
  · exact acceptsWhole_cycles

variable {members : List Member} {items : List Json} {ending? : Option Break} {run : PuzzleRun}

/-- The fields that make up a run. -/
theorem toRun_eq_ok {fields : Fields} :
    fields.toRun = .ok run ↔ fields.inbox? = some run.inbox ∧ fields.outbox? = some run.outbox ∧
      fields.cycles?.getD none = run.cycles? := by
  constructor
  · intro done
    obtain ⟨inbox, hasInbox, done⟩ := bind_eq_ok.mp done
    obtain ⟨outbox, hasOutbox, done⟩ := bind_eq_ok.mp done
    obtain rfl := Except.ok.inj done
    exact ⟨required_eq_ok.mp hasInbox, required_eq_ok.mp hasOutbox, rfl⟩
  · rintro ⟨hasInbox, hasOutbox, hasCycles⟩
    refine bind_eq_ok.mpr ⟨_, required_eq_ok.mpr hasInbox, ?_⟩
    refine bind_eq_ok.mpr ⟨_, required_eq_ok.mpr hasOutbox, ?_⟩
    rw [hasCycles]
    rfl

/-- A run that is an object. -/
theorem ofJson_object :
    ofJson (.object members ending?) = .ok run ↔
      ending? = none ∧ ∃ fields, form.SetBy members fields ∧ fields.toRun = .ok run := by
  constructor
  · intro done
    obtain ⟨fields, set, done⟩ := bind_eq_ok.mp done
    obtain ⟨⟨⟩, ends, done⟩ := bind_eq_ok.mp done
    exact ⟨checkEnding_eq_ok.mp ends, fields, Form.readMembers_eq_ok.mp set, done⟩
  · rintro ⟨rfl, fields, set, done⟩
    exact bind_eq_ok.mpr ⟨fields, Form.readMembers_eq_ok.mpr set, bind_eq_ok.mpr ⟨(), rfl, done⟩⟩

/-- A run that is an array, in which the last field may be missing. -/
theorem ofJson_array :
    ofJson (.array items ending?) = .ok run ↔
      ending? = none ∧ ∃ inbox outbox, readSignedBytes inbox = .ok run.inbox ∧
        readSignedBytes outbox = .ok run.outbox ∧
        ((items = [inbox, outbox] ∧ run.cycles? = none) ∨
          ∃ cycles, items = [inbox, outbox, cycles] ∧ readCycles? cycles = .ok run.cycles?) := by
  constructor
  · intro done
    obtain ⟨⟨inbox, _⟩, first, done⟩ := bind_eq_ok.mp done
    obtain ⟨inboxItem, _, rfl, hasInbox, rfl⟩ := next_eq_ok.mp first
    obtain ⟨⟨outbox, _⟩, second, done⟩ := bind_eq_ok.mp done
    obtain ⟨outboxItem, _, rfl, hasOutbox, rfl⟩ := next_eq_ok.mp second
    obtain ⟨⟨cycles?, _⟩, third, done⟩ := bind_eq_ok.mp done
    obtain ⟨⟨⟩, closed, done⟩ := bind_eq_ok.mp done
    obtain rfl := Except.ok.inj done
    rcases next?_eq_ok.mp third with
      ⟨cyclesItem, _, value, rfl, accepted, rfl, rfl⟩ | ⟨rfl, rfl, rfl, rfl⟩
    · obtain ⟨rfl, ends⟩ := close_eq_ok.mp closed
      exact ⟨ends, _, _, hasInbox, hasOutbox, .inr ⟨_, rfl, accepted⟩⟩
    · exact ⟨rfl, _, _, hasInbox, hasOutbox, .inl ⟨rfl, rfl⟩⟩
  · rintro ⟨rfl, inbox, outbox, hasInbox, hasOutbox, same⟩
    obtain ⟨inbox, outbox, cycles?⟩ := run
    rcases same with ⟨rfl, none⟩ | ⟨cycles, rfl, hasCycles⟩
    · obtain rfl : cycles? = .none := none
      refine bind_eq_ok.mpr ⟨_, next_eq_ok.mpr ⟨_, _, rfl, hasInbox, rfl⟩, ?_⟩
      refine bind_eq_ok.mpr ⟨_, next_eq_ok.mpr ⟨_, _, rfl, hasOutbox, rfl⟩, ?_⟩
      rfl
    · refine bind_eq_ok.mpr ⟨_, next_eq_ok.mpr ⟨_, _, rfl, hasInbox, rfl⟩, ?_⟩
      refine bind_eq_ok.mpr ⟨_, next_eq_ok.mpr ⟨_, _, rfl, hasOutbox, rfl⟩, ?_⟩
      refine bind_eq_ok.mpr ⟨_, next?_eq_ok.mpr (.inl ⟨_, _, _, rfl, hasCycles, rfl, rfl⟩), ?_⟩
      rfl

/-- Nothing in a run is broken. -/
theorem acceptsWhole : AcceptsWhole ofJson := by
  intro json run done
  cases json with
  | object members ending? =>
    obtain ⟨rfl, fields, set, _⟩ := ofJson_object.mp done
    exact ⟨Form.membersWhole acceptsWhole_fields set, rfl⟩
  | array items ending? =>
    obtain ⟨rfl, inbox, outbox, hasInbox, hasOutbox, same⟩ := ofJson_array.mp done
    have first := acceptsWhole_bytes _ _ hasInbox
    have second := acceptsWhole_bytes _ _ hasOutbox
    rcases same with ⟨rfl, _⟩ | ⟨cycles, rfl, hasCycles⟩
    · exact ⟨⟨first, second, trivial⟩, rfl⟩
    · exact ⟨⟨first, second, acceptsWhole_cycles _ _ hasCycles, trivial⟩, rfl⟩
  | null | boolean | broken => exact nomatch done
  | number | string => exact absurd done mismatch_ne_ok

end PuzzleRun

/-! ### Puzzles -/

namespace Puzzle

def nameField : NamedField Fields where
  name := "name"
  default? := none
  Value := String
  read := readText
  get := Fields.name?
  put := fun fields value? => { fields with name? := value? }

def descriptionField : NamedField Fields where
  name := "description"
  default? := some (.string (some ""))
  Value := String
  read := readText
  get := Fields.description?
  put := fun fields value? => { fields with description? := value? }

def solutionField : NamedField Fields where
  name := "impl"
  default? := some (.string (some ""))
  Value := String
  read := readText
  get := Fields.solution?
  put := fun fields value? => { fields with solution? := value? }

def sizeGoalField : NamedField Fields where
  name := "size_goal"
  default? := none
  Value := UInt32
  read := readSizeGoal
  get := Fields.sizeGoal?
  put := fun fields value? => { fields with sizeGoal? := value? }

def runsField : NamedField Fields where
  name := "runs"
  default? := none
  Value := List PuzzleRun
  read := readRuns
  get := Fields.runs?
  put := fun fields value? => { fields with runs? := value? }

theorem mem_fields {field : NamedField Fields} :
    field ∈ [nameField, descriptionField, solutionField, sizeGoalField, runsField] ↔
      field = nameField ∨ field = descriptionField ∨ field = solutionField ∨
        field = sizeGoalField ∨ field = runsField := by
  simp only [List.mem_cons, List.not_mem_nil, or_false]

/-- The fields of a puzzle. -/
def form : Form Fields where
  list := [nameField, descriptionField, solutionField, sizeGoalField, runsField]
  empty := Fields.empty
  set := Fields.set
  nodup := by decide
  set_field := by
    intro field listed
    rcases mem_fields.mp listed with rfl | rfl | rfl | rfl | rfl <;> exact fun _ _ => rfl
  set_other := by
    intro name other fields value
    simp only [List.map_cons, List.map_nil, List.mem_cons, List.not_mem_nil, or_false,
      not_or] at other
    obtain ⟨notName, notDescription, notSolution, notSizeGoal, notRuns⟩ :
        name ≠ "name" ∧ name ≠ "description" ∧ name ≠ "impl" ∧ name ≠ "size_goal" ∧
          name ≠ "runs" := other
    rw [Fields.set, if_neg notName, if_neg notDescription, if_neg notSolution, if_neg notSizeGoal,
      if_neg notRuns]
    rfl
  get_put := by
    intro field listed
    rcases mem_fields.mp listed with rfl | rfl | rfl | rfl | rfl <;> exact fun _ _ => rfl
  get_put_ne := by
    intro field listed other also different
    rcases mem_fields.mp listed with rfl | rfl | rfl | rfl | rfl <;>
      rcases mem_fields.mp also with rfl | rfl | rfl | rfl | rfl <;>
        first
        | exact fun _ _ => rfl
        | exact absurd rfl different
  put_put_get := by
    intro field listed
    rcases mem_fields.mp listed with rfl | rfl | rfl | rfl | rfl <;> exact fun _ _ => rfl
  eq_empty_iff := by
    intro fields
    constructor
    · rintro rfl field listed
      rcases mem_fields.mp listed with rfl | rfl | rfl | rfl | rfl <;> rfl
    · intro unset
      have each {field : NamedField Fields} (listed : field = nameField ∨ field = descriptionField ∨
          field = solutionField ∨ field = sizeGoalField ∨ field = runsField) :=
        unset field (mem_fields.mpr listed)
      obtain ⟨name?, description?, solution?, sizeGoal?, runs?⟩ := fields
      obtain rfl : name? = none := each (.inl rfl)
      obtain rfl : description? = none := each (.inr (.inl rfl))
      obtain rfl : solution? = none := each (.inr (.inr (.inl rfl)))
      obtain rfl : sizeGoal? = none := each (.inr (.inr (.inr (.inl rfl))))
      obtain rfl : runs? = none := each (.inr (.inr (.inr (.inr rfl))))
      rfl

theorem acceptsWhole_sizeGoal : AcceptsWhole readSizeGoal :=
  acceptsWhole_map (acceptsWhole_integer _ _) _

theorem acceptsWhole_runs : AcceptsWhole readRuns :=
  acceptsWhole_sequence PuzzleRun.acceptsWhole

theorem acceptsWhole_fields : ∀ field ∈ form.list, AcceptsWhole field.read := by
  intro field listed
  rcases mem_fields.mp listed with rfl | rfl | rfl | rfl | rfl
  · exact acceptsWhole_text
  · exact acceptsWhole_text
  · exact acceptsWhole_text
  · exact acceptsWhole_sizeGoal
  · exact acceptsWhole_runs

variable {members : List Member} {items : List Json} {ending? : Option Break} {puzzle : Puzzle}

/-- The fields that make up a puzzle. -/
theorem toPuzzle_eq_ok {fields : Fields} :
    fields.toPuzzle = .ok puzzle ↔ fields.name? = some puzzle.name ∧
      fields.description?.getD "" = puzzle.description ∧
      fields.solution?.getD "" = puzzle.solution ∧ fields.sizeGoal? = some puzzle.sizeGoal ∧
      fields.runs? = some puzzle.runs := by
  constructor
  · intro done
    obtain ⟨name, hasName, done⟩ := bind_eq_ok.mp done
    obtain ⟨sizeGoal, hasSizeGoal, done⟩ := bind_eq_ok.mp done
    obtain ⟨runs, hasRuns, done⟩ := bind_eq_ok.mp done
    obtain rfl := Except.ok.inj done
    exact ⟨required_eq_ok.mp hasName, rfl, rfl, required_eq_ok.mp hasSizeGoal,
      required_eq_ok.mp hasRuns⟩
  · rintro ⟨hasName, hasDescription, hasSolution, hasSizeGoal, hasRuns⟩
    refine bind_eq_ok.mpr ⟨_, required_eq_ok.mpr hasName, ?_⟩
    refine bind_eq_ok.mpr ⟨_, required_eq_ok.mpr hasSizeGoal, ?_⟩
    refine bind_eq_ok.mpr ⟨_, required_eq_ok.mpr hasRuns, ?_⟩
    rw [hasDescription, hasSolution]
    rfl

/-- A puzzle that is an object. -/
theorem ofJson_object :
    ofJson (.object members ending?) = .ok puzzle ↔
      ending? = none ∧ ∃ fields, form.SetBy members fields ∧ fields.toPuzzle = .ok puzzle := by
  constructor
  · intro done
    obtain ⟨fields, set, done⟩ := bind_eq_ok.mp done
    obtain ⟨⟨⟩, ends, done⟩ := bind_eq_ok.mp done
    exact ⟨checkEnding_eq_ok.mp ends, fields, Form.readMembers_eq_ok.mp set, done⟩
  · rintro ⟨rfl, fields, set, done⟩
    exact bind_eq_ok.mpr ⟨fields, Form.readMembers_eq_ok.mpr set, bind_eq_ok.mpr ⟨(), rfl, done⟩⟩

/-- A puzzle that is an array. No field may be missing, because the last one has no default. -/
theorem ofJson_array :
    ofJson (.array items ending?) = .ok puzzle ↔
      ending? = none ∧ ∃ name description solution sizeGoal runs,
        items = [name, description, solution, sizeGoal, runs] ∧
        readText name = .ok puzzle.name ∧ readText description = .ok puzzle.description ∧
        readText solution = .ok puzzle.solution ∧ readSizeGoal sizeGoal = .ok puzzle.sizeGoal ∧
        readRuns runs = .ok puzzle.runs := by
  constructor
  · intro done
    obtain ⟨⟨name, _⟩, first, done⟩ := bind_eq_ok.mp done
    obtain ⟨nameItem, _, rfl, hasName, rfl⟩ := next_eq_ok.mp first
    obtain ⟨⟨description?, _⟩, second, done⟩ := bind_eq_ok.mp done
    obtain ⟨⟨solution?, _⟩, third, done⟩ := bind_eq_ok.mp done
    obtain ⟨⟨sizeGoal, _⟩, fourth, done⟩ := bind_eq_ok.mp done
    obtain ⟨⟨runs, _⟩, fifth, done⟩ := bind_eq_ok.mp done
    obtain ⟨⟨⟩, closed, done⟩ := bind_eq_ok.mp done
    obtain rfl := Except.ok.inj done
    rcases next?_eq_ok.mp second with
      ⟨descriptionItem, _, description, rfl, hasDescription, rfl, rfl⟩ | ⟨rfl, rfl, rfl, rfl⟩
    · rcases next?_eq_ok.mp third with
        ⟨solutionItem, _, solution, rfl, hasSolution, rfl, rfl⟩ | ⟨rfl, rfl, rfl, rfl⟩
      · obtain ⟨sizeGoalItem, _, rfl, hasSizeGoal, rfl⟩ := next_eq_ok.mp fourth
        obtain ⟨runsItem, _, rfl, hasRuns, rfl⟩ := next_eq_ok.mp fifth
        obtain ⟨rfl, ends⟩ := close_eq_ok.mp closed
        exact ⟨ends, _, _, _, _, _, rfl, hasName, hasDescription, hasSolution, hasSizeGoal, hasRuns⟩
      · obtain ⟨_, _, same, _⟩ := next_eq_ok.mp fourth
        exact nomatch same
    · rcases next?_eq_ok.mp third with ⟨_, _, _, same, _⟩ | ⟨_, _, _, rfl⟩
      · exact nomatch same
      · obtain ⟨_, _, same, _⟩ := next_eq_ok.mp fourth
        exact nomatch same
  · rintro ⟨rfl, name, description, solution, sizeGoal, runs, rfl, hasName, hasDescription,
      hasSolution, hasSizeGoal, hasRuns⟩
    obtain ⟨name, description, solution, sizeGoal, runs⟩ := puzzle
    refine bind_eq_ok.mpr ⟨_, next_eq_ok.mpr ⟨_, _, rfl, hasName, rfl⟩, ?_⟩
    refine bind_eq_ok.mpr ⟨_, next?_eq_ok.mpr (.inl ⟨_, _, _, rfl, hasDescription, rfl, rfl⟩), ?_⟩
    refine bind_eq_ok.mpr ⟨_, next?_eq_ok.mpr (.inl ⟨_, _, _, rfl, hasSolution, rfl, rfl⟩), ?_⟩
    refine bind_eq_ok.mpr ⟨_, next_eq_ok.mpr ⟨_, _, rfl, hasSizeGoal, rfl⟩, ?_⟩
    refine bind_eq_ok.mpr ⟨_, next_eq_ok.mpr ⟨_, _, rfl, hasRuns, rfl⟩, ?_⟩
    rfl

/-- Nothing in a puzzle is broken. -/
theorem acceptsWhole : AcceptsWhole ofJson := by
  intro json puzzle done
  cases json with
  | object members ending? =>
    obtain ⟨rfl, fields, set, _⟩ := ofJson_object.mp done
    exact ⟨Form.membersWhole acceptsWhole_fields set, rfl⟩
  | array items ending? =>
    obtain ⟨rfl, name, description, solution, sizeGoal, runs, rfl, hasName, hasDescription,
      hasSolution, hasSizeGoal, hasRuns⟩ := ofJson_array.mp done
    exact ⟨⟨acceptsWhole_text _ _ hasName, acceptsWhole_text _ _ hasDescription,
      acceptsWhole_text _ _ hasSolution, acceptsWhole_sizeGoal _ _ hasSizeGoal,
      acceptsWhole_runs _ _ hasRuns, trivial⟩, rfl⟩
  | null | boolean | broken => exact nomatch done
  | number | string => exact absurd done mismatch_ne_ok

/-- A text is read as a puzzle just when it spells a value that is read as this puzzle. -/
theorem ofText_eq_ok {text : String} :
    ofText text = .ok puzzle ↔ ∃ value, value.Spells text ∧ ofJson value = .ok puzzle := by
  constructor
  · intro done
    obtain ⟨accepted, read, done⟩ := bind_eq_ok.mp done
    have root : (Document.ofText text).root.IsWhole := acceptsWhole _ _ read
    split at done
    · exact nomatch done
    · next alone =>
      obtain rfl := Except.ok.inj done
      refine ⟨_, Document.ofText_eq_iff.mp ⟨?_, root⟩, read⟩
      rw [← Bool.eq_false_iff.mpr alone]
  · rintro ⟨value, spells, read⟩
    rw [ofText, (Document.ofText_eq_iff.mpr spells).1]
    exact bind_eq_ok.mpr ⟨puzzle, read, rfl⟩

end Puzzle

end ByteStack
