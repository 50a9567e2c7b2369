/-
This file is the pass of an assembler over its statements, one stroke at a time,
with the code in a growing block of bytes, the labels in an indexed table and
offsets of sixteen bits. A pass stops in the middle of an instruction when the
code region is full, after a site may have been noted for it.

At every point of a pass the table and the code are what the strokes made so far
amount to. As these belong to whole statements up to the ones in hand, the sites
are in order wherever the pass stands.
-/

import ByteStack.Proofs.Assembly.LabelTable
import ByteStack.Proofs.Assembly.Stroke

namespace ByteStack

/-! ### Drafts -/

/-- What a pass has produced. -/
structure Draft where
  code : Array UInt8
  table : LabelTable
  map : SourceMap

namespace Draft

def start (source : String) : Draft :=
  ⟨#[], .empty, SourceMap.ofSource source⟩

/-- The offset of the byte that comes next, in sixteen bits. -/
def offset (draft : Draft) : UInt16 :=
  UInt16.ofNat draft.code.size

/-- What the draft says, with numbers of any size. -/
def emission (draft : Draft) : Emission :=
  ⟨draft.code, draft.table.labels, draft.map⟩

/-- Makes a stroke, unless there is an error. -/
def perform (draft : Draft) : Stroke → Draft × Option AssemblyError
  | .define name position =>
    let (table, fault?) := draft.table.define name draft.offset
    ({ draft with table }, fault?.map fun fault => ⟨fault, position⟩)
  | .mark mnemonic => ({ draft with map := draft.map.add draft.offset.toNat mnemonic }, none)
  | .byte _ value position =>
    if Layout.codeSize ≤ draft.code.size then (draft, some ⟨.codeOverflow, position⟩)
    else ({ draft with code := draft.code.push value }, none)
  | .use name position =>
    ({ draft with table := draft.table.edit name (.addSite draft.offset position) }, none)

/-- The table can be trusted, and the code fits into its region. -/
structure Kept (draft : Draft) : Prop where
  indexed : draft.table.Indexed
  fits : draft.code.size ≤ Layout.codeSize

variable {draft : Draft} {stroke : Stroke} {error : AssemblyError}

theorem kept_start (source : String) : (start source).Kept :=
  ⟨LabelTable.indexed_empty, Nat.zero_le _⟩

/-- Offsets are not cut down to sixteen bits. -/
theorem Kept.toNat_offset (kept : draft.Kept) : draft.offset.toNat = draft.code.size :=
  UInt16.toNat_ofNat_of_lt' (Nat.lt_of_le_of_lt kept.fits (by decide))

/-- A stroke that meets an obstacle leaves everything as it was. -/
theorem Kept.perform_of_obstacle (kept : draft.Kept)
    (obstacle : draft.emission.obstacle? stroke = some error) :
    draft.perform stroke = (draft, some error) := by
  cases stroke with
  | mark mnemonic => cases obstacle
  | use name position => cases obstacle
  | define name position =>
    rw [Emission.obstacle?] at obstacle
    split at obstacle
    · obtain rfl := Option.some.inj obstacle
      rw [perform, kept.indexed.define_eq, if_pos (by assumption)]
      rfl
    · cases obstacle
  | byte role value position =>
    rw [Emission.obstacle?] at obstacle
    split at obstacle
    · obtain rfl := Option.some.inj obstacle
      rw [perform, if_pos (by assumption)]
    · cases obstacle

/-- Any other stroke is made. -/
theorem Kept.perform_of_clear (kept : draft.Kept)
    (clear : draft.emission.obstacle? stroke = none) :
    ∃ next : Draft, draft.perform stroke = (next, none) ∧ next.Kept ∧
      next.emission = draft.emission.apply stroke := by
  have fits := Emission.fits_apply kept.fits clear
  have size : draft.emission.code.size = draft.offset.toNat := kept.toNat_offset.symm
  cases stroke with
  | mark mnemonic =>
    refine ⟨_, rfl, ⟨kept.indexed, fits⟩, ?_⟩
    rw [kept.toNat_offset]
    rfl
  | byte role value position =>
    rw [Emission.obstacle?] at clear
    split at clear
    · cases clear
    · exact ⟨_, if_neg (by assumption), ⟨kept.indexed, fits⟩, rfl⟩
  | define name position =>
    rw [Emission.obstacle?] at clear
    split at clear
    · cases clear
    · refine ⟨{ draft with table := draft.table.edit name (.setAddress draft.offset) }, ?_,
        ⟨kept.indexed.edit name fun _ => rfl, fits⟩, ?_⟩
      · rw [perform, kept.indexed.define_eq, if_neg (by assumption)]
        rfl
      · refine congrArg (Emission.mk draft.code · draft.map) (kept.indexed.labels_edit name ?_)
        intro entry
        rw [size]
        rfl
  | use name position =>
    refine ⟨{ draft with table := draft.table.edit name (.addSite draft.offset position) }, rfl,
      ⟨kept.indexed.edit name fun _ => rfl, fits⟩, ?_⟩
    refine congrArg (Emission.mk draft.code · draft.map) (kept.indexed.labels_edit name ?_)
    intro entry
    simp [size, LabelEntry.label, LabelEntry.addSite]

end Draft

/-! ### Passes -/

/-- How far a pass has come. -/
structure Pass where
  draft : Draft
  /-- The strokes of the statement in hand that are still to be made. -/
  strokes : List Stroke
  /-- The statements that have not been begun. -/
  statements : List (Except AssemblyError Statement)
  errors : List AssemblyError
  /-- The strokes made so far. Nothing looks at them; they only tell what happened. -/
  made : List Stroke

namespace Pass

def start (tokens : List Token) (source : String) : Pass :=
  ⟨.start source, [], Statement.ofTokens tokens, [], []⟩

/-- Reports an error and drops the statement in hand, and all others when the error is
structural. -/
def refuse (pass : Pass) (error : AssemblyError) : Pass :=
  { pass with
    strokes := []
    statements := if error.fault.isStructural then [] else pass.statements
    errors := pass.errors ++ [error] }

/-- Makes the next stroke, or takes up the next statement. -/
def step (pass : Pass) : Pass :=
  match pass.strokes with
  | stroke :: rest =>
    match pass.draft.perform stroke with
    | (draft, none) => { pass with draft, strokes := rest, made := pass.made ++ [stroke] }
    | (draft, some error) => { pass with draft }.refuse error
  | [] =>
    match pass.statements with
    | [] => pass
    | .error error :: rest => { pass with statements := rest }.refuse error
    | .ok statement :: rest => { pass with strokes := statement.strokes, statements := rest }

def steps : Nat → Pass → Pass
  | 0, pass => pass
  | count + 1, pass => steps count pass.step

/-- Nothing is left to be done. -/
def IsFinished (pass : Pass) : Prop :=
  pass.strokes = [] ∧ pass.statements = []

variable {pass : Pass} {draft next : Draft} {stroke : Stroke} {rest strokes made : List Stroke}
  {statements : List (Except AssemblyError Statement)} {errors : List AssemblyError}
  {error : AssemblyError}

theorem step_of_obstacle (kept : draft.Kept)
    (obstacle : draft.emission.obstacle? stroke = some error) :
    step ⟨draft, stroke :: rest, statements, errors, made⟩ =
      refuse ⟨draft, [], statements, errors, made⟩ error := by
  simp only [step, kept.perform_of_obstacle obstacle]
  rfl

theorem step_of_performed (performed : draft.perform stroke = (next, none)) :
    step ⟨draft, stroke :: rest, statements, errors, made⟩ =
      ⟨next, rest, statements, errors, made ++ [stroke]⟩ := by
  simp only [step, performed]

theorem refuse_of_structural (structural : error.fault.isStructural = true) :
    refuse ⟨draft, strokes, statements, errors, made⟩ error =
      ⟨draft, [], [], errors ++ [error], made⟩ := by
  rw [refuse, if_pos structural]

theorem refuse_of_harmless (harmless : error.fault.isStructural = false) :
    refuse ⟨draft, strokes, statements, errors, made⟩ error =
      ⟨draft, [], statements, errors ++ [error], made⟩ := by
  rw [refuse, if_neg (Bool.eq_false_iff.mp harmless)]

/-- After an error no statement is added. -/
theorem refuse_sublist (pass : Pass) (error : AssemblyError) :
    (pass.refuse error).statements.Sublist pass.statements := by
  cases structural : error.fault.isStructural with
  | true => exact refuse_of_structural structural ▸ List.nil_sublist _
  | false => exact refuse_of_harmless structural ▸ .refl _

/-! ### Strokes of whole statements -/

/-- The strokes that were made, with those that are left, are the ones of statements among `all`
that stand before the `later` ones. What is left belongs to the last of these statements. -/
structure Planned (all : List (Except AssemblyError Statement)) (made rest : List Stroke)
    (later : List (Except AssemblyError Statement)) (program : Program) : Prop where
  whole : made ++ rest = program.flatMap Statement.strokes
  among : (program.map Except.ok ++ later).Sublist all
  last : rest = [] ∨ ∃ (before : Program) (statement : Statement) (front : List Stroke),
    program = before ++ [statement] ∧ front ++ rest = statement.strokes

namespace Planned

variable {all later : List (Except AssemblyError Statement)} {program : Program}

theorem tidy (planned : Planned all made rest later program) : Strokes.Tidy (made ++ rest) :=
  planned.whole ▸ Strokes.tidy_program program

theorem start (all : List (Except AssemblyError Statement)) : Planned all [] [] all [] :=
  ⟨rfl, .refl _, Or.inl rfl⟩

/-- Some of the later statements may be left out. -/
theorem skip {fewer : List (Except AssemblyError Statement)}
    (planned : Planned all made rest later program) (left : fewer.Sublist later) :
    Planned all made rest fewer program :=
  ⟨planned.whole, (left.append_left _).trans planned.among, planned.last⟩

/-- A statement is begun when nothing of the one before is left. -/
theorem begin {statement : Statement}
    (planned : Planned all made [] (.ok statement :: later) program) :
    Planned all made statement.strokes later (program ++ [statement]) := by
  refine ⟨?_, ?_, Or.inr ⟨program, statement, [], rfl, rfl⟩⟩
  · rw [List.flatMap_append, ← planned.whole, List.append_nil, List.flatMap_singleton]
  · rw [List.map_append, List.append_assoc]
    exact planned.among

theorem advance (planned : Planned all made (stroke :: rest) later program) :
    Planned all (made ++ [stroke]) rest later program := by
  refine ⟨List.append_cons .. ▸ planned.whole, planned.among, Or.inr ?_⟩
  obtain ⟨before, statement, front, split, strokes⟩ :=
    planned.last.resolve_left (List.cons_ne_nil _ _)
  exact ⟨before, statement, front ++ [stroke], split, List.append_cons .. ▸ strokes⟩

/-- A definition is all of its statement, so that nothing of a statement that is dropped for it has
been made. -/
theorem drop_define {name : String} {position : Nat}
    (planned : Planned all made (.define name position :: rest) later program) :
    ∃ before, Planned all made [] later before := by
  obtain ⟨before, statement, front, rfl, strokes⟩ :=
    planned.last.resolve_left (List.cons_ne_nil _ _)
  have empty : front = [] := by
    cases statement with
    | define other place =>
      have short := congrArg List.length strokes
      simp only [Statement.strokes, List.length_append, List.length_cons, List.length_nil]
        at short
      exact List.eq_nil_of_length_eq_zero (by omega)
    | instruction mnemonic operation argument =>
      have member : Stroke.define name position ∈
          Statement.strokes (.instruction mnemonic operation argument) :=
        strokes ▸ List.mem_append_right _ List.mem_cons_self
      cases argument <;> simp [Statement.strokes, Argument.strokes] at member
  have whole := planned.whole
  rw [List.flatMap_append, List.flatMap_singleton, ← strokes, empty] at whole
  refine ⟨before, ?_, ?_, Or.inl rfl⟩
  · rw [List.append_nil]
    exact List.append_cancel_right whole
  · refine .trans ?_ planned.among
    rw [List.map_append, List.append_assoc]
    exact (List.sublist_append_right _ _).append_left _

end Planned

/-! ### Every point of a pass -/

/-- The pass has stopped for want of room. -/
def Overflown (pass : Pass) : Prop :=
  pass.IsFinished ∧ ∃ position, ⟨.codeOverflow, position⟩ ∈ pass.errors

/-- The draft is what the strokes made so far amount to, and these with the ones in hand are those
of whole statements, unless the code region is full. -/
structure Sound (tokens : List Token) (pass : Pass) : Prop where
  kept : pass.draft.Kept
  recorded : Recorded pass.made pass.draft.emission
  planned :
    (∃ program,
      Planned (Statement.ofTokens tokens) pass.made pass.strokes pass.statements program) ∨
      pass.Overflown ∧ ∃ rest later program,
        Planned (Statement.ofTokens tokens) pass.made rest later program

namespace Sound

variable {tokens : List Token}

theorem start (tokens : List Token) (source : String) : (start tokens source).Sound tokens where
  kept := Draft.kept_start source
  recorded := Recorded.start source
  planned := Or.inl ⟨[], .start _⟩

theorem step (sound : pass.Sound tokens) : pass.step.Sound tokens := by
  -- As long as something is left to be done, the code region is not full.
  have planned (unfinished : ¬pass.IsFinished) :=
    sound.planned.resolve_right fun overflown => unfinished overflown.1.1
  obtain ⟨kept, recorded, _⟩ := id sound
  obtain ⟨draft, strokes, statements, errors, made⟩ := pass
  cases strokes with
  | nil =>
    cases statements with
    | nil => exact sound
    | cons statement later =>
      obtain ⟨program, planned⟩ := planned fun finished => List.cons_ne_nil _ _ finished.2
      cases statement with
      | ok statement => exact ⟨kept, recorded, Or.inl ⟨_, planned.begin⟩⟩
      | error error =>
        have left := (refuse_sublist ⟨draft, [], later, errors, made⟩ error).cons (.error error)
        exact ⟨kept, recorded, Or.inl ⟨program, planned.skip left⟩⟩
  | cons stroke rest =>
    obtain ⟨program, planned⟩ := planned fun finished => List.cons_ne_nil _ _ finished.1
    cases obstacle : draft.emission.obstacle? stroke with
    | none =>
      obtain ⟨next, performed, kept, same⟩ := kept.perform_of_clear obstacle
      rw [step_of_performed performed]
      exact ⟨kept, same ▸ recorded.apply fun name => Emission.isDefined_of_clear obstacle,
        Or.inl ⟨program, planned.advance⟩⟩
    | some error =>
      rw [step_of_obstacle kept obstacle]
      refine ⟨kept, recorded, ?_⟩
      cases stroke with
      | mark mnemonic => cases obstacle
      | use name position => cases obstacle
      | define name position =>
        obtain ⟨before, planned⟩ := planned.drop_define
        exact Or.inl ⟨before, planned.skip (refuse_sublist _ error)⟩
      | byte role value position =>
        -- The strokes that are dropped still show where those that were made belong.
        rw [Emission.obstacle?] at obstacle
        split at obstacle
        · obtain rfl := Option.some.inj obstacle
          exact Or.inr ⟨⟨⟨rfl, rfl⟩, position, List.mem_append_right _ List.mem_cons_self⟩, _, _,
            _, planned⟩
        · cases obstacle

theorem steps (sound : pass.Sound tokens) (count : Nat) :
    (pass.steps count).Sound tokens := by
  induction count generalizing pass with
  | zero => exact sound
  | succ count inductionHypothesis => exact inductionHypothesis sound.step

/-! ### The table at every point -/

variable {entry : LabelEntry}

theorem find?_label (sound : pass.Sound tokens) (member : entry ∈ pass.draft.table.entries) :
    Label.find? entry.name pass.draft.emission.labels = some entry.label :=
  sound.kept.indexed.find?_label member

/-- An entry has the address at which its label was defined. -/
theorem addresses (sound : pass.Sound tokens) (member : entry ∈ pass.draft.table.entries) :
    (entry.address?.map UInt16.toNat).toList = Strokes.definitions entry.name pass.made := by
  rw [← sound.recorded.addresses, Label.addressIn?, sound.find?_label member]
  rfl

/-- An entry has the sites at which its label was used. -/
theorem sites (sound : pass.Sound tokens) (member : entry ∈ pass.draft.table.entries) :
    entry.sites.map UInt16.toNat = Strokes.uses entry.name pass.made := by
  have holes := sound.recorded.holes entry.name
  rw [Label.holesIn, sound.find?_label member] at holes
  exact List.reverse_injective holes

/-- The entries stand in the order in which their labels were first mentioned. -/
theorem names (sound : pass.Sound tokens) : pass.draft.table.entries.toList.map LabelEntry.name =
    (pass.made.filterMap Stroke.mentionedName?).eraseDups :=
  (LabelTable.map_name_labels _).symm.trans sound.recorded.names

theorem mem_names (sound : pass.Sound tokens) {name : String} :
    name ∈ pass.draft.table.entries.toList.map LabelEntry.name ↔
      name ∈ pass.made.filterMap Stroke.mentionedName? := by
  rw [sound.names, List.mem_eraseDups]

/-- Every entry was made for a definition or a use. -/
theorem founded (sound : pass.Sound tokens) (member : entry ∈ pass.draft.table.entries) :
    entry.address?.isSome ∨ entry.firstUse?.isSome := by
  have mentioned : entry.name ∈ pass.made.filterMap Stroke.mentionedName? :=
    sound.mem_names.mp (List.mem_map_of_mem (Array.mem_toList_iff.mpr member))
  refine (Strokes.exists_of_mentioned mentioned).imp (fun defined => ?_) (fun used => ?_)
  · rw [← sound.addresses member] at defined
    cases found : entry.address? with
    | none => simp [found] at defined
    | some address => rfl
  · have known := (sound.recorded.firstUses entry.name).not.mpr used
    rw [Label.firstUseIn?, sound.find?_label member] at known
    exact Option.isSome_iff_ne_none.mpr known

theorem exists_planned (sound : pass.Sound tokens) : ∃ rest later program,
    Planned (Statement.ofTokens tokens) pass.made rest later program := by
  rcases sound.planned with ⟨program, planned⟩ | ⟨_, planned⟩
  · exact ⟨_, _, program, planned⟩
  · exact planned

theorem mem_sites (sound : pass.Sound tokens) {site : Nat} :
    site ∈ pass.draft.table.sites ↔ site ∈ Strokes.sites pass.made := by
  rw [LabelTable.sites, List.mem_flatMap]
  constructor
  · rintro ⟨entry, member, used⟩
    rw [sound.sites (Array.mem_toList_iff.mp member)] at used
    exact (Strokes.uses_sublist _ _).subset used
  · intro member
    obtain ⟨name, mentioned, used⟩ := Strokes.exists_mem_uses member
    rw [← sound.mem_names] at mentioned
    obtain ⟨entry, known, rfl⟩ := List.mem_map.mp mentioned
    exact ⟨entry, known, sound.sites (Array.mem_toList_iff.mp known) ▸ used⟩

/-- No two sites share a byte, be they of one label or of two. -/
theorem apart (sound : pass.Sound tokens) : pass.draft.table.sites.Pairwise fun site other =>
    site + 2 ≤ other ∨ other + 2 ≤ site := by
  obtain ⟨rest, later, program, planned⟩ := sound.exists_planned
  have tidy := planned.tidy
  have distinct : (pass.draft.table.entries.toList.map LabelEntry.name).Nodup :=
    LabelTable.map_name_labels _ ▸ sound.kept.indexed.nodup
  refine List.pairwise_flatMap.mpr ⟨fun entry member => ?_, ?_⟩
  · rw [sound.sites (Array.mem_toList_iff.mp member)]
    exact (tidy.apart_front.sublist (Strokes.uses_sublist _ _)).imp Or.inl
  · -- Sites of two labels are different, and different sites are apart whatever their order.
    refine (List.pairwise_map.mp distinct).imp_of_mem ?_
    intro one another member among different site used other also
    rw [sound.sites (Array.mem_toList_iff.mp member)] at used
    rw [sound.sites (Array.mem_toList_iff.mp among)] at also
    refine tidy.apart_of_ne ((Strokes.uses_sublist _ _).subset used)
      ((Strokes.uses_sublist _ _).subset also) ?_
    rintro rfl
    exact different (tidy.eq_of_mem_uses used also)

end Sound

/-- What can be relied on at every point of a pass. -/
structure Orderly (tokens : List Token) (pass : Pass) : Prop where
  /-- The strokes are the first ones of statements that the tokens spell, in their order. -/
  traced : ∃ program : Program, (program.map Except.ok).Sublist (Statement.ofTokens tokens) ∧
    pass.made <+: program.flatMap Statement.strokes
  /-- The index leads from each name to the one entry of that name, and from no other name. -/
  indexed : pass.draft.table.Indexed
  /-- The entries stand in the order in which their labels were first mentioned. -/
  ordered : pass.draft.table.entries.toList.map LabelEntry.name =
    (pass.made.filterMap Stroke.mentionedName?).eraseDups
  founded : ∀ entry ∈ pass.draft.table.entries, entry.address?.isSome ∨ entry.firstUse?.isSome
  code : pass.draft.code.toList = pass.made.filterMap Stroke.value?
  fits : pass.draft.code.size ≤ 7900
  /-- The sixteen bits of an offset lose nothing of it. -/
  offset : pass.draft.offset.toNat = pass.draft.code.size
  addresses : ∀ entry ∈ pass.draft.table.entries,
    (entry.address?.map UInt16.toNat).toList = Strokes.definitions entry.name pass.made
  sites : ∀ entry ∈ pass.draft.table.entries,
    entry.sites.map UInt16.toNat = Strokes.uses entry.name pass.made
  /-- No address lies behind the code. -/
  bounded : ∀ entry ∈ pass.draft.table.entries, ∀ address, entry.address? = some address →
    address.toNat ≤ pass.draft.code.size
  /-- The pairs of bytes at the sites of all labels have no byte in common. -/
  apart : pass.draft.table.sites.Pairwise fun site other => site + 2 ≤ other ∨ other + 2 ≤ site
  /-- The bytes at the sites are placeholders, and no other byte is one. -/
  held : ∀ place < pass.draft.code.size,
    (Strokes.roles pass.made)[place]? = some .placeholder ↔
      ∃ site ∈ pass.draft.table.sites, place = site ∨ place = site + 1
  /-- As long as there was room for everything, the sites lie inside the code together with the
  bytes of the instruction in hand. Between two statements there are no such bytes. -/
  inside : (∀ position, ⟨.codeOverflow, position⟩ ∉ pass.errors) →
    ∀ site ∈ pass.draft.table.sites, site + 2 ≤ pass.draft.code.size + Strokes.size pass.strokes

theorem Sound.orderly {tokens : List Token} (sound : pass.Sound tokens) : pass.Orderly tokens where
  traced := by
    obtain ⟨rest, later, program, planned⟩ := sound.exists_planned
    exact ⟨program, (List.sublist_append_left _ _).trans planned.among, rest, planned.whole⟩
  indexed := sound.kept.indexed
  ordered := sound.names
  founded _ := sound.founded
  code := sound.recorded.code
  fits := sound.kept.fits
  offset := sound.kept.toNat_offset
  addresses _ := sound.addresses
  sites _ := sound.sites
  bounded entry member address found := by
    have defined := sound.addresses member
    rw [found] at defined
    have size : pass.draft.code.size = Strokes.size pass.made := sound.recorded.size_eq
    have among : address.toNat ∈ Strokes.definitions entry.name pass.made :=
      defined ▸ List.mem_singleton_self _
    rw [size]
    exact Strokes.le_size_of_mem_offsets among
  apart := sound.apart
  held place low := by
    obtain ⟨rest, later, program, planned⟩ := sound.exists_planned
    simp only [sound.mem_sites]
    exact planned.tidy.held_front (Nat.lt_of_lt_of_eq low sound.recorded.size_eq)
  inside room site member := by
    obtain ⟨program, planned⟩ :=
      sound.planned.resolve_right fun ⟨⟨_, position, full⟩, _⟩ => room position full
    have size : pass.draft.code.size = Strokes.size pass.made := sound.recorded.size_eq
    rw [size]
    exact planned.tidy.inside_front (sound.mem_sites.mp member)

end Pass

end ByteStack
