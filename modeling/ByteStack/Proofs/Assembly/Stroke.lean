/-
This file takes the emission of statements apart into strokes, the single things
that an assembler does one after the other: it defines a label, marks where an
instruction starts, emits one byte, or notes a site for the address of a label.

What stands where after some strokes can be read off the strokes alone. In those
of whole statements each site is followed by its two placeholders, so the sites
are at least two bytes apart, and they cover the placeholders and nothing else.
-/

import ByteStack.Proofs.Assembly.Mention
import Mathlib.Data.List.Pairwise

namespace ByteStack

/-! ### Strokes -/

/-- What a byte of the code is for. -/
inductive ByteRole where
  | opcode
  | operand
  /-- Half of an address that is not known yet. -/
  | placeholder
deriving DecidableEq

/-- One thing that an assembler does. Positions are those at which an error would be reported, and
the position of a use is that of its mnemonic. -/
inductive Stroke where
  | define (name : String) (position : Nat)
  | mark (mnemonic : Token)
  | byte (role : ByteRole) (value : UInt8) (position : Nat)
  | use (name : String) (position : Nat)
deriving DecidableEq

namespace Stroke

def role? : Stroke → Option ByteRole
  | .byte role _ _ => some role
  | _ => none

def value? : Stroke → Option UInt8
  | .byte _ value _ => some value
  | _ => none

def definedName? : Stroke → Option String
  | .define name _ => some name
  | _ => none

def usedName? : Stroke → Option String
  | .use name _ => some name
  | _ => none

/-- The label that the stroke defines or uses. -/
def mentionedName? : Stroke → Option String
  | .define name _ => some name
  | .use name _ => some name
  | _ => none

/-- How many bytes the stroke emits. -/
def width : Stroke → Nat
  | .byte _ _ _ => 1
  | _ => 0

end Stroke

/-- The strokes for an argument, in an instruction whose mnemonic stands at `position`. -/
def Argument.strokes (position : Nat) : Argument → List Stroke
  | .nothing => []
  | .byte value => [.byte .operand value position]
  | .label name =>
    [.use name position, .byte .placeholder 0 position, .byte .placeholder 0 position]

/-- The strokes for a statement. -/
def Statement.strokes : Statement → List Stroke
  | .define name position => [.define name position]
  | .instruction mnemonic operation argument =>
    .mark mnemonic :: .byte .opcode operation.code mnemonic.position ::
      argument.strokes mnemonic.position

/-! ### Places of strokes -/

namespace Strokes

/-- How many bytes the strokes emit. -/
def size : List Stroke → Nat
  | [] => 0
  | stroke :: rest => stroke.width + size rest

/-- What the bytes are for. -/
def roles (strokes : List Stroke) : List ByteRole :=
  strokes.filterMap Stroke.role?

/-- Each stroke with the offset at which it is made, when the first one is made at `offset`. -/
def placed (offset : Nat) : List Stroke → List (Nat × Stroke)
  | [] => []
  | stroke :: rest => (offset, stroke) :: placed (offset + stroke.width) rest

/-- The offsets at which strokes of some kind are made. -/
def offsets (kind : Stroke → Bool) (strokes : List Stroke) : List Nat :=
  ((placed 0 strokes).filter fun entry => kind entry.2).map Prod.fst

/-- Where the label is defined, once for each definition. -/
def definitions (name : String) (strokes : List Stroke) : List Nat :=
  offsets (·.definedName? = some name) strokes

/-- The sites for the address of the label. -/
def uses (name : String) (strokes : List Stroke) : List Nat :=
  offsets (·.usedName? = some name) strokes

/-- The sites for addresses of all labels. -/
def sites (strokes : List Stroke) : List Nat :=
  offsets (·.usedName?.isSome) strokes

variable {kind : Stroke → Bool} {strokes before after : List Stroke} {stroke : Stroke}
  {name : String}

theorem size_append : size (before ++ after) = size before + size after := by
  induction before with
  | nil => exact (Nat.zero_add _).symm
  | cons stroke rest inductionHypothesis =>
    rw [List.cons_append, size, inductionHypothesis, size, Nat.add_assoc]

theorem size_concat : size (strokes ++ [stroke]) = size strokes + stroke.width := by
  rw [size_append]
  rfl

theorem length_roles (strokes : List Stroke) : (roles strokes).length = size strokes := by
  induction strokes with
  | nil => rfl
  | cons stroke rest inductionHypothesis =>
    unfold roles at *
    cases stroke <;>
      simp [List.filterMap_cons, size, Stroke.role?, Stroke.width, inductionHypothesis,
        Nat.add_comm]

theorem length_values (strokes : List Stroke) :
    (strokes.filterMap Stroke.value?).length = size strokes := by
  induction strokes with
  | nil => rfl
  | cons stroke rest inductionHypothesis =>
    cases stroke <;>
      simp [List.filterMap_cons, size, Stroke.value?, Stroke.width, inductionHypothesis,
        Nat.add_comm]

theorem roles_append : roles (before ++ after) = roles before ++ roles after :=
  List.filterMap_append

theorem placed_append (offset : Nat) :
    placed offset (before ++ after) =
      placed offset before ++ (placed 0 after).map fun entry =>
        (offset + size before + entry.1, entry.2) := by
  have shift (offset : Nat) (strokes : List Stroke) : placed offset strokes =
      (placed 0 strokes).map fun entry => (offset + entry.1, entry.2) := by
    suffices every : ∀ start, placed (offset + start) strokes =
        (placed start strokes).map fun entry => (offset + entry.1, entry.2) from every 0
    intro start
    induction strokes generalizing start with
    | nil => rfl
    | cons stroke rest inductionHypothesis =>
      rw [placed, placed, List.map_cons, Nat.add_assoc, inductionHypothesis]
  induction before generalizing offset with
  | nil => exact shift offset after
  | cons stroke rest inductionHypothesis =>
    rw [List.cons_append, placed, placed, inductionHypothesis, List.cons_append]
    simp only [size, Nat.add_assoc]

/-- What follows is made behind the bytes in front. -/
theorem offsets_append :
    offsets kind (before ++ after) =
      offsets kind before ++ (offsets kind after).map (size before + ·) := by
  unfold offsets
  rw [placed_append, List.filter_append, List.map_append, List.filter_map, List.map_map,
    List.map_map]
  simp only [Nat.zero_add]
  rfl

theorem offsets_concat :
    offsets kind (strokes ++ [stroke]) =
      offsets kind strokes ++ if kind stroke then [size strokes] else [] := by
  have last : offsets kind [stroke] = if kind stroke then [0] else [] := by
    cases kept : kind stroke <;> simp [offsets, placed, kept]
  rw [offsets_append, last]
  cases kind stroke <;> rfl

theorem definitions_concat : definitions name (strokes ++ [stroke]) =
    definitions name strokes ++ if stroke.definedName? = some name then [size strokes] else [] := by
  rw [definitions, offsets_concat]
  simp only [decide_eq_true_eq]
  rfl

theorem uses_concat : uses name (strokes ++ [stroke]) =
    uses name strokes ++ if stroke.usedName? = some name then [size strokes] else [] := by
  rw [uses, offsets_concat]
  simp only [decide_eq_true_eq]
  rfl

theorem mem_offsets {offset : Nat} :
    offset ∈ offsets kind strokes ↔
      ∃ stroke, (offset, stroke) ∈ placed 0 strokes ∧ kind stroke := by
  simp [offsets]

/-- No stroke is made behind the end of the bytes. -/
theorem le_size_of_mem_offsets {offset : Nat} (member : offset ∈ offsets kind strokes) :
    offset ≤ size strokes := by
  induction strokes using List.reverseRecOn with
  | nil => exact nomatch member
  | append_singleton strokes stroke inductionHypothesis =>
    rw [offsets_concat, List.mem_append] at member
    rw [size_concat]
    rcases member with earlier | last
    · exact Nat.le_trans (inductionHypothesis earlier) (Nat.le_add_right _ _)
    · split at last
      · rw [List.mem_singleton.mp last]
        exact Nat.le_add_right _ _
      · exact nomatch last

/-- The sites for one label are among those for all labels, in the same order. -/
theorem uses_sublist (name : String) (strokes : List Stroke) :
    (uses name strokes).Sublist (sites strokes) := by
  refine (List.monotone_filter_right _ fun entry used => ?_).map Prod.fst
  have same : entry.2.usedName? = some name := of_decide_eq_true used
  show entry.2.usedName?.isSome
  rw [same]
  rfl

theorem map_snd_placed (offset : Nat) (strokes : List Stroke) :
    (placed offset strokes).map Prod.snd = strokes := by
  induction strokes generalizing offset with
  | nil => rfl
  | cons stroke rest inductionHypothesis =>
    rw [placed, List.map_cons, inductionHypothesis]

/-- Each site is one for a label that is mentioned. -/
theorem exists_mem_uses {site : Nat} (member : site ∈ sites strokes) :
    ∃ name ∈ strokes.filterMap Stroke.mentionedName?, site ∈ uses name strokes := by
  obtain ⟨stroke, placed, used⟩ := mem_offsets.mp member
  have among : stroke ∈ strokes := map_snd_placed 0 strokes ▸ List.mem_map_of_mem placed
  cases stroke with
  | use name position =>
    exact ⟨name, List.mem_filterMap.mpr ⟨_, among, rfl⟩,
      mem_offsets.mpr ⟨_, placed, decide_eq_true rfl⟩⟩
  | define name position => exact nomatch used
  | mark mnemonic => exact nomatch used
  | byte role value position => exact nomatch used

/-- A label that is mentioned is defined or used somewhere. -/
theorem exists_of_mentioned (mentioned : name ∈ strokes.filterMap Stroke.mentionedName?) :
    definitions name strokes ≠ [] ∨ uses name strokes ≠ [] := by
  have nonempty {kind : Stroke → Bool} {stroke : Stroke} (member : stroke ∈ strokes)
      (kept : kind stroke) : offsets kind strokes ≠ [] := by
    obtain ⟨before, after, rfl⟩ := List.append_of_mem member
    rw [List.append_cons, offsets_append, offsets_concat, if_pos kept]
    simp
  obtain ⟨stroke, member, same⟩ := List.mem_filterMap.mp mentioned
  cases stroke with
  | mark mnemonic => exact nomatch same
  | byte role value position => exact nomatch same
  | define other position => exact Or.inl (nonempty member (decide_eq_true same))
  | use other position => exact Or.inr (nonempty member (decide_eq_true same))

/-! ### Sites and placeholders -/

theorem sites_append :
    sites (before ++ after) = sites before ++ (sites after).map (size before + ·) :=
  offsets_append

/-- The sites are at least two bytes apart, and the bytes at the sites are the placeholders. -/
structure Tidy (strokes : List Stroke) : Prop where
  apart : (sites strokes).Pairwise fun first second => first + 2 ≤ second
  inside : ∀ site ∈ sites strokes, site + 2 ≤ size strokes
  held : ∀ place, (roles strokes)[place]? = some .placeholder ↔
    ∃ site ∈ sites strokes, place = site ∨ place = site + 1

theorem tidy_nil : Tidy [] where
  apart := .nil
  inside := nofun
  held place := by simp [roles, sites, offsets, placed]

theorem Tidy.append (first : Tidy before) (second : Tidy after) : Tidy (before ++ after) := by
  refine ⟨?_, ?_, fun place => ?_⟩
  · rw [sites_append, List.pairwise_append, List.pairwise_map]
    refine ⟨first.apart, second.apart.imp fun close => by omega, ?_⟩
    intro site member other also
    obtain ⟨inner, _, rfl⟩ := List.mem_map.mp also
    exact Nat.le_trans (first.inside site member) (Nat.le_add_right _ _)
  · intro site member
    rw [sites_append, List.mem_append, List.mem_map] at member
    rw [size_append]
    rcases member with member | ⟨inner, member, rfl⟩
    · exact Nat.le_trans (first.inside site member) (Nat.le_add_right _ _)
    · have := second.inside inner member
      omega
  · simp only [sites_append, List.mem_append, List.mem_map, or_and_right, exists_or, roles_append]
    by_cases front : place < size before
    · rw [List.getElem?_append_left (by rw [length_roles]; exact front), first.held]
      refine ⟨Or.inl, fun held => held.resolve_right ?_⟩
      rintro ⟨site, ⟨inner, _, rfl⟩, here⟩
      omega
    · rw [List.getElem?_append_right (by rw [length_roles]; omega), length_roles, second.held]
      constructor
      · rintro ⟨inner, member, here⟩
        exact Or.inr ⟨_, ⟨inner, member, rfl⟩, by omega⟩
      · rintro (⟨site, member, here⟩ | ⟨site, ⟨inner, member, rfl⟩, here⟩)
        · have := first.inside site member
          omega
        · exact ⟨inner, member, by omega⟩

theorem tidy_statement (statement : Statement) : Tidy statement.strokes := by
  have silent {strokes : List Stroke} (none : sites strokes = [])
      (empty : .placeholder ∉ roles strokes) : Tidy strokes := by
    refine ⟨none ▸ .nil, none ▸ nofun, fun place => ⟨fun held => ?_, ?_⟩⟩
    · exact absurd (List.mem_of_getElem? held) empty
    · rw [none]
      rintro ⟨site, member, _⟩
      exact nomatch member
  cases statement with
  | define name position => exact silent rfl (by exact List.not_mem_nil)
  | instruction mnemonic operation argument =>
    cases argument with
    | nothing => exact silent rfl (show _ ∉ [ByteRole.opcode] by decide)
    | byte value => exact silent rfl (show _ ∉ [ByteRole.opcode, .operand] by decide)
    | label name =>
      have sites :
          sites (Statement.strokes (.instruction mnemonic operation (.label name))) = [1] := rfl
      have roles : roles (Statement.strokes (.instruction mnemonic operation (.label name))) =
          [.opcode, .placeholder, .placeholder] := rfl
      refine ⟨List.pairwise_singleton _ _, ?_, fun place => ?_⟩
      · intro site member
        obtain rfl := List.mem_singleton.mp member
        exact Nat.le_refl 3
      · rw [sites, roles]
        rcases place with _ | _ | _ | place <;> simp

theorem tidy_program (program : Program) : Tidy (program.flatMap Statement.strokes) := by
  induction program with
  | nil => exact tidy_nil
  | cons statement rest inductionHypothesis =>
    rw [List.flatMap_cons]
    exact (tidy_statement statement).append inductionHypothesis

/-! ### Strokes that are broken off -/

theorem Tidy.apart_front (tidy : Tidy (before ++ after)) :
    (sites before).Pairwise fun first second => first + 2 ≤ second := by
  have whole := tidy.apart
  rw [sites_append] at whole
  exact (List.pairwise_append.mp whole).1

/-- A site lies inside the code as soon as the strokes behind it are made. -/
theorem Tidy.inside_front (tidy : Tidy (before ++ after)) {site : Nat}
    (member : site ∈ sites before) : site + 2 ≤ size before + size after := by
  rw [← size_append]
  exact tidy.inside site (sites_append ▸ List.mem_append_left _ member)

theorem Tidy.held_front (tidy : Tidy (before ++ after)) {place : Nat}
    (made : place < size before) : (roles before)[place]? = some .placeholder ↔
      ∃ site ∈ sites before, place = site ∨ place = site + 1 := by
  have whole := tidy.held place
  rw [roles_append, List.getElem?_append_left (by rw [length_roles]; exact made),
    sites_append] at whole
  rw [whole]
  constructor
  · rintro ⟨site, member, here⟩
    rcases List.mem_append.mp member with early | late
    · exact ⟨site, early, here⟩
    · obtain ⟨inner, _, rfl⟩ := List.mem_map.mp late
      omega
  · rintro ⟨site, member, here⟩
    exact ⟨site, List.mem_append_left _ member, here⟩

/-- Of two different sites one lies wholly before the other. -/
theorem Tidy.apart_of_ne (tidy : Tidy (before ++ after)) {site other : Nat}
    (member : site ∈ sites before) (among : other ∈ sites before) (different : site ≠ other) :
    site + 2 ≤ other ∨ other + 2 ≤ site := by
  have either : (sites before).Pairwise fun site other => site + 2 ≤ other ∨ other + 2 ≤ site :=
    tidy.apart_front.imp Or.inl
  have symmetric : Std.Symm fun site other => site + 2 ≤ other ∨ other + 2 ≤ site :=
    ⟨fun _ _ => Or.symm⟩
  exact either.forall member among different

/-- Two labels have no site in common. -/
theorem Tidy.eq_of_mem_uses (tidy : Tidy (before ++ after)) {other : String} {site : Nat}
    (used : site ∈ uses name before) (also : site ∈ uses other before) : name = other := by
  obtain ⟨stroke, member, here⟩ := mem_offsets.mp used
  obtain ⟨another, among, there⟩ := mem_offsets.mp also
  have here := of_decide_eq_true here
  have there := of_decide_eq_true there
  have distinct : (sites before).Nodup := tidy.apart_front.imp fun apart => by omega
  have one : (site, stroke) = (site, another) :=
    List.inj_on_of_nodup_map distinct (List.mem_filter.mpr ⟨member, by simp [here]⟩)
      (List.mem_filter.mpr ⟨among, by simp [there]⟩) rfl
  obtain rfl := congrArg Prod.snd one
  exact Option.some.inj (here.symm.trans there)

end Strokes

/-! ### Emission by strokes -/

/-- What a stroke does. -/
def Emission.apply (emission : Emission) : Stroke → Emission
  | .define name _ =>
    { emission with labels := Label.define name emission.code.size emission.labels }
  | .mark mnemonic => { emission with map := emission.map.add emission.code.size mnemonic }
  | .byte _ value _ => { emission with code := emission.code.push value }
  | .use name position =>
    { emission with labels := Label.use name emission.code.size position emission.labels }

/-- The strokes for a statement emit it. -/
theorem Emission.foldl_apply (emission : Emission) (statement : Statement) :
    statement.strokes.foldl apply emission = emission.accept statement := by
  cases statement with
  | define name position => rfl
  | instruction mnemonic operation argument =>
    cases argument <;>
      simp [Statement.strokes, Argument.strokes, apply, accept, noteUse, Argument.placeholder]

/-! ### Obstacles -/

namespace Emission

variable {emission : Emission} {stroke : Stroke} {strokes : List Stroke}
  {statement : Statement} {error : AssemblyError}

/-- Why a stroke cannot be made, if it cannot. -/
def obstacle? (emission : Emission) : Stroke → Option AssemblyError
  | .define name position =>
    if Label.isDefined name emission.labels then some ⟨.labelReset name, position⟩ else none
  | .byte _ _ position =>
    if Layout.codeSize ≤ emission.code.size then some ⟨.codeOverflow, position⟩ else none
  | _ => none

/-- The first error that strokes meet when they are made one after the other. -/
def firstError? (emission : Emission) : List Stroke → Option AssemblyError
  | [] => none
  | stroke :: rest => (emission.obstacle? stroke).or ((emission.apply stroke).firstError? rest)

theorem size_apply (emission : Emission) (stroke : Stroke) :
    (emission.apply stroke).code.size = emission.code.size + stroke.width := by
  cases stroke with
  | byte role value position => exact Array.size_push _
  | define name position => rfl
  | mark mnemonic => rfl
  | use name position => rfl

theorem fits_apply (fits : emission.code.size ≤ Layout.codeSize)
    (clear : emission.obstacle? stroke = none) :
    (emission.apply stroke).code.size ≤ Layout.codeSize := by
  rw [size_apply]
  cases stroke with
  | byte role value position =>
    by_contra full
    have full : Layout.codeSize ≤ emission.code.size := Nat.le_of_lt_succ (Nat.lt_of_not_le full)
    exact nomatch clear.symm.trans (if_pos full)
  | define name position => exact fits
  | mark mnemonic => exact fits
  | use name position => exact fits

/-- A label that can be defined is new. -/
theorem isDefined_of_clear {name : String} (clear : emission.obstacle? stroke = none)
    (defines : stroke.definedName? = some name) :
    Label.isDefined name emission.labels = false := by
  cases stroke with
  | define other position =>
    obtain rfl := Option.some.inj defines
    rw [obstacle?] at clear
    split at clear
    · exact nomatch clear
    · exact Bool.eq_false_iff.mpr (by assumption)
  | mark mnemonic => exact nomatch defines
  | byte role value position => exact nomatch defines
  | use other position => exact nomatch defines

/-- In an instruction, a stroke fails only for want of room. -/
theorem obstacle?_instruction (fits : emission.code.size ≤ Layout.codeSize) {mnemonic : Token}
    {operation : Operation} {argument : Argument}
    (member : stroke ∈ Statement.strokes (.instruction mnemonic operation argument)) :
    emission.obstacle? stroke =
      if Layout.codeSize < emission.code.size + stroke.width then
        some ⟨.codeOverflow, mnemonic.position⟩
      else none := by
  cases stroke with
  | mark token => exact (if_neg (Nat.not_lt_of_le fits)).symm
  | use name position => exact (if_neg (Nat.not_lt_of_le fits)).symm
  | define name position =>
    cases argument <;> simp [Statement.strokes, Argument.strokes] at member
  | byte role value position =>
    have same : position = mnemonic.position := by
      cases argument <;> simp [Statement.strokes, Argument.strokes] at member <;> tauto
    rw [obstacle?, same]
    simp only [Stroke.width, Nat.lt_succ_iff]

/-- Strokes that fail only for want of room are all made just when there is room for them. -/
theorem firstError?_eq (fits : emission.code.size ≤ Layout.codeSize)
    (plain : ∀ stroke ∈ strokes, ∀ emission : Emission, emission.code.size ≤ Layout.codeSize →
      emission.obstacle? stroke =
        if Layout.codeSize < emission.code.size + stroke.width then some error else none) :
    emission.firstError? strokes =
      if Layout.codeSize < emission.code.size + Strokes.size strokes then some error else none := by
  induction strokes generalizing emission with
  | nil => exact (if_neg (Nat.not_lt_of_le fits)).symm
  | cons stroke rest inductionHypothesis =>
    obtain ⟨here, later⟩ := List.forall_mem_cons.mp plain
    have size : emission.code.size + Strokes.size (stroke :: rest) =
        emission.code.size + stroke.width + Strokes.size rest := by
      rw [Nat.add_assoc]
      rfl
    rw [firstError?, size]
    by_cases full : Layout.codeSize < emission.code.size + stroke.width
    · rw [here emission fits, if_pos full, if_pos (Nat.lt_add_right _ full), Option.some_or]
    · have clear : emission.obstacle? stroke = none := (here emission fits).trans (if_neg full)
      rw [clear, Option.none_or, inductionHypothesis (fits_apply fits clear) later, size_apply]

/-- A statement is refused for the first error that its strokes meet. -/
theorem firstError?_strokes (fits : emission.code.size ≤ Layout.codeSize)
    (statement : Statement) :
    emission.firstError? statement.strokes = emission.refusal? statement := by
  cases statement with
  | define name position => exact Option.or_none
  | instruction mnemonic operation argument =>
    have size : Strokes.size (Statement.strokes (.instruction mnemonic operation argument)) =
        1 + argument.width := by
      cases argument <;> rfl
    rw [firstError?_eq fits fun stroke member emission fits => obstacle?_instruction fits member,
      size, ← Nat.add_assoc]
    rfl

end Emission

/-! ### What the strokes leave behind -/

namespace Label

variable {name other : String} {labels : List Label}

/-- The sites that the table gives for a name, the latest first. -/
def holesIn (name : String) (labels : List Label) : List Nat :=
  ((find? name labels).map Label.holes).getD []

theorem holesIn_define (address : Nat) :
    holesIn other (define name address labels) = holesIn other labels := by
  unfold holesIn define
  rw [find?_update (by exact fun _ => rfl)]
  by_cases same : other = name
  · rw [if_pos same, same]
    cases find? name labels <;> rfl
  · rw [if_neg same]

theorem holesIn_use (hole position : Nat) :
    holesIn other (use name hole position labels) =
      if other = name then hole :: holesIn name labels else holesIn other labels := by
  unfold holesIn use
  rw [find?_update (by exact fun _ => rfl)]
  by_cases same : other = name
  · rw [if_pos same, if_pos same]
    cases find? name labels <;> rfl
  · rw [if_neg same, if_neg same]

end Label

/-- What has been emitted by some strokes, of which none defines a label again. -/
structure Recorded (made : List Stroke) (emission : Emission) : Prop where
  code : emission.code.toList = made.filterMap Stroke.value?
  names : emission.labels.map Label.name = (made.filterMap Stroke.mentionedName?).eraseDups
  addresses : ∀ name, (Label.addressIn? name emission.labels).toList =
    Strokes.definitions name made
  holes : ∀ name, Label.holesIn name emission.labels = (Strokes.uses name made).reverse
  firstUses : ∀ name, Label.firstUseIn? name emission.labels = none ↔ Strokes.uses name made = []

namespace Recorded

variable {made : List Stroke} {emission : Emission} {stroke : Stroke}

theorem start (source : String) : Recorded [] (Emission.start source) :=
  ⟨rfl, rfl, fun _ => rfl, fun _ => rfl, fun _ => ⟨fun _ => rfl, fun _ => rfl⟩⟩

theorem size_eq (recorded : Recorded made emission) : emission.code.size = Strokes.size made := by
  rw [← Strokes.length_values, ← recorded.code, Array.length_toList]

/-! ### One more stroke -/

theorem code_apply (recorded : Recorded made emission) (stroke : Stroke) :
    (emission.apply stroke).code.toList = (made ++ [stroke]).filterMap Stroke.value? := by
  rw [List.filterMap_append, ← recorded.code]
  cases stroke with
  | byte role value position => exact Array.toList_push
  | define name position => exact (List.append_nil _).symm
  | mark mnemonic => exact (List.append_nil _).symm
  | use name position => exact (List.append_nil _).symm

theorem names_apply (recorded : Recorded made emission) (stroke : Stroke) :
    (emission.apply stroke).labels.map Label.name =
      ((made ++ [stroke]).filterMap Stroke.mentionedName?).eraseDups := by
  have mention (name : String) (change : Label → Label)
      (keeps : ∀ label, (change label).name = label.name) :
      (Label.update name change emission.labels).map Label.name =
        (made.filterMap Stroke.mentionedName? ++ [name]).eraseDups := by
    rw [Label.map_name_update keeps, recorded.names, eraseDups_concat]
    simp only [List.mem_eraseDups]
  rw [List.filterMap_append]
  cases stroke with
  | define name position => exact mention name _ fun _ => rfl
  | use name position => exact mention name _ fun _ => rfl
  | mark mnemonic => exact recorded.names.trans (congrArg _ (List.append_nil _).symm)
  | byte role value position => exact recorded.names.trans (congrArg _ (List.append_nil _).symm)

/-- A label that had no address gets the one at which it is defined. -/
theorem addresses_apply (recorded : Recorded made emission)
    (fresh : ∀ name, stroke.definedName? = some name →
      Label.isDefined name emission.labels = false) (name : String) :
    (Label.addressIn? name (emission.apply stroke).labels).toList =
      Strokes.definitions name (made ++ [stroke]) := by
  have before := recorded.addresses name
  rw [Strokes.definitions_concat, ← before]
  cases stroke with
  | mark mnemonic => exact (List.append_nil _).symm
  | byte role value position => exact (List.append_nil _).symm
  | use other position =>
    refine (congrArg Option.toList (Label.addressIn?_use _ _)).trans (List.append_nil _).symm
  | define other position =>
    refine (congrArg Option.toList (Label.addressIn?_define _)).trans ?_
    by_cases same : name = other
    · subst same
      have new := fresh name rfl
      rw [Label.isDefined_eq, Option.isSome_eq_false_iff, Option.isNone_iff_eq_none] at new
      simp [new, recorded.size_eq, Stroke.definedName?]
    · simp [same, Ne.symm same, Stroke.definedName?]

theorem holes_apply (recorded : Recorded made emission) (stroke : Stroke) (name : String) :
    Label.holesIn name (emission.apply stroke).labels =
      (Strokes.uses name (made ++ [stroke])).reverse := by
  have before := recorded.holes name
  rw [Strokes.uses_concat, List.reverse_append, ← before]
  cases stroke with
  | mark mnemonic => rfl
  | byte role value position => rfl
  | define other position => exact Label.holesIn_define _
  | use other position =>
    refine (Label.holesIn_use _ _).trans ?_
    by_cases same : name = other
    · simp [same, recorded.size_eq, Stroke.usedName?]
    · simp [same, Ne.symm same, Stroke.usedName?]

theorem firstUses_apply (recorded : Recorded made emission) (stroke : Stroke) (name : String) :
    Label.firstUseIn? name (emission.apply stroke).labels = none ↔
      Strokes.uses name (made ++ [stroke]) = [] := by
  have before := recorded.firstUses name
  rw [Strokes.uses_concat, List.append_eq_nil_iff, ← before]
  cases stroke with
  | mark mnemonic => exact (and_iff_left rfl).symm
  | byte role value position => exact (and_iff_left rfl).symm
  | define other position =>
    rw [show Label.firstUseIn? name (emission.apply (.define other position)).labels = _ from
      Label.firstUseIn?_define _]
    exact (and_iff_left rfl).symm
  | use other position =>
    rw [show Label.firstUseIn? name (emission.apply (.use other position)).labels = _ from
      Label.firstUseIn?_use _ _, Option.or_eq_none_iff]
    by_cases same : name = other
    · simp [same, Stroke.usedName?]
    · simp [same, Ne.symm same, Stroke.usedName?]

/-- Every stroke is recorded, as long as a label that it defines is new. -/
theorem apply (recorded : Recorded made emission)
    (fresh : ∀ name, stroke.definedName? = some name →
      Label.isDefined name emission.labels = false) :
    Recorded (made ++ [stroke]) (emission.apply stroke) :=
  ⟨recorded.code_apply stroke, recorded.names_apply stroke, recorded.addresses_apply fresh,
    recorded.holes_apply stroke, recorded.firstUses_apply stroke⟩

end Recorded

end ByteStack
