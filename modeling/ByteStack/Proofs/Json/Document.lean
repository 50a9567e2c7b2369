/-
This file is the grammar of JSON texts. A tree without a break has symbols of
its own, and a text spells the tree when it spells these symbols. The tree is
built from them one symbol at a time, and a tree without a break is built from
no others. So a text has a document without a break, behind which nothing
follows, just when it spells the tree of that document.
-/

import ByteStack.Json.Document
import ByteStack.Proofs.Json.Symbol
import ByteStack.Puzzle.Reader
import ByteStack.Puzzle.Writer

namespace ByteStack.Json

/-! ### The grammar -/

mutual
/-- Nothing in the tree is broken. -/
def IsWhole : Json → Prop
  | .null => True
  | .boolean _ => True
  | .number _ => True
  | .string _ => True
  | .array items ending? => AreWhole items ∧ ending? = none
  | .object members ending? => MembersWhole members ∧ ending? = none
  | .broken _ => False
def AreWhole : List Json → Prop
  | [] => True
  | item :: items => IsWhole item ∧ AreWhole items
def MembersWhole : List (Option String × Json) → Prop
  | [] => True
  | (_, value) :: members => IsWhole value ∧ MembersWhole members
end

mutual
/-- The symbols of a tree. -/
def symbols : Json → List Symbol
  | .null => [.null]
  | .boolean value => [.boolean value]
  | .number value? => [.number value?]
  | .string text? => [.string text?]
  | .array items _ => arraySymbols (itemParts items)
  | .object members _ => .openObject :: separated (memberParts members) ++ [.closeObject]
  | .broken _ => []
/-- The symbols of each item. -/
def itemParts : List Json → List (List Symbol)
  | [] => []
  | item :: items => symbols item :: itemParts items
/-- The symbols of each member. -/
def memberParts : List (Option String × Json) → List (List Symbol)
  | [] => []
  | (name, value) :: members => (.string name :: .colon :: symbols value) :: memberParts members
end

/-- The text spells the value. -/
structure Spells (value : Json) (text : String) : Prop where
  whole : value.IsWhole
  spelled : Symbol.Spelled value.symbols text.toList

/-! ### Parts -/

theorem itemParts_eq_map (items : List Json) : itemParts items = items.map symbols := by
  induction items with
  | nil => rfl
  | cons item rest inductionHypothesis => rw [itemParts, inductionHypothesis, List.map_cons]

theorem memberParts_eq_map (members : List Member) :
    memberParts members =
      members.map fun member => .string member.1 :: .colon :: member.2.symbols := by
  induction members with
  | nil => rfl
  | cons member rest inductionHypothesis => rw [memberParts, inductionHypothesis, List.map_cons]

theorem areWhole_iff {items : List Json} : AreWhole items ↔ ∀ item ∈ items, item.IsWhole := by
  induction items with
  | nil => exact iff_of_true trivial (List.forall_mem_nil _)
  | cons item rest inductionHypothesis =>
    rw [AreWhole, inductionHypothesis, List.forall_mem_cons]

theorem membersWhole_iff {members : List Member} :
    MembersWhole members ↔ ∀ member ∈ members, member.2.IsWhole := by
  induction members with
  | nil => exact iff_of_true trivial (List.forall_mem_nil _)
  | cons member rest inductionHypothesis =>
    rw [MembersWhole, inductionHypothesis, List.forall_mem_cons]

/-- Parts behind one another, each with a comma in front. -/
def commaParts (parts : List (List Symbol)) : List Symbol :=
  parts.flatMap (.comma :: ·)

/-- Parts behind one another, each with a comma behind it. -/
def partsComma (parts : List (List Symbol)) : List Symbol :=
  parts.flatMap (· ++ [.comma])

theorem separated_cons (part : List Symbol) (parts : List (List Symbol)) :
    separated (part :: parts) = part ++ commaParts parts := by
  induction parts generalizing part with
  | nil => exact (List.append_nil part).symm
  | cons next rest inductionHypothesis =>
    rw [separated, inductionHypothesis, commaParts, commaParts, List.flatMap_cons, List.cons_append]

theorem separated_concat (parts : List (List Symbol)) (part : List Symbol) :
    separated (parts ++ [part]) = partsComma parts ++ part := by
  induction parts with
  | nil => rfl
  | cons first rest inductionHypothesis =>
    have split : separated (first :: (rest ++ [part])) =
        first ++ .comma :: separated (rest ++ [part]) := by
      cases rest <;> rfl
    rw [List.cons_append, split, inductionHypothesis, partsComma, partsComma, List.flatMap_cons]
    simp

mutual
/-- What can be skipped is whole. -/
theorem skip?_eq_none_iff : ∀ value : Json, skip? value = none ↔ value.IsWhole
  | .null => iff_of_true rfl trivial
  | .boolean _ => iff_of_true rfl trivial
  | .number _ => iff_of_true rfl trivial
  | .string _ => iff_of_true rfl trivial
  | .array items ending? => by
    rw [skip?, IsWhole, Option.or_eq_none_iff, Option.map_eq_none_iff,
      skipItems?_eq_none_iff items]
  | .object members ending? => by
    rw [skip?, IsWhole, Option.or_eq_none_iff, Option.map_eq_none_iff,
      skipMembers?_eq_none_iff members]
  | .broken _ => iff_of_false nofun not_false
theorem skipItems?_eq_none_iff : ∀ items : List Json, skipItems? items = none ↔ AreWhole items
  | [] => iff_of_true rfl trivial
  | item :: items => by
    rw [skipItems?, AreWhole, Option.or_eq_none_iff, skip?_eq_none_iff item,
      skipItems?_eq_none_iff items]
theorem skipMembers?_eq_none_iff :
    ∀ members : List (Option String × Json), skipMembers? members = none ↔ MembersWhole members
  | [] => iff_of_true rfl trivial
  | (_, value) :: members => by
    rw [skipMembers?, MembersWhole, Option.or_eq_none_iff, skip?_eq_none_iff value,
      skipMembers?_eq_none_iff members]
end

/-! ### Building -/

/-- No value begins with the end of an array. -/
theorem exists_symbols_eq_cons {value : Json} (whole : value.IsWhole) :
    ∃ first rest, value.symbols = first :: rest ∧ first ≠ .closeArray := by
  cases value with
  | broken => exact whole.elim
  | _ => exact ⟨_, _, rfl, nofun⟩

/-- The first item of an array begins like any value. -/
theorem next_dueFirstItem {symbol : Symbol} (other : symbol ≠ .closeArray) (frames : List Frame) :
    State.next (.dueFirstItem frames) symbol =
      State.next (.dueValue (.array [] :: frames)) symbol := by
  cases symbol with
  | closeArray => exact absurd rfl other
  | _ => rfl

theorem next_dueName (frames : List Frame) (members : List Member) (name : Option String) :
    State.next (.dueName frames members) (.string name) = .dueColon frames members name := by
  cases members <;> rfl

mutual
/-- The symbols of a value complete it. -/
theorem foldl_symbols : ∀ value : Json, value.IsWhole → ∀ frames more,
    (symbols value ++ more).foldl State.next (.dueValue frames) =
      more.foldl State.next (.complete value frames)
  | .null, _, _, _ => rfl
  | .boolean _, _, _, _ => rfl
  | .number _, _, _, _ => rfl
  | .string _, _, _, _ => rfl
  | .array [] _, ⟨_, rfl⟩, _, _ => rfl
  | .array (item :: items) _, ⟨⟨whole, rest⟩, rfl⟩, frames, more => by
    obtain ⟨first, others, same, other⟩ := exists_symbols_eq_cons whole
    have value := foldl_symbols item whole (.array [] :: frames)
      (commaParts (itemParts items) ++ Symbol.closeArray :: more)
    have behind := foldl_items items rest frames [item] more
    rw [symbols, arraySymbols, itemParts, separated_cons, List.cons_append, List.cons_append,
      List.foldl_cons, List.append_assoc, List.append_assoc]
    refine Eq.trans ?_ (value.trans behind)
    simp only [same, List.cons_append, List.nil_append, List.foldl_cons]
    rw [← next_dueFirstItem other]
    rfl
  | .object [] _, ⟨_, rfl⟩, _, _ => rfl
  | .object ((name, item) :: members) _, ⟨⟨whole, rest⟩, rfl⟩, frames, more => by
    have value := foldl_symbols item whole (.object [] name :: frames)
      (commaParts (memberParts members) ++ Symbol.closeObject :: more)
    have behind := foldl_members members rest frames [(name, item)] more
    rw [symbols, memberParts, separated_cons]
    simp only [List.cons_append, List.foldl_cons, List.append_assoc]
    exact value.trans behind
  | .broken _, whole, _, _ => whole.elim
/-- The symbols of the items behind the first one complete an array. -/
theorem foldl_items : ∀ items : List Json, AreWhole items → ∀ frames before more,
    (commaParts (itemParts items) ++ Symbol.closeArray :: more).foldl State.next
        (.dueSeparator frames (.array before)) =
      more.foldl State.next (.complete (.array (before.reverse ++ items) none) frames)
  | [], _, _, _, _ => by
    rw [List.append_nil]
    rfl
  | item :: items, ⟨whole, rest⟩, frames, before, more => by
    have value := foldl_symbols item whole (.array before :: frames)
      (commaParts (itemParts items) ++ Symbol.closeArray :: more)
    have behind := foldl_items items rest frames (item :: before) more
    rw [List.reverse_cons, List.append_assoc] at behind
    rw [itemParts, commaParts, List.flatMap_cons, List.cons_append, List.cons_append,
      List.foldl_cons, List.append_assoc]
    exact value.trans behind

/-- The symbols of the members behind the first one complete an object. -/
theorem foldl_members : ∀ members : List (Option String × Json), MembersWhole members →
    ∀ frames before more,
      (commaParts (memberParts members) ++ Symbol.closeObject :: more).foldl State.next
        (.dueSeparator frames (.object before)) =
      more.foldl State.next (.complete (.object (before.reverse ++ members) none) frames)
  | [], _, _, _, _ => by
    rw [List.append_nil]
    rfl
  | (name, item) :: members, ⟨whole, rest⟩, frames, before, more => by
    have value := foldl_symbols item whole (.object before name :: frames)
      (commaParts (memberParts members) ++ Symbol.closeObject :: more)
    have behind := foldl_members members rest frames ((name, item) :: before) more
    rw [List.reverse_cons, List.append_assoc] at behind
    rw [memberParts, commaParts, List.flatMap_cons]
    simp only [List.cons_append, List.foldl_cons, List.append_assoc]
    refine Eq.trans ?_ (value.trans behind)
    rw [State.next, next_dueName]
    rfl
end

/-- A document is built of the symbols of its tree. -/
theorem Document.ofSymbols_symbols {value : Json} (whole : value.IsWhole) :
    Document.ofSymbols value.symbols = ⟨value, false⟩ := by
  have built := foldl_symbols value whole [] []
  rw [List.append_nil] at built
  rw [ofSymbols, built]
  rfl

/-! ### What was read -/

/-- The symbols of a container that is not closed yet. -/
def Container.symbolsRead : Container → List Symbol
  | .array items => .openArray :: separated (itemParts items.reverse)
  | .object members => .openObject :: separated (memberParts members.reverse)

/-- The symbols of a container that waits for a value. -/
def Frame.symbolsRead : Frame → List Symbol
  | .array items => .openArray :: partsComma (itemParts items.reverse)
  | .object members name =>
    .openObject :: (partsComma (memberParts members.reverse) ++ [.string name, .colon])

/-- The symbols of containers inside one another. -/
def framesRead (frames : List Frame) : List Symbol :=
  frames.reverse.flatMap Frame.symbolsRead

namespace State

/-- The symbols that lead to a state, if nothing was broken. -/
def symbolsRead : State → List Symbol
  | .dueValue frames => framesRead frames
  | .dueFirstItem frames => framesRead frames ++ [.openArray]
  | .dueName frames members =>
    framesRead frames ++ .openObject :: partsComma (memberParts members.reverse)
  | .dueColon frames members name =>
    framesRead frames ++ .openObject :: (partsComma (memberParts members.reverse) ++ [.string name])
  | .dueSeparator frames container => framesRead frames ++ container.symbolsRead
  | .done document => document.root.symbols

/-- A container that waits for a comma or its end holds something. -/
def Formed : State → Prop
  | .dueSeparator _ container => container ≠ .array [] ∧ container ≠ .object []
  | _ => True

/-- Nothing was broken, and nothing stands behind the value. -/
def Intact : State → Prop
  | .done document => document.root.IsWhole ∧ document.isFollowed = false
  | _ => True

end State

variable {value : Json} {frames : List Frame}

theorem framesRead_cons (frame : Frame) (frames : List Frame) :
    framesRead (frame :: frames) = framesRead frames ++ frame.symbolsRead := by
  rw [framesRead, List.reverse_cons, List.flatMap_append, List.flatMap_singleton]
  rfl

theorem symbolsRead_fill (frame : Frame) (value : Json) :
    (frame.fill value).symbolsRead = frame.symbolsRead ++ value.symbols := by
  cases frame with
  | array items =>
    rw [Frame.fill, Container.symbolsRead, Frame.symbolsRead, List.reverse_cons,
      itemParts_eq_map, List.map_append, List.map_singleton, separated_concat, itemParts_eq_map,
      List.cons_append]
  | object members name =>
    rw [Frame.fill, Container.symbolsRead, Frame.symbolsRead, List.reverse_cons,
      memberParts_eq_map, List.map_append, List.map_singleton, separated_concat,
      memberParts_eq_map]
    simp

theorem symbolsRead_complete (value : Json) (frames : List Frame) :
    (State.complete value frames).symbolsRead = framesRead frames ++ value.symbols := by
  cases frames with
  | nil => rfl
  | cons frame frames =>
    rw [State.complete, State.symbolsRead, symbolsRead_fill, framesRead_cons, List.append_assoc]

/-- A container that ends with a break stays broken in all containers around it. -/
theorem not_isWhole_wrap (place : Break) (broken : ¬value.IsWhole) :
    ¬(State.wrap place value frames).IsWhole := by
  induction frames generalizing value with
  | nil => exact broken
  | cons frame frames inductionHypothesis =>
    refine inductionHypothesis (fun whole => ?_)
    cases frame <;> exact nomatch whole.2

theorem not_intact_breakValue (place : Break) : ¬(State.breakValue place frames).Intact :=
  have broken : ¬(Json.broken place).IsWhole := fun whole => whole
  fun intact => not_isWhole_wrap place broken intact.1

theorem not_intact_breakContainer (place : Break) (container : Container) :
    ¬(State.breakContainer place frames container).Intact := by
  refine fun intact => not_isWhole_wrap place (fun whole => ?_) intact.1
  cases container <;> exact nomatch whole.2

theorem formed_complete (value : Json) (frames : List Frame) :
    (State.complete value frames).Formed := by
  cases frames with
  | nil => trivial
  | cons frame frames => cases frame <;> exact ⟨nofun, nofun⟩

theorem formed_beginValue (symbol : Symbol) : (State.beginValue frames symbol).Formed := by
  cases symbol <;> first | exact formed_complete _ _ | trivial

theorem formed_next (state : State) (symbol : Symbol) : (state.next symbol).Formed := by
  unfold State.next
  split <;> first | exact formed_complete _ _ | exact formed_beginValue _ | trivial

theorem symbolsRead_beginValue {symbol : Symbol}
    (intact : (State.beginValue frames symbol).Intact) :
    (State.beginValue frames symbol).symbolsRead = framesRead frames ++ [symbol] := by
  cases symbol with
  | openArray | openObject => rfl
  | null | boolean | number | string => exact symbolsRead_complete _ _
  | closeArray | closeObject | comma | colon | brokenString | broken =>
    exact absurd intact (not_intact_breakValue _)

theorem separated_comma {parts : List (List Symbol)} (some : parts ≠ []) :
    separated parts ++ [.comma] = partsComma parts := by
  obtain ⟨front, last, rfl⟩ := parts.eq_nil_or_concat.resolve_left some
  rw [List.concat_eq_append, separated_concat, partsComma, partsComma, List.flatMap_append]
  simp

theorem items_ne_nil {items : List Json}
    (formed : (State.dueSeparator frames (.array items)).Formed) :
    itemParts items.reverse ≠ [] := by
  rw [itemParts_eq_map]
  intro none
  rw [List.map_eq_nil_iff, List.reverse_eq_nil_iff] at none
  exact formed.1 (none ▸ rfl)

theorem members_ne_nil {members : List Member}
    (formed : (State.dueSeparator frames (.object members)).Formed) :
    memberParts members.reverse ≠ [] := by
  rw [memberParts_eq_map]
  intro none
  rw [List.map_eq_nil_iff, List.reverse_eq_nil_iff] at none
  exact formed.2 (none ▸ rfl)

/-- A symbol adds itself to what was read. -/
theorem symbolsRead_next {state : State} {symbol : Symbol} (formed : state.Formed)
    (intact : (state.next symbol).Intact) :
    state.Intact ∧ (state.next symbol).symbolsRead = state.symbolsRead ++ [symbol] := by
  cases state with
  | dueValue frames => exact ⟨trivial, symbolsRead_beginValue intact⟩
  | dueFirstItem frames =>
    refine ⟨trivial, ?_⟩
    by_cases ends : symbol = .closeArray
    · subst ends
      exact (symbolsRead_complete _ _).trans (List.append_assoc _ [_] [_]).symm
    · rw [next_dueFirstItem ends] at intact ⊢
      refine (symbolsRead_beginValue intact).trans ?_
      rw [framesRead_cons]
      rfl
  | dueName frames members =>
    refine ⟨trivial, ?_⟩
    cases symbol with
    | string text? =>
      rw [next_dueName]
      exact (List.append_assoc _ (_ :: _) [_]).symm
    | closeObject =>
      cases members with
      | nil => exact (symbolsRead_complete _ _).trans (List.append_assoc _ [_] [_]).symm
      | cons => exact absurd intact (not_intact_breakContainer _ _)
    | _ => cases members <;> exact absurd intact (not_intact_breakContainer _ _)
  | dueColon frames members name =>
    refine ⟨trivial, ?_⟩
    cases symbol with
    | colon =>
      rw [State.next, State.symbolsRead, framesRead_cons, Frame.symbolsRead, State.symbolsRead]
      simp
    | _ => exact absurd intact (not_intact_breakValue _)
  | dueSeparator frames container =>
    refine ⟨trivial, ?_⟩
    cases container with
    | array items =>
      cases symbol with
      | comma =>
        rw [State.next, State.symbolsRead, framesRead_cons, Frame.symbolsRead, State.symbolsRead,
          Container.symbolsRead, ← separated_comma (items_ne_nil formed), List.append_assoc]
        rfl
      | closeArray =>
        exact (symbolsRead_complete _ _).trans (List.append_assoc _ (_ :: _) [_]).symm
      | _ => exact absurd intact (not_intact_breakContainer _ _)
    | object members =>
      cases symbol with
      | comma =>
        rw [State.next, State.symbolsRead, State.symbolsRead, Container.symbolsRead,
          ← separated_comma (members_ne_nil formed), List.append_assoc]
        rfl
      | closeObject =>
        exact (symbolsRead_complete _ _).trans (List.append_assoc _ (_ :: _) [_]).symm
      | _ => exact absurd intact (not_intact_breakContainer _ _)
  | done document => exact nomatch intact.2

/-- Symbols add themselves to what was read. -/
theorem symbolsRead_foldl {state : State} (formed : state.Formed) (symbols : List Symbol)
    (intact : (symbols.foldl State.next state).Intact) :
    state.Intact ∧ (symbols.foldl State.next state).symbolsRead = state.symbolsRead ++ symbols := by
  induction symbols generalizing state with
  | nil => exact ⟨intact, (List.append_nil _).symm⟩
  | cons symbol rest inductionHypothesis =>
    obtain ⟨next, read⟩ := inductionHypothesis (formed_next state symbol) intact
    obtain ⟨before, step⟩ := symbolsRead_next formed next
    refine ⟨before, ?_⟩
    rw [List.foldl_cons, read, step, List.append_assoc]
    rfl

/-- Only a complete value ends without a break. -/
theorem eq_done_of_finish {state : State} (whole : state.finish.root.IsWhole) :
    state = .done state.finish := by
  cases state with
  | done document => rfl
  | dueValue frames | dueColon frames members name =>
    have broken : ¬(Json.broken .truncated).IsWhole := fun whole => whole
    exact absurd whole (not_isWhole_wrap _ broken)
  | dueFirstItem frames | dueName frames members =>
    exact absurd whole (not_isWhole_wrap _ fun whole => nomatch whole.2)
  | dueSeparator frames container =>
    refine absurd whole (not_isWhole_wrap _ fun whole => ?_)
    cases container <;> exact nomatch whole.2

/-- A document without a break, behind which nothing follows, is built of the symbols of its
tree. -/
theorem Document.eq_symbols {symbols : List Symbol} (built : ofSymbols symbols = ⟨value, false⟩)
    (whole : value.IsWhole) : symbols = value.symbols := by
  have done : symbols.foldl State.next (.dueValue []) = .done ⟨value, false⟩ := by
    rw [← built]
    exact eq_done_of_finish (by rw [← ofSymbols, built]; exact whole)
  have intact : (symbols.foldl State.next (.dueValue [])).Intact := done ▸ ⟨whole, rfl⟩
  have formed : (State.dueValue []).Formed := trivial
  have read := (symbolsRead_foldl formed symbols intact).2
  rw [done] at read
  exact read.symm

/-! ### Texts -/

theorem spaced_cons {symbol : Symbol} {symbols : List Symbol} (other : symbol.isNumber = false)
    (spaced : Symbol.Spaced symbols) : Symbol.Spaced (symbol :: symbols) :=
  List.isChain_cons.mpr ⟨fun _ _ isNumber => absurd isNumber (other ▸ Bool.false_ne_true), spaced⟩

theorem spaced_append {symbol : Symbol} {front back : List Symbol}
    (other : symbol.isNumber = false) (first : Symbol.Spaced front) (second : Symbol.Spaced back) :
    Symbol.Spaced (front ++ symbol :: back) := by
  refine List.isChain_append.mpr ⟨first, spaced_cons other second, ?_⟩
  rintro _ _ _ ⟨⟩ _
  exact other ▸ Bool.false_ne_true

theorem spaced_separated {parts : List (List Symbol)} (each : ∀ part ∈ parts, Symbol.Spaced part) :
    Symbol.Spaced (separated parts) := by
  induction parts with
  | nil => exact .nil
  | cons part rest inductionHypothesis =>
    obtain ⟨here, behind⟩ := List.forall_mem_cons.mp each
    cases rest with
    | nil => exact here
    | cons next others => exact spaced_append rfl here (inductionHypothesis behind)

mutual
/-- No two numbers stand side by side in a value. -/
theorem spaced_symbols : ∀ value : Json, Symbol.Spaced value.symbols
  | .null => .singleton _
  | .boolean _ => .singleton _
  | .number _ => .singleton _
  | .string _ => .singleton _
  | .array items _ =>
    spaced_cons rfl (spaced_append rfl (spaced_separated (spaced_items items)) .nil)
  | .object members _ =>
    spaced_cons rfl (spaced_append rfl (spaced_separated (spaced_members members)) .nil)
  | .broken _ => .nil
theorem spaced_items : ∀ items : List Json, ∀ part ∈ itemParts items, Symbol.Spaced part
  | [] => List.forall_mem_nil _
  | item :: items => List.forall_mem_cons.mpr ⟨spaced_symbols item, spaced_items items⟩
theorem spaced_members : ∀ members : List (Option String × Json),
    ∀ part ∈ memberParts members, Symbol.Spaced part
  | [] => List.forall_mem_nil _
  | (_, value) :: members =>
    List.forall_mem_cons.mpr ⟨spaced_cons rfl (spaced_cons rfl (spaced_symbols value)),
      spaced_members members⟩
end

/-- What holds for commas and in all parts holds with commas between the parts. -/
theorem forall_separated (holds : Symbol → Prop) (comma : holds .comma)
    {parts : List (List Symbol)} (each : ∀ part ∈ parts, ∀ symbol ∈ part, holds symbol) :
    ∀ symbol ∈ separated parts, holds symbol := by
  induction parts with
  | nil => exact List.forall_mem_nil _
  | cons part rest inductionHypothesis =>
    obtain ⟨here, behind⟩ := List.forall_mem_cons.mp each
    cases rest with
    | nil => exact here
    | cons next others =>
      exact List.forall_mem_append.mpr
        ⟨here, List.forall_mem_cons.mpr ⟨comma, inductionHypothesis behind⟩⟩

mutual
/-- No symbol of a value is broken. -/
theorem isBroken_symbols : ∀ value : Json, ∀ symbol ∈ value.symbols, symbol.isBroken = false
  | .null | .boolean _ | .number _ | .string _ =>
    List.forall_mem_singleton.mpr rfl
  | .array items _ =>
    List.forall_mem_cons.mpr ⟨rfl, List.forall_mem_append.mpr
      ⟨forall_separated (·.isBroken = false) rfl (isBroken_items items),
        List.forall_mem_singleton.mpr rfl⟩⟩
  | .object members _ =>
    List.forall_mem_cons.mpr ⟨rfl, List.forall_mem_append.mpr
      ⟨forall_separated (·.isBroken = false) rfl (isBroken_members members),
        List.forall_mem_singleton.mpr rfl⟩⟩
  | .broken _ => List.forall_mem_nil _
theorem isBroken_items : ∀ items : List Json,
    ∀ part ∈ itemParts items, ∀ symbol ∈ part, symbol.isBroken = false
  | [] => List.forall_mem_nil _
  | item :: items => List.forall_mem_cons.mpr ⟨isBroken_symbols item, isBroken_items items⟩
theorem isBroken_members : ∀ members : List (Option String × Json),
    ∀ part ∈ memberParts members, ∀ symbol ∈ part, symbol.isBroken = false
  | [] => List.forall_mem_nil _
  | (_, value) :: members =>
    List.forall_mem_cons.mpr
      ⟨List.forall_mem_cons.mpr ⟨rfl, List.forall_mem_cons.mpr ⟨rfl, isBroken_symbols value⟩⟩,
        isBroken_members members⟩
end

/-- A text has a document without a break, behind which nothing follows, just when it spells the
tree of that document. -/
theorem Document.ofText_eq_iff {text : String} :
    Document.ofText text = ⟨value, false⟩ ∧ value.IsWhole ↔ value.Spells text := by
  constructor
  · rintro ⟨built, whole⟩
    have symbols := Document.eq_symbols built whole
    have spelled : Symbol.Spelled (Symbol.ofText text.toList) text.toList :=
      Symbol.spelled_ofText (symbols ▸ isBroken_symbols value)
    exact ⟨whole, symbols ▸ spelled⟩
  · rintro ⟨whole, spelled⟩
    rw [Document.ofText, Symbol.ofText_of_spelled spelled (spaced_symbols value)]
    exact ⟨ofSymbols_symbols whole, whole⟩

end ByteStack.Json
