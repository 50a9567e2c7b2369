/-
This file shows that every diagnostic of a text that cannot be assembled points
at a character. Each kind of error is reported at some token: at the mnemonic,
at a wrong operand, at the label of a definition, or, for a label that is never
set, at the mnemonic of its first use. And every token begins with a character
that a reader can see, in the line that is shown, right above the caret.
-/

import ByteStack.Diagnostic
import ByteStack.Proofs.Assembly.Report
import ByteStack.Proofs.Source.Character

namespace ByteStack

variable {before after program : Program} {tokens front rest : List Token}
  {errors : List AssemblyError}

/-! ### Errors and tokens -/

/-- The error is reported at the first character of one of the tokens. -/
def AssemblyError.IsAt (tokens : List Token) (error : AssemblyError) : Prop :=
  ∃ token ∈ tokens, error.position = token.position

theorem AssemblyError.IsAt.append_left {error : AssemblyError} (isAt : error.IsAt rest)
    (front : List Token) : error.IsAt (front ++ rest) := by
  obtain ⟨token, member, same⟩ := isAt
  exact ⟨token, List.mem_append_right _ member, same⟩

theorem Statement.Spelled.mnemonic_mem {mnemonic : Token} {operation : Operation}
    {argument : Argument} (spelled : Spelled front (.instruction mnemonic operation argument)) :
    mnemonic ∈ front := by
  cases spelled <;> exact List.mem_cons_self

/-- The definition of a label stands where the name of the label does. -/
theorem Statement.Spelled.exists_label {name : String} {position : Nat}
    (spelled : Spelled front (.define name position)) :
    ∃ label ∈ front, position = label.position := by
  cases spelled with
  | define => exact ⟨_, List.mem_cons_of_mem _ List.mem_cons_self, rfl⟩

namespace Scanned

/-- Every error of a scan is reported at a token. -/
theorem isAt (scanned : Scanned before tokens errors after) :
    ∀ error ∈ errors, error.IsAt tokens := by
  induction scanned with
  | finished => exact nofun
  | notAnOperation before rest kind =>
    exact List.forall_mem_singleton.mpr ⟨_, List.mem_cons_self, rfl⟩
  | unknown kind unknown more inductionHypothesis =>
    refine List.forall_mem_cons.mpr ⟨⟨_, List.mem_cons_self, rfl⟩, fun error member => ?_⟩
    exact (inductionHypothesis error member).append_left [_]
  | unfinished before kind demands due =>
    exact List.forall_mem_singleton.mpr ⟨_, List.mem_cons_self, rfl⟩
  | wrongOperand kind demands due wrong more inductionHypothesis =>
    refine List.forall_mem_cons.mpr
      ⟨⟨_, List.mem_cons_of_mem _ List.mem_cons_self, rfl⟩, fun error member => ?_⟩
    exact (inductionHypothesis error member).append_left [_, _]
  | define spelled fresh more inductionHypothesis =>
    exact fun error member => (inductionHypothesis error member).append_left _
  | defineAgain spelled known more inductionHypothesis =>
    obtain ⟨label, member, same⟩ := spelled.exists_label
    refine List.forall_mem_cons.mpr
      ⟨⟨label, List.mem_append_left _ member, same⟩, fun error member => ?_⟩
    exact (inductionHypothesis error member).append_left _
  | instruction spelled fits more inductionHypothesis =>
    exact fun error member => (inductionHypothesis error member).append_left _
  | overflow before rest spelled full =>
    exact List.forall_mem_singleton.mpr
      ⟨_, List.mem_append_left _ spelled.mnemonic_mem, rfl⟩

/-- The mnemonics of accepted instructions are tokens. -/
theorem mnemonic_mem (scanned : Scanned before tokens errors after) {mnemonic : Token}
    {operation : Operation} {argument : Argument}
    (member : .instruction mnemonic operation argument ∈ after) :
    .instruction mnemonic operation argument ∈ before ∨ mnemonic ∈ tokens := by
  induction scanned with
  | finished | notAnOperation | unfinished | overflow => exact .inl member
  | unknown kind unknown more inductionHypothesis =>
    exact (inductionHypothesis member).imp_right (List.mem_cons_of_mem _)
  | wrongOperand kind demands due wrong more inductionHypothesis =>
    exact (inductionHypothesis member).imp_right fun later =>
      List.mem_cons_of_mem _ (List.mem_cons_of_mem _ later)
  | define spelled fresh more inductionHypothesis =>
    rcases inductionHypothesis member with earlier | later
    · rcases List.mem_append.mp earlier with first | last
      · exact .inl first
      · exact nomatch List.mem_singleton.mp last
    · exact .inr (List.mem_append_right _ later)
  | defineAgain spelled known more inductionHypothesis =>
    exact (inductionHypothesis member).imp_right (List.mem_append_right _)
  | instruction spelled fits more inductionHypothesis =>
    rcases inductionHypothesis member with earlier | later
    · rcases List.mem_append.mp earlier with first | last
      · exact .inl first
      · obtain ⟨rfl, rfl, rfl⟩ := Statement.instruction.inj (List.mem_singleton.mp last)
        exact .inr (List.mem_append_left _ spelled.mnemonic_mem)
    · exact .inr (List.mem_append_right _ later)

end Scanned

/-! ### Labels that are never set -/

theorem Statement.eq_of_use? {statement : Statement} {name : String} {position : Nat}
    (uses : statement.use? = some (name, position)) :
    ∃ mnemonic operation, statement = .instruction mnemonic operation (.label name) ∧
      position = mnemonic.position := by
  unfold use? at uses
  split at uses
  · obtain ⟨rfl, rfl⟩ := Prod.mk.inj (Option.some.inj uses)
    exact ⟨_, _, rfl, rfl⟩
  · exact nomatch uses

theorem Statement.exists_use {statement : Statement} {name : String}
    (uses : statement.usedName? = some name) :
    ∃ position, statement.use? = some (name, position) := by
  unfold usedName? at uses
  split at uses
  · obtain rfl := Option.some.inj uses
    exact ⟨_, rfl⟩
  · exact nomatch uses

/-- The first use of a used label is at a mnemonic. -/
theorem Program.exists_firstUse {name : String} (used : name ∈ program.usedNames) :
    ∃ mnemonic operation, .instruction mnemonic operation (.label name) ∈ program ∧
      program.uses.lookup name = some mnemonic.position := by
  cases first : program.uses.lookup name with
  | none =>
    obtain ⟨statement, member, same⟩ := List.mem_filterMap.mp used
    obtain ⟨position, uses⟩ := Statement.exists_use same
    have use : (name, position) ∈ program.uses := List.mem_filterMap.mpr ⟨_, member, uses⟩
    exact absurd (List.lookup_eq_none_iff.mp first _ use) (bne_self_eq_false name ▸ nofun)
  | some position =>
    obtain ⟨earlier, later, split, _⟩ := List.lookup_eq_some_iff.mp first
    have use : (name, position) ∈ program.uses := by
      rw [split]
      exact List.mem_append_right _ List.mem_cons_self
    obtain ⟨statement, member, same⟩ := List.mem_filterMap.mp use
    obtain ⟨mnemonic, operation, rfl, rfl⟩ := Statement.eq_of_use? same
    exact ⟨mnemonic, operation, member, rfl⟩

/-- A label that is never set is reported at a mnemonic. -/
theorem Scanned.isAt_neverSet (scanned : Scanned [] tokens errors program) :
    ∀ error ∈ program.neverSet, error.IsAt tokens := by
  intro error member
  obtain ⟨name, chosen, rfl⟩ := List.mem_map.mp member
  have used := List.mem_eraseDups.mp (List.mem_filter.mp chosen).1
  obtain ⟨mnemonic, operation, there, first⟩ := program.exists_firstUse used
  rcases scanned.mnemonic_mem there with none | token
  · exact absurd none List.not_mem_nil
  · exact ⟨mnemonic, token, by rw [first]; rfl⟩

/-- Every error of an assembly is reported at a token. -/
theorem Assembly.isAt_of_ofTokens {source : String}
    (failed : ofTokens tokens source = .error errors) : ∀ error ∈ errors, error.IsAt tokens := by
  obtain ⟨found, program, scanned⟩ := Scanned.exists_errors [] tokens
  by_cases clean : found = []
  · subst clean
    by_cases set : program.neverSet = []
    · obtain ⟨assembly, made⟩ : ∃ assembly, ofTokens tokens source = .ok assembly :=
        ofTokens_of_clean scanned set
      exact nomatch made.symm.trans failed
    · obtain rfl := Except.error.inj ((ofTokens_of_neverSet scanned set).symm.trans failed)
      exact scanned.isAt_neverSet
  · obtain rfl := Except.error.inj ((ofTokens_of_found scanned clean).symm.trans failed)
    exact scanned.isAt

/-! ### Diagnostics and characters -/

/-- The diagnostic shows a character of the text: its line is the one with that many line feeds in
front, it has the character at the column, and the caret of the ruler stands at the column, too. -/
structure Diagnostic.PointsTo (diagnostic : Diagnostic) (source : List Char) (position : Nat)
    (location : Location) (character : Char) : Prop where
  located : diagnostic.location? = some location
  visible : Visible source position character
  place : location.Shows source position character
  marker : location.marker.toList = List.replicate location.column '=' ++
    '^' :: List.replicate (location.line.length - location.column - 1) '='
  width : location.marker.length = location.line.length
  rendered : diagnostic.render = "error on line " ++ Text.natural location.lineNumber ++ ": " ++
    diagnostic.message ++ "\n" ++ location.line ++ "\n" ++ location.marker ++
      (diagnostic.hint?.elim "" ("\nhint: " ++ ·))

/-- The messages of an error and the positions at which they are reported. -/
def SourceError.entries : SourceError → List (String × Nat)
  | .lexical error => [("lexer error: " ++ error.message, error.position)]
  | .assembly errors => errors.map fun error => (error.message, error.position)

theorem Diagnostic.pointsTo_of_visible {diagnostic : Diagnostic} {source : List Char}
    {position : Nat} {character : Char}
    (located : diagnostic.location? = some (Location.ofPosition source position))
    (visible : Visible source position character) :
    diagnostic.PointsTo source position (Location.ofPosition source position) character := by
  have shows := Location.shows_ofPosition visible
  have marker := Location.marker_eq shows.column
  have inside := (List.getElem?_eq_some_iff.mp shows.column).1
  refine ⟨located, visible, shows, marker, ?_, ?_⟩
  · rw [← String.length_toList, marker, List.length_append, List.length_cons,
      List.length_replicate, List.length_replicate, ← String.length_toList]
    omega
  · rw [render, located]
    cases diagnostic.hint? with
    | none => exact (String.append_empty).symm
    | some hint => exact String.append_assoc

theorem SourceError.exists_visible {source : String} {error : SourceError}
    (failed : Assembly.ofSource source = .error error) :
    ∀ entry ∈ error.entries, ∃ character, Visible source.toList entry.2 character := by
  unfold Assembly.ofSource at failed
  cases read : tokensOf source with
  | error found =>
    rw [read] at failed
    obtain rfl := Except.error.inj failed
    exact List.forall_mem_singleton.mpr (exists_visible_of_lexicalError read)
  | ok tokens =>
    rw [read] at failed
    dsimp only at failed
    cases assembled : Assembly.ofTokens tokens source with
    | ok assembly =>
      rw [assembled] at failed
      exact nomatch failed
    | error errors =>
      rw [assembled] at failed
      obtain rfl := Except.error.inj failed
      refine List.forall_mem_map.mpr fun error member => ?_
      obtain ⟨token, there, same⟩ := Assembly.isAt_of_ofTokens assembled error member
      obtain ⟨character, visible⟩ := exists_visible_of_tokensOf read there
      exact ⟨character, same ▸ visible⟩

/-- A diagnostic for each entry, in order, with its message and at its position. -/
theorem Diagnostic.forall₂_ofSourceError (source : String) (error : SourceError) :
    List.Forall₂ (fun entry diagnostic => diagnostic.message = entry.1 ∧
      diagnostic.location? = some (Location.ofPosition source.toList entry.2))
      error.entries (ofSourceError source error) := by
  cases error with
  | lexical error => exact .cons ⟨rfl, rfl⟩ .nil
  | assembly errors =>
    rw [ofSourceError, ofAssemblyErrors_eq_map, SourceError.entries, List.forall₂_map_left_iff,
      List.forall₂_map_right_iff, List.forall₂_same]
    exact fun error _ => ⟨rfl, rfl⟩

/-- When a text cannot be assembled, there is one diagnostic for each error, in the same order,
and each points to the character at which its error is reported. -/
theorem diagnostics_pointTo {source : String} {error : SourceError}
    (failed : Assembly.ofSource source = .error error) :
    List.Forall₂ (fun entry diagnostic => diagnostic.message = entry.1 ∧
      ∃ location character, diagnostic.PointsTo source.toList entry.2 location character)
      error.entries (Diagnostic.ofSourceError source error) := by
  have each := (List.forall₂_and_left _ _).mpr
    ⟨SourceError.exists_visible failed, Diagnostic.forall₂_ofSourceError source error⟩
  refine each.imp fun entry diagnostic both => ?_
  obtain ⟨⟨character, visible⟩, message, located⟩ := both
  exact ⟨message, _, character, Diagnostic.pointsTo_of_visible located visible⟩

/-- A question mark in the second line is no beginning of a token. -/
theorem diagnostics_pointTo_questionMark :
    ∃ diagnostic location,
      Diagnostic.ofSourceError "\n ?" (.lexical ⟨.unexpectedCharacter '?', 2⟩) = [diagnostic] ∧
        diagnostic.message = "lexer error: unexpected character '?'" ∧
        diagnostic.PointsTo "\n ?".toList 2 location '?' ∧ location.lineNumber = 2 := by
  have blanks : Segment ['\n', ' '] ['?'] none := by
    refine .blanks ⟨List.cons_ne_nil _ _,
      List.forall_mem_cons.mpr ⟨rfl, List.forall_mem_singleton.mpr rfl⟩, fun next same => ?_⟩
    obtain rfl := Option.some.inj same
    decide
  have split : Segmented 0 ['\n', ' ', '?'] [] ['?'] := .layout blanks .stop
  have refused : tokensOf "\n ?" = .error ⟨.unexpectedCharacter '?', 2⟩ :=
    Reading.outcome_stuck split rfl
  have failed : Assembly.ofSource "\n ?" = .error (.lexical ⟨.unexpectedCharacter '?', 2⟩) := by
    rw [Assembly.ofSource, refused]
  cases diagnostics_pointTo failed with
  | cons both rest =>
    obtain ⟨message, location, character, points⟩ := both
    obtain rfl : '?' = character := Option.some.inj points.visible.1
    exact ⟨_, location, rfl, rfl, points, points.place.lineNumber⟩

end ByteStack
