/-
This file shows that positions never steer an assembly. The positions of tokens
go into the errors, into the table of labels and into the map of the source, and
nothing is decided by them. So taking all positions away before an assembly is
the same as taking them away from what it yields, one part of the assembly after
the other.

Two lists of tokens with the same words are the same list once their positions
are taken away. Their assemblies therefore end alike: both with the same image
and the same offsets in their maps, or both with the same faults in the same
order.
-/

import ByteStack.Assembly.Resolution
import ByteStack.Proofs.Assembly.Grammar
import Mathlib.Data.List.Forall2

namespace ByteStack

/-! ### Words and ends -/

/-- The tokens have the same kinds and literals, wherever they stand. -/
def SameWords : List Token → List Token → Prop :=
  List.Forall₂ fun first second => first.kind = second.kind ∧ first.literal = second.literal

/-- Both assemblies succeed with the same image and the same offsets in their maps, or both fail
with the same faults in the same order. -/
inductive EndsAlike :
    Except (List AssemblyError) Assembly → Except (List AssemblyError) Assembly → Prop where
  | assembled {first second : Assembly} (image : first.image = second.image)
      (offsets : first.map.entries.map Prod.fst = second.map.entries.map Prod.fst) :
      EndsAlike (.ok first) (.ok second)
  | refused {first second : List AssemblyError}
      (faults : first.map AssemblyError.fault = second.map AssemblyError.fault) :
      EndsAlike (.error first) (.error second)

/-- Both sources are cut into tokens, and their assemblies end alike. -/
def BuildsAlike (source other : String) : Prop :=
  ∃ first second, Assembly.ofSource source = Except.mapError .assembly first ∧
    Assembly.ofSource other = Except.mapError .assembly second ∧ EndsAlike first second

/-! ### Taking positions away -/

def Token.unplaced (token : Token) : Token :=
  { token with position := 0 }

def AssemblyError.unplaced (error : AssemblyError) : AssemblyError :=
  { error with position := 0 }

def Statement.unplaced : Statement → Statement
  | .define name _ => .define name 0
  | .instruction mnemonic operation argument => .instruction mnemonic.unplaced operation argument

def Label.unplaced (label : Label) : Label :=
  { label with firstUse? := label.firstUse?.map fun _ => 0 }

/-- The map with nothing of the source but its words. -/
def SourceMap.unplaced (map : SourceMap) : SourceMap :=
  ⟨[], map.entries.map fun entry => (entry.1, entry.2.unplaced)⟩

def Emission.unplaced (emission : Emission) : Emission :=
  ⟨emission.code, emission.labels.map Label.unplaced, emission.map.unplaced⟩

def Assembly.unplaced (assembly : Assembly) : Assembly :=
  ⟨assembly.image, assembly.map.unplaced⟩

/-- What was tried has its positions taken away, whether it succeeded or not. -/
def unplacedOr {Error Result : Type} (error : Error → Error) (result : Result → Result) :
    Except Error Result → Except Error Result
  | .ok value => .ok (result value)
  | .error value => .error (error value)

theorem Token.kind_unplaced (token : Token) : token.unplaced.kind = token.kind := rfl

theorem Token.literal_unplaced (token : Token) : token.unplaced.literal = token.literal := rfl

/-! ### Statements -/

namespace Statement

theorem ofOperand_unplaced (token operand : Token) (mnemonic : Mnemonic) :
    ofOperand token.unplaced mnemonic operand.unplaced =
      unplacedOr AssemblyError.unplaced unplaced (ofOperand token mnemonic operand) := by
  have argument : Argument.ofToken? mnemonic.operand operand.unplaced =
      Argument.ofToken? mnemonic.operand operand := rfl
  unfold ofOperand
  rw [argument]
  cases mnemonic <;> cases Argument.ofToken? _ operand <;> rfl

theorem ofTokens_unplaced (tokens : List Token) :
    ofTokens (tokens.map Token.unplaced) =
      (ofTokens tokens).map (unplacedOr AssemblyError.unplaced unplaced) := by
  induction tokens using ofTokens.induct with
  | case1 => rfl
  | case2 token rest wrong =>
    rw [List.map_cons, ofTokens, Token.kind_unplaced, if_pos wrong, ofTokens, if_pos wrong]
    rfl
  | case3 token rest kind unknown inductionHypothesis =>
    rw [List.map_cons, ofTokens, Token.kind_unplaced, Token.literal_unplaced, if_neg kind, unknown,
      ofTokens, if_neg kind, unknown, List.map_cons, inductionHypothesis]
    rfl
  | case4 token rest kind operation known alone inductionHypothesis =>
    have right := Decidable.not_not.mp kind
    rw [List.map_cons, ofTokens_plain (token.kind_unplaced.trans right) known alone,
      ofTokens_plain right known alone, List.map_cons, inductionHypothesis]
    rfl
  | case5 token kind mnemonic known demand =>
    have right := Decidable.not_not.mp kind
    have due := Mnemonic.operand_ne_none demand
    rw [List.map_singleton, ofTokens_last (token.kind_unplaced.trans right) known due,
      ofTokens_last right known due]
    rfl
  | case6 token kind mnemonic known operand rest demand inductionHypothesis =>
    have right := Decidable.not_not.mp kind
    have due := Mnemonic.operand_ne_none demand
    rw [List.map_cons, List.map_cons,
      ofTokens_withOperand (token.kind_unplaced.trans right) known due,
      ofTokens_withOperand right known due, List.map_cons, inductionHypothesis, ofOperand_unplaced]

end Statement

/-! ### Labels -/

namespace Label

theorem find?_unplaced (name : String) (labels : List Label) :
    find? name (labels.map unplaced) = (find? name labels).map unplaced := by
  rw [find?, List.find?_map]
  rfl

theorem isDefined_unplaced (name : String) (labels : List Label) :
    isDefined name (labels.map unplaced) = isDefined name labels := by
  unfold isDefined
  rw [find?_unplaced]
  cases find? name labels <;> rfl

/-- A change of one label, next to what it does to the label without its position. -/
theorem update_unplaced (name : String) (change other : Label → Label) (labels : List Label)
    (same : ∀ label, other label.unplaced = (change label).unplaced) :
    update name other (labels.map unplaced) = (update name change labels).map unplaced := by
  induction labels with
  | nil => exact congrArg (· :: []) (same (named name))
  | cons label rest inductionHypothesis =>
    rw [List.map_cons, update, update]
    by_cases found : label.name = name
    · rw [if_pos found, if_pos (show label.unplaced.name = name from found), same, List.map_cons]
    · rw [if_neg found, if_neg (show ¬label.unplaced.name = name from found), inductionHypothesis,
        List.map_cons]

theorem define_unplaced (name : String) (offset : Nat) (labels : List Label) :
    define name offset (labels.map unplaced) = (define name offset labels).map unplaced :=
  update_unplaced name _ _ labels fun _ => rfl

theorem unresolved?_unplaced (label : Label) :
    label.unplaced.unresolved? = label.unresolved?.map AssemblyError.unplaced := by
  unfold unresolved?
  rw [show label.unplaced.address? = label.address? from rfl]
  cases label.address? with
  | some address => rfl
  | none =>
    show some (AssemblyError.mk _ ((label.firstUse?.map fun _ => 0).getD 0)) = _
    cases label.firstUse? <;> rfl

theorem filterMap_unresolved?_unplaced (labels : List Label) :
    (labels.map unplaced).filterMap unresolved? =
      (labels.filterMap unresolved?).map AssemblyError.unplaced := by
  rw [List.filterMap_map, List.map_filterMap]
  exact congrArg (List.filterMap · labels) (funext unresolved?_unplaced)

theorem foldl_resolve_unplaced (code : Array UInt8) (labels : List Label) :
    (labels.map unplaced).foldl resolve code = labels.foldl resolve code :=
  List.foldl_map

end Label

/-! ### Emission -/

theorem SourceMap.insert_unplaced (offset : Nat) (token : Token) (entries : List (Nat × Token)) :
    insert offset token.unplaced (entries.map fun entry => (entry.1, entry.2.unplaced)) =
      (insert offset token entries).map fun entry => (entry.1, entry.2.unplaced) := by
  induction entries with
  | nil => rfl
  | cons entry rest inductionHypothesis =>
    rw [List.map_cons, insert, insert]
    by_cases below : entry.1 < offset
    · rw [if_pos below, if_pos below]
      rfl
    rw [if_neg below, if_neg below]
    by_cases same : entry.1 = offset
    · rw [if_pos same, if_pos same]
      rfl
    · rw [if_neg same, if_neg same, inductionHypothesis]
      rfl

namespace Emission

variable (emission : Emission)

theorem refusal?_unplaced (statement : Statement) :
    emission.unplaced.refusal? statement.unplaced =
      (emission.refusal? statement).map AssemblyError.unplaced := by
  cases statement with
  | define name position =>
    show (if Label.isDefined name (emission.labels.map Label.unplaced) then _ else _) = _
    rw [Label.isDefined_unplaced, refusal?]
    split <;> rfl
  | instruction mnemonic operation argument =>
    show (if Layout.codeSize < emission.code.size + 1 + argument.width then _ else _) = _
    rw [refusal?]
    split <;> rfl

theorem noteUse_unplaced (labels : List Label) (offset : Nat) (mnemonic : Token)
    (argument : Argument) :
    noteUse (labels.map Label.unplaced) offset mnemonic.unplaced argument =
      (noteUse labels offset mnemonic argument).map Label.unplaced := by
  cases argument with
  | nothing | byte => rfl
  | label name =>
    refine Label.update_unplaced name _ _ labels fun label => ?_
    unfold Label.unplaced
    cases label.firstUse? <;> rfl

theorem code_unplaced : emission.unplaced.code = emission.code := rfl

theorem labels_unplaced : emission.unplaced.labels = emission.labels.map Label.unplaced := rfl

theorem accept_unplaced (statement : Statement) :
    emission.unplaced.accept statement.unplaced = (emission.accept statement).unplaced := by
  cases statement with
  | define name position =>
    rw [Statement.unplaced, accept, code_unplaced, labels_unplaced, Label.define_unplaced]
    rfl
  | instruction mnemonic operation argument =>
    rw [Statement.unplaced, accept, code_unplaced, labels_unplaced, noteUse_unplaced, SourceMap.add,
      show emission.unplaced.map.entries =
        emission.map.entries.map fun entry => (entry.1, entry.2.unplaced) from rfl,
      SourceMap.insert_unplaced]
    rfl

/-- The errors and the emission, without positions. -/
def unplacedResult (result : List AssemblyError × Emission) : List AssemblyError × Emission :=
  (result.1.map AssemblyError.unplaced, result.2.unplaced)

theorem acceptAll_unplaced (statements : List (Except AssemblyError Statement)) :
    emission.unplaced.acceptAll
        (statements.map (unplacedOr AssemblyError.unplaced Statement.unplaced)) =
      unplacedResult (emission.acceptAll statements) := by
  induction statements generalizing emission with
  | nil => rfl
  | cons tried rest inductionHypothesis =>
    cases tried with
    | error error =>
      rw [List.map_cons, unplacedOr, acceptAll, inductionHypothesis, acceptAll]
      rfl
    | ok statement =>
      rw [List.map_cons, unplacedOr, acceptAll, acceptAll, refusal?_unplaced]
      cases emission.refusal? statement with
      | none =>
        rw [Option.map_none, accept_unplaced]
        exact inductionHypothesis _
      | some error =>
        rw [Option.map_some]
        dsimp only
        rw [show error.unplaced.fault = error.fault from rfl, inductionHypothesis]
        split <;> rfl

end Emission

/-! ### Whole assemblies -/

namespace Assembly

/-- An assembly of tokens without positions yields what the assembly of the tokens yields, without
positions. -/
theorem ofTokens_unplaced (tokens : List Token) (source : String) :
    ofTokens (tokens.map Token.unplaced) "" =
      unplacedOr (List.map AssemblyError.unplaced) unplaced (ofTokens tokens source) := by
  have emitted : (Emission.start "").acceptAll (Statement.ofTokens (tokens.map Token.unplaced)) =
      Emission.unplacedResult ((Emission.start source).acceptAll (Statement.ofTokens tokens)) := by
    rw [Statement.ofTokens_unplaced, ← Emission.acceptAll_unplaced]
    rfl
  unfold ofTokens
  rw [emitted]
  obtain ⟨errors, emission⟩ := (Emission.start source).acceptAll (Statement.ofTokens tokens)
  dsimp only [Emission.unplacedResult]
  rw [List.isEmpty_map, Emission.labels_unplaced, Label.filterMap_unresolved?_unplaced,
    List.isEmpty_map, Label.foldl_resolve_unplaced, Emission.code_unplaced, List.getLast?_map]
  cases errors.isEmpty with
  | false => rfl
  | true =>
    cases (emission.labels.filterMap Label.unresolved?).isEmpty with
    | false => rfl
    | true =>
      cases Image.ofCode? (emission.labels.foldl Label.resolve emission.code).toList with
      | ok image => rfl
      | error fault => cases tokens.getLast? <;> rfl

end Assembly

theorem SameWords.map_unplaced {first second : List Token} (same : SameWords first second) :
    first.map Token.unplaced = second.map Token.unplaced := by
  induction same with
  | nil => rfl
  | cons same _ inductionHypothesis =>
    rw [List.map_cons, List.map_cons, inductionHypothesis, Token.unplaced, Token.unplaced, same.1,
      same.2]

/-- Two results that agree once their positions are taken away end alike. -/
theorem EndsAlike.of_unplacedOr {first second : Except (List AssemblyError) Assembly}
    (same : unplacedOr (List.map AssemblyError.unplaced) Assembly.unplaced first =
      unplacedOr (List.map AssemblyError.unplaced) Assembly.unplaced second) :
    EndsAlike first second := by
  cases first with
  | error first =>
    cases second with
    | error second =>
      refine .refused ?_
      have faults := congrArg (List.map AssemblyError.fault) (Except.error.inj same)
      rwa [List.map_map, List.map_map] at faults
    | ok second => cases same
  | ok first =>
    cases second with
    | error second => cases same
    | ok second =>
      have both := Except.ok.inj same
      refine .assembled (show first.unplaced.image = second.unplaced.image by rw [both]) ?_
      have offsets := congrArg (fun assembly => assembly.map.entries.map Prod.fst) both
      dsimp only [Assembly.unplaced, SourceMap.unplaced] at offsets
      rwa [List.map_map, List.map_map] at offsets

/-- Tokens with the same words are assembled alike, wherever they stand and whatever text they are
said to come from. -/
theorem SameWords.endsAlike {first second : List Token} (same : SameWords first second)
    (source other : String) :
    EndsAlike (Assembly.ofTokens first source) (Assembly.ofTokens second other) := by
  refine EndsAlike.of_unplacedOr ?_
  rw [← Assembly.ofTokens_unplaced, ← Assembly.ofTokens_unplaced, same.map_unplaced]

theorem Assembly.ofSource_of_tokensOf {source : String} {tokens : List Token}
    (read : tokensOf source = .ok tokens) :
    Assembly.ofSource source = Except.mapError .assembly (Assembly.ofTokens tokens source) := by
  rw [Assembly.ofSource, read]
  dsimp only
  cases Assembly.ofTokens tokens source <;> rfl

/-- Two sources with the same words are built alike. -/
theorem SameWords.buildsAlike {source other : String} {first second : List Token}
    (same : SameWords first second) (read : tokensOf source = .ok first)
    (reread : tokensOf other = .ok second) : BuildsAlike source other :=
  ⟨_, _, Assembly.ofSource_of_tokensOf read, Assembly.ofSource_of_tokensOf reread,
    same.endsAlike source other⟩

end ByteStack
