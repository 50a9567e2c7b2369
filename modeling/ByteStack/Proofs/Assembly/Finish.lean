/-
This file follows a pass to its end. It meets the errors of the emission, and
without errors it has emitted the same. Then the addresses are written: every
placeholder gets its byte once, no byte is out of bounds, and the code fits into
an image.
-/

import ByteStack.Proofs.Assembly.Pass
import ByteStack.Proofs.Assembly.Patching

namespace ByteStack

namespace Pass

variable {pass : Pass} {draft : Draft} {strokes : List Stroke}
  {statements : List (Except AssemblyError Statement)} {errors : List AssemblyError}
  {error : AssemblyError}

/-! ### From one point to another -/

/-- Some steps lead from one point to the other. -/
def Reaches (pass last : Pass) : Prop :=
  ∃ count, pass.steps count = last

theorem Reaches.refl (pass : Pass) : pass.Reaches pass :=
  ⟨0, rfl⟩

theorem Reaches.head {last : Pass} (reaches : pass.step.Reaches last) : pass.Reaches last := by
  obtain ⟨count, rfl⟩ := reaches
  exact ⟨count + 1, rfl⟩

theorem Reaches.trans {middle last : Pass} (first : pass.Reaches middle)
    (second : middle.Reaches last) : pass.Reaches last := by
  obtain ⟨count, rfl⟩ := first
  induction count generalizing pass with
  | zero => exact second
  | succ count inductionHypothesis => exact (inductionHypothesis second).head

/-- Strokes that meet no error are all made. -/
theorem reaches_of_clear (kept : draft.Kept) (clear : draft.emission.firstError? strokes = none)
    (made : List Stroke) : ∃ next : Draft, next.Kept ∧
      next.emission = strokes.foldl Emission.apply draft.emission ∧
      Reaches ⟨draft, strokes, statements, errors, made⟩
        ⟨next, [], statements, errors, made ++ strokes⟩ := by
  induction strokes generalizing draft made with
  | nil => exact ⟨draft, kept, rfl, by rw [List.append_nil]; exact .refl _⟩
  | cons stroke rest inductionHypothesis =>
    obtain ⟨here, later⟩ := Option.or_eq_none_iff.mp clear
    obtain ⟨middle, performed, kept, same⟩ := kept.perform_of_clear here
    obtain ⟨next, done⟩ := inductionHypothesis kept (same ▸ later) (made ++ [stroke])
    rw [same, ← List.append_cons] at done
    refine ⟨next, done.1, done.2.1, .head ?_⟩
    rw [step_of_performed performed]
    exact done.2.2

/-- Other strokes are made up to the first error. -/
theorem reaches_of_error (kept : draft.Kept)
    (meets : draft.emission.firstError? strokes = some error) (made : List Stroke) :
    ∃ (next : Draft) (log : List Stroke), Reaches ⟨draft, strokes, statements, errors, made⟩
      (refuse ⟨next, [], statements, errors, log⟩ error) := by
  induction strokes generalizing draft made with
  | nil => exact nomatch meets
  | cons stroke rest inductionHypothesis =>
    cases obstacle : draft.emission.obstacle? stroke with
    | some other =>
      rw [Emission.firstError?, obstacle, Option.some_or] at meets
      obtain rfl := Option.some.inj meets
      refine ⟨draft, made, .head ?_⟩
      rw [step_of_obstacle kept obstacle]
      exact .refl _
    | none =>
      rw [Emission.firstError?, obstacle, Option.none_or] at meets
      obtain ⟨middle, performed, kept, same⟩ := kept.perform_of_clear obstacle
      obtain ⟨next, log, reaches⟩ := inductionHypothesis kept (same ▸ meets) (made ++ [stroke])
      refine ⟨next, log, .head ?_⟩
      rw [step_of_performed performed]
      exact reaches

/-- A statement that is refused is dropped. Nothing of it is left behind by an error after which
the pass goes on. -/
theorem reaches_of_refused (kept : draft.Kept) {statement : Statement}
    (refused : draft.emission.refusal? statement = some error) (made : List Stroke) :
    ∃ (next : Draft) (log : List Stroke), (error.fault.isStructural = false → next = draft) ∧
      Reaches ⟨draft, statement.strokes, statements, errors, made⟩
        (refuse ⟨next, [], statements, errors, log⟩ error) := by
  have meets : draft.emission.firstError? statement.strokes = some error :=
    (Emission.firstError?_strokes kept.fits statement).trans refused
  cases statement with
  | define name position =>
    have obstacle : draft.emission.obstacle? (.define name position) = some error := refused
    refine ⟨draft, made, fun _ => rfl, .head ?_⟩
    rw [show Statement.strokes (.define name position) = [.define name position] from rfl,
      step_of_obstacle kept obstacle]
    exact .refl _
  | instruction mnemonic operation argument =>
    obtain ⟨next, log, reaches⟩ := reaches_of_error kept meets made
    refine ⟨next, log, fun harmless => ?_, reaches⟩
    rw [Emission.refusal?] at refused
    split at refused
    · obtain rfl := Option.some.inj refused
      cases harmless
    · cases refused

/-- Nothing follows a structural error. -/
def Ended : List (Except AssemblyError Statement) → Prop
  | [] => True
  | .error error :: rest => (error.fault.isStructural → rest = []) ∧ Ended rest
  | .ok _ :: rest => Ended rest

theorem Ended.harmless {rest : List (Except AssemblyError Statement)} (ended : Ended rest)
    (harmless : error.fault.isStructural = false) : Ended (.error error :: rest) :=
  ⟨fun structural => absurd structural (Bool.eq_false_iff.mp harmless), ended⟩

theorem ended_ofTokens (tokens : List Token) : Ended (Statement.ofTokens tokens) := by
  have operand (token : Token) (mnemonic : Mnemonic) (found : Token)
      (rest : List (Except AssemblyError Statement)) (ended : Ended rest) :
      Ended (Statement.ofOperand token mnemonic found :: rest) := by
    unfold Statement.ofOperand
    split
    · exact ended
    · exact ended
    · exact ended.harmless rfl
  induction tokens using Statement.ofTokens.induct with
  | case1 => trivial
  | case2 token rest wrong =>
    rw [Statement.ofTokens, if_pos wrong]
    exact ⟨fun _ => rfl, trivial⟩
  | case3 token rest kind unknown inductionHypothesis =>
    rw [Statement.ofTokens, if_neg kind, unknown]
    exact inductionHypothesis.harmless rfl
  | case4 token rest kind operation known alone inductionHypothesis =>
    rw [Statement.ofTokens_plain (Decidable.not_not.mp kind) known alone]
    exact inductionHypothesis
  | case5 token kind mnemonic known demand =>
    rw [Statement.ofTokens_last (Decidable.not_not.mp kind) known
      (Mnemonic.operand_ne_none demand)]
    exact ⟨fun _ => rfl, trivial⟩
  | case6 token kind mnemonic known found rest demand inductionHypothesis =>
    rw [Statement.ofTokens_withOperand (Decidable.not_not.mp kind) known
      (Mnemonic.operand_ne_none demand)]
    exact operand token mnemonic found _ inductionHypothesis

/-- The pass is over. It has met the errors of an emission behind some that it had met before, and
has produced the same if there are none. -/
structure EndsAs (last : Pass) (before : List AssemblyError)
    (result : List AssemblyError × Emission) : Prop where
  finished : last.IsFinished
  errors : last.errors = before ++ result.1
  emitted : result.1 = [] → last.draft.emission = result.2

/-- The first of the errors may also be counted among those from before. -/
theorem EndsAs.cons {last : Pass} {result : List AssemblyError × Emission}
    (ends : last.EndsAs (errors ++ [error]) result) (emission : Emission) :
    last.EndsAs errors (error :: result.1, emission) where
  finished := ends.finished
  errors := ends.errors.trans (List.append_assoc _ _ _)
  emitted clean := absurd clean (List.cons_ne_nil _ _)

/-- The pass goes the way of the emission. -/
theorem exists_last (kept : draft.Kept) (ended : Ended statements) (errors : List AssemblyError)
    (made : List Stroke) : ∃ last : Pass, Reaches ⟨draft, [], statements, errors, made⟩ last ∧
      last.EndsAs errors (draft.emission.acceptAll statements) := by
  induction statements generalizing draft errors made with
  | nil => exact ⟨_, .refl _, ⟨rfl, rfl⟩, (List.append_nil _).symm, fun _ => rfl⟩
  | cons result rest inductionHypothesis =>
    cases result with
    | error error =>
      obtain ⟨alone, ended⟩ := ended
      -- A structural error in the place of a statement is the last entry, so nothing is dropped.
      have step : step ⟨draft, [], .error error :: rest, errors, made⟩ =
          ⟨draft, [], rest, errors ++ [error], made⟩ := by
        cases structural : error.fault.isStructural with
        | true => exact alone structural ▸ refuse_of_structural structural
        | false => exact refuse_of_harmless structural
      obtain ⟨last, reaches, ends⟩ := inductionHypothesis kept ended (errors ++ [error]) made
      exact ⟨last, .head (step ▸ reaches), ends.cons _⟩
    | ok statement =>
      cases refusal : draft.emission.refusal? statement with
      | none =>
        have clear := (Emission.firstError?_strokes kept.fits statement).trans refusal
        obtain ⟨next, kept, emitted, reaches⟩ := reaches_of_clear kept clear made
        rw [Emission.foldl_apply] at emitted
        obtain ⟨last, more, ends⟩ :=
          inductionHypothesis kept ended errors (made ++ statement.strokes)
        rw [Emission.acceptAll, refusal]
        exact ⟨last, .head (reaches.trans more), emitted ▸ ends⟩
      | some error =>
        obtain ⟨next, log, same, reaches⟩ := reaches_of_refused kept refusal made
        rw [Emission.acceptAll, refusal]
        dsimp only
        cases structural : error.fault.isStructural with
        | true =>
          -- The instruction may have been begun, but nobody looks at what it left behind.
          rw [refuse_of_structural structural] at reaches
          rw [if_pos rfl]
          have stopped : EndsAs ⟨next, [], [], errors ++ [error], log⟩ (errors ++ [error])
              ([], next.emission) :=
            ⟨⟨rfl, rfl⟩, (List.append_nil _).symm, fun _ => rfl⟩
          exact ⟨_, .head reaches, stopped.cons _⟩
        | false =>
          rw [refuse_of_harmless structural, same structural] at reaches
          rw [if_neg Bool.false_ne_true]
          obtain ⟨last, more, ends⟩ := inductionHypothesis kept ended (errors ++ [error]) log
          exact ⟨last, .head (reaches.trans more), ends.cons _⟩

/-! ### Resolution -/

/-- What comes of a pass over these tokens when it is finished. Nothing does when an address would
be written outside the code. -/
def outcome? (pass : Pass) (tokens : List Token) :
    Option (Except (List AssemblyError) Assembly) :=
  if !pass.errors.isEmpty then some (.error pass.errors)
  else
    (pass.draft.table.resolve? pass.draft.code).map fun code =>
      if !pass.draft.table.unset.isEmpty then .error pass.draft.table.unset
      else
        match Image.ofCode? code.toList with
        | .ok image => .ok ⟨image, pass.draft.map⟩
        | .error _ => .error [⟨.codeOverflow, (tokens.getLast?.map Token.position).getD 0⟩]

/-- What can be relied on when the addresses have been written. -/
structure Completes (pass : Pass) (code : Array UInt8) : Prop where
  resolves : pass.draft.table.Resolves pass.draft.code code
  /-- When all labels are set, the bytes that are written are the placeholders. -/
  covers : pass.draft.table.unset = [] → ∀ place < pass.draft.code.size,
    place ∈ pass.draft.table.patches.map Patch.place ↔
      (Strokes.roles pass.made)[place]? = some .placeholder
  image : ∃ image, Image.ofCode? code.toList = .ok image

theorem Orderly.sited {tokens : List Token} (orderly : pass.Orderly tokens)
    (finished : pass.IsFinished) (clean : pass.errors = []) :
    pass.draft.table.Sited pass.draft.code.size where
  apart := orderly.apart
  inside site member := by
    have inside := orderly.inside (by rw [clean]; exact fun _ => List.not_mem_nil) site member
    rwa [finished.1] at inside

theorem Orderly.completes {tokens : List Token} (orderly : pass.Orderly tokens)
    (finished : pass.IsFinished) (clean : pass.errors = []) :
    pass.Completes (Patch.writeAll pass.draft.code pass.draft.table.patches) := by
  have sited := orderly.sited finished clean
  have size := sited.resolves.size
  refine ⟨sited.resolves, fun set place low => ?_, _, dif_pos ?_⟩
  · rw [LabelTable.mem_places_of_set set, orderly.held place low]
  · rw [Array.length_toList, size]
    exact orderly.fits

theorem outcome?_eq {tokens : List Token} {source : String} (orderly : pass.Orderly tokens)
    (ends : pass.EndsAs [] ((Emission.start source).acceptAll (Statement.ofTokens tokens))) :
    pass.outcome? tokens = some (Assembly.ofTokens tokens source) := by
  rw [Assembly.ofTokens]
  cases result : (Emission.start source).acceptAll (Statement.ofTokens tokens) with
  | mk found emission =>
    rw [result] at ends
    obtain rfl : pass.errors = found := ends.errors
    rw [outcome?]
    dsimp only
    by_cases clean : pass.errors = []
    · have sited := orderly.sited ends.finished clean
      obtain rfl : pass.draft.emission = emission := ends.emitted clean
      have none : ¬(!pass.errors.isEmpty) = true := by simp [clean]
      rw [if_neg none, if_neg none, sited.resolves.resolved, Option.map_some]
      by_cases set : pass.draft.table.unset = []
      · rw [← sited.foldl_resolve set]
        rfl
      · have wrong : !pass.draft.table.unset.isEmpty := by simpa using set
        rw [if_pos wrong]
        exact congrArg some (if_pos wrong).symm
    · have wrong : !pass.errors.isEmpty := by simpa using clean
      rw [if_pos wrong, if_pos wrong]

/-- The table of labels is in order at every point of a pass, and a pass without errors ends with
every placeholder written once, by the address of its label. -/
theorem always_orderly (tokens : List Token) (source : String) :
    (∀ count, ((start tokens source).steps count).Orderly tokens) ∧
      ∃ last, (start tokens source).Reaches last ∧ last.IsFinished ∧
        last.outcome? tokens = some (Assembly.ofTokens tokens source) ∧
        (last.errors = [] → ∃ code, last.Completes code) := by
  have orderly (count : Nat) : ((start tokens source).steps count).Orderly tokens :=
    ((Sound.start tokens source).steps count).orderly
  obtain ⟨last, ⟨count, rfl⟩, ends⟩ :=
    exists_last (Draft.kept_start source) (ended_ofTokens tokens) [] []
  exact ⟨orderly, _, ⟨count, rfl⟩, ends.finished, outcome?_eq (orderly count) ends,
    fun clean => ⟨_, (orderly count).completes ends.finished clean⟩⟩

end Pass

end ByteStack
