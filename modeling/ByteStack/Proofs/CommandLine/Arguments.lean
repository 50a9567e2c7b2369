/-
This file writes command lines that grade a program and shows that they are read
back as what was written. Numbers and lists of signed bytes are written in
decimal. Each option is given in its long form with the value behind it, and the
file names stand behind two dashes, so that they may begin with a dash.
-/

import ByteStack.CommandLine.Arguments
import ByteStack.Proofs.Assembly.Grammar
import Mathlib.Data.List.TakeWhile

namespace ByteStack

/-! ### Numbers -/

namespace Text

theorem isDigit_of_mem_toDigits {value : Nat} {digit : Char}
    (member : digit ∈ Nat.toDigits 10 value) : digit.isDigit :=
  Nat.isDigit_of_mem_toDigits (by decide) (by decide) member

theorem magnitude?_toDigits {limit value : Nat} (le : value ≤ limit) :
    magnitude? limit (Nat.toDigits 10 value) = some value :=
  (magnitude?_eq_some limit value _).mpr ⟨Nat.toDigits_ne_nil,
    fun _ => isDigit_of_mem_toDigits, Nat.ofDigitChars_ten_toDigits, le⟩

/-- A number is read back as it was written. -/
theorem unsigned?_natural {limit value : Nat} (le : value ≤ limit) :
    unsigned? limit (natural value) = some value :=
  (unsigned?_eq_some limit value _).mpr ⟨Nat.toDigits 10 value, Or.inl String.toList_ofList,
    Nat.toDigits_ne_nil, fun _ => isDigit_of_mem_toDigits, Nat.ofDigitChars_ten_toDigits, le⟩

theorem toList_integer (value : Int) :
    (integer value).toList =
      if value < 0 then '-' :: Nat.toDigits 10 value.natAbs else Nat.toDigits 10 value.natAbs := by
  unfold integer natural
  split
  · rw [String.toList_append, show "-".toList = ['-'] from rfl, String.toList_ofList,
      List.singleton_append]
  · exact String.toList_ofList

theorem comma_not_mem_integer (value : Int) : ',' ∉ (integer value).toList := by
  have none : ',' ∉ Nat.toDigits 10 value.natAbs :=
    fun member => absurd (isDigit_of_mem_toDigits member) (by decide)
  rw [toList_integer]
  split
  · exact fun member => (List.mem_cons.mp member).elim (by decide) none
  · exact none

/-- A signed byte is read back as it was written. -/
theorem signedByte?_integer (value : Int8) : signedByte? (integer value.toInt) = some value := by
  have low := value.le_toInt
  have high := value.toInt_lt
  unfold signedByte?
  rw [toList_integer]
  by_cases negative : value.toInt < 0
  · have same : -(value.toInt.natAbs : Int) = value.toInt := by omega
    rw [if_pos negative]
    split
    · next digits spelled =>
      obtain rfl := (List.cons.inj spelled).2
      rw [magnitude?_toDigits (by omega)]
      exact congrArg some ((congrArg Int8.ofInt same).trans value.ofInt_toInt)
    · next digits spelled =>
      exact absurd (List.cons.inj spelled).1 (by decide)
    · next digits noSign _ =>
      exact absurd rfl (noSign _)
  · have same : (value.toInt.natAbs : Int) = value.toInt := by omega
    rw [if_neg negative]
    split
    · next digits sign =>
      exact absurd (isDigit_of_mem_toDigits (sign ▸ List.mem_cons_self)) (by decide)
    · next digits sign =>
      exact absurd (isDigit_of_mem_toDigits (sign ▸ List.mem_cons_self)) (by decide)
    · rw [magnitude?_toDigits (by omega), Option.map_some, ← Int8.ofInt_eq_ofNat, same,
        Int8.ofInt_toInt]

end Text

namespace CommandLine

/-! ### Values of options -/

/-- Signed bytes in decimal with commas between them. -/
def listText (values : List Int8) : String :=
  ",".intercalate (values.map fun value => Text.integer value.toInt)

/-- A list is read back as it was written. The empty list cannot be written. -/
theorem signedBytes?_listText {values : List Int8} (nonempty : values ≠ []) :
    signedBytes? (listText values) = some values := by
  have parts : (listText values).toList.splitOn ',' =
      values.map fun value => (Text.integer value.toInt).toList := by
    rw [listText, String.toList_intercalate, List.map_map]
    refine List.splitOn_intercalate ',' ?_ (by simpa using nonempty)
    intro part member
    obtain ⟨value, _, rfl⟩ := List.mem_map.mp member
    exact Text.comma_not_mem_integer value.toInt
  have each : (fun part => Text.signedByte? (String.ofList part)) ∘
      (fun value : Int8 => (Text.integer value.toInt).toList) = some := by
    funext value
    rw [Function.comp_apply, String.ofList_toList, Text.signedByte?_integer]
  rw [signedBytes?, parts, List.mapM_map, each]
  exact (List.mapM_pure).trans (congrArg some (List.map_id _))

/-- A number does not look like an option. -/
theorem looksLikeOption_natural (value : Nat) : looksLikeOption (Text.natural value) = false := by
  unfold looksLikeOption Text.natural
  rw [String.toList_ofList]
  split
  · next first rest dash =>
    exact absurd (Text.isDigit_of_mem_toDigits (dash ▸ List.mem_cons_self)) (by decide)
  · rfl

/-! ### Options -/

/-- The option can be written in its long form with the value as the next argument. -/
structure Writable (forms : List OptionForm) (entry : OptionForm × String) : Prop where
  known : forms.find? (fun form => form.name == entry.1.name) = some entry.1
  takes : entry.1.kind ≠ .flag
  named : entry.1.name ≠ ""
  plain : '=' ∉ entry.1.name.toList
  fits : canBeValue entry.1.kind entry.2 = true

/-- The arguments that give these values to these options. -/
def write (entries : List (OptionForm × String)) : List String :=
  entries.flatMap fun entry => ["--" ++ entry.1.name, entry.2]

theorem write_cons (entry : OptionForm × String) (rest : List (OptionForm × String)) :
    write (entry :: rest) = ("--" ++ entry.1.name) :: entry.2 :: write rest := rfl

theorem looksLikeOption_long (name : String) : looksLikeOption ("--" ++ name) = true := by
  unfold looksLikeOption
  rw [String.toList_append, show "--".toList = ['-', '-'] from rfl]
  rfl

theorem optionOf?_long {forms : List OptionForm} {entry : OptionForm × String}
    (writable : Writable forms entry) :
    optionOf? forms ("--" ++ entry.1.name) = some (entry.1, none) := by
  have whole : splitEquals entry.1.name.toList = (entry.1.name.toList, none) := by
    have clear : entry.1.name.toList.dropWhile (· ≠ '=') = [] := by
      rw [List.dropWhile_eq_nil_iff]
      intro letter member
      rw [decide_eq_true_eq]
      rintro rfl
      exact writable.plain member
    rw [splitEquals, clear]
  unfold optionOf?
  rw [String.toList_append, show "--".toList = ['-', '-'] from rfl, List.cons_append,
    List.singleton_append]
  split
  · next long spelled =>
    obtain rfl := (List.cons.inj (List.cons.inj spelled).2).2
    rw [whole]
    dsimp only
    rw [String.ofList_toList, writable.known]
    rfl
  · next letter attached short spelled =>
    obtain ⟨rfl, rfl⟩ := List.cons.inj (List.cons.inj spelled).2
    exact absurd rfl short
  · next long _ =>
    exact absurd rfl (long _)

/-- An option in its long form is taken together with the argument behind it. -/
theorem collect_long {forms : List OptionForm} {entry : OptionForm × String}
    (writable : Writable forms entry) (given : Given) (fresh : given.has entry.1.name = false)
    (rest : List String) :
    collect forms given (("--" ++ entry.1.name) :: entry.2 :: rest) =
      collect forms { given with options := given.options ++ [(entry.1.name, entry.2)] } rest := by
  have added : given.addOption? entry.1 entry.2 =
      some { given with options := given.options ++ [(entry.1.name, entry.2)] } := by
    rw [Given.addOption?, fresh, Bool.and_false, if_neg Bool.false_ne_true]
  have other : "--" ++ entry.1.name ≠ "--" := by
    intro same
    have letters := congrArg String.toList same
    rw [String.toList_append] at letters
    have none := List.append_cancel_left (letters.trans (List.append_nil _).symm)
    exact writable.named (String.toList_inj.mp none)
  have fits := writable.fits
  rw [collect, if_neg other, looksLikeOption_long, Bool.not_true, if_neg Bool.false_ne_true,
    optionOf?_long writable]
  cases kind : entry.1.kind with
  | flag => exact absurd kind writable.takes
  | value | list =>
    rw [kind] at fits
    dsimp only
    rw [kind]
    dsimp only
    rw [if_pos fits, added, Option.bind_some]

/-- Behind two dashes every argument is a file name. -/
theorem collect_files (forms : List OptionForm) (given : Given) (files : List String) :
    collect forms given ("--" :: files) =
      some { given with positional := given.positional ++ files } := by
  rw [collect, if_pos rfl]
  refine congrArg some ?_
  induction files generalizing given with
  | nil => rw [List.append_nil]; rfl
  | cons file rest inductionHypothesis =>
    rw [List.foldl_cons, inductionHypothesis, Given.addPositional]
    dsimp only
    rw [List.append_assoc, List.singleton_append]

/-- What is written is collected, when no option is given twice. -/
theorem collect_write {forms : List OptionForm} {entries : List (OptionForm × String)}
    (writable : ∀ entry ∈ entries, Writable forms entry)
    (distinct : (entries.map fun entry => entry.1.name).Nodup) (files : List String)
    (given : Given) (fresh : ∀ entry ∈ entries, given.has entry.1.name = false) :
    collect forms given (write entries ++ "--" :: files) =
      some ⟨given.positional ++ files,
        given.options ++ entries.map fun entry => (entry.1.name, entry.2)⟩ := by
  induction entries generalizing given with
  | nil =>
    rw [List.map_nil, List.append_nil]
    exact collect_files forms given files
  | cons entry rest inductionHypothesis =>
    rw [List.map_cons, List.nodup_cons] at distinct
    have clear : ∀ other ∈ rest,
        { given with options := given.options ++ [(entry.1.name, entry.2)] : Given }.has
          other.1.name = false := by
      intro other member
      have before := fresh other (List.mem_cons_of_mem _ member)
      have different : (entry.1.name == other.1.name) = false := by
        rw [beq_eq_false_iff_ne]
        intro same
        refine distinct.1 ?_
        rw [same]
        exact List.mem_map_of_mem member
      unfold Given.has at before ⊢
      rw [List.any_append, before, Bool.false_or, List.any_cons, List.any_nil, different]
      rfl
    rw [write_cons, List.cons_append, List.cons_append,
      collect_long (writable entry List.mem_cons_self) given (fresh entry List.mem_cons_self),
      inductionHypothesis (fun other member => writable other (List.mem_cons_of_mem _ member))
        distinct.2 _ clear, List.append_assoc, List.map_cons, List.singleton_append]

/-- What these entries and file names come to. -/
def givenOf (entries : List (OptionForm × String)) (files : List String) : Given :=
  ⟨files, entries.map fun entry => (entry.1.name, entry.2)⟩

theorem collect_line {forms : List OptionForm} {entries : List (OptionForm × String)}
    (writable : ∀ entry ∈ entries, Writable forms entry)
    (distinct : (entries.map fun entry => entry.1.name).Nodup) (files : List String) :
    collect forms Given.empty (write entries ++ "--" :: files) = some (givenOf entries files) :=
  collect_write writable distinct files Given.empty fun _ _ => rfl

/-! ### What was given -/

/-- An option and its value, where there is one. -/
def entryOf (form : OptionForm) (text? : Option String) : List (OptionForm × String) :=
  text?.toList.map fun text => (form, text)

/-- The text of a list that can be written. -/
def listText? (values : List Int8) : Option String :=
  if values = [] then none else some (listText values)

/-- The text of a number that is there. -/
def numberText? (value? : Option UInt64) : Option String :=
  value?.map fun value => Text.natural value.toNat

theorem writable_entryOf {forms : List OptionForm} {form : OptionForm} {text? : Option String}
    (known : forms.find? (fun other => other.name == form.name) = some form)
    (takes : form.kind ≠ .flag) (named : form.name ≠ "") (plain : '=' ∉ form.name.toList)
    (fits : ∀ text, text? = some text → canBeValue form.kind text = true) :
    ∀ entry ∈ entryOf form text?, Writable forms entry := by
  intro entry member
  obtain ⟨text, given, rfl⟩ := List.mem_map.mp member
  exact ⟨known, takes, named, plain, fits text (Option.mem_toList.mp given)⟩

theorem names_entryOf (form : OptionForm) (text? : Option String) :
    ((entryOf form text?).map fun entry => entry.1.name).Sublist [form.name] := by
  cases text? with
  | none => exact List.nil_sublist _
  | some text => exact List.Sublist.refl _

theorem values_append (first second : List (OptionForm × String)) (files : List String)
    (name : String) :
    (givenOf (first ++ second) files).values name =
      (givenOf first files).values name ++ (givenOf second files).values name := by
  unfold givenOf Given.values
  rw [List.map_append, List.filterMap_append]

theorem values_entryOf (form : OptionForm) (text? : Option String) (files : List String)
    (name : String) :
    (givenOf (entryOf form text?) files).values name =
      if form.name = name then text?.toList else [] := by
  cases text? with
  | none => exact (ite_self []).symm
  | some text =>
    by_cases same : form.name = name
    · rw [if_pos same]
      exact List.filterMap_cons_some (if_pos same)
    · rw [if_neg same]
      exact List.filterMap_cons_none (if_neg same)

theorem Given.has_eq (given : Given) (name : String) :
    given.has name = !(given.values name).isEmpty := by
  obtain ⟨positional, options⟩ := given
  unfold Given.has Given.values
  induction options with
  | nil => rfl
  | cons option rest inductionHypothesis =>
    dsimp only at inductionHypothesis ⊢
    rw [List.any_cons, inductionHypothesis, List.filterMap_cons]
    by_cases same : option.1 = name
    · rw [if_pos same, beq_iff_eq.mpr same]
      rfl
    · rw [if_neg same, beq_eq_false_iff_ne.mpr same]
      rfl

theorem lists?_of_values {given : Given} {name : String} {values : List Int8}
    (same : given.values name = (listText? values).toList) : given.lists? name = some values := by
  rw [Given.lists?, same, listText?]
  by_cases empty : values = []
  · rw [if_pos empty, empty]
    rfl
  · rw [if_neg empty, Option.toList_some, List.mapM_cons, List.mapM_nil,
      signedBytes?_listText empty]
    exact congrArg some (List.append_nil values)

theorem number?_of_values {given : Given} {name : String} {value? : Option UInt64}
    (same : given.values name = (numberText? value?).toList) :
    given.number? name = some value? := by
  rw [Given.number?, same, numberText?]
  cases value? with
  | none => rfl
  | some value =>
    rw [Option.map_some, Option.toList_some]
    dsimp only
    rw [Text.unsigned?_natural (Nat.le_of_lt_succ value.toNat_lt), Option.map_some,
      UInt64.ofNat_toNat]

/-! ### Command lines -/

/-- The options that every command line which grades a program may have. -/
def gradingEntries (seed : UInt64) (maxCycles? : Option UInt64) : List (OptionForm × String) :=
  entryOf seedForm (numberText? (some seed)) ++ entryOf maxCyclesForm (numberText? maxCycles?)

/-- The options of a command line that executes a program once. -/
def runEntries (input expected : List Int8) (seed : UInt64) (maxCycles? : Option UInt64) :
    List (OptionForm × String) :=
  entryOf ⟨"input", none, .list⟩ (listText? input) ++
    (entryOf ⟨"expect", none, .list⟩ (listText? expected) ++ gradingEntries seed maxCycles?)

/-- The command line that executes a program once. -/
def runArguments (file : String) (input expected : List Int8) (seed : UInt64)
    (maxCycles? : Option UInt64) : List String :=
  "run" :: (write (runEntries input expected seed maxCycles?) ++ "--" :: [file])

/-- The command line that grades a program. -/
def validateArguments (file puzzle : String) (seed : UInt64) (maxCycles? : Option UInt64) :
    List String :=
  "validate" :: (write (gradingEntries seed maxCycles?) ++ "--" :: [file, puzzle])

theorem writable_gradingEntries {forms : List OptionForm} (seed : UInt64)
    (maxCycles? : Option UInt64)
    (known : forms.find? (fun form => form.name == seedForm.name) = some seedForm)
    (also : forms.find? (fun form => form.name == maxCyclesForm.name) = some maxCyclesForm) :
    ∀ entry ∈ gradingEntries seed maxCycles?, Writable forms entry := by
  have fits (value? : Option UInt64) (text : String) (given : numberText? value? = some text) :
      canBeValue .value text = true := by
    obtain ⟨value, _, rfl⟩ := Option.map_eq_some_iff.mp given
    rw [canBeValue, looksLikeOption_natural]
    rfl
  intro entry member
  rcases List.mem_append.mp member with first | second
  · exact writable_entryOf known nofun (by decide) (by decide) (fits _) entry first
  · exact writable_entryOf also nofun (by decide) (by decide) (fits _) entry second

theorem names_gradingEntries (seed : UInt64) (maxCycles? : Option UInt64) :
    ((gradingEntries seed maxCycles?).map fun entry => entry.1.name).Sublist
      ["seed", "max-cycles"] := by
  rw [gradingEntries, List.map_append]
  exact (names_entryOf seedForm _).append (names_entryOf maxCyclesForm _)

theorem values_gradingEntries (seed : UInt64) (maxCycles? : Option UInt64) (files : List String)
    (name : String) :
    (givenOf (gradingEntries seed maxCycles?) files).values name =
      (if "seed" = name then (numberText? (some seed)).toList else []) ++
        if "max-cycles" = name then (numberText? maxCycles?).toList else [] := by
  rw [gradingEntries, values_append, values_entryOf, values_entryOf]
  rfl

theorem values_runEntries (input expected : List Int8) (seed : UInt64) (maxCycles? : Option UInt64)
    (files : List String) (name : String) :
    (givenOf (runEntries input expected seed maxCycles?) files).values name =
      (if "input" = name then (listText? input).toList else []) ++
        ((if "expect" = name then (listText? expected).toList else []) ++
          (givenOf (gradingEntries seed maxCycles?) files).values name) := by
  rw [runEntries, values_append, values_append, values_entryOf, values_entryOf]

theorem fileName?_of_ne {file : String} (named : file ≠ "") : fileName? file = some file := by
  rw [fileName?, String.isEmpty_eq_false_iff.mpr named, if_neg Bool.false_ne_true]

/-- The command line that grades a program is read back. -/
theorem ofArguments?_validate {file puzzle : String} (named : file ≠ "") (also : puzzle ≠ "")
    (seed : UInt64) (maxCycles? : Option UInt64) :
    Command.ofArguments? (validateArguments file puzzle seed maxCycles?) =
      some (.validate file puzzle (some seed) maxCycles?) := by
  have writable : ∀ entry ∈ gradingEntries seed maxCycles?,
      Writable [seedForm, maxCyclesForm] entry := writable_gradingEntries seed maxCycles? rfl rfl
  have distinct := (names_gradingEntries seed maxCycles?).nodup (by decide)
  have collected := collect_line writable distinct [file, puzzle]
  have values := values_gradingEntries seed maxCycles? [file, puzzle]
  obtain ⟨given, same⟩ : ∃ given,
      givenOf (gradingEntries seed maxCycles?) [file, puzzle] = given := ⟨_, rfl⟩
  have files : given.positional = [file, puzzle] := congrArg Given.positional same.symm
  rw [same] at collected values
  have seeds : given.number? "seed" = some (some seed) :=
    number?_of_values ((values "seed").trans (List.append_nil _))
  have limits : given.number? "max-cycles" = some maxCycles? :=
    number?_of_values (values "max-cycles")
  show readValidate? _ = _
  rw [readValidate?, collected]
  simp only [Option.bind_eq_bind, Option.bind_some, files, fileName?_of_ne named,
    fileName?_of_ne also, seeds, limits]
  rfl

theorem writable_runEntries (input expected : List Int8) (seed : UInt64)
    (maxCycles? : Option UInt64) :
    ∀ entry ∈ runEntries input expected seed maxCycles?, Writable runForms entry := by
  intro entry member
  rcases List.mem_append.mp member with first | later
  · exact writable_entryOf rfl (by decide) (by decide) (by decide) (fun _ _ => rfl) entry first
  · rcases List.mem_append.mp later with second | last
    · exact writable_entryOf rfl (by decide) (by decide) (by decide) (fun _ _ => rfl) entry second
    · exact writable_gradingEntries seed maxCycles? rfl rfl entry last

theorem names_runEntries (input expected : List Int8) (seed : UInt64)
    (maxCycles? : Option UInt64) :
    ((runEntries input expected seed maxCycles?).map fun entry => entry.1.name).Sublist
      ["input", "expect", "seed", "max-cycles"] := by
  rw [runEntries, List.map_append, List.map_append]
  exact (names_entryOf ⟨"input", none, .list⟩ _).append
    ((names_entryOf ⟨"expect", none, .list⟩ _).append (names_gradingEntries seed maxCycles?))

/-- The command line that executes a program once is read back. -/
theorem ofArguments?_run {file : String} (named : file ≠ "") (input : List Int8)
    {expected : List Int8} (nonempty : expected ≠ []) (seed : UInt64)
    (maxCycles? : Option UInt64) :
    Command.ofArguments? (runArguments file input expected seed maxCycles?) =
      some (.run file ⟨input, some expected, false, some seed, maxCycles?, false⟩) := by
  have distinct := (names_runEntries input expected seed maxCycles?).nodup (by decide)
  have writable := writable_runEntries input expected seed maxCycles?
  have collected := collect_line writable distinct [file]
  have values := values_runEntries input expected seed maxCycles? [file]
  simp only [values_gradingEntries] at values
  obtain ⟨given, same⟩ : ∃ given,
      givenOf (runEntries input expected seed maxCycles?) [file] = given := ⟨_, rfl⟩
  have files : given.positional = [file] := congrArg Given.positional same.symm
  rw [same] at collected values
  have inputs : given.lists? "input" = some input :=
    lists?_of_values ((values "input").trans (List.append_nil _))
  have texts : given.values "expect" = (listText? expected).toList :=
    (values "expect").trans (List.append_nil _)
  have seeds : given.number? "seed" = some (some seed) :=
    number?_of_values ((values "seed").trans (List.append_nil _))
  have limits : given.number? "max-cycles" = some maxCycles? :=
    number?_of_values (values "max-cycles")
  have expecting : given.has "expect" = true := by
    rw [Given.has_eq, texts, listText?, if_neg nonempty]
    rfl
  have listing : given.has "decompile" = false := by
    rw [Given.has_eq, values]
    rfl
  have image : given.has "image" = false := by
    rw [Given.has_eq, values]
    rfl
  show readRun? _ = _
  rw [readRun?, collected]
  simp only [Option.bind_eq_bind, Option.bind_some, files, fileName?_of_ne named, inputs,
    lists?_of_values texts, seeds, limits, expecting, listing, image]
  rfl

end CommandLine

end ByteStack
