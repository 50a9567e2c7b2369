/-
This file reads the arguments of the command line. The first argument names the
command, or asks for the version. Options may stand before or behind the file names of a command. The
value of a long option follows it as the next argument or behind an equals
sign; a short option may also have its value directly behind its letter. After
two dashes every argument is a file name.

The next argument is not taken as a value if it looks like an option, except
for lists of signed numbers, which may begin with a minus sign. Except for such
lists no option may be given twice.
-/

import ByteStack.Puzzle.Grading

namespace ByteStack.CommandLine

/-! ### Commands -/

/-- How a program is executed once. -/
structure RunOptions where
  input : List Int8
  expected? : Option (List Int8)
  /-- Whether to print a listing first. -/
  listing : Bool
  seed? : Option UInt64
  maxCycles? : Option UInt64
  /-- Whether the file is a stored image, not the text of a program. -/
  isImage : Bool
deriving DecidableEq

/-- What the command line can be told to do. -/
inductive Command where
  /-- Executes a program once. -/
  | run (file : String) (options : RunOptions)
  /-- Grades a program against a puzzle. -/
  | validate (file puzzle : String) (seed? maxCycles? : Option UInt64)
  /-- Assembles a program and stores its image. -/
  | build (file output : String)
  /-- Shows the tokens of a program. -/
  | tokens (file : String) (color : Bool)
  /-- Says which program this is. -/
  | version
deriving DecidableEq

/-! ### Options -/

/-- What an option takes. -/
inductive OptionKind where
  | flag
  | value
  /-- A list, which may begin with a minus sign and may be given several times. -/
  | list
deriving DecidableEq

structure OptionForm where
  name : String
  /-- The letter of the short form. -/
  letter? : Option Char
  kind : OptionKind
deriving DecidableEq

/-- What has been given. Positional arguments and values come in the order of the command
line. -/
structure Given where
  positional : List String
  options : List (String × String)
deriving DecidableEq

namespace Given

def empty : Given := ⟨[], []⟩

def addPositional (given : Given) (argument : String) : Given :=
  { given with positional := given.positional ++ [argument] }

def has (given : Given) (name : String) : Bool :=
  given.options.any fun option => option.1 == name

/-- Adds an option, unless it may not be given again. -/
def addOption? (given : Given) (form : OptionForm) (value : String) : Option Given :=
  if form.kind ≠ .list && given.has form.name then none
  else some { given with options := given.options ++ [(form.name, value)] }

/-- The values that were given to an option. -/
def values (given : Given) (name : String) : List String :=
  given.options.filterMap fun option => if option.1 = name then some option.2 else none

end Given

/-- An argument cut at its first equals sign. -/
def splitEquals (text : List Char) : List Char × Option (List Char) :=
  match text.dropWhile (· ≠ '=') with
  | [] => (text, none)
  | _ :: value => (text.takeWhile (· ≠ '='), some value)

/-- Whether an argument looks like an option. A single dash does not. -/
def looksLikeOption (argument : String) : Bool :=
  match argument.toList with
  | '-' :: _ :: _ => true
  | _ => false

/-- One option of the command line: its form and the value that stands in the same argument,
if there is one. -/
def optionOf? (forms : List OptionForm) (argument : String) :
    Option (OptionForm × Option String) :=
  match argument.toList with
  | '-' :: '-' :: long =>
    let (name, value?) := splitEquals long
    (forms.find? fun form => form.name == String.ofList name).map
      fun form => (form, value?.map String.ofList)
  | '-' :: letter :: attached =>
    (forms.find? fun form => form.letter? == some letter).map fun form =>
      match attached with
      | [] => (form, none)
      | '=' :: value => (form, some (String.ofList value))
      | value => (form, some (String.ofList value))
  | _ => none

/-- Whether the next argument can be the value of an option. -/
def canBeValue (kind : OptionKind) (argument : String) : Bool :=
  kind == .list || !looksLikeOption argument

/-- Sorts arguments into positional ones and options. -/
def collect (forms : List OptionForm) (given : Given) : List String → Option Given
  | [] => some given
  | argument :: rest =>
    if argument = "--" then some (rest.foldl Given.addPositional given)
    else if !looksLikeOption argument then collect forms (given.addPositional argument) rest
    else
      match optionOf? forms argument with
      | none => none
      | some (form, attached?) =>
        match form.kind, attached?, rest with
        | .flag, none, rest => (given.addOption? form "").bind fun given => collect forms given rest
        | .flag, some _, _ => none
        | _, some value, rest =>
          (given.addOption? form value).bind fun given => collect forms given rest
        | _, none, [] => none
        | kind, none, value :: rest =>
          if canBeValue kind value then
            (given.addOption? form value).bind fun given => collect forms given rest
          else none

/-! ### Values -/

/-- Signed bytes with commas between them. -/
def signedBytes? (text : String) : Option (List Int8) :=
  (text.toList.splitOn ',').mapM fun part => Text.signedByte? (String.ofList part)

/-- All lists that were given to an option, one after the other. -/
def Given.lists? (given : Given) (name : String) : Option (List Int8) :=
  ((given.values name).mapM signedBytes?).map List.flatten

/-- The number that was given to an option. An option that was not given has none. -/
def Given.number? (given : Given) (name : String) : Option (Option UInt64) :=
  match given.values name with
  | [] => some none
  | value :: _ =>
    (Text.unsigned? 18446744073709551615 value).map fun number => some (UInt64.ofNat number)

/-- A file name, which is not empty. -/
def fileName? (argument : String) : Option String :=
  if argument.isEmpty then none else some argument

/-! ### Reading commands -/

def seedForm : OptionForm := ⟨"seed", none, .value⟩

def maxCyclesForm : OptionForm := ⟨"max-cycles", none, .value⟩

def runForms : List OptionForm :=
  [⟨"input", none, .list⟩, ⟨"expect", none, .list⟩, ⟨"decompile", none, .flag⟩, seedForm,
    maxCyclesForm, ⟨"image", none, .flag⟩]

def readRun? (arguments : List String) : Option Command := do
  let given ← collect runForms Given.empty arguments
  let [file] := given.positional | none
  let file ← fileName? file
  let input ← given.lists? "input"
  let expected ← given.lists? "expect"
  let seed? ← given.number? "seed"
  let maxCycles? ← given.number? "max-cycles"
  return .run file
    { input := input
      expected? := if given.has "expect" then some expected else none
      listing := given.has "decompile"
      seed? := seed?
      maxCycles? := maxCycles?
      isImage := given.has "image" }

def readValidate? (arguments : List String) : Option Command := do
  let given ← collect [seedForm, maxCyclesForm] Given.empty arguments
  let [file, puzzle] := given.positional | none
  let file ← fileName? file
  let puzzle ← fileName? puzzle
  return .validate file puzzle (← given.number? "seed") (← given.number? "max-cycles")

def readBuild? (arguments : List String) : Option Command := do
  let given ← collect [⟨"output", some 'o', .value⟩] Given.empty arguments
  let [file] := given.positional | none
  let [output] := given.values "output" | none
  return .build (← fileName? file) (← fileName? output)

def readTokens? (arguments : List String) : Option Command := do
  let given ← collect [⟨"no-color", none, .flag⟩] Given.empty arguments
  let [file] := given.positional | none
  return .tokens (← fileName? file) (!given.has "no-color")

/-- Whether an argument asks for the version. Nothing behind the letter is looked at. -/
def asksForVersion (argument : String) : Bool :=
  argument == "--version" || argument.startsWith "-V"

/-- The command of a command line, if it is one. Nothing behind a request for the version is
looked at. -/
def Command.ofArguments? : List String → Option Command
  | "run" :: arguments => readRun? arguments
  | "validate" :: arguments => readValidate? arguments
  | "build" :: arguments => readBuild? arguments
  | "tokens" :: arguments => readTokens? arguments
  | argument :: _ => if asksForVersion argument then some .version else none
  | [] => none

end ByteStack.CommandLine
