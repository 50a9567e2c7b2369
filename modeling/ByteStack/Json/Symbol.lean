/-
This file cuts a JSON text into its symbols: the six punctuation marks, the
three words, numbers and strings, with blanks between them left out. Where a
symbol is broken the list of symbols ends. A string keeps apart from other
broken symbols, because it may also stand where a name is due.
-/

import ByteStack.Json.Number
import ByteStack.Json.Quoted

namespace ByteStack.Json

inductive Symbol where
  | openArray
  | closeArray
  | openObject
  | closeObject
  | comma
  | colon
  | null
  | boolean (value : Bool)
  /-- A number, without a value if it has none in the binary format. -/
  | number (value? : Option Number)
  /-- A string, without a text if an escape in it lacks its partner. -/
  | string (text? : Option String)
  | brokenString (place : Break)
  | broken (place : Break)
deriving DecidableEq

namespace Symbol

/-- Blanks between symbols. -/
def isBlank (character : Char) : Bool :=
  character = ' ' || character = '\t' || character = '\n' || character = '\r'

/-- A symbol and how many characters it takes behind its first one. -/
structure Scanned where
  symbol : Symbol
  more : Nat

/-- Compares a text with the rest of a word. -/
def scanLetters : List Char → List Char → Except Defect Unit
  | [], _ => .ok ()
  | _ :: _, [] => .error .truncated
  | letter :: letters, character :: rest =>
    if character = letter then scanLetters letters rest else .error .malformed

/-- A word of which the letters behind the first one are given. -/
def scanWord (letters : List Char) (word : Symbol) (rest : List Char) : Scanned :=
  match scanLetters letters rest with
  | .ok () => ⟨word, letters.length⟩
  | .error defect => ⟨.broken ⟨defect, defect⟩, 0⟩

def scanNumber (first : Char) (rest : List Char) : Scanned :=
  match Numeral.scan (first :: rest) with
  | .ok numeral => ⟨.number (Number.ofNumeral? numeral), numeral.length - 1⟩
  | .error place => ⟨.broken place, 0⟩

/-- A string of which the part behind its opening quote is given. -/
def scanString (rest : List Char) : Scanned :=
  match readQuoted rest, skipQuoted rest with
  | .ok text, .ok length => ⟨.string (some (String.ofList text)), length⟩
  | .error _, .ok length => ⟨.string none, length⟩
  | .ok _, .error skipped => ⟨.brokenString ⟨skipped, skipped⟩, 0⟩
  | .error read, .error skipped => ⟨.brokenString ⟨read, skipped⟩, 0⟩

/-- The symbol that begins at `first`, which is no blank, when `rest` follows. -/
def scan (first : Char) (rest : List Char) : Scanned :=
  if first = '[' then ⟨.openArray, 0⟩
  else if first = ']' then ⟨.closeArray, 0⟩
  else if first = '\x7b' then ⟨.openObject, 0⟩
  else if first = '\x7d' then ⟨.closeObject, 0⟩
  else if first = ',' then ⟨.comma, 0⟩
  else if first = ':' then ⟨.colon, 0⟩
  else if first = 'n' then scanWord ['u', 'l', 'l'] .null rest
  else if first = 't' then scanWord ['r', 'u', 'e'] (.boolean true) rest
  else if first = 'f' then scanWord ['a', 'l', 's', 'e'] (.boolean false) rest
  else if first = '"' then scanString rest
  else if first = '-' || first.isDigit then scanNumber first rest
  else ⟨.broken .malformed, 0⟩

/-- Nothing behind such a symbol is looked at. -/
def isBroken : Symbol → Bool
  | .brokenString _ => true
  | .broken _ => true
  | _ => false

/-- The symbols of a text. -/
def ofText : List Char → List Symbol
  | [] => []
  | first :: rest =>
    if isBlank first then ofText rest
    else
      let scanned := scan first rest
      if scanned.symbol.isBroken then [scanned.symbol]
      else scanned.symbol :: ofText (rest.drop scanned.more)
termination_by text => text.length
decreasing_by all_goals simp only [List.length_drop, List.length_cons]; omega

/-- The symbol as it is written. Only integers and strings with a text have a written form of
their own among the numbers and strings. -/
def written : Symbol → List Char
  | .openArray => ['[']
  | .closeArray => [']']
  | .openObject => ['\x7b']
  | .closeObject => ['\x7d']
  | .comma => [',']
  | .colon => [':']
  | .null => ['n', 'u', 'l', 'l']
  | .boolean true => ['t', 'r', 'u', 'e']
  | .boolean false => ['f', 'a', 'l', 's', 'e']
  | .number (some (.integer value)) => (Text.integer value).toList
  | .number _ => []
  | .string (some text) => writeQuoted text.toList
  | .string none => []
  | .brokenString _ => []
  | .broken _ => []

end Symbol

end ByteStack.Json
