/-
This file cuts the text of a program into tokens. Case does not matter: the
ASCII letters are read as capitals. Blanks, tabs, carriage returns, line feeds
and comments separate tokens and are otherwise ignored; tokens need no
separator where their characters already tell them apart.

A number may be written in decimal or, behind a `$`, in base sixteen. A base
sixteen number has only the digits `0` to `9`, so that a mnemonic may follow it
directly.

One lexer can be asked several times. It goes on from where it stopped: past
the end after a success, and after a fault behind the characters that the
faulty token had already taken.
-/

import ByteStack.Source.Token
import ByteStack.Text.Decimal

namespace ByteStack

/-! ### Faults -/

/-- Why no token begins at a position. -/
inductive LexicalFault where
  | unexpectedCharacter (character : Char)
  | invalidLabel
  | invalidRegister
  | invalidHex
  | invalidNumber (digits : String)
deriving DecidableEq

def LexicalFault.message : LexicalFault → String
  | .unexpectedCharacter character => "unexpected character '" ++ character.toString ++ "'"
  | .invalidLabel => "invalid label name"
  | .invalidRegister => "invalid register name"
  | .invalidHex => "invalid hex number"
  | .invalidNumber digits => "invalid number '" ++ digits ++ "'"

/-- A fault and the position of the first character of what should have been a token. -/
structure LexicalError where
  fault : LexicalFault
  position : Nat
deriving DecidableEq

def LexicalError.message (error : LexicalError) : String :=
  error.fault.message

/-! ### One lexeme -/

def isLayout (character : Char) : Bool :=
  character = ' ' || character = '\t' || character = '\r' || character = '\n'

/-- The largest number that a program can write. -/
def largestNumber : Nat := 65535

/-- What begins at a character. -/
inductive Lexeme where
  /-- Ignored text: its first character and `more` others. -/
  | layout (more : Nat)
  /-- A token: its first character and `more` others. -/
  | token (kind : TokenKind) (literal : List Char) (more : Nat)
  /-- No token, but `taken` characters have been read as part of one. -/
  | fault (fault : LexicalFault) (taken : Nat)
deriving DecidableEq

namespace Lexeme

/-- A number written with `digits`, of which `more` characters follow the first one. Its
literal is decimal. -/
def number (base : Nat) (digits : List Char) (more : Nat) : Lexeme :=
  let value := Text.valueUpTo largestNumber base digits
  if value ≤ largestNumber then .token .number (Nat.toDigits 10 value) more
  else .fault (.invalidNumber (String.ofList digits)) (more + 1)

/-- A label name: at least one letter behind the `#`. -/
def label (rest : List Char) : Lexeme :=
  match rest.takeWhile Char.isUpper with
  | [] => .fault .invalidLabel 1
  | letters => .token .label letters letters.length

/-- A register: exactly one digit behind the `&`, and then neither a letter nor a digit. -/
def register : List Char → Lexeme
  | [] => .fault .invalidRegister 1
  | [digit] =>
    if digit.isDigit then .token .register [digit] 1 else .fault .invalidRegister 1
  | digit :: next :: _ =>
    if !digit.isDigit then .fault .invalidRegister 1
    else if next.isUpper || next.isDigit then .fault .invalidRegister 2
    else .token .register [digit] 1

/-- A base sixteen number: at least one digit behind the `$`. -/
def hexNumber (rest : List Char) : Lexeme :=
  match rest.takeWhile Char.isDigit with
  | [] => .fault .invalidHex 1
  | digits => number 16 digits digits.length

/-- What begins at `first`, when `rest` follows it. Runs of blanks, letters and digits are
taken as long as they go on. A comment takes its line feed too, and counts one also when the
text ends without it. -/
def scan (first : Char) (rest : List Char) : Lexeme :=
  if isLayout first then .layout (rest.takeWhile isLayout).length
  else if first = ';' then .layout ((rest.takeWhile (· ≠ '\n')).length + 1)
  else if first.isUpper then
    let letters := rest.takeWhile Char.isUpper
    .token .mnemonic (first :: letters) letters.length
  else if first = '#' then label rest
  else if first = '&' then register rest
  else if first.isDigit then
    let digits := rest.takeWhile Char.isDigit
    number 10 (first :: digits) digits.length
  else if first = '$' then hexNumber rest
  else .fault (.unexpectedCharacter first) 0

end Lexeme

/-! ### Whole texts -/

/-- What reading a text gives: its tokens or the first fault, and where reading stopped. -/
structure Reading where
  outcome : Except LexicalError (List Token)
  stop : Nat

/-- Puts a token in front of what was read behind it. -/
def Reading.cons (token : Token) (reading : Reading) : Reading :=
  match reading.outcome with
  | .ok tokens => ⟨.ok (token :: tokens), reading.stop⟩
  | .error error => ⟨.error error, reading.stop⟩

/-- Reads a text in capitals whose first character stands at `position`. -/
def Reading.ofText (position : Nat) : List Char → Reading
  | [] => ⟨.ok [], position⟩
  | first :: rest =>
    match Lexeme.scan first rest with
    | .layout more => ofText (position + more + 1) (rest.drop more)
    | .token kind literal more =>
      (ofText (position + more + 1) (rest.drop more)).cons ⟨kind, String.ofList literal, position⟩
    | .fault fault taken => ⟨.error ⟨fault, position⟩, position + taken⟩
termination_by text => text.length
decreasing_by all_goals simp only [List.length_drop, List.length_cons]; omega

/-- A text in capitals and the position from which it will be read on. -/
structure Lexer where
  characters : List Char
  position : Nat
deriving DecidableEq

namespace Lexer

/-- A lexer at the start of a text. -/
def ofSource (source : String) : Lexer :=
  ⟨source.toList.map Char.toUpper, 0⟩

/-- Reads on from the lexer's position to the end of the text or to the first fault. -/
def tokenize (lexer : Lexer) : Except LexicalError (List Token) × Lexer :=
  let reading := Reading.ofText lexer.position (lexer.characters.drop lexer.position)
  (reading.outcome, { lexer with position := reading.stop })

end Lexer

/-- The tokens of a text, or its first fault. -/
def tokensOf (source : String) : Except LexicalError (List Token) :=
  (Lexer.ofSource source).tokenize.1

end ByteStack
