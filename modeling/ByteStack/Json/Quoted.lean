/-
This file reads and writes JSON strings. A backslash introduces an escape:
either one of eight short forms or four hexadecimal digits, which name a unit of
sixteen bits. Two such units in a row can make up one character; a reader
refuses a unit that lacks its partner. Skipping a string only looks for its end
and at the form of its escapes.

Writing escapes what has to be escaped and nothing else, in the short form
where there is one.
-/

import ByteStack.Json.Defect

namespace ByteStack.Json

/-! ### Escapes -/

/-- The character of a short escape. -/
def shortEscape? (kind : Char) : Option Char :=
  if kind = '"' then some '"'
  else if kind = '\\' then some '\\'
  else if kind = '/' then some '/'
  else if kind = 'b' then some '\x08'
  else if kind = 'f' then some '\x0c'
  else if kind = 'n' then some '\n'
  else if kind = 'r' then some '\r'
  else if kind = 't' then some '\t'
  else none

/-- The value of a hexadecimal digit of either case. -/
def hexValue? (digit : Char) : Option Nat :=
  if digit.isDigit then some (digit.toNat - '0'.toNat)
  else if 'a' ≤ digit ∧ digit ≤ 'f' then some (digit.toNat - 'a'.toNat + 10)
  else if 'A' ≤ digit ∧ digit ≤ 'F' then some (digit.toNat - 'A'.toNat + 10)
  else none

/-- The unit that four hexadecimal digits name. The text is too short when fewer than four
bytes of it are left. -/
def hexUnit (text : List Char) : Except Defect Nat :=
  match text with
  | a :: b :: c :: d :: _ =>
    match hexValue? a, hexValue? b, hexValue? c, hexValue? d with
    | some a, some b, some c, some d => .ok (((a * 16 + b) * 16 + c) * 16 + d)
    | _, _, _, _ => .error .malformed
  | _ =>
    if (String.ofList text).utf8ByteSize < 4 then .error .truncated else .error .malformed

/-- A unit that begins a pair. -/
def isLeading (unit : Nat) : Bool :=
  0xD800 ≤ unit && unit ≤ 0xDBFF

/-- A unit that ends a pair. -/
def isTrailing (unit : Nat) : Bool :=
  0xDC00 ≤ unit && unit ≤ 0xDFFF

/-- The character of a pair of units. -/
def pairCharacter (leading trailing : Nat) : Char :=
  Char.ofNat (0x10000 + (leading - 0xD800) * 1024 + (trailing - 0xDC00))

/-- The second unit of a pair, with its escape. -/
def trailingUnit (text : List Char) : Except Defect Nat :=
  match text with
  | [] => .error .truncated
  | ['\\'] => .error .truncated
  | '\\' :: 'u' :: rest =>
    match hexUnit rest with
    | .error defect => .error defect
    | .ok unit => if isTrailing unit then .ok unit else .error .malformed
  | _ => .error .malformed

/-- The first character that may stand in a string as it is. -/
def leastPlain : Nat := 0x20

/-! ### Reading -/

/-- Reads a string up to its closing quote. The characters in front are given in reverse. -/
def readFrom (front : List Char) : List Char → Except Defect (List Char)
  | [] => .error .truncated
  | first :: rest =>
    if first = '"' then .ok front.reverse
    else if first.toNat < leastPlain then .error .malformed
    else if first ≠ '\\' then readFrom (first :: front) rest
    else
      match rest with
      | [] => .error .truncated
      | kind :: rest =>
        match shortEscape? kind with
        | some character => readFrom (character :: front) rest
        | none =>
          if kind ≠ 'u' then .error .malformed
          else
            match hexUnit rest with
            | .error defect => .error defect
            | .ok unit =>
              if isTrailing unit then .error .malformed
              else if isLeading unit then
                match trailingUnit (rest.drop 4) with
                | .error defect => .error defect
                | .ok trailing =>
                  readFrom (pairCharacter unit trailing :: front) (rest.drop 10)
              else readFrom (Char.ofNat unit :: front) (rest.drop 4)
termination_by text => text.length
decreasing_by all_goals simp only [List.length_drop, List.length_cons]; omega

/-- The text of a string, of which the part behind the opening quote is given. -/
def readQuoted (text : List Char) : Except Defect (List Char) :=
  readFrom [] text

/-- Looks for the closing quote. Gives how many characters were passed with it, and `passed`
in front of them. -/
def skipFrom (passed : Nat) : List Char → Except Defect Nat
  | [] => .error .truncated
  | first :: rest =>
    if first = '"' then .ok (passed + 1)
    else if first.toNat < leastPlain then .error .malformed
    else if first ≠ '\\' then skipFrom (passed + 1) rest
    else
      match rest with
      | [] => .error .truncated
      | kind :: rest =>
        match shortEscape? kind with
        | some _ => skipFrom (passed + 2) rest
        | none =>
          if kind ≠ 'u' then .error .malformed
          else
            match hexUnit rest with
            | .error defect => .error defect
            | .ok _ => skipFrom (passed + 6) (rest.drop 4)
termination_by text => text.length
decreasing_by all_goals simp only [List.length_drop, List.length_cons]; omega

/-- How many characters a string takes behind its opening quote. -/
def skipQuoted (text : List Char) : Except Defect Nat :=
  skipFrom 0 text

/-! ### Writing -/

/-- A character as it is written in a string. -/
def writtenCharacter (character : Char) : List Char :=
  if character = '"' then ['\\', '"']
  else if character = '\\' then ['\\', '\\']
  else if character = '\x08' then ['\\', 'b']
  else if character = '\x0c' then ['\\', 'f']
  else if character = '\n' then ['\\', 'n']
  else if character = '\r' then ['\\', 'r']
  else if character = '\t' then ['\\', 't']
  else if character.toNat < leastPlain then
    ['\\', 'u', '0', '0', Nat.digitChar (character.toNat / 16),
      Nat.digitChar (character.toNat % 16)]
  else [character]

/-- A text between quotes. -/
def writeQuoted (text : List Char) : List Char :=
  '"' :: text.flatMap writtenCharacter ++ ['"']

end ByteStack.Json
