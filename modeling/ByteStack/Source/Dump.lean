/-
This file prints tokens for a reader, one to a line: the line and the column,
the kind, and the token as a program spells it. In color, mnemonics that no
operation has stand out before the assembler reports them.
-/

import ByteStack.Instruction
import ByteStack.Source.Map

namespace ByteStack.TokenDump

/-! ### Colors -/

/-- The colors of a terminal, as its control sequences number them. -/
inductive Color where
  | red
  | green
  | yellow
  | magenta
  | cyan

def Color.sequence : Color → String
  | .red => "\x1b[31m"
  | .green => "\x1b[32m"
  | .yellow => "\x1b[33m"
  | .magenta => "\x1b[35m"
  | .cyan => "\x1b[36m"

/-- The control sequence that ends a color. -/
def reset : String := "\x1b[0m"

/-- A mnemonic is colored by what it names, every other token by its kind. -/
def colorOf (token : Token) : Color :=
  match token.kind with
  | .mnemonic =>
    match Mnemonic.ofName? token.literal with
    | some .defineLabel => .green
    | some (.operation _) => .magenta
    | none => .red
  | .label => .yellow
  | .number => .cyan
  | .register => .cyan

/-! ### Lines -/

def columnTitle : TokenKind → String
  | .mnemonic => "OP"
  | .label => "LABEL"
  | .number => "NUMBER"
  | .register => "REGISTER"

/-- The line of a token, which stands at the cursor. -/
def line (color : Bool) (cursor : Cursor) (token : Token) : String :=
  let body := Text.padded 8 (columnTitle token.kind) ++ " " ++ token.text
  "[" ++ Text.zeroPadded 2 cursor.lineNumber ++ ":" ++ Text.zeroPadded 2 cursor.column ++ "] "
    ++ (if color then (colorOf token).sequence ++ body ++ reset else body) ++ "\n"

/-- All lines of the tokens of `source`. -/
def render (color : Bool) (source : String) (tokens : List Token) : String :=
  let cursors := Cursor.ofPositions source.toList (tokens.map Token.position)
  String.join (List.zipWith (line color) cursors tokens)

end ByteStack.TokenDump
