/-
This file says what the words of a program are once its text has been cut up:
a token has a kind, its letters or digits without the sign that introduces
them, and the position of its first character in the text.
-/

namespace ByteStack

/-- The four kinds of words in a program. -/
inductive TokenKind where
  | mnemonic
  | label
  | number
  | register
deriving DecidableEq

/-- The kind as messages name it. -/
def TokenKind.name : TokenKind → String
  | .mnemonic => "mnemonic"
  | .label => "label"
  | .number => "number"
  | .register => "register"

/-- A word of a program. The literal of a label leaves out its `#`, the literal of a register
is its digit, and a number is in decimal whichever base it was written in. -/
structure Token where
  kind : TokenKind
  literal : String
  /-- How many characters of the text stand in front of the token. -/
  position : Nat
deriving DecidableEq

/-- The token as a program would spell it. -/
def Token.text (token : Token) : String :=
  match token.kind with
  | .mnemonic => token.literal
  | .number => token.literal
  | .label => "#" ++ token.literal
  | .register => "&" ++ token.literal

end ByteStack
