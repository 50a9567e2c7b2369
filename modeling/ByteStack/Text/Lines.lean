/-
This file cuts a text into lines. A line ends at a line feed, which is not part
of it, and neither is one carriage return in front of that line feed. What
follows the last line feed is a line if there is anything.
-/

namespace ByteStack.Text

/-- Ends a line at a line feed. Its characters are given in reverse. -/
def endLine : List Char → String
  | '\r' :: front => String.ofList front.reverse
  | front => String.ofList front.reverse

/-- The lines of a text whose current line begins with `front`, in reverse. -/
def linesFrom (front : List Char) : List Char → List String
  | [] => if front.isEmpty then [] else [String.ofList front.reverse]
  | '\n' :: rest => endLine front :: linesFrom [] rest
  | character :: rest => linesFrom (character :: front) rest

/-- The lines of a text. -/
def lines (text : String) : List String :=
  linesFrom [] text.toList

end ByteStack.Text
