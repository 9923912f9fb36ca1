/-!
# Lines

A text is cut at every line boundary of Unicode, not only at line feeds. A boundary ends the line
before it, so a text that ends in one has no empty last line, and the empty text has no line.
-/

namespace DecisionBoard.Text

/-- The characters that end a line; a carriage return and a line feed together end one. -/
def isLineEnd (c : Char) : Bool :=
  let n := c.toNat
  (0x0A ≤ n && n ≤ 0x0D) || (0x1C ≤ n && n ≤ 0x1E) || n == 0x85 || n == 0x2028 || n == 0x2029

/-- The lines of `cs`, the first of them continuing `line`, which is held in reverse. -/
def cutLines (line : List Char) : List Char → List (List Char)
  | [] => if line.isEmpty then [] else [line.reverse]
  | '\r' :: '\n' :: rest => line.reverse :: cutLines [] rest
  | c :: rest =>
    if isLineEnd c then line.reverse :: cutLines [] rest else cutLines (c :: line) rest

/-- The lines of a text, without the characters that end them. -/
def lines (s : String) : List String := (cutLines [] s.toList).map String.ofList

end DecisionBoard.Text
