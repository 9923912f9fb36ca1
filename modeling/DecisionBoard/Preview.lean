import DecisionBoard.Json.Access
import DecisionBoard.Text.Blank

/-!
# Previews

The layout of the picture of a board: one row of text per line under a bar in the accent colour,
and a filled label behind every ref that begins a line. What a colour is called is left to the
package that draws the picture.
-/

namespace DecisionBoard

/-- A colour by its red, green and blue parts, each below 256. -/
structure Colour where
  red : Nat
  green : Nat
  blue : Nat
  deriving DecidableEq, Repr

/-- What is used of the packages that texts and pictures are shown with. -/
structure Display where
  /-- The colour that a value names. -/
  colour : Json → Except ForeignError Colour
  /-- What is raised for a value that is to be shown as text and is none. -/
  notText : Json → ForeignError

/-- What a picture looks like. -/
structure Preview where
  width : Nat
  height : Nat
  bar : Colour
  /-- For every line, whether it begins with a ref that gets a label. -/
  labels : List Bool

namespace Preview

/-- The accent of boards that name none, or none that is known. -/
def defaultAccent : String := "#2563EB"

def lineHeight : Nat := 18
def margin : Nat := 12
def leastWidth : Nat := 480
def charWidth : Nat := 7

/-- The accent colour of a theme. A value that does not count as given leaves the default, and so
does one that names no colour. -/
def accentColour (display : Display) (accent : Json) : Checked Colour :=
  match display.colour (accent.orElse (.str defaultAccent)) with
  | .ok colour => .ok colour
  | .error e =>
    if e.kind = "ValueError" then (display.colour (.str defaultAccent)).mapError .foreign
    else .error (.foreign e)

/-- Whether a line begins, after blanks, with a ref and a space. -/
def hasLabel (line : String) : Bool :=
  match line.toList.dropWhile Text.isBlank with
  | '@' :: 'e' :: rest =>
    let after := rest.dropWhile Text.isDecimalDigit
    after.length < rest.length && after.head? == some ' '
  | _ => false

/-- The picture of some lines. -/
def ofLines (display : Display) (lines : List String) (accent : Json) : Checked Preview := do
  let bar ← accentColour display accent
  let lines := if lines.isEmpty then [""] else lines
  let longest := (lines.map String.length).foldl max 0
  return {
    width := max leastWidth (longest * charWidth + 2 * margin)
    height := lines.length * lineHeight + 2 * margin + 6
    bar
    labels := lines.map hasLabel }

end Preview

end DecisionBoard
