import DecisionBoard.Board.Control
import DecisionBoard.Board.Leaf
import DecisionBoard.Text.Lower

/-!
# Input values

What a control stores when a tool sets it: a number within the bounds of the control, a truth value
for a toggle, one of the options of a select, text for all else.
-/

namespace DecisionBoard

/-- The truth value that a text stands for. -/
def truthOfText (s : String) : Checked Bool :=
  let word := Text.lower (Text.trim s)
  if ["true", "yes", "on", "1"].contains word then .ok true
  else if ["false", "no", "off", "0", ""].contains word then .ok false
  else .error (.booleanExpected s)

/-- The truth value that a value stands for. -/
def truthOf : Json → Checked Bool
  | .str s => truthOfText s
  | v => .ok v.truthy

/-- A double as a whole number if it is one. -/
def wholeIfIntegral (x : Double) : Json := if x.isInteger then .int x.truncate else .float x

namespace Control

/-- The value within bounds that is nearest to a stated number. -/
def boundedValue (label : String) (bounds : Double × Double) (v : Json) : Checked Json :=
  match v.toDouble with
  | .ok x => .ok (wholeIfIntegral (Double.clamp bounds.1 bounds.2 x))
  | .error .intTooLarge => .error .intTooLarge
  | .error _ => .error (.numberExpected label v)

/-- The values of the options of a select. -/
def optionValues (node : Fields) : Checked (List Json) := do
  (← Leaf.itemsOf node "options").mapM fun option => option.member "value"

/-- The option that equals a value, or has the same text. -/
def chosenOption (label : String) (options : List Json) (v : Json) : Checked Json :=
  match options.find? fun option => option.equals v || option.text == v.text with
  | some option => .ok option
  | none => .error (.notAnOption v label options)

/-- What a control stores for a value. -/
def accept (control : Control) (v : Json) : Checked Json :=
  match control.bounds with
  | some bounds => boundedValue control.label bounds v
  | none =>
    if control.kind = "toggle" then (truthOf v).map .bool
    else if control.kind = "select" then do
      chosenOption control.label (← optionValues control.node) v
    else .ok (if v.isNull then .str "" else .str v.text)

end Control

end DecisionBoard
