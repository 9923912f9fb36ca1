import DecisionBoard.Json.Access

/-!
# Numbers and bars

How a board shows quantities: numbers without needless digits, bars of ten cells, and split bars
of twenty cells with the percentages of two sides.
-/

namespace DecisionBoard

namespace Bar

/-- A number that a node states, or a default if it states none or no finite one. -/
def number (stated : Json) (default : Double) : Checked Double :=
  match stated.toDouble with
  | .ok x => .ok (if x.isFinite then x else default)
  | .error .intTooLarge => .error .intTooLarge
  | .error _ => .ok default

/-- A finite number: whole ones with all their digits, others with six. -/
def numberText (x : Double) : String :=
  if x.isInteger then toString x.truncate else x.toCompactText

/-- The longest run of one character that is drawn. -/
def longestRun : Nat := Nat.pow 2 30

/-- A run of one character; a negative count draws nothing. -/
def run (c : Char) (count : Int) : Checked (List Char) :=
  if longestRun < count.toNat then .error (.badRepeat "int")
  else .ok (List.replicate count.toNat c)

/-- The cells of a single bar. -/
def width : Nat := 10

/-- The number of filled cells of `cells` at a percentage. -/
def filledCells (percent : Double) (cells : Nat) : Checked Int :=
  (percent / 100 * Double.ofInt cells).round

/-- A bar filled to a percentage, clamped to the whole bar. -/
def single (percent : Double) : Checked String := do
  let filled ← filledCells (Double.clamp 0 100 percent) width
  return String.ofList ('[' :: (← run '#' filled) ++ (← run '-' (width - filled)) ++ [']'])

/-- A bar split between two sides at a percentage. -/
def split (leftPercent : Int) : Checked String := do
  let left ← filledCells (Double.ofInt leftPercent) (2 * width)
  return String.ofList ('|' :: (← run '<' left) ++ (← run '>' (2 * width - left)) ++ ['|'])

/-- The whole percentages of two quantities; nothing at all counts as one. -/
def percentages (left right : Double) : Checked (Int × Int) := do
  let total := left + right
  let total := if total.isZero then 1 else total
  let percent ← (left / total * 100).round
  return (percent, 100 - percent)

/-- The percentage of the way from `low` to `high`, all of it if there is no way to go. -/
def progress (low high value : Double) : Double :=
  if high.eqv low then 100 else (value - low) / (high - low) * 100

end Bar

end DecisionBoard
