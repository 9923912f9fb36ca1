import DecisionBoard.Json.Access

/-!
# Verdicts

A verdict as a board keeps it: four fields of fixed types, made from whatever a conclude
directive brings.
-/

namespace DecisionBoard

/-- The conclusion of an analysis. -/
structure Verdict where
  winner : String
  confidence : Int
  reasoning : String
  nextSteps : List String
  deriving DecidableEq, Repr

namespace Verdict

/-- The confidence of a verdict that states none, or states no number. -/
def defaultConfidence : Int := 50

/-- A confidence as a whole number. A number too large to be rounded is refused. -/
def wholeConfidence (stated : Json) : Checked Int :=
  match stated.toDouble >>= Double.round with
  | .ok n => .ok n
  | .error .intTooLarge => .error .intTooLarge
  | .error .infinityToInteger => .error .infinityToInteger
  | .error _ => .ok defaultConfidence

/-- The nearest number from 1 to 100. -/
def clampConfidence (n : Int) : Int := min 100 (max 1 n)

/-- The next steps, a single one standing for a list of one. -/
def steps (stated : Json) : List Json :=
  if !stated.truthy then []
  else match stated with
  | .arr xs => xs
  | v => [v]

/-- The verdict that an object states. -/
def ofFields (fs : Fields) : Checked Verdict := do
  let confidence ← wholeConfidence (fs.getOr "confidence" (.int defaultConfidence))
  return {
    winner := (fs.getOr "winner" (.str "")).text
    confidence := clampConfidence confidence
    reasoning := (fs.getOr "reasoning" (.str "")).text
    nextSteps := (steps (fs.get "next_steps")).map Json.text }

def toFields (v : Verdict) : Fields :=
  [("winner", .str v.winner), ("confidence", .int v.confidence), ("reasoning", .str v.reasoning),
   ("next_steps", .arr (v.nextSteps.map .str))]

theorem clampConfidence_bounds (n : Int) : 1 ≤ clampConfidence n ∧ clampConfidence n ≤ 100 := by
  unfold clampConfidence; omega

/-- The lines of a verdict panel. -/
def panel (verdict : Json) : Checked (List String) := do
  let fs ← verdict.members
  let field (name : String) : String := (fs.getOr name (.str "")).text
  let head := [
    "Verdict: " ++ field "winner",
    field "confidence" ++ "% confidence",
    field "reasoning"]
  let steps := fs.get "next_steps"
  if !steps.truthy then return head
  let steps ← steps.elements
  return head ++ "Next steps:" :: (steps.zipIdx 1).map fun (step, i) => s!"  {i}. {step.text}"

end Verdict

end DecisionBoard
