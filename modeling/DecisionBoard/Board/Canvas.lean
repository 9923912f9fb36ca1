import DecisionBoard.Board.Control
import DecisionBoard.Refs
import DecisionBoard.Session

/-!
# The canvas

What drawing builds up beside the lines: controls, elements, the names of parts that could not be
drawn, and refs if they are asked for. A drawing that is refused keeps what it had built, unless
it is isolated: then it leaves nothing behind but its name and a placeholder line.
-/

namespace DecisionBoard

/-- The parts registered so far. -/
structure Canvas where
  controls : Entries String Control := []
  elements : List Element := []
  failures : List String := []
  /-- The refs given out, none in a drawing without refs. -/
  refs : Option Refs := none

/-- A step of drawing. -/
abbrev Draw := ExceptT Fault (StateM Canvas)

namespace Draw

/-- Lets a value of unknown shape be read while drawing. -/
def check {α : Type} (v : Checked α) : Draw α := ExceptT.mk (pure v)

/-- Registers a control and gives the ref, with a space, that stands before it on its line. -/
def addControl (control : Control) : Draw String := do
  let canvas ← get
  match canvas.refs with
  | none =>
    set { canvas with controls := Entries.put canvas.controls control.key control }
    return ""
  | some refs =>
    let (ref, refs) := refs.assign control.key
    let control := { control with ref := some ref }
    set { canvas with
      controls := Entries.put canvas.controls control.key control
      refs := some refs }
    return ref ++ " "

def addElement (element : Element) : Draw Unit :=
  modify fun canvas => { canvas with elements := canvas.elements ++ [element] }

/-- Draws a part on its own: if it is refused, the canvas is as before but for its name among the
failures, and the placeholder stands in its place. -/
def isolate (name placeholder : String) (part : Draw (List String)) : Draw (List String) :=
  ExceptT.mk fun canvas =>
    match part.run canvas with
    | (.ok lines, drawn) => (.ok lines, drawn)
    | (.error _, _) =>
      (.ok [placeholder], { canvas with failures := canvas.failures ++ [name] })

/-- An isolated part is never refused. -/
theorem isolate_ok (name placeholder : String) (part : Draw (List String)) (canvas : Canvas) :
    ∃ lines drawn, (isolate name placeholder part).run canvas = (.ok lines, drawn) := by
  simp only [isolate, ExceptT.run, ExceptT.mk]
  split <;> exact ⟨_, _, rfl⟩

end Draw

end DecisionBoard
