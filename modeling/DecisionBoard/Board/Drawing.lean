import DecisionBoard.Board.Container
import DecisionBoard.Board.Leaf

/-!
# Drawing a board

The lines of a whole board: the head of the spec, the layout from top to bottom, the footer, the
actions and the verdict. Leaves are drawn in isolation; all else can refuse the whole drawing.
-/

namespace DecisionBoard

/-- A drawn board. -/
structure Drawing where
  lines : List String
  controls : Entries String Control := []
  elements : List Element := []
  failures : List String := []

namespace Drawing

def text (d : Drawing) : String := "\n".intercalate d.lines

def control? (d : Drawing) (key : String) : Option Control := Entries.get? d.controls key

/-! ## The parts of a board -/

/-- Title, badge and subtitle, with an empty line below. -/
def headLines (spec : Fields) : List String :=
  let title := Leaf.textOf spec "title"
  let icon := spec.get "icon"
  let badge := spec.get "badge"
  let subtitle := spec.get "subtitle"
  [if icon.truthy then icon.text ++ " " ++ title else title]
    ++ (if badge.truthy then ["[" ++ Text.upper badge.text ++ "]"] else [])
    ++ (if subtitle.truthy then [subtitle.text] else [])
    ++ [""]

/-- A container with the children that it shows. -/
def drawContainer (session : Session) (kind : ContainerKind) (node : Fields) (index : Nat) :
    Draw (List String) := do
  let key := Container.key node index
  let head ← Container.header session kind node key
  let children ← Draw.check (Container.visibleChildren session kind node key)
  let lines ← children.mapM fun (child, i) => Leaf.draw session child s!"{index}/{i}"
  return head :: lines.flatten.map ("  " ++ ·)

/-- A root node; a value that is no object draws nothing. -/
def drawNode (session : Session) (node : Json) (index : Nat) : Draw (List String) :=
  match node with
  | .obj fs =>
    match Node.container? node with
    | some kind => drawContainer session kind fs index
    | none => Leaf.draw session fs (toString index)
  | _ => pure []

def drawLayout (session : Session) (layout : Layout) : Draw (List String) := do
  if layout.isEmpty then return ["(No layout components to display)"]
  let lines ← layout.zipIdx.mapM fun (node, i) => drawNode session node i
  return lines.flatten

/-- The control key of the footer. -/
def footerKey : String := "footer"

/-- The tool that adds to a board. -/
def updateTool : String := "forge_update"

def drawFooter (session : Session) (spec : Fields) : Draw (List String) := do
  match spec.get "footer" with
  | .obj footer =>
    let placeholder := Leaf.firstText [Fields.get footer "placeholder"]
      "What am I missing? Add a consideration..."
    let lead ← Draw.addControl {
      key := footerKey, kind := "footer", label := placeholder, node := footer }
    let mark := if session.isPending (.str updateTool) then " (adding...)" else ""
    return ["", lead ++ "+ " ++ placeholder ++ mark]
  | _ => return []

/-- The control key of an action: its id, or its place. -/
def actionKey (action : Fields) (index : Nat) : String :=
  (Node.idOf action).getD s!"action:{index}"

def drawAction (session : Session) (action : Fields) (index : Nat) : Draw String := do
  let lead ← Draw.addControl {
    key := actionKey action index, kind := "action", label := Leaf.textOf action "label"
    node := action }
  Draw.check (Leaf.buttonLine session lead action)

def drawActions (session : Session) (spec : Fields) : Draw (List String) := do
  match spec.get "actions" with
  | .arr [] => return []
  | .arr actions =>
    let parts ← actions.zipIdx.mapM fun (action, i) =>
      match action with
      | .obj fs => return [← drawAction session fs i]
      | _ => return []
    return ["", "  ".intercalate parts.flatten]
  | _ => return []

/-- The verdict panel, with an empty line above it. -/
def verdictLines (session : Session) : Checked (List String) :=
  match session.verdict with
  | some verdict => do return "" :: (← Verdict.panel (.obj verdict.toFields))
  | none => .ok []

/-! ## The whole board -/

def drawSpec (session : Session) (spec : Fields) : Draw (List String) := do
  let layout ← drawLayout session (Session.layoutOf spec)
  let footer ← drawFooter session spec
  let actions ← drawActions session spec
  let verdict ← Draw.check (verdictLines session)
  return headLines spec ++ layout ++ footer ++ actions ++ verdict

/-- What is shown before there is a board. -/
def waitingLines (session : Session) : Checked (List String) := do
  let ignored := match session.lastUnrecognized with
    | some reason => if reason = "" then [] else ["Last payload ignored: " ++ reason]
    | none => []
  return ["Forge - Waiting for spec", "No valid spec has been received yet."] ++ ignored
    ++ (← verdictLines session)

/-- Draws the board of a session, giving out refs from those passed in if there are any. The refs
given out before a refusal stay given out. -/
def ofSession (session : Session) (refs : Option Refs := none) : Checked Drawing × Option Refs :=
  match session.spec with
  | none => ((waitingLines session).map fun lines => { lines }, refs)
  | some spec =>
    let (lines, canvas) := (drawSpec session spec).run { refs }
    (lines.map fun lines =>
      { lines, controls := canvas.controls, elements := canvas.elements
        failures := canvas.failures },
      canvas.refs)

/-- The board without refs. -/
def plain (session : Session) : Checked Drawing := (ofSession session).1

end Drawing

end DecisionBoard
