import DecisionBoard.Board.Canvas

/-!
# Drawing containers

A container takes one line and shows its children below it. Tabs share their children out evenly,
in order, and show those of the selected tab; without labels they are a stack.
-/

namespace DecisionBoard.Container

/-- The gap between children, a default by kind unless a whole number is stated. -/
def gap (kind : ContainerKind) (node : Fields) : Int :=
  match node.get "gap" with
  | .int n => n
  | _ => if kind = .stack then 12 else 16

/-- The control key of a container: its id, or its kind and its place. -/
def key (node : Fields) (index : Nat) : String :=
  (Node.idOf node).getD s!"{Node.kindOf node}@{index}"

/-! ## Tabs -/

/-- The labels of a tabs container. -/
def tabLabels (node : Fields) : List String := (((node.get "tabLabels").items?).getD []).map Json.text

/-- The number of children that the fullest of `labels` tabs holds. -/
def tabSize (children labels : Nat) : Nat := (children + (labels - 1)) / labels

/-- Shares children out over tabs: runs of `tabSize` for each label in turn. -/
def tabChunks {α : Type} (children : List α) (labels : Nat) : List (List α) :=
  let labels := max labels 1
  let size := tabSize children.length labels
  (List.range labels).map fun i => (children.drop (i * size)).take size

/-- Whether an index is that of one of `count` tabs. -/
def isTabIndex (index : Json) (count : Nat) : Checked Bool :=
  match index.quantity? with
  | some (.whole n) => .ok (0 ≤ n && n < count)
  | some (.real x) => .ok (Double.le 0 x && x.lt (Double.ofInt count))
  | none => .error (.notOrdered "<=" "int" index.typeName)

/-- The selected tab of `count`, the first one unless an index in range was chosen. -/
def selectedTab (session : Session) (key : String) (count : Nat) : Checked Json := do
  let index := (Entries.get? session.view.selectedTabs key).getD (.int 0)
  return if ← isTabIndex index count then index else .int 0

/-- The chunk of the selected tab. -/
def chunkAt {α : Type} (chunks : List (List α)) (index : Json) : Checked (List α) :=
  match index.quantity? with
  | some (.whole n) => .ok (chunks[n.toNat]?.getD [])
  | _ => .error (.badListIndex index.typeName)

/-- The labels in one line, the selected one in brackets. -/
def tabLine (labels : List String) (selected : Json) : String :=
  " | ".intercalate (labels.zipIdx.map fun (label, i) =>
    if (Json.int i).equals selected then "[" ++ label ++ "]" else label)

/-! ## Header and children -/

/-- The line of a container. Tabs with labels are a control. -/
def header (session : Session) (kind : ContainerKind) (node : Fields) (key : String) :
    Draw String := do
  let plain (kind : ContainerKind) := s!"{kind.name} (gap {gap kind node}):"
  let counted (kind : ContainerKind) :=
    let columns := (node.get "columns").orElse (.int 2)
    s!"{kind.name} ({columns.text} cols, gap {gap kind node}):"
  match kind with
  | .row => return plain .row
  | .stack => return plain .stack
  | .columns => return counted .columns
  | .grid => return counted .grid
  | .tabs =>
    match tabLabels node with
    | [] => return plain .stack
    | labels => do
      let selected ← Draw.check (selectedTab session key labels.length)
      let lead ← Draw.addControl {
        key, kind := "tabs", label := " | ".intercalate labels, node, value := selected }
      return lead ++ "tabs: " ++ tabLine labels selected

/-- The children to draw, each with its place among all children. -/
def visibleChildren (session : Session) (kind : ContainerKind) (node : Fields) (key : String) :
    Checked (List (Fields × Nat)) := do
  let children := (Node.children (.obj node)).zipIdx
  match kind, tabLabels node with
  | .tabs, label :: labels =>
    let count := (label :: labels).length
    chunkAt (tabChunks children count) (← selectedTab session key count)
  | _, _ => return children

end DecisionBoard.Container
