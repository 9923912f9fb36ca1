import DecisionBoard.Board.Bar
import DecisionBoard.Board.Canvas
import DecisionBoard.Text.Lines
import DecisionBoard.Text.Upper

/-!
# Drawing leaves

One function for each kind of leaf, from the session, the fields of the node and its control key
to the lines that it takes. `Leaf.draw` picks the function by kind and isolates it.
-/

namespace DecisionBoard

/-- Draws the node with these fields under a control key. -/
abbrev LeafDrawing := Session → Fields → String → Draw (List String)

namespace Leaf

/-- The text of a field, or a default if it is missing. -/
def textOf (node : Fields) (name : String) (missing : String := "") : String :=
  (node.getOr name (.str missing)).text

/-- The items under a field; a field that does not count as given has none. -/
def itemsOf (node : Fields) (name : String) : Checked (List Json) :=
  let v := node.get name
  if v.truthy then v.elements else .ok []

/-- The first of some values that counts as given, as text; else the last. -/
def firstText (values : List Json) (last : String) : String :=
  ((values.find? Json.truthy).getD (.str last)).text

/-- Marks in brackets behind a title. -/
def marksText (marks : List String) : String :=
  if marks.isEmpty then "" else " (" ++ Json.commas marks ++ ")"

/-! ## Plain leaves -/

/-- A heading of level one, two or three; any other level counts as two. -/
def heading : LeafDrawing := fun _ node _ => do
  let level := node.getOr "level" (.int 2)
  let known := [1, 2, 3].any fun n => level.equals (.int n)
  let hashes ← match if known then level else .int 2 with
    | .int n => pure (List.replicate n.toNat '#')
    | .bool b => pure (if b then ['#'] else [])
    | v => throw (.badRepeat v.typeName)
  return [String.ofList hashes ++ " " ++ textOf node "text"]

/-- Text, in upper case if it is to be large. -/
def text : LeafDrawing := fun _ node _ => do
  let s := textOf node "text"
  let s := if (node.get "size").string? == some "lg" then Text.upper s else s
  let ls := Text.lines s
  return if ls.isEmpty then [""] else ls

def badge : LeafDrawing := fun _ node _ => return ["[" ++ textOf node "text" ++ "]"]

def divider : LeafDrawing := fun _ _ _ => return [String.ofList (List.replicate 40 '-')]

/-! ## Cards -/

/-- The lines of a card. It is a control if it can be dismissed or has a detail to show. -/
def cardLines (session : Session) (key : String) (item : Fields) (dismissId : Option String) :
    Draw (List String) := do
  let title := textOf item "title"
  let detail := item.get "detail"
  let lead ← if dismissId.isSome || detail.truthy then
      Draw.addControl { key, kind := "card", label := title, node := item, dismissId }
    else pure ""
  let expanded := session.isExpanded key
  let marks := (if dismissId.isSome then ["dismissible"] else [])
    ++ (if detail.truthy && !expanded then ["more"] else [])
  let shown := if detail.truthy && expanded then Text.lines detail.text else []
  return (lead ++ "[card] " ++ title ++ marksText marks) :: shown.map ("    " ++ ·)

def card : LeafDrawing := fun session node key => do
  let dismissId := if (node.get "dismissible").truthy then Node.idOf node else none
  Draw.addElement { key, kind := "card", label := textOf node "title" }
  cardLines session key node dismissId

/-- One item of a list of cards, `drawn` being the number of lines above it. A dismissed item
takes no line; an item without an id is named by its place. -/
def cardListItem (session : Session) (key : String) (drawn : Nat) (item : Json) :
    Draw (List String) := do
  let id := Node.id item
  if id.any (WidgetState.isDismissed session.state) then return []
  let itemKey := id.getD s!"{key}/{drawn}"
  let fields ← Draw.check item.members
  let dismissId := if (fields.get "dismissible").truthy then id else none
  Draw.addElement { key := itemKey, kind := "card", label := textOf fields "title" }
  cardLines session itemKey fields dismissId

def cardList : LeafDrawing := fun session node key => do
  let items ← Draw.check (itemsOf node "items")
  items.foldlM (fun lines item =>
    return lines ++ (← cardListItem session key lines.length item)) []

/-! ## Tables -/

/-- A column's label, between stars if the column is the one to highlight. -/
def columnLabel (highlight : Json) (column : Json) : Checked String := do
  let fs ← column.members
  let emoji := fs.get "emoji"
  let label := if emoji.truthy then emoji.text ++ " " ++ textOf fs "label" else textOf fs "label"
  return if (fs.get "key").equals highlight then "*" ++ label ++ "*" else label

/-- The text with every bar escaped. -/
def escapeBars (s : String) : String :=
  String.ofList (s.toList.flatMap fun c => if c = '|' then ['\\', '|'] else [c])

/-- The cell of a row in a column. -/
def cellText (row : Json) (column : Json) : Checked String := do
  let fs ← row.members
  match ← Key.ofJson (← column.member "key") with
  | .str name => return escapeBars (textOf fs name)
  | _ => return ""

def tableRow (cells : List String) : String := "| " ++ " | ".intercalate cells ++ " |"

def table : LeafDrawing := fun _ node _ => Draw.check do
  let columns ← itemsOf node "headers"
  if columns.isEmpty then return []
  let labels ← columns.mapM (columnLabel (node.get "highlightKey"))
  let rule := "|" ++ "|".intercalate (columns.map fun _ => "---") ++ "|"
  let rows ← (← itemsOf node "rows").mapM fun row => columns.mapM (cellText row)
  return tableRow labels :: rule :: rows.map tableRow

/-! ## Inputs -/

/-- The words at the ends of a slider. -/
def endLabels (node : Fields) : String :=
  if (node.get "lowLabel").truthy || (node.get "highLabel").truthy then
    " " ++ textOf node "lowLabel" ++ " .. " ++ textOf node "highLabel"
  else ""

def slider : LeafDrawing := fun session node key => do
  let stateKey := node.get "stateKey"
  let low ← Draw.check (Bar.number (node.get "min") 1)
  let high ← Draw.check (Bar.number (node.get "max") 10)
  let stated ← Draw.check (session.state.resolve stateKey (node.get "value"))
  let value ← Draw.check (Bar.number stated low)
  let label := firstText [node.get "label", stateKey] "Slider"
  let lead ← Draw.addControl {
    key, kind := "slider", label, node, stateKey, value := .float value, bounds := some (low, high) }
  Draw.addElement { key, kind := "slider", label, value := .float value }
  let bar ← Draw.check (Bar.single (Bar.progress low high value))
  return [lead ++ label ++ ": " ++ Bar.numberText value ++ " " ++ bar ++ " ("
    ++ Bar.numberText low ++ "-" ++ Bar.numberText high ++ ")" ++ endLabels node]

def textInput : LeafDrawing := fun session node key => do
  let stateKey := node.get "stateKey"
  let value ← Draw.check (session.state.resolve stateKey (.str ""))
  let label := firstText [node.get "placeholder", stateKey] "Input"
  let lead ← Draw.addControl { key, kind := "text_input", label, node, stateKey, value }
  Draw.addElement { key, kind := "text_input", label, value }
  let shown := if value.truthy then "\"" ++ value.text ++ "\"" else "(empty)"
  return [lead ++ label ++ ": " ++ shown]

/-- An option of a select, in brackets if it is the one chosen. -/
def optionText (value : Json) (option : Json) : Checked String := do
  let fs ← option.members
  let label := (fs.getOr "label" (fs.getOr "value" (.str ""))).text
  return if (fs.get "value").equals value then "(" ++ label ++ ")" else label

def select : LeafDrawing := fun session node key => do
  let stateKey := node.get "stateKey"
  let value ← Draw.check (session.state.resolve stateKey (node.getOr "value" (.str "")))
  let label := firstText [node.get "label", stateKey] "Select"
  let lead ← Draw.addControl { key, kind := "select", label, node, stateKey, value }
  Draw.addElement { key, kind := "select", label, value }
  let choices ← Draw.check do (← itemsOf node "options").mapM (optionText value)
  return [lead ++ label ++ ": " ++ " | ".intercalate choices]

def toggle : LeafDrawing := fun session node key => do
  let stateKey := node.get "stateKey"
  let stated ← Draw.check (session.state.resolve stateKey (node.getOr "value" (.bool false)))
  let value := Json.bool stated.truthy
  let label := (node.getOr "label" (stateKey.orElse (.str ""))).text
  let lead ← Draw.addControl { key, kind := "toggle", label, node, stateKey, value }
  Draw.addElement { key, kind := "toggle", label, value }
  return [lead ++ "[" ++ (if stated.truthy then "x" else " ") ++ "] " ++ label]

/-! ## Buttons -/

/-- Whether a button's tool is at work. -/
def isPending (session : Session) (node : Fields) : Checked Bool :=
  if (node.get "action").string? == some "call_tool" then
    (Key.ofJson (node.get "toolName")).map session.isPending
  else .ok false

/-- The line of a button, with its ref in front. -/
def buttonLine (session : Session) (lead : String) (node : Fields) : Checked String := do
  let label := textOf node "label"
  let icon := node.get "icon"
  let label := if icon.truthy then icon.text ++ " " ++ label else label
  let label := if ← isPending session node then "Working..." else label
  let variant := node.get "variant"
  let marks :=
    (if variant.truthy && variant.string? != some "primary" then [variant.text] else [])
    ++ (if (node.get "disabled").truthy then ["disabled"] else [])
  return lead ++ "<" ++ label ++ ">" ++ marksText marks

def button : LeafDrawing := fun session node key => do
  let label := textOf node "label"
  let lead ← if (node.get "disabled").truthy then pure ""
    else Draw.addControl { key, kind := "button", label, node }
  let pending ← Draw.check (isPending session node)
  Draw.addElement { key, kind := "button", label, pending }
  return [← Draw.check (buttonLine session lead node)]

/-! ## Quantities -/

def progressBar : LeafDrawing := fun _ node key => do
  let stated ← Draw.check (Bar.number (node.get "value") 0)
  let value := Double.clamp 0 100 stated
  let label := node.get "label"
  let shown := if label.truthy then label.text else ""
  Draw.addElement { key, kind := "progress_bar", label := shown, value := .float value }
  let head := if label.truthy then shown ++ ": " else ""
  return [head ++ (← Draw.check (Bar.single value)) ++ " " ++ Bar.numberText value ++ "%"]

/-- Two sides with their percentages and a bar split between them. -/
def splitLine (leftLabel rightLabel : String) (left right : Double) : Checked String := do
  let (leftPercent, rightPercent) ← Bar.percentages left right
  let bar ← Bar.split leftPercent
  return s!"{leftLabel} {leftPercent}% {bar} {rightPercent}% {rightLabel}"

def meter : LeafDrawing := fun _ node _ => Draw.check do
  let left ← Bar.number (node.get "leftValue") 0
  let right ← Bar.number (node.get "rightValue") 0
  return [← splitLine (textOf node "leftLabel") (textOf node "rightLabel") left right]

def scoreableItem : LeafDrawing := fun session node key => do
  let id := Node.idOf node
  let stateKey := WidgetState.compositeKey [textOf node "stateKey" "scores", id.getD key]
  let low ← Draw.check (Bar.number (node.get "scoreMin") 0)
  let high ← Draw.check (Bar.number (node.get "scoreMax") 100)
  let stated ← Draw.check (session.state.resolve (.str stateKey) (node.get "score"))
  let score ← Draw.check (Bar.number stated low)
  let title := textOf node "title"
  let dismissible := (node.get "dismissible").truthy
  let lead ← Draw.addControl {
    key, kind := "scoreable_item", label := title, node, stateKey := .str stateKey
    value := .float score, dismissId := if dismissible then id else none
    bounds := some (low, high) }
  Draw.addElement { key, kind := "scoreable_item", label := title, value := .float score }
  let bar ← Draw.check (Bar.single (Bar.progress low high score))
  let description := node.get "description"
  let reasoning := node.get "reasoning"
  return [lead ++ title ++ ": " ++ Bar.numberText score ++ " " ++ bar
      ++ (if dismissible then " (dismissible)" else "")]
    ++ (if description.truthy then ["    " ++ description.text] else [])
    ++ (if reasoning.truthy && session.isExpanded key then ["    Why: " ++ reasoning.text] else [])

/-! ## Argument pairs -/

/-- An argument that is drawn: its fields, its strength, and the key of that. -/
structure Argument where
  fields : Fields
  strength : Double
  stateKey : String

/-- One side of an argument pair. -/
structure Side where
  label : String
  arguments : List Argument

/-- The least and the greatest strength of an argument. -/
def strengthBounds : Double × Double := (1, 10)

/-- An argument of a side, none if it is dismissed. -/
def argument? (session : Session) (group side : String) (stated : Json) :
    Checked (Option Argument) := do
  let fields ← stated.members
  let stateKey := WidgetState.compositeKey [group, side, textOf fields "id"]
  if session.state.isDismissed stateKey then return none
  let value ← session.state.resolve (.str stateKey) (fields.get "strength")
  return some ⟨fields, ← Bar.number value 5, stateKey⟩

/-- A side of an argument pair with the arguments that are not dismissed. -/
def side (session : Session) (node : Fields) (name field label : String) : Checked Side := do
  let group := textOf node "stateKeyPrefix" "args"
  let stated := node.get field
  let data ← if stated.truthy then stated.members else pure []
  let arguments ← (← itemsOf data "arguments").mapM (argument? session group name)
  return ⟨textOf data "label" label, arguments.filterMap id⟩

/-- The sum of the strengths of a side. -/
def Side.total (s : Side) : Double := s.arguments.foldl (fun sum a => sum + a.strength) 0

/-- The line of an argument; every argument is a control of its own. -/
def argumentLine (dismissible : Bool) (key : String) (a : Argument) : Draw String := do
  let title := textOf a.fields "title"
  let argumentKey := key ++ "/" ++ a.stateKey
  let lead ← Draw.addControl {
    key := argumentKey, kind := "argument", label := title, node := a.fields
    stateKey := .str a.stateKey, value := .float a.strength
    dismissId := if dismissible then some (textOf a.fields "id") else none
    dismissScope := some a.stateKey, bounds := some strengthBounds }
  Draw.addElement {
    key := argumentKey, kind := "argument", label := title, value := .float a.strength }
  let bar ← Draw.check (Bar.single (a.strength * 10))
  return "  " ++ lead ++ title ++ ": " ++ Bar.numberText a.strength ++ " " ++ bar

/-- The lines of a side. -/
def sideLines (dismissible : Bool) (key : String) (s : Side) : Draw (List String) := do
  let lines ← s.arguments.mapM (argumentLine dismissible key)
  return (s.label ++ ":") ::
    (if s.arguments.isEmpty then ["  All arguments dismissed"] else lines)

def argumentPair : LeafDrawing := fun session node key => do
  let a ← Draw.check (side session node "a" "sideA" "Side A")
  let b ← Draw.check (side session node "b" "sideB" "Side B")
  let head ← match node.getOr "showMeter" (.bool true) with
    | .bool false => pure []
    | _ => do
      pure [← Draw.check (splitLine a.label b.label a.total b.total)]
  let dismissible := (node.get "dismissible").truthy
  let linesA ← sideLines dismissible key a
  let linesB ← sideLines dismissible key b
  return head ++ linesA ++ linesB

/-! ## Any leaf -/

/-- The drawing of a kind. -/
def drawing : LeafKind → LeafDrawing
  | .heading => heading
  | .text => text
  | .badge => badge
  | .divider => divider
  | .card => card
  | .cardList => cardList
  | .table => table
  | .slider => slider
  | .textInput => textInput
  | .select => select
  | .toggle => toggle
  | .button => button
  | .progressBar => progressBar
  | .meter => meter
  | .scoreableItem => scoreableItem
  | .argumentPair => argumentPair

/-- The control key of a leaf: its id, or its kind and its place. -/
def key (node : Fields) (path : String) : String :=
  (Node.idOf node).getD
    ((if Node.kindOf node = "" then "node" else Node.kindOf node) ++ "@" ++ path)

/-- Draws a leaf at a place; a leaf of no known kind draws nothing, and a leaf that is refused
leaves a placeholder. -/
def draw (session : Session) (node : Fields) (path : String) : Draw (List String) :=
  match LeafKind.ofName? (Node.kindOf node) with
  | none => pure []
  | some kind =>
    Draw.isolate kind.name s!"[! {kind.name} failed to render]"
      (drawing kind session node (key node path))

/-- The controls that a leaf registers when it is drawn by itself, on whichever tab it is. -/
def controls (session : Session) (node : Fields) : Entries String Control :=
  ((draw session node "detached").run {}).2.controls

end Leaf

end DecisionBoard
