import DecisionBoard.Json.Access

/-!
# Layout nodes

A layout is a list of nodes. A node is an object with a kind: a container, which holds one level
of children, or a leaf. Values that are not objects may stand in a layout and are passed over.
-/

namespace DecisionBoard

/-- The kinds of nodes that hold children. -/
inductive ContainerKind where
  | row | stack | columns | grid | tabs
  deriving DecidableEq, Repr

/-- The kinds of nodes that are drawn. -/
inductive LeafKind where
  | heading | text | badge | divider
  | card | cardList | table
  | slider | textInput | select | toggle | button
  | progressBar | meter | scoreableItem | argumentPair
  deriving DecidableEq, Repr

namespace ContainerKind

def all : List ContainerKind := [row, stack, columns, grid, tabs]

def name : ContainerKind → String
  | row => "row"
  | stack => "stack"
  | columns => "columns"
  | grid => "grid"
  | tabs => "tabs"

def ofName? (name : String) : Option ContainerKind := all.find? (·.name == name)

end ContainerKind

namespace LeafKind

def all : List LeafKind :=
  [heading, text, badge, divider, card, cardList, table, slider, textInput, select, toggle,
    button, progressBar, meter, scoreableItem, argumentPair]

def name : LeafKind → String
  | heading => "heading"
  | text => "text"
  | badge => "badge"
  | divider => "divider"
  | card => "card"
  | cardList => "card_list"
  | table => "table"
  | slider => "slider"
  | textInput => "text_input"
  | select => "select"
  | toggle => "toggle"
  | button => "button"
  | progressBar => "progress_bar"
  | meter => "meter"
  | scoreableItem => "scoreable_item"
  | argumentPair => "argument_pair"

def ofName? (name : String) : Option LeafKind := all.find? (·.name == name)

/-- The kinds that only show text and are never addressed. -/
def static : List LeafKind := [heading, text, badge, divider]

end LeafKind

namespace Node

/-- The kind of a node with these fields: its `kind`, or its `type` if it has none; empty if that
is not text. -/
def kindOf (fs : Fields) : String :=
  (match Entries.get? fs "kind" with
    | some kind => kind.string?
    | none => (fs.get "type").string?).getD ""

/-- The kind of a value, empty for what is not an object. -/
def kind : Json → String
  | .obj fs => kindOf fs
  | _ => ""

/-- The id of a node with these fields, none if it is missing, null or empty. -/
def idOf (fs : Fields) : Option String :=
  match fs.get "id" with
  | .null | .str "" => none
  | v => some v.text

/-- The id of a value, none for what is not an object. -/
def id : Json → Option String
  | .obj fs => idOf fs
  | _ => none

/-- The container kind of a value that is a container. -/
def container? (node : Json) : Option ContainerKind := ContainerKind.ofName? (kind node)

def isContainer (node : Json) : Bool := (container? node).isSome

/-- The list of children that a container with these fields holds, whatever its items. -/
def childList? (node : Json) : Option (List Json) :=
  match node with
  | .obj fs => if isContainer node then (Fields.get fs "children").items? else none
  | _ => none

/-- The children of a container; none for leaves and for containers without a list. -/
def children (node : Json) : List Fields := ((childList? node).getD []).filterMap Json.fields?

/-- The nodes of a layout in document order: every root node, followed by its children. -/
def all (layout : List Json) : List Fields :=
  layout.flatMap fun node =>
    match node with
    | .obj fs => fs :: children node
    | _ => []

/-- The nodes with a given id. -/
def find (layout : List Json) (id : String) : List Fields :=
  (all layout).filter fun fs => idOf fs == some id

/-- The nodes whose id is a given value; null is the id of those without one. -/
def findAs (layout : List Json) : Json → List Fields
  | .str id => find layout id
  | .null => (all layout).filter fun fs => (idOf fs).isNone
  | _ => []

/-- The best name for a node in messages. -/
def title (fs : Fields) : String :=
  let named := ["title", "label", "text"].findSome? fun field =>
    match fs.get field with
    | .str s => if s = "" then none else some s
    | _ => none
  match named, idOf fs with
  | some s, _ => s
  | none, some id => id
  | none, none => if kindOf fs = "" then "component" else kindOf fs

end Node

end DecisionBoard
