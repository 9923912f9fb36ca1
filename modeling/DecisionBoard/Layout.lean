import DecisionBoard.Node

/-!
# Editing a layout

Three operations on a layout: append nodes, remove the nodes with given ids, and lay changes over
the nodes with given ids. Nodes are addressed by id, at the root or one level down in a
container; an id shared by several nodes addresses all of them.
-/

namespace DecisionBoard

/-- The nodes of a board, in order. -/
abbrev Layout := List Json

/-- The operations of an update. -/
inductive Operation where
  | add | remove | patch
  deriving DecidableEq, Repr

namespace Operation

def name : Operation → String
  | add => "add"
  | remove => "remove"
  | patch => "patch"

def ofJson? (v : Json) : Option Operation :=
  [add, remove, patch].find? fun op => v.string? == some op.name

end Operation

namespace Layout

/-- Appends the objects among some values. -/
def add (layout : Layout) (nodes : List Json) : Layout := layout ++ nodes.filter Json.isObj

/-! ## Removal -/

/-- Whether a value has one of some ids. -/
def hasIdIn (ids : List String) (node : Json) : Bool :=
  match Node.id node with
  | some id => ids.contains id
  | none => false

/-- Replaces the list of children of a container; any other value is left alone. -/
def withChildren (node : Json) (edit : List Json → List Json) : Json :=
  match node, Node.childList? node with
  | .obj fs, some children => .obj (Entries.put fs "children" (.arr (edit children)))
  | _, _ => node

/-- Drops every root node and every child of a container whose id is among `ids`. A container
left without children stays. -/
def remove (layout : Layout) (ids : List String) : Layout :=
  (layout.filter fun node => !hasIdIn ids node).map fun node =>
    withChildren node (·.filter fun child => !hasIdIn ids child)

/-! ## Patching -/

/-- The id and the changes of a patch entry. Entries without an id or without an object of
changes are passed over; a change of the id itself is dropped. -/
def patchEntry? (entry : Json) : Option (String × Fields) :=
  match entry with
  | .obj fs =>
    match Fields.get fs "id", Fields.get fs "changes" with
    | .null, _ => none
    | target, .obj changes => some (target.text, Entries.erase changes "id")
    | _, _ => none
  | _ => none

/-- The changes by id, later entries over earlier ones. -/
def changesById (patches : List Json) : Entries String Fields :=
  (patches.filterMap patchEntry?).foldl
    (fun merged (id, changes) =>
      merged.put id (Entries.overlay ((Entries.get? merged id).getD []) changes))
    []

/-- Lays the changes for a value's id over it. The empty id addresses what has no id. -/
def patchNode (changes : Entries String Fields) (node : Json) : Checked Json :=
  match Entries.get? changes ((Node.id node).getD "") with
  | none => .ok node
  | some new =>
    match node with
    | .obj fs => .ok (.obj (Entries.overlay fs new))
    | v => .error (.notMapping v.typeName)

/-- Lays changes over every root node, then over the children that the patched node holds. -/
def patch (layout : Layout) (patches : List Json) : Checked Layout :=
  let changes := changesById patches
  layout.mapM fun node => do
    let patched ← patchNode changes node
    match Node.childList? patched with
    | none => return patched
    | some children =>
      let children ← children.mapM (patchNode changes)
      return withChildren patched fun _ => children

/-! ## Any operation -/

/-- An operation with arguments of its own kind; the other arguments are not looked at. -/
def apply (layout : Layout) (operation : Operation) (components : List Json)
    (ids : List String) (patches : List Json) : Checked Layout :=
  match operation with
  | .add => .ok (layout.add components)
  | .remove => .ok (layout.remove ids)
  | .patch => layout.patch patches

/-- The items of an argument that may be missing. -/
def argumentItems (v : Json) : Checked (List Json) := if v.truthy then v.elements else .ok []

/-- An operation given as raw values. -/
def applyRaw (layout : Layout) (operation components ids patches : Json) : Checked Layout :=
  match Operation.ofJson? operation with
  | some .add => do return layout.add (← argumentItems components)
  | some .remove => do return layout.remove ((← argumentItems ids).map Json.text)
  | some .patch => do layout.patch (← argumentItems patches)
  | none => .error (.unknownOperation operation)

end Layout

end DecisionBoard
