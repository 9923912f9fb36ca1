import DecisionBoard.Board.Control
import DecisionBoard.Key
import DecisionBoard.Refs

/-!
# Snapshots

What changed on a board between two snapshots. A snapshot is the table of its elements by key; a
comparison tells which keys appeared, which disappeared, and which properties of the others have
another value.
-/

namespace DecisionBoard

/-- The elements of a board by key. -/
abbrev Snapshot := Entries Key Fields

/-- A property with its values before and after. -/
structure Change where
  property : String
  before : Json
  after : Json

/-- What changed between two snapshots. -/
structure Difference where
  appeared : List Key
  disappeared : List Key
  modified : List (Key × List Change)

namespace Snapshot

/-- The properties that are compared. -/
def trackedProperties : List String := ["kind", "label", "value", "pending"]

/-- An element as a table of its properties. -/
def elementFields (e : Element) : Fields :=
  [("key", .str e.key), ("kind", .str e.kind), ("label", .str e.label), ("value", e.value),
   ("pending", .bool e.pending)]

/-- The key under which an element is kept, none if it has none. -/
def elementKey? (element : Json) : Checked (Option (Key × Fields)) := do
  let fs ← element.members
  let key := fs.get "key"
  if !key.truthy then return none
  return some (← Key.ofJson key, fs)

/-- The table of some elements: the last of a key counts, at the first one's place. -/
def ofElements (elements : List Json) : Checked Snapshot := do
  return Entries.ofPairs ((← elements.mapM elementKey?).filterMap id)

/-- The tracked properties in which two elements differ. -/
def changes (before after : Fields) : List Change :=
  trackedProperties.filterMap fun property =>
    let b := before.get property
    let a := after.get property
    if b.equals a then none else some ⟨property, b, a⟩

/-- What changed from one snapshot to another. -/
def difference (before after : Snapshot) : Difference where
  appeared := (after.filter fun (k, _) => !Entries.has before k).map (·.1)
  disappeared := (before.filter fun (k, _) => !Entries.has after k).map (·.1)
  modified := after.filterMap fun (k, new) => do
    let old ← Entries.get? before k
    match changes old new with
    | [] => none
    | cs => some (k, cs)

end Snapshot

/-- Remembers the last snapshot. -/
structure Tracker where
  last : Option Snapshot := none

namespace Tracker

/-- Takes a snapshot and compares it with the last one, if there is one. -/
def take (t : Tracker) (elements : List Json) : Checked (Option Difference × Tracker) := do
  let snapshot ← Snapshot.ofElements elements
  return (t.last.map fun last => Snapshot.difference last snapshot, ⟨some snapshot⟩)

end Tracker

namespace Difference

def changeJson (c : Change) : String × Json :=
  (c.property, .obj [("from", c.before), ("to", c.after)])

def toJson (d : Difference) : Json :=
  .obj [("appeared", .arr (d.appeared.map Key.toJson)),
    ("disappeared", .arr (d.disappeared.map Key.toJson)),
    ("modified", .arr (d.modified.map fun (k, cs) =>
      .obj [("key", k.toJson), ("changes", .obj (cs.map changeJson))]))]

/-! ## In words

A difference is described from its JSON form, which may also come from outside. -/

/-- A field that must be there. -/
def required (v : Json) (name : String) : Checked Json :=
  match v with
  | .obj fs =>
    match Entries.get? fs name with
    | some w => .ok w
    | none => .error (.missingField name)
  | .arr _ => .error (.badListIndex "str")
  | .str _ => .error (.badTextIndex "str")
  | v => .error (.notSubscriptable v.typeName)

/-- A key with its ref, if it has one. -/
def keyLabel (refs : Refs) (key : Json) : Checked Json := do
  match ← Key.ofJson key with
  | .str s =>
    match refs.lookup s with
    | some ref => return .str (ref ++ " (" ++ s ++ ")")
    | none => return key
  | _ => return key

/-- The number of items that a value holds. -/
def count (v : Json) : Checked Nat :=
  match v with
  | .arr _ | .str _ | .obj _ => v.elements.map List.length
  | v => .error (.noLength v.typeName)

/-- One line for the keys that appeared or disappeared. -/
def keysLine (refs : Refs) (head : String) (keys : Json) : Checked (List String) := do
  if !keys.truthy then return []
  let n ← count keys
  let labels ← (← keys.elements).mapM (keyLabel refs)
  match labels.zipIdx.find? fun (l, _) => l.string?.isNone with
  | some (l, i) => .error (.badJoin i l.typeName)
  | none => return [s!"{head} ({n}): {Json.commas (labels.map Json.text)}"]

/-- One property that changed. -/
def changeText (property : String) (values : Json) : Checked String := do
  let before ← required values "from"
  let after ← required values "to"
  return s!"{property} {before.quoted} -> {after.quoted}"

/-- One line for a key whose properties changed. -/
def modifiedLine (refs : Refs) (entry : Json) : Checked String := do
  let parts ← match ← required entry "changes" with
    | .obj cs => cs.mapM fun (property, values) => changeText property values
    | v => .error (.noMember v.typeName "items")
  let label ← keyLabel refs (← required entry "key")
  return s!"  {label.text}: {Json.commas parts}"

/-- A difference in words. -/
def describe (refs : Refs) (difference : Json) : Checked String := do
  let fs ← difference.members
  let appeared := fs.getOr "appeared" (.arr [])
  let disappeared := fs.getOr "disappeared" (.arr [])
  let modified := fs.getOr "modified" (.arr [])
  if !appeared.truthy && !disappeared.truthy && !modified.truthy then
    return "No changes detected."
  let appearedLine ← keysLine refs "Appeared" appeared
  let disappearedLine ← keysLine refs "Disappeared" disappeared
  let modifiedLines ← if !modified.truthy then pure []
    else do
      let n ← count modified
      pure (s!"Modified ({n}):" :: (← (← modified.elements).mapM (modifiedLine refs)))
  return "\n".intercalate ("Board Diff:" :: appearedLine ++ disappearedLine ++ modifiedLines)

end Difference

end DecisionBoard
