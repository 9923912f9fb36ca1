import DecisionBoard.WidgetState

/-!
# Attachments

Tool calls and saved sessions carry JSON values beside copies of a board's widget state. A copy
keeps its keys as they are; they become field names only when it is written out.
-/

namespace DecisionBoard

/-- A value that is carried along: JSON, or a copy of a widget state. -/
inductive Attachment where
  | json (value : Json)
  | state (state : WidgetState)

namespace Attachment

def toJson : Attachment → Json
  | json v => v
  | state s => s.toJson

def truthy : Attachment → Bool
  | json v => v.truthy
  | state s => !s.isEmpty

/-- Whether an attachment can be written in plain JSON, keys included. -/
def isPlain : Attachment → Bool
  | json v => v.isPlain
  | state s => s.all fun (k, v) => k.toJson.isPlain && v.isPlain

/-- The parts of one item of a list of pairs. -/
def pairParts (index : Nat) (item : Json) : Checked (List Json) :=
  match item.elements with
  | .ok parts => .ok parts
  | .error _ => .error (.badPair index)

/-- The entry that the item at some place of a list of pairs gives. -/
def pairEntry (index : Nat) (item : Json) : Checked (Key × Json) := do
  match ← pairParts index item with
  | [k, v] => return (← Key.ofJson k, v)
  | parts => .error (.badPairLength index parts.length)

/-- The table that a value makes: an object's fields, or the pairs of a list. -/
def toState : Attachment → Checked WidgetState
  | state s => .ok s
  | json v =>
    if !v.truthy then .ok []
    else match v with
    | .obj fs => .ok (.ofFields fs)
    | v => do
      let entries ← (← v.elements).zipIdx.mapM fun (item, i) => pairEntry i item
      return Entries.ofPairs entries

end Attachment

/-- The arguments of a tool call. -/
abbrev Arguments := Entries String Attachment

namespace Arguments

def ofFields (fs : Fields) : Arguments := fs.map fun (k, v) => (k, .json v)

def toJson (args : Arguments) : Json := .obj (args.map fun (k, v) => (k, v.toJson))

/-- Arguments as a JSON value, if they can be written in plain JSON. -/
def plain? (args : Arguments) : Option Json :=
  if args.all fun (_, a) => a.isPlain then some args.toJson else none

/-- The JSON value of an argument, or a stated one if it is missing. -/
def getOr (args : Arguments) (name : String) (missing : Json) : Json :=
  ((Entries.get? args name).map Attachment.toJson).getD missing

def get (args : Arguments) (name : String) : Json := args.getOr name .null

end Arguments

end DecisionBoard
