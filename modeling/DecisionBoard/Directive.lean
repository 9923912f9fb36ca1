import DecisionBoard.Layout

/-!
# Directives

A payload that reaches a board is a directive in one of several shapes: a board spec, a spec
wrapped once or twice under `spec`, an update, a verdict, or JSON text of any of these.
`classify` is the decision table from payloads to directives.
-/

namespace DecisionBoard

/-- An update of the layout. Every argument is kept, whichever the operation looks at. -/
structure Update where
  operation : Operation
  components : List Json
  ids : List String
  patches : List Json

/-- Why a payload is no directive. -/
inductive Unrecognized where
  | notJson
  | notObject (typeName : String)
  | unknownOperation (operation : Json)
  | noShape (keys : List String)

def Unrecognized.reason : Unrecognized → String
  | notJson => "payload is text but not valid JSON"
  | notObject t => s!"payload is {t}, expected an object"
  | unknownOperation operation => s!"unknown operation {operation.quoted}"
  | noShape keys =>
    let listed := Json.commas keys
    let shown := if listed = "" then "none" else listed
    s!"no render, update or conclude shape (keys: {shown})"

/-- What a payload asks of a board. -/
inductive Directive where
  | render (spec : Fields)
  | update (update : Update)
  | conclude (verdict : Fields)
  | unrecognized (cause : Unrecognized)

namespace Directive

def kindName : Directive → String
  | render _ => "render"
  | update _ => "update"
  | conclude _ => "conclude"
  | unrecognized _ => "unrecognized"

/-- A text as the JSON that it holds, if it holds any; other values as they are. -/
def unwrapText (v : Json) : Checked Json :=
  match v with
  | .str s => (Json.held? s).map (·.getD v)
  | _ => .ok v

/-- A board spec has a title that counts as given, and a layout. -/
def isSpec (fs : Fields) : Bool := (fs.get "title").truthy && Entries.has fs "layout"

/-- A verdict names a winner and a reasoning. -/
def isVerdict (fs : Fields) : Bool := Entries.has fs "winner" && Entries.has fs "reasoning"

/-- The fields of the object under a field, which may be given as text. -/
def objectUnder (fs : Fields) (name : String) : Checked (Option Fields) :=
  (unwrapText (fs.get name)).map Json.fields?

/-- The spec that a payload holds under `spec`, or under `spec` within that. -/
def nestedSpec? (fs : Fields) : Checked (Option Fields) := do
  match ← objectUnder fs "spec" with
  | none => return none
  | some inner =>
    if isSpec inner then return some inner
    return (← objectUnder inner "spec").filter isSpec

/-- The items of a list that may be given as text. -/
def listUnder (fs : Fields) (name : String) : Checked (List Json) :=
  (unwrapText (fs.get name)).map fun v => v.items?.getD []

/-- The verdict that a payload is, or holds under `verdict`. -/
def verdict? (fs : Fields) : Checked (Option Fields) :=
  if isVerdict fs then .ok (some fs)
  else (objectUnder fs "verdict").map (·.filter isVerdict)

/-- Names in ascending order of their code points. -/
def sortNames (names : List String) : List String := names.mergeSort fun a b => !(b < a)

/-- The update that an operation and its arguments make. -/
def updateOf (operation : Operation) (fs : Fields) : Checked Update := do
  let components ← listUnder fs "components"
  let ids ← listUnder fs "ids"
  let patches ← listUnder fs "patches"
  return ⟨operation, components.filter Json.isObj, ids.map Json.text, patches.filter Json.isObj⟩

/-- The directive of an object that is no spec and holds none. -/
def ofBareFields (fs : Fields) : Checked Directive :=
  match fs.get "operation" with
  | .null => do
    match ← verdict? fs with
    | some verdict => return .conclude verdict
    | none => return .unrecognized (.noShape (sortNames (fs.map (·.1))))
  | operation =>
    match Operation.ofJson? operation with
    | none => .ok (.unrecognized (.unknownOperation operation))
    | some op => (updateOf op fs).map .update

/-- The directive of an object. -/
def ofFields (fs : Fields) : Checked Directive :=
  if isSpec fs then .ok (.render fs)
  else do
    match ← nestedSpec? fs with
    | some spec => return .render spec
    | none => ofBareFields fs

/-- The directive of a value that is not text. -/
def ofValue : Json → Checked Directive
  | .obj fs => ofFields fs
  | v => .ok (.unrecognized (.notObject v.typeName))

/-- The directive of a text. A text may hold a text; each is shorter than the one around it. -/
def ofText (s : String) : Checked Directive :=
  match Json.held? s with
  | .error fault => .error fault
  | .ok none => .ok (.unrecognized .notJson)
  | .ok (some (.str t)) =>
    if t.length < s.length then ofText t else .ok (.unrecognized .notJson)
  | .ok (some v) => ofValue v
termination_by s.length

end Directive

/-- The directive of a payload. A payload is refused if some text in it is nested too deep. -/
def classify : Json → Checked Directive
  | .str s => Directive.ofText s
  | v => Directive.ofValue v

end DecisionBoard
