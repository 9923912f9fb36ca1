import DecisionBoard.Key

/-!
# Widget state

What the user has put into the inputs of a board: a flat table beside the spec, never inside it.
Keys are dotted, `scores.f1`; the keys `dismissed.<id>` mark what the user has hidden.
-/

namespace DecisionBoard

/-- Input values by state key, in the order in which they were first set. -/
abbrev WidgetState := Entries Key Json

namespace WidgetState

/-- What a key must begin with to mark something hidden. -/
def dismissedMark : String := "dismissed."

/-- The key that marks `id` as hidden. -/
def dismissedKey (id : String) : String := dismissedMark ++ id

/-- Parts joined by dots. -/
def compositeKey (parts : List String) : String := ".".intercalate parts

/-- Parts joined by dots, refused at the first part that is not text. -/
def joinParts (parts : List Json) : Checked String :=
  match parts.zipIdx.find? fun (p, _) => p.string?.isNone with
  | some (p, i) => .error (.badJoin i p.typeName)
  | none => .ok (compositeKey (parts.filterMap Json.string?))

/-- Whether `id` is marked as hidden. -/
def isDismissed (state : WidgetState) (id : String) : Bool :=
  ((Entries.get? state (.str (dismissedKey id))).getD .null).truthy

/-- The value that the user has set, or a default; a key that does not count as given finds
nothing. -/
def resolve (state : WidgetState) (key default : Json) : Checked Json :=
  if !key.truthy then .ok default
  else do
    let k ← Key.ofJson key
    match Entries.get? state k with
    | none | some .null => return default
    | some v => return v

/-- Whether a text begins with another. -/
def startsWith (s start : String) : Bool := start.toList.isPrefixOf s.toList

/-- Whether a key lies under a group: it is the group itself, or goes on with a dot after it. -/
def isUnder (key : Key) (group : Json) : Checked Bool :=
  if key.toJson.equals group then .ok true
  else match key, group with
    | .str k, .str s => .ok (startsWith k (s ++ "."))
    | .str _, .arr _ => .error (.badConcatenation "list" "str")
    | .str _, v => .error (.badSum v.typeName "str")
    | k, _ => .error (.noMember k.toJson.typeName "startswith")

/-- The entries under one group. -/
def under (state : WidgetState) (group : Json) : Checked WidgetState :=
  state.filterM fun (k, _) => isUnder k group

/-- The entries under any of some groups, in the order of the first group that holds them.
Groups that do not count as given hold nothing. -/
def collect (state : WidgetState) (groups : List Json) : Checked WidgetState :=
  (groups.filter Json.truthy).foldlM (fun found s => return found.overlay (← under state s)) []

/-- A value in the words of a summary. -/
def valueText : Json → String
  | .bool b => if b then "Yes" else "No"
  | v => v.text

/-- A dotted key as a path. -/
def pathText (key : String) : String :=
  String.ofList (key.toList.flatMap fun c => if c = '.' then " > ".toList else [c])

/-- One entry of a summary; nothing for marks of what is hidden and for empty values. -/
def summaryEntry? : Key × Json → Checked (Option String)
  | (.str k, v) =>
    if startsWith k dismissedMark || v.isNull || v.string? == some "" then .ok none
    else .ok (some (pathText k ++ ": " ++ valueText v))
  | (k, _) => .error (.noMember k.toJson.typeName "startswith")

/-- The state in words, for messages. -/
def summary (state : WidgetState) : Checked String := do
  return "; ".intercalate ((← state.mapM summaryEntry?).filterMap id)

/-- The state as a JSON object. -/
def toJson (state : WidgetState) : Json := .obj (state.map fun (k, v) => (k.fieldName, v))

/-- The state that an object's fields make. -/
def ofFields (fs : Fields) : WidgetState := fs.map fun (k, v) => (.str k, v)

end WidgetState

end DecisionBoard
