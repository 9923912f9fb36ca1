import DecisionBoard.Json.Order
import DecisionBoard.Json.Writer
import DecisionBoard.Session
import DecisionBoard.Sorting

/-!
# Saved sessions

A store keeps the record of every saved session under its id, owned by the user who first saved
it. Saving to another user's session is refused; loading it is denied. A store can be written to a
file after every save and opened from the text of that file, which may hold any JSON: what an entry
lacks is found missing when it is asked for.
-/

namespace DecisionBoard

/-- What is kept of one saved session: owner, title, times, revision and record, by name. -/
abbrev StoredSession := Entries String Attachment

/-- The saved sessions by id, and the revision that the next save gets. -/
structure Store where
  sessions : Entries Key StoredSession := []
  nextRevision : Quantity := .whole 1

/-- How a load went. -/
inductive LoadStatus where
  | ok | notFound | accessDenied
  deriving DecidableEq, Repr

def LoadStatus.name : LoadStatus → String
  | ok => "ok"
  | notFound => "not_found"
  | accessDenied => "access_denied"

/-- One line of a list of sessions. -/
structure SessionSummary where
  id : Key
  title : Json
  createdAt : Json
  updatedAt : Json

/-- What a save is given besides the record. -/
structure SaveRequest where
  user : Json
  /-- The session to save to, a new one if it does not count as given. -/
  id : Json
  /-- The id that a new session gets. -/
  freshId : String
  title : Json
  now : String

namespace Store

/-! ## Parts of a stored session -/

def part (s : StoredSession) (name : String) : Checked Attachment :=
  match Entries.get? s name with
  | some a => .ok a
  | none => .error (.missingField name)

def jsonPart (s : StoredSession) (name : String) : Checked Json := (part s name).map (·.toJson)

/-- The revision of a stored session, zero if it has none. -/
def revision (s : StoredSession) : Json :=
  ((Entries.get? s "revision").map Attachment.toJson).getD (.int 0)

/-- Who owns what an anonymous user saves. -/
def anonymous : String := "anonymous"

/-- The name under which a user owns sessions. -/
def ownerOf (user : Json) : Json := user.orElse (.str anonymous)

/-! ## Saving, loading, listing -/

/-- The stored session under an id that counts as given. -/
def existing? (store : Store) (id : Json) : Checked (Option StoredSession) :=
  if id.truthy then (Key.ofJson id).map (Entries.get? store.sessions) else .ok none

/-- Where a save goes, if the user may save there: the id, and when the session was created. -/
def grant (store : Store) (request : SaveRequest) : Checked (Key × Json) := do
  let old ← store.existing? request.id
  match old with
  | some s =>
    if !(← jsonPart s "owner").equals (ownerOf request.user) then
      throw (.ownedByAnother request.id.text)
  | none => pure ()
  let createdAt ← match old with
    | some s => jsonPart s "created_at"
    | none => pure (.str request.now)
  return (← Key.ofJson (request.id.orElse (.str request.freshId)), createdAt)

/-- What is kept of a session that is saved under a revision. -/
def entryOf (request : SaveRequest) (createdAt revision : Json) (record : Record) :
    StoredSession := [
  ("owner", .json (ownerOf request.user)), ("title", .json request.title),
  ("created_at", .json createdAt), ("updated_at", .json (.str request.now)),
  ("revision", .json revision), ("spec", .json record.spec),
  ("widgetState", record.widgetState), ("verdict", .json record.verdict)]

/-- Saves a copy of a record, giving the id. The revision is taken before the copy is made, and is
gone if the copy is refused. -/
def save (store : Store) (request : SaveRequest) (record : Record) : Checked Key × Store :=
  match store.grant request with
  | .error fault => (.error fault, store)
  | .ok (id, createdAt) =>
    let taken : Store := { store with nextRevision := store.nextRevision.next }
    match record.copied with
    | .error fault => (.error fault, taken)
    | .ok record => (.ok id, { taken with
        sessions := Entries.put store.sessions id
          (entryOf request createdAt store.nextRevision.toJson record) })

/-- Loads the record of a session, if the user owns it. -/
def load (store : Store) (user id : Json) : Checked (LoadStatus × Option Record) := do
  match Entries.get? store.sessions (← Key.ofJson id) with
  | none => return (.notFound, none)
  | some s =>
    if !(← jsonPart s "owner").equals (ownerOf user) then return (.accessDenied, none)
    let spec ← jsonPart s "spec"
    let widgetState ← part s "widgetState"
    let verdict ← jsonPart s "verdict"
    return (.ok, some (← Record.copied ⟨spec, widgetState, verdict⟩))

/-- A session with the values that place it in a list. -/
abbrev Listed := Key × StoredSession × Json × Json

/-- Whether a session was updated before another. -/
def updatedBefore (a b : Listed) : Checked Bool :=
  Json.comparesList .less [a.2.2.1, a.2.2.2] [b.2.2.1, b.2.2.2]

/-- The sessions of a user, the last updated first, at most `limit` of them. -/
def list (store : Store) (user limit : Json) : Checked (List SessionSummary) := do
  let owned ← store.sessions.filterM fun (_, s) => return (← jsonPart s "owner").equals (ownerOf user)
  let keyed ← owned.mapM fun (id, s) => return (id, s, ← jsonPart s "updated_at", revision s)
  let sorted ← Sorting.sortDescending updatedBefore keyed
  let cut ← limitOf limit
  (sorted.take cut).mapM fun (id, s, updatedAt, _) =>
    return ⟨id, ← jsonPart s "title", ← jsonPart s "created_at", updatedAt⟩
where
  /-- The number of sessions that a limit lets through; a limit that is no whole number must be
  negative. -/
  limitOf (limit : Json) : Checked Nat := do
    if ← Json.compares .greater (.int 0) limit then return 0
    match limit with
    | .int n => return n.toNat
    | .bool b => return if b then 1 else 0
    | _ => throw .badSlice

/-! ## The file -/

/-- A store as a JSON value. -/
def toJson (store : Store) : Json :=
  .obj [("sessions", .obj (store.sessions.map fun (id, s) =>
    (id.fieldName, .obj (s.map fun (name, a) => (name, a.toJson)))))]

/-- The text of the file of a store. -/
def fileText (store : Store) : String := store.toJson.writeIndented

/-- The sessions of a file: a table of objects. -/
def sessionsOf (file : Json) : Checked (Entries Key Json) := do
  (Attachment.json (← file.member "sessions")).toState

/-- The revision that a session of a file states, zero if it states none. -/
def statedRevision (session : Json) : Checked Json := do
  return (← session.members).getOr "revision" (.int 0)

/-- The greatest revision of some sessions, the first one unless a later one exceeds it; zero
without sessions. -/
def greatestRevision : List Json → Checked Json
  | [] => .ok (.int 0)
  | first :: rest => do
    rest.foldlM (fun best session => do
      let stated ← statedRevision session
      return if ← Json.compares .greater stated best then stated else best) (← statedRevision first)

/-- The revision after one that a file gives. -/
def revisionAfter : Json → Checked Quantity
  | .str _ => .error (.badConcatenation "str" "int")
  | .arr _ => .error (.badConcatenation "list" "int")
  | v =>
    match v.quantity? with
    | some q => .ok q.next
    | none => .error (.badSum v.typeName "int")

/-- The store that a file's value holds. -/
def ofJson (file : Json) : Checked Store := do
  let sessions ← sessionsOf file
  let nextRevision ← revisionAfter (← greatestRevision (sessions.map (·.2)))
  let stored ← sessions.mapM fun (id, v) => return (id, Arguments.ofFields (← v.members))
  return ⟨stored, nextRevision⟩

/-- A text with a line feed for every carriage return and for every pair of the two. -/
def plainLineEnds (s : String) : String := String.ofList (go s.toList)
where
  /-- The same for characters. -/
  go : List Char → List Char
    | '\r' :: '\n' :: rest => '\n' :: go rest
    | '\r' :: rest => '\n' :: go rest
    | c :: rest => c :: go rest
    | [] => []

/-- The store that a file holds; a file that is not there holds an empty one. -/
def openFile : Option String → Checked Store
  | none => .ok {}
  | some text =>
    match Json.read (plainLineEnds text) with
    | .ok v => ofJson v
    | .error e => .error (.badJson e)

end Store

end DecisionBoard
