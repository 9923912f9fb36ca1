import DecisionBoard.Attachment
import DecisionBoard.Directive
import DecisionBoard.Verdict

/-!
# Sessions

A session is one board with all that belongs to it: the spec, what the user has put in, the
verdict, the view, and the notices waiting for the user. Directives change it through `apply`,
interactions through `set`, `dismiss` and `notify`.
-/

namespace DecisionBoard

/-- How far a board has come. -/
inductive Phase where
  | empty | rendered | mutated | concluded
  deriving DecidableEq, Repr

def Phase.name : Phase → String
  | empty => "empty"
  | rendered => "rendered"
  | mutated => "mutated"
  | concluded => "concluded"

/-- What is seen of a board at the moment: the tab selected in each tabs container, and the cards
shown with their detail, by control key. It is neither saved nor sent to tools. -/
structure View where
  selectedTabs : Entries String Json := []
  expanded : List String := []

/-- A passing message for the user. -/
structure Notice where
  text : String
  level : String := "warning"
  deriving DecidableEq, Repr

/-- One board with its interaction state. -/
structure Session where
  spec : Option Fields := none
  state : WidgetState := []
  verdict : Option Verdict := none
  view : View := {}
  phase : Phase := .empty
  /-- The tools called without an answer so far. -/
  pending : List Key := []
  notices : List Notice := []
  /-- Why the last payload was no directive, until the next board. -/
  lastUnrecognized : Option String := none

/-- What a directive did. -/
structure Outcome where
  kind : String
  applied : Bool
  message : String
  /-- Whether the board started a new problem. -/
  resetState : Bool := false

/-- What is kept of a session when it is saved. -/
structure Record where
  spec : Json
  widgetState : Attachment
  verdict : Json

def Record.ofJson (v : Json) : Checked Record := do
  let fs ← v.members
  return ⟨fs.get "spec", .json (fs.get "widgetState"), fs.get "verdict"⟩

def Record.toJson (r : Record) : Json :=
  .obj [("spec", r.spec), ("widgetState", r.widgetState.toJson), ("verdict", r.verdict)]

/-- A copy of a record. -/
def Record.copied (r : Record) : Checked Record := do
  return ⟨← copyAs id r.spec, ← copyAs Attachment.toJson r.widgetState, ← copyAs id r.verdict⟩

namespace Session

def active (s : Session) : Bool := s.spec.isSome

/-- The title of the board, null without one. -/
def title (s : Session) : Json := (s.spec.map (·.get "title")).getD .null

/-- The layout of a spec, empty if it is not a list. -/
def layoutOf (spec : Fields) : Layout := ((spec.get "layout").items?).getD []

/-- The nodes on the board. -/
def layout (s : Session) : Layout := (s.spec.map layoutOf).getD []

/-! ## Pending tools -/

def isPending (s : Session) (tool : Key) : Bool := s.pending.any (tool == ·)

def addPending (s : Session) (tool : Key) : Session :=
  if s.isPending tool then s else { s with pending := s.pending ++ [tool] }

/-- A tool has answered. -/
def settle (s : Session) (tool : Key) : Session :=
  { s with pending := s.pending.filter fun t => !(tool == t) }

/-- The tool that a payload comes from has answered, if one that counts as given is named. -/
def settleSource (s : Session) (source : Option Key) : Session :=
  match source with
  | some tool => if tool.toJson.truthy then s.settle tool else s
  | none => s

/-! ## Directives -/

/-- A spec whose layout is a list. -/
def withLayoutList (spec : Fields) : Fields :=
  match spec.get "layout" with
  | .arr _ => spec
  | _ => Entries.put spec "layout" (.arr [])

/-- Whether a spec starts a new problem: there is no board yet, or it has another title. -/
def isNewProblem (s : Session) (spec : Fields) : Bool :=
  match s.spec with
  | none => true
  | some old => !(spec.get "title").equals (old.get "title")

/-- Forgets what belongs to the problem at hand. -/
def startProblem (s : Session) : Session := { s with state := [], verdict := none, view := {} }

/-- The session with a spec shown. -/
def showing (s : Session) (spec : Fields) : Session :=
  let spec := withLayoutList spec
  let s := if s.isNewProblem spec then s.startProblem else s
  { s with
    spec := some spec
    phase := if s.verdict.isSome then .concluded else .rendered
    lastUnrecognized := none }

/-- Shows a copy of a spec. -/
def applyRender (s : Session) (spec : Fields) : Checked Session := do
  return s.showing (← copyAs Json.obj spec)

/-- Edits the layout of a spec. The components and the patches are copied, whichever of them the
operation looks at. -/
def editSpec (spec : Fields) (update : Update) : Checked Fields := do
  let components ← copyAs Json.arr update.components
  let patches ← copyAs Json.arr update.patches
  let layout ← (layoutOf spec).apply update.operation components update.ids patches
  return Entries.put spec "layout" (.arr layout)

/-- Takes a verdict. -/
def applyVerdict (s : Session) (verdict : Verdict) : Session :=
  { s with
    verdict := some verdict
    phase := if s.active then .concluded else s.phase }

/-- Carries out a directive. -/
def receive (s : Session) (directive : Directive) : Checked (Outcome × Session) :=
  let outcome (applied : Bool) (message : String) (reset : Bool) : Outcome :=
    ⟨directive.kindName, applied, message, reset⟩
  match directive with
  | .render spec => do
    let shown ← s.applyRender spec
    return (outcome true "rendered" (s.isNewProblem (withLayoutList spec)), shown)
  | .update update =>
    match s.spec with
    | none => .ok (outcome false "no active spec to update" false, s)
    | some spec => do
      let spec ← editSpec spec update
      let phase := if s.phase = .rendered then .mutated else s.phase
      return (outcome true (update.operation.name ++ " applied") false,
        { s with spec := some spec, phase := phase })
  | .conclude verdict => do
    return (outcome true "verdict set" false, s.applyVerdict (← Verdict.ofFields verdict))
  | .unrecognized cause =>
    .ok (outcome false cause.reason false, { s with lastUnrecognized := some cause.reason })

/-- Classifies a payload and carries it out. The tool that sent it, if any, is no longer pending
afterwards; a payload that is refused changes nothing else. -/
def apply (s : Session) (payload : Json) (source : Option Key := none) :
    Checked Outcome × Session :=
  let s := s.settleSource source
  match classify payload >>= s.receive with
  | .ok (outcome, s') => (.ok outcome, s')
  | .error fault => (.error fault, s)

/-! ## Interaction -/

/-- Sets an input value. -/
def set (s : Session) (key value : Json) : Checked Session :=
  if !key.truthy then .error .emptyStateKey
  else do
    let k ← Key.ofJson key
    return { s with state := Entries.put s.state k value }

/-- An input value, or a default if it was never set. -/
def get (s : Session) (key default : Json) : Checked Json := do
  return (Entries.get? s.state (← Key.ofJson key)).getD default

/-- Marks an id as hidden. -/
def flagDismissed (s : Session) (id : String) : Session :=
  { s with state := Entries.put s.state (.str (WidgetState.dismissedKey id)) (.bool true) }

/-- Removes the nodes with an id and marks it as hidden. -/
def dismiss (s : Session) (id : String) : Session :=
  flagDismissed
    { s with spec := s.spec.map fun spec =>
        Entries.put spec "layout" (.arr ((layoutOf spec).remove [id])) }
    id

def notify (s : Session) (text : String) (level : String := "warning") : Session :=
  { s with notices := s.notices ++ [⟨text, level⟩] }

/-- Takes the notices out. -/
def drainNotices (s : Session) : List Notice × Session := (s.notices, { s with notices := [] })

/-- Selects a tab of the container with a control key. -/
def selectTab (s : Session) (key : String) (index : Json) : Session :=
  { s with view := { s.view with selectedTabs := Entries.put s.view.selectedTabs key index } }

def isExpanded (s : Session) (key : String) : Bool := s.view.expanded.contains key

/-- Shows the detail of a card. -/
def expand (s : Session) (key : String) : Session :=
  if s.isExpanded key then s
  else { s with view := { s.view with expanded := s.view.expanded ++ [key] } }

/-- Hides the detail of a card. -/
def collapse (s : Session) (key : String) : Session :=
  { s with view := { s.view with expanded := s.view.expanded.filter (· != key) } }

/-! ## Saving and restoring -/

/-- The record of a session. -/
def record (s : Session) : Record :=
  ⟨(s.spec.map Json.obj).getD .null, .state s.state,
    (s.verdict.map fun v => Json.obj v.toFields).getD .null⟩

/-- A copy of the record, which is what is saved. -/
def toRecord (s : Session) : Checked Record := s.record.copied

/-- Restores a session: the spec is shown, the state laid in, the verdict taken. -/
def ofRecord (r : Record) : Checked Session := do
  let shown ← match r.spec with
    | .obj spec => ({} : Session).applyRender spec
    | _ => pure {}
  let restored := { shown with state := ← r.widgetState.toState }
  match r.verdict with
  | .obj verdict => return restored.applyVerdict (← Verdict.ofFields verdict)
  | _ => return restored

end Session

end DecisionBoard
