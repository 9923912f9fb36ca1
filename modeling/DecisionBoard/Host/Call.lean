import DecisionBoard.Host.Basic

/-!
# Tool calls

What each tool of a host does. A call answers with texts and pictures; a call that is refused
answers with the reason, and what it had changed by then stays changed.
-/

namespace DecisionBoard

/-- A part of the answer to a call. -/
inductive Content where
  | text (text : String)
  | image (preview : Preview)

namespace Host

/-- An argument that must be there. -/
def required (args : Fields) (name : String) : HostStep Json :=
  match Entries.get? args name with
  | some v => return v
  | none => throw (.missingField name)

/-- The answer with the waiting messages, if any, behind it. -/
def withMessages (contents : List Content) : HostStep (List Content) := do
  let messages ← drainMessages
  if messages.isEmpty then return contents
  return contents ++ [.text ("\n".intercalate messages)]

/-- The board as text, with refs given out anew. -/
def boardText : HostStep Content := return .text (← draw).text

def modifySession (f : Session → Session) : HostStep Unit :=
  modify fun host => { host with session := f host.session }

/-! ## Directives -/

/-- Applies a payload to the current session. -/
def applyPayload (payload : Json) (source : Option Key) : HostStep Outcome :=
  ExceptT.mk fun host =>
    let (outcome, session) := host.session.apply payload source
    (outcome, { host with session })

/-- What is said first, if anything: a value that counts as given must be text. -/
def leadText? (display : Display) (lead : Json) : Checked (Option String) :=
  if !lead.truthy then .ok none
  else match lead with
  | .str s => .ok (some s)
  | v => .error (.foreign (display.notText v))

/-- What is said about an outcome, `lead` first. -/
def answerOutcome (hadBoard : Bool) (lead : Json) (outcome : Outcome) :
    HostStep (List Content) := do
  if !outcome.applied then
    return [.text s!"Not applied ({outcome.kind}): {outcome.message}"]
  let said ← check (leadText? (← get).display lead)
  let reset := if outcome.resetState && hadBoard then
      [.text "New problem: previous inputs and verdict cleared."]
    else []
  withMessages ((said.map Content.text).toList ++ reset ++ [← boardText])

/-- The first of the texts that a directive tool is called with. -/
def leadOf (args : Fields) : Json :=
  ((["analysis", "commentary", "reasoning"].map args.get).find? Json.truthy).getD (.str "")

/-- A tool that carries a directive. -/
def callDirective (tool : Tool) (args : Fields) : HostStep (List Content) := do
  let hadBoard := (← get).session.active
  let payload ← check (Envelope.payload tool.name (Arguments.ofFields args))
  let outcome ← applyPayload payload (some (.str tool.name))
  answerOutcome hadBoard (leadOf args) outcome

/-- A payload of any shape. -/
def callApply (args : Fields) : HostStep (List Content) := do
  let hadBoard := (← get).session.active
  answerOutcome hadBoard .null (← applyPayload (args.get "payload") none)

/-! ## Snapshots -/

/-- Compares the drawn elements with the last snapshot. -/
def takeSnapshot (drawing : Drawing) : HostStep (Option Difference) := do
  let host ← get
  let elements := drawing.elements.map fun e => Json.obj (Snapshot.elementFields e)
  let (difference, tracker) ← check (host.tracker.take elements)
  set { host with tracker }
  return difference

/-- The accent colour that the theme of a board names. -/
def accent (session : Session) : Checked Json :=
  (((session.spec.getD []).get "theme").orElse (.obj [])).member "accent"

def callSnapshot (args : Fields) : HostStep (List Content) := do
  let drawing ← draw (args.getOr "agent_mode" (.bool true)).truthy
  let _ ← takeSnapshot drawing
  let failed := if drawing.failures.isEmpty then []
    else [s!"\n({drawing.failures.length} component(s) failed to render)"]
  let board := Content.text ("\n".intercalate (drawing.lines ++ failed))
  if (args.getOr "include_image" (.bool false)).truthy then
    let host ← get
    let accent ← check (accent host.session)
    withMessages [board, .image (← check (Preview.ofLines host.display drawing.lines accent))]
  else withMessages [board]

def callDiff : HostStep (List Content) := do
  let drawing ← draw false
  match ← takeSnapshot drawing with
  | none =>
    return [.text "No previous snapshot. Baseline stored; call forge_diff again after changes."]
  | some difference =>
    return [.text (← check (Difference.describe (← get).refs difference.toJson))]

/-! ## Inputs and view -/

/-- Where a value goes and what is stored: the state key of an input control, or the target itself
if it names nothing on the board. -/
def destination (target value : Json) (control : Option Control) (layout : Layout) :
    Checked (Json × Json) := do
  match control.filter (·.stateKey.truthy) with
  | some control => return (control.stateKey, ← control.accept value)
  | none =>
    let text ← targetText target
    if WidgetState.startsWith text Refs.sigil || !(Node.find layout text).isEmpty then
      throw (.notInput text)
    return (target, value)

def callSetState (args : Fields) : HostStep (List Content) := do
  let target ← required args "target"
  let control ← findControl target
  let session := (← get).session
  let (key, value) ← check (destination target (args.get "value") control session.layout)
  let session ← check (session.set key value)
  modifySession fun _ => session
  return [.text s!"Set {key.text} = {value.quoted}", ← boardText]

def callSelectTab (args : Fields) : HostStep (List Content) := do
  let target ← required args "target"
  let control ← requireControl target
  if control.kind ≠ "tabs" then throw (.notTabs target.text control.kind)
  let labels := ((control.node.get "tabLabels").items?).getD []
  let index ← check (← required args "index").toWhole
  match if 0 ≤ index then labels[index.toNat]? else none with
  | none => throw (.tabOutOfRange index labels.length)
  | some label =>
    modifySession (·.selectTab control.key (.int index))
    return [.text s!"Selected tab {label.quoted}", ← boardText]

def callExpand (args : Fields) : HostStep (List Content) := do
  let control ← requireControl (← required args "target")
  let shown := (← get).session.isExpanded control.key
  modifySession fun s => if shown then s.collapse control.key else s.expand control.key
  let verb := if shown then "Collapsed" else "Expanded"
  return [.text s!"{verb} {Text.quoted control.label}", ← boardText]

/-! ## Interactions -/

/-- The answer to an interaction that was dispatched. -/
def answerDispatched (dispatched : Dispatched) : HostStep (List Content) := do
  withMessages [.text dispatched.description, ← boardText]

def callClick (args : Fields) : HostStep (List Content) := do
  let control ← requireControl (← required args "target")
  if control.kind = "button" || control.kind = "action" then
    answerDispatched (← dispatch fun clock =>
      Dispatch.click Links.outbound clock (.obj control.node))
  else if control.kind = "text_input" then
    answerDispatched (← dispatch fun clock =>
      Dispatch.submitTextInput Links.outbound clock (.obj control.node))
  else if control.key = Drawing.footerKey then throw .footerClick
  else throw (.notClickable control.label control.kind)

/-- Whether some node with an id may be dismissed. -/
def canDismiss (layout : Layout) (id : String) : Bool :=
  (Node.find layout id).any fun node => (node.get "dismissible").truthy

def callDismiss (args : Fields) : HostStep (List Content) := do
  let target ← required args "target"
  let notify := args.getOr "notify" (.bool true)
  let control ← findControl target
  let layout := (← get).session.layout
  match control with
  | some control =>
    match control.dismissId.filter (· ≠ "") with
    | some id =>
      match control.dismissScope.filter (· ≠ "") with
      | some scope => modifySession (·.flagDismissed scope)
      | none => pure ()
      answerDispatched (← dispatch fun _ =>
        Dispatch.dismiss Links.outbound (.str id) (.str control.label) notify)
    | none => throw (.notDismissible target.text)
  | none =>
    if canDismiss layout target.text then
      answerDispatched (← dispatch fun _ =>
        Dispatch.dismiss Links.outbound target .null notify)
    else throw (.notDismissible target.text)

def callSubmit (args : Fields) : HostStep (List Content) := do
  if !(← get).session.active then return [.text "No board yet. Call forge_view first."]
  answerDispatched (← dispatch fun clock =>
    Dispatch.submitFooter Links.outbound clock (args.getOr "text" (.str ""))
      (args.getOr "notify" (.bool false)))

def callMessages : HostStep (List Content) := do
  let messages ← drainMessages
  return [.text (if messages.isEmpty then "No pending messages."
    else "\n".intercalate messages)]

/-! ## Saved sessions -/

/-- The caller of a call, null for nobody. -/
def callerOf (host : Host) (args : Fields) : Json :=
  let default := (host.settings.userId.map Json.str).getD .null
  ((Caller.user? (args.get "_context") default).map Json.str).getD .null

def callSave (args : Fields) : HostStep (List Content) := do
  let host ← get
  if !host.session.active then return [.text "Nothing to save: no board yet."]
  let record ← check host.session.toRecord
  let (saved, storage) := host.storage.save {
    user := host.callerOf args, id := .str host.sessionId, freshId := host.sessionId
    title := host.session.title.orElse (.str ""), now := host.now } record
  set { host with storage }
  return [.text s!"Saved session {(← check saved).text}"]

def callLoad (args : Fields) : HostStep (List Content) := do
  let id ← required args "session_id"
  let host ← get
  match ← check (host.storage.store.load (host.callerOf args) id) with
  | (.ok, some record) =>
    let session ← check (Session.ofRecord record)
    set (host.enter id.text session)
    return [.text s!"Loaded session {id.text}", ← boardText]
  | (.accessDenied, _) =>
    return [.text s!"Access denied: session {id.text} belongs to another user."]
  | _ => return [.text s!"Session {id.text} not found."]

/-- One line of a list of sessions. -/
def summaryLine (s : SessionSummary) : String :=
  s!"  {s.id.text}  {s.title.text}  (updated {s.updatedAt.text})"

def callSessions (args : Fields) : HostStep (List Content) := do
  let host ← get
  let limit ← check ((args.get "limit").orElse (.int host.settings.sessionListLimit)).toWhole
  let summaries ← check (host.storage.store.list (host.callerOf args) (.int limit))
  if summaries.isEmpty then return [.text "No saved sessions."]
  return [.text ("\n".intercalate (s!"Sessions ({summaries.length}):"
    :: summaries.map summaryLine))]

/-! ## Connected servers -/

/-- The names of the tools that a server lists. -/
def toolNames (data : Fields) : Checked (List Json) := do
  (← (data.getOr "tools" (.arr [])).elements).mapM fun tool => do
    return (← tool.members).getOr "name" (.str "?")

/-- Names in one line; all must be text. -/
def nameLine (names : List Json) : Checked String :=
  match names.zipIdx.find? fun (n, _) => n.string?.isNone with
  | some (n, i) => .error (.badJoin i n.typeName)
  | none => .ok (Json.commas (names.map Json.text))

/-- Keeps a client under a name, as the last one. -/
def register (links : Links) (name : Key) (client : Remote.Client) : Links :=
  { links with connected := Entries.erase links.connected name ++ [(name, client)] }

/-- A client of a server that has not been asked for anything. -/
def newClient (host : Host) (name url : Json) : Remote.Client :=
  { name, url, timeout := host.settings.connectedTimeout.toJson }

def callConnect (args : Fields) : HostStep (List Content) := do
  let name ← required args "name"
  let url ← required args "url"
  let host ← get
  let (answer, client, network) :=
    (host.newClient name url).listTools host.links.http host.links.network
  set { host with links := { host.links with network } }
  let answer ← check answer
  if !answer.success then
    return [.text s!"Could not connect to {name.text}: {answer.error.text}"]
  let key ← check (Key.ofJson name)
  modify fun host => { host with links := register host.links key client }
  let names ← check (toolNames (answer.data.getD []))
  let line ← check (nameLine names)
  return [.text s!"Connected {name.text} ({names.length} tools): {line}"]

def callConnected (args : Fields) : HostStep (List Content) := do
  let name ← required args "name"
  let key ← check (Key.ofJson name)
  let host ← get
  match Entries.get? host.links.connected key with
  | none => return [.text s!"Unknown connected server: {name.text}"]
  | some client =>
    let tool ← required args "tool"
    let (answer, client, network) :=
      client.callTool host.links.http host.links.network tool (some (args.get "arguments"))
    set { host with links := { host.links with
      connected := Entries.put host.links.connected key client, network } }
    let answer ← check answer
    if !answer.success then return [.text s!"Error: {answer.error.text}"]
    return [.text (Json.obj (answer.data.getD [])).writeIndented]

/-! ## Any call -/

/-- What a tool does. -/
def perform (tool : Tool) (args : Fields) : HostStep (List Content) :=
  match tool with
  | .view | .update | .conclude => callDirective tool args
  | .apply => callApply args
  | .snapshot => callSnapshot args
  | .diff => callDiff
  | .setState => callSetState args
  | .selectTab => callSelectTab args
  | .expand => callExpand args
  | .click => callClick args
  | .dismiss => callDismiss args
  | .submit => callSubmit args
  | .messages => callMessages
  | .save => callSave args
  | .load => callLoad args
  | .sessions => callSessions args
  | .connect => callConnect args
  | .connectedCall => callConnected args

/-- Calls a tool by name. -/
def call (host : Host) (name : String) (args : Fields) : List Content × Host :=
  match Tool.ofName? name with
  | none => ([.text s!"Unknown tool: {name}"], host)
  | some tool =>
    match (perform tool args).run host with
    | (.ok contents, host) => (contents, host)
    | (.error fault, host) => ([.text s!"Error: {fault.message}"], host)

end Host

end DecisionBoard
