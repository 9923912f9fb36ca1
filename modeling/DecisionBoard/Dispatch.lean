import DecisionBoard.Board.Drawing

/-!
# Dispatching interactions

A click, a submission or a dismissal turns into tool calls and messages, which go out through an
`Outbound`. What comes of them comes back later, as directives. A call that cannot be delivered
is no refusal: it leaves a notice on the session.
-/

namespace DecisionBoard

/-- Where calls and messages go. Delivering a call may change the session, as a host that loops
directives back does; `ω` is whatever else delivering changes. -/
structure Outbound (ω : Type) where
  call : Key → Arguments → Session × ω → Checked Unit × (Session × ω)
  send : String → ω → Checked Unit × ω

/-- What came of an interaction. -/
structure Dispatched where
  done : Bool
  description : String
  deriving DecidableEq, Repr

/-- A step of dispatching over a session and the state of an outbound. -/
abbrev Dispatch (ω : Type) := ExceptT Fault (StateM (Session × ω))

namespace Dispatch

variable {ω : Type}

def check {α : Type} (v : Checked α) : Dispatch ω α := ExceptT.mk (pure v)

def session : Dispatch ω Session := do return (← get).1

def modifySession (f : Session → Session) : Dispatch ω Unit := modify fun (s, w) => (f s, w)

/-! ## Delivery -/

/-- Calls a tool, unless it is pending. It stays pending until it answers; a call that is not
delivered leaves it idle, with a notice. -/
def deliver (out : Outbound ω) (tool : Key) (args : Arguments) : Dispatch ω Bool :=
  ExceptT.mk fun (s, w) =>
    if s.isPending tool then (.ok false, (s, w))
    else match out.call tool args (s.addPending tool, w) with
    | (.ok _, state) => (.ok true, state)
    | (.error fault, (s, w)) =>
      (.ok false, ((s.settle tool).notify s!"Could not reach {tool.text}: {fault.message}", w))

/-- Sends a message; one that is not delivered leaves a notice. -/
def send (out : Outbound ω) (text : String) : Dispatch ω Bool :=
  ExceptT.mk fun (s, w) =>
    match out.send text w with
    | (.ok _, w) => (.ok true, (s, w))
    | (.error fault, w) =>
      (.ok false, (s.notify s!"Could not send message: {fault.message}", w))

/-- Adds a card to the board. -/
def addCard (out : Outbound ω) (card : Fields) (commentary : String) : Dispatch ω Bool :=
  deliver out (.str Drawing.updateTool) (Arguments.ofFields
    [("operation", .str "add"), ("components", .arr [.obj card]),
     ("commentary", .str commentary)])

/-- The time in whole milliseconds. -/
def stamp (clock : Quantity) : Checked Int :=
  match clock with
  | .whole n => .ok (n * 1000)
  | .real x => Json.wholePart (x * 1000)

/-- The id of a card that is added at a time: what added it, and the time. -/
def stampedId (origin : String) (clock : Quantity) : Checked String := do
  return origin ++ "-" ++ (← wholeText (← stamp clock))

/-- A card that the user can take back. -/
def userCard (id : String) (title : String) (detail : Option String := none) : Fields :=
  [("kind", .str "card"), ("id", .str id), ("title", .str title)]
    ++ (detail.map fun d => ("detail", Json.str d)).toList
    ++ [("dismissible", .bool true)]

/-! ## Clicks -/

/-- The argument that holds the state a button asks for. -/
def stateArgsKey : String := "_stateArgs"

/-- The argument that holds the whole state. -/
def widgetStateKey : String := "_widgetState"

/-- The arguments that a value holds; only those of an object can be added to. -/
def ownArguments : Json → Checked Arguments
  | .obj fs => .ok (Arguments.ofFields fs)
  | .arr _ => .error (.badListIndex "str")
  | v => .error (.noItemAssignment v.typeName)

/-- The arguments of a button's call: a copy of those that it states, the state under the groups
that it asks for, and a copy of the whole state. -/
def toolArguments (s : Session) (node : Fields) : Checked Arguments := do
  let stated ← copyAs id ((node.get "toolArgs").orElse (.obj []))
  let asked ← match node.get "toolArgsFromState" with
    | .arr groups => do
      let found ← s.state.collect groups
      let _ ← ownArguments stated
      pure [(stateArgsKey, Attachment.state found)]
    | _ => pure []
  let state ← copyAs WidgetState.toJson s.state
  return Entries.overlay (← ownArguments stated) (asked ++ [(widgetStateKey, .state state)])

/-- Calls the tool of a button. -/
def clickTool (out : Outbound ω) (node : Fields) (label : String) : Dispatch ω Dispatched := do
  let tool := node.get "toolName"
  if !tool.truthy then return ⟨false, s!"\"{label}\" has no toolName"⟩
  let key ← check (Key.ofJson tool)
  let s ← session
  if s.isPending key then return ⟨false, s!"{tool.text} is already running"⟩
  let sent ← deliver out key (← check (toolArguments s node))
  return ⟨sent, if sent then s!"called {tool.text}" else s!"{tool.text} failed"⟩

/-- What a follow-up is called if its button has no label. -/
def defaultFollowUp : String := "Analyze"

/-- What every follow-up asks for. -/
def followUpInstruction : String :=
  "IMPORTANT: Use forge_update to add results as new components in the workspace, then summarize in chat."

/-- Asks for a follow-up and adds a card that waits for it. -/
def clickFollowUp (out : Outbound ω) (clock : Quantity) (node : Fields) (label : String) :
    Dispatch ω Dispatched := do
  let message := Leaf.firstText [node.get "message", .str label] defaultFollowUp
  let summary ← check (← session).state.summary
  let inputs := if summary = "" then [] else ["User inputs: " ++ summary]
  let sent ← send out ("\n\n".intercalate ([message] ++ inputs ++ [followUpInstruction]))
  let id ← check (stampedId "action" clock)
  let name := if label = "" then defaultFollowUp else label
  let detail := if summary = "" then "Waiting for AI response in chat." else summary
  let _ ← addCard out (userCard id s!"{name}: Processing..." (some detail))
    s!"User clicked: {label}"
  return ⟨sent, if sent then "follow-up sent" else "follow-up failed"⟩

/-- A click on a button or an action. -/
def click (out : Outbound ω) (clock : Quantity) (node : Json) : Dispatch ω Dispatched := do
  let fs ← check node.members
  if (fs.get "disabled").truthy then return ⟨false, "button is disabled"⟩
  let label := Leaf.firstText [fs.get "label"] ""
  match fs.get "action" with
  | .str "call_tool" => clickTool out fs label
  | .str "follow_up" => clickFollowUp out clock fs label
  | action => return ⟨false, s!"unsupported action {action.quoted}"⟩

/-! ## Submissions -/

/-- A text without the blanks at its ends; other values have no ends. -/
def trimmed : Json → Checked String
  | .str s => .ok (Text.trim s)
  | v => .error (.noMember v.typeName "strip")

/-- Asks for a text to be taken into account, if the call or the footer says so. -/
def passOn (out : Outbound ω) (footer : Json) (text : String) (notify : Json) :
    Dispatch ω Unit := do
  let asks ← if notify.truthy then pure true
    else do pure ((← check (footer.member "action")).string? == some "follow_up")
  if asks then
    let lead := Leaf.firstText [← check (footer.member "message")] "I added a consideration"
    let _ ← send out s!"{lead}: \"{text}\". Please factor it into the analysis."

/-- The footer of a spec; one that does not count as given is an empty one. -/
def footerOf (spec : Fields) : Json := (spec.get "footer").orElse (.obj [])

/-- Adds what the user found missing, as a card. -/
def submitFooter (out : Outbound ω) (clock : Quantity) (text notify : Json) :
    Dispatch ω Dispatched := do
  let text ← check (trimmed text)
  if text = "" then return ⟨false, "empty submission ignored"⟩
  let id ← check (stampedId "user" clock)
  let added ← addCard out (userCard id text) s!"User added: \"{text}\""
  passOn out (footerOf ((← session).spec.getD [])) text notify
  return ⟨added, if added then "consideration added" else "could not add consideration"⟩

/-- What the user has put into a text input, without the blanks at its ends. -/
def inputText (node : Fields) : Dispatch ω String := do
  let stateKey := node.get "stateKey"
  if !stateKey.truthy then return ""
  let stored ← check ((← session).get stateKey .null)
  return Text.trim (Leaf.firstText [stored] "")

/-- Sends a text that the user has submitted. -/
def sendInput (out : Outbound ω) (text : String) : Dispatch ω Dispatched := do
  let sent ← send out text
  return ⟨sent, if sent then "message sent" else "message failed"⟩

/-- Adds a text that the user has submitted, as a card. -/
def addFactor (out : Outbound ω) (clock : Quantity) (value : String) : Dispatch ω Dispatched := do
  let id ← check (stampedId "user" clock)
  let added ← addCard out (userCard id value) s!"User added: \"{value}\""
  return ⟨added, if added then "factor added" else "could not add factor"⟩

/-- Submits what the user has put into a text input. -/
def submitTextInput (out : Outbound ω) (clock : Quantity) (node : Json) :
    Dispatch ω Dispatched := do
  let fs ← check node.members
  let value ← inputText fs
  if value = "" then return ⟨false, "empty input ignored"⟩
  match fs.get "submitAction" with
  | .str "add_factor" => addFactor out clock value
  | .str "follow_up" =>
    let message := fs.get "submitMessage"
    sendInput out (if message.truthy then s!"{message.text}: {value}" else value)
  | _ =>
    let subject := (fs.get "placeholder").orElse (fs.get "stateKey")
    sendInput out s!"I filled in \"{subject.text}\": {value}"

/-! ## Dismissal -/

/-- Hides the nodes with an id and says so, unless it is to be kept quiet. Without a title the
first of the nodes gives it. -/
def dismiss (out : Outbound ω) (id title notify : Json) : Dispatch ω Dispatched := do
  let nodes := Node.findAs (← session).layout id
  let title := match title with
    | .null => (nodes.head?.map Node.title).getD id.text
    | v => v.text
  modifySession (·.dismiss id.text)
  if notify.truthy then
    let _ ← send out s!"I dismissed \"{title}\" from my analysis. How does this change things?"
  return ⟨true, s!"dismissed \"{title}\""⟩

end Dispatch

end DecisionBoard
