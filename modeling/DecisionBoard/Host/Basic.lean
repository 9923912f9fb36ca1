import DecisionBoard.Caller
import DecisionBoard.Dispatch
import DecisionBoard.Host.Envelope
import DecisionBoard.Host.Input
import DecisionBoard.Preview
import DecisionBoard.Remote.Client
import DecisionBoard.Settings
import DecisionBoard.Snapshot
import DecisionBoard.Store

/-!
# The host

What the tools share between calls: the current session with its refs and its last snapshot, the
store, the messages waiting for the agent, and the connected servers.
-/

namespace DecisionBoard

/-- The store of a host, and the text of its file if it is kept in one. -/
structure Storage where
  store : Store := {}
  inFile : Bool := false
  file : Option String := none

/-- What the outbound of a host changes besides the session. -/
structure Links where
  http : Remote.Http
  /-- Messages for the agent, the oldest first. -/
  outbox : List String := []
  connected : Entries Key Remote.Client := []
  network : Remote.Network := {}

/-- A running host. -/
structure Host where
  settings : Settings := {}
  display : Display
  storage : Storage := {}
  session : Session := {}
  sessionId : String
  refs : Refs := {}
  tracker : Tracker := {}
  links : Links
  /-- The time stamp of saves. -/
  now : String := "2024-01-01T00:00:00+00:00"
  /-- The time in seconds. -/
  clock : Quantity

namespace Storage

/-- Saves a record and, in a file store, writes the file; a save that is refused writes nothing. -/
def save (storage : Storage) (request : SaveRequest) (record : Record) : Checked Key × Storage :=
  match storage.store.save request record with
  | (.ok id, store) => (.ok id, { storage with
      store, file := if storage.inFile then some store.fileText else storage.file })
  | (.error fault, store) => (.error fault, { storage with store })

/-- The store as it is found when it is opened again: from its file, or empty. -/
def reopen (storage : Storage) : Checked Storage := do
  if storage.inFile then return { storage with store := ← Store.openFile storage.file }
  return {}

end Storage

/-! ## Outbound -/

namespace Links

/-- The server that provides a tool, with its place: the one named before the first dot, or the
only one. -/
def serverFor (links : Links) (tool : Key) : Checked ((Key × Remote.Client) × Nat) := do
  match tool with
  | .str name =>
    let server := name.toList.takeWhile (· != '.')
    let named := if server.length < name.length then
        links.connected.zipIdx.find? fun (e, _) => Key.str (String.ofList server) == e.1
      else none
    match named, links.connected with
    | some found, _ => return found
    | none, [only] => return (only, 0)
    | none, _ => throw (.noServer name)
  | k => throw (.noMember k.toJson.typeName "split")

/-- The name that a tool has on a server: what follows the first dot, if the name begins with that
of the server. -/
def toolOn (client : Remote.Client) (name : String) : String :=
  if WidgetState.startsWith name (client.name.text ++ ".") then
    String.ofList ((name.toList.dropWhile (· != '.')).drop 1)
  else name

/-- Calls a tool of a connected server and applies what it answers. -/
def callRemote (name : Key) (args : Arguments) (session : Session) (links : Links) :
    Checked Unit × (Session × Links) :=
  match links.serverFor name with
  | .error fault => (.error fault, (session, links))
  | .ok ((server, client), place) =>
    let tool := toolOn client name.text
    let (answer, client, network) := client.callTool links.http links.network (.str tool) args.plain?
    let links := { links with
      connected := links.connected.set place (server, client), network }
    match answer with
    | .error fault => (.error fault, (session, links))
    | .ok answer =>
      if !answer.success then
        (.error (.undelivered (answer.error.orElse (.str s!"{name.text} failed")).text),
          (session, links))
      else match Remote.resultPayload (.obj (answer.data.getD [])) with
      | .error fault => (.error fault, (session, links))
      | .ok payload =>
        let (outcome, session) := session.apply payload (some name)
        (outcome.map fun _ => (), (session, links))

/-- Delivers a call. Directives loop back into the session; a conclusion without a winner asks the
agent for one; all other tools are those of connected servers. -/
def call (name : Key) (args : Arguments) (state : Session × Links) :
    Checked Unit × (Session × Links) :=
  let (session, links) := state
  match name with
  | .str tool =>
    match Envelope.directiveTool? tool with
    | none => callRemote name args session links
    | some directive =>
      if directive = .conclude && !(args.get "winner").truthy then
        match Envelope.verdictRequest args with
        | .ok text => (.ok (), (session, { links with outbox := links.outbox ++ [text] }))
        | .error fault => (.error fault, (session, links))
      else match Envelope.payload tool args with
      | .error fault => (.error fault, (session, links))
      | .ok payload =>
        let (outcome, session) := session.apply payload (some name)
        (outcome.map fun _ => (), (session, links))
  | _ => callRemote name args session links

/-- The outbound of a host. -/
def outbound : Outbound Links where
  call := call
  send text links := (.ok (), { links with outbox := links.outbox ++ [text] })

end Links

/-! ## Steps -/

/-- A step of a host. What a step changed before it was refused stays changed. -/
abbrev HostStep := ExceptT Fault (StateM Host)

namespace Host

def check {α : Type} (v : Checked α) : HostStep α := ExceptT.mk (pure v)

/-- The id with a number: thirty-two hexadecimal digits. -/
def freshId (number : Nat) : String := String.ofList (Text.hexDigits 32 number)

/-- Makes a session the current one; refs and snapshots start anew. -/
def enter (host : Host) (id : String) (session : Session) : Host :=
  { host with session, sessionId := id, refs := {}, tracker := {} }

/-- Starts a host again over the same store. -/
def restart (host : Host) (id : String) : Checked Host := do
  return { settings := host.settings, display := host.display, storage := ← host.storage.reopen
           sessionId := id, links := { http := host.links.http, network := host.links.network }
           now := host.now, clock := host.clock }

/-- Draws the board; with refs they are given out anew. -/
def draw (withRefs : Bool := true) : HostStep Drawing := do
  let host ← get
  if withRefs then
    let (drawing, refs) := Drawing.ofSession host.session (some {})
    set { host with refs := refs.getD {} }
    check drawing
  else check (Drawing.plain host.session)

/-- Adds a control unless its key is there already. -/
def addHidden (controls : Entries String Control) (entry : String × Control) :
    Entries String Control :=
  if Entries.has controls entry.1 then controls else Entries.put controls entry.1 entry.2

/-- Adds the controls of a leaf that is not drawn. -/
def addHiddenOf (session : Session) (controls : Entries String Control) (node : Fields) :
    Entries String Control :=
  match Node.idOf node with
  | some id =>
    if Entries.has controls id || Node.isContainer (.obj node) then controls
    else (Leaf.controls session node).foldl addHidden controls
  | none => controls

/-- The controls of a board, with those of leaves with an id on tabs that are not selected. -/
def controlsOf (session : Session) : Checked (Entries String Control) := do
  let drawing ← Drawing.plain session
  return (Node.all session.layout).foldl (addHiddenOf session) drawing.controls

/-- The control with a key, or else the first one that shows the input value under it. -/
def controlFor? (controls : Entries String Control) (key : String) : Option Control :=
  match Entries.get? controls key with
  | some control => some control
  | none => (controls.map (·.2)).find? fun control => control.stateKey.string? == some key

/-- A target given as text. -/
def targetText : Json → Checked String
  | .str s => .ok s
  | v => .error (.noMember v.typeName "startswith")

/-- The control that a target names: a ref, a control key or a state key. -/
def findControl (target : Json) : HostStep (Option Control) := do
  let host ← get
  let key ← check do host.refs.resolve (← targetText target)
  return controlFor? (← check (controlsOf host.session)) key

/-- The control that a target must name. -/
def requireControl (target : Json) : HostStep Control := do
  match ← findControl target with
  | some control => return control
  | none => throw (.noControl target)

/-- Takes the waiting messages and notices out, one line for each. -/
def drainMessages : HostStep (List String) := do
  let host ← get
  let (notices, session) := host.session.drainNotices
  set { host with session, links := { host.links with outbox := [] } }
  return host.links.outbox.map ("Message to agent: " ++ ·)
    ++ notices.map fun n => s!"Notice ({n.level}): {n.text}"

/-- Dispatches an interaction with the current session. -/
def dispatch {α : Type} (step : Quantity → Dispatch Links α) : HostStep α :=
  ExceptT.mk fun host =>
    let (result, session, links) := (step host.clock).run (host.session, host.links)
    (result, { host with session, links })

end Host

end DecisionBoard
