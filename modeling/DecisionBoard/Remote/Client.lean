import DecisionBoard.Remote.Message

/-!
# Clients of connected servers

A client sends numbered requests to one server and reads the message that comes back. Whatever
goes wrong on the way is told in its answer, but for a message or a text that cannot be taken apart.
-/

namespace DecisionBoard.Remote

/-- What a client makes of a reply. -/
structure Answer where
  success : Bool
  data : Option Fields := none
  error : Json := .null

/-- A client of one server. -/
structure Client where
  name : Json
  /-- The address as it was given. -/
  url : Json
  timeout : Json := .float 30
  /-- The number of the next request. -/
  nextId : Nat := 1

namespace Answer

def failed (text : String) : Answer := { success := false, error := .str text }

end Answer

/-- What the error of a message says. -/
def errorText (error : Json) : Json :=
  match error with
  | .obj fs => Fields.getOr fs "message" (.str error.text)
  | v => .str v.text

/-- The answer that a message gives: its error, or its result, which may itself tell of an
error. -/
def answerOf (message : Json) : Checked Answer :=
  match message with
  | .obj fs =>
    let error := Fields.get fs "error"
    if error.truthy then .ok { success := false, error := errorText error }
    else match Fields.get fs "result" with
    | .obj result =>
      if (Fields.get result "isError").truthy then do
        let told ← resultPayload (.obj result)
        let text := (told.orElse (.str "Tool reported an error")).text
        return { success := false, data := some result, error := .str text }
      else .ok { success := true, data := some result }
    | _ => .ok { success := true, data := some [] }
  | _ => .ok (.failed "Malformed JSON-RPC response")

namespace Client

/-- The answer that a reply from an address gives. -/
def answer (client : Client) (http : Http) (address : Address) : Reply → Checked Answer
  | .response r =>
    match address.refusal with
    | some reason => .ok (.failed reason)
    | none =>
      if r.isSuccess then
        match r.message http with
        | .ok message => answerOf message
        | .error reason => .ok (.failed reason)
      else
        match http.text r with
        | .ok text => .ok (.failed s!"API error: {r.status} - {text}")
        | .error e => .error (.foreign e)
  | .refused reason =>
    .ok (.failed s!"Cannot connect to {client.name.text} at {client.url.text}. Error: {reason}")
  | .timedOut => .ok (.failed s!"Request timed out after {client.timeout.text}s")
  | .broken reason => .ok (.failed reason)

/-- The body of the next request of a client. -/
def requestBody (client : Client) (method : String) (params : Json) : Json :=
  .obj [("jsonrpc", .str "2.0"), ("id", .int client.nextId), ("method", .str method),
    ("params", params)]

/-- Sends a request and reads the reply. Nothing is sent to an address that is none, nor if there
are no parameters because they cannot be written in plain JSON. -/
def exchange (client : Client) (http : Http) (network : Network) (method : String)
    (params : Option Json) : Checked Answer × Client × Network :=
  let next := { client with nextId := client.nextId + 1 }
  match http.target client.url, params with
  | .error reason, _ => (.ok (.failed reason), next, network)
  | .ok _, none =>
    (.ok (.failed "Out of range float values are not JSON compliant"), next, network)
  | .ok address, some params =>
    let (reply, network) := network.send ⟨address.text, client.requestBody method params⟩
    (client.answer http address reply, next, network)

/-- Asks for the tools of the server. -/
def listTools (client : Client) (http : Http) (network : Network) :
    Checked Answer × Client × Network :=
  client.exchange http network "tools/list" (some (.obj []))

/-- Calls a tool of the server. There are no arguments if they cannot be written in plain JSON. -/
def callTool (client : Client) (http : Http) (network : Network) (tool : Json)
    (arguments : Option Json) : Checked Answer × Client × Network :=
  client.exchange http network "tools/call"
    (arguments.bind fun v => Json.plain? (.obj [("name", tool), ("arguments", v.orElse (.obj []))]))

end Client

end DecisionBoard.Remote
