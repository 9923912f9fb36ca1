import DecisionBoard.Json.Access
import DecisionBoard.Remote.Reply
import DecisionBoard.Text.Blank
import DecisionBoard.Text.Lines

/-!
# Messages of connected servers

A response holds one message, as its body or as the last event of an event stream. Of the result in
a message, the structured content or the first text block is what a board can use.
-/

namespace DecisionBoard.Remote

/-! ## From responses to messages -/

/-- What a line of an event stream says, none unless it is a data line with something on it. -/
def eventData? (line : String) : Option String :=
  if "data:".toList.isPrefixOf line.toList then
    let data := Text.trim (String.ofList (line.toList.drop 5))
    if data = "" then none else some data
  else none

/-- The last event of an event stream, an empty message if it has none. -/
def eventMessage (body : String) : Except Json.ReadError Json :=
  ((Text.lines body).filterMap eventData?).foldlM (fun _ data => Json.read data) (.obj [])

/-- Whether a response is an event stream. -/
def Response.isEventStream (r : Response) : Bool :=
  "text/event-stream".toList.isPrefixOf (r.contentType.getD "").toList

/-- Whether a response carries what was asked for. -/
def Response.isSuccess (r : Response) : Bool := 200 ≤ r.status && r.status < 300

/-- The message in a response: the last event of a stream, the value of any other body. -/
def Response.message (r : Response) (http : Http) : Except String Json :=
  if r.isEventStream then
    match http.text r with
    | .ok text => (eventMessage text).mapError (·.message)
    | .error e => .error e.message
  else http.json r

/-! ## From results to payloads -/

/-- The text of a text block. -/
def blockText? (block : Json) : Option Json :=
  match block with
  | .obj fs =>
    if (Fields.get fs "type").string? == some "text" then some (Fields.get fs "text") else none
  | _ => none

/-- The part of a tool's result that a board can use, null if there is none. -/
def resultPayload (result : Json) : Checked Json := do
  if !result.truthy then return .null
  let fs ← result.members
  match fs.get "structuredContent" with
  | .null =>
    let content := fs.get "content"
    let blocks ← if content.truthy then content.elements else pure []
    return (blocks.findSome? blockText?).getD .null
  | structured => return structured

end DecisionBoard.Remote
