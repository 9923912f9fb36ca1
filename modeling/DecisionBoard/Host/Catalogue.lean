import DecisionBoard.Json.Basic

/-!
# The tools of a host

The tools that an agent can call, with the descriptions and argument schemas that are announced to
it.
-/

namespace DecisionBoard

/-- The tools of a host. -/
inductive Tool where
  | view | update | conclude | apply | snapshot | diff | setState | selectTab | expand
  | click | dismiss | submit | messages | save | load | sessions | connect | connectedCall
  deriving DecidableEq, Repr

/-- What an argument of a tool may be. -/
inductive ArgumentType where
  | any
  | string
  | choice (values : List String)
  | stringList
  | number (least greatest : Int)
  | integer
  | boolean (default : Bool)
  | object

/-- An argument of a tool. -/
structure Parameter where
  name : String
  type : ArgumentType
  description : String
  required : Bool := true

namespace ArgumentType

/-- The schema fields of a type. -/
def schema : ArgumentType → Fields
  | any => []
  | string => [("type", .str "string")]
  | choice values => [("type", .str "string"), ("enum", .arr (values.map .str))]
  | stringList => [("type", .str "array"), ("items", .obj [("type", .str "string")])]
  | number least greatest =>
    [("type", .str "number"), ("minimum", .int least), ("maximum", .int greatest)]
  | integer => [("type", .str "integer")]
  | boolean value => [("type", .str "boolean"), ("default", .bool value)]
  | object => [("type", .str "object")]

end ArgumentType

namespace Tool

/-- All tools, in the order in which they are announced. -/
def all : List Tool :=
  [view, update, conclude, apply, snapshot, diff, setState, selectTab, expand,
    click, dismiss, submit, messages, save, load, sessions, connect, connectedCall]

def name : Tool → String
  | view => "forge_view"
  | update => "forge_update"
  | conclude => "forge_conclude"
  | apply => "forge_apply"
  | snapshot => "forge_snapshot"
  | diff => "forge_diff"
  | setState => "forge_set_state"
  | selectTab => "forge_select_tab"
  | expand => "forge_expand"
  | click => "forge_click"
  | dismiss => "forge_dismiss"
  | submit => "forge_submit"
  | messages => "forge_messages"
  | save => "forge_save"
  | load => "forge_load"
  | sessions => "forge_sessions"
  | connect => "forge_connect"
  | connectedCall => "forge_connected_call"

/-- The tool with a name. -/
def ofName? (name : String) : Option Tool := all.find? (·.name == name)

/-- Text of several lines. -/
def paragraph (lines : List String) : String := "\n".intercalate lines

/-- What a tool does, as it is announced. -/
def description : Tool → String
  | view => paragraph [
      "Generate an interactive workspace for a decision, analysis, brainstorm, or thinking " ++
        "task.",
      "",
      "You design the board by passing a JSON spec:",
      "\x7b",
      "  \"title\": \"The question or task\",",
      "  \"subtitle\": \"Brief context (optional)\",",
      "  \"icon\": \"emoji (optional)\",",
      "  \"badge\": \"Mode label like 'Comparison Matrix' (optional)\",",
      "  \"layout\": [ ...component nodes... ],",
      "  \"actions\": [ ...action buttons... ],",
      "  \"footer\": \x7b \"type\": \"missing_input\", \"placeholder\": \"What am I " ++
        "missing?\", \"action\": \"call_tool\", \"toolName\": \"forge_update\" \x7d",
      "\x7d",
      "",
      "Containers (hold children, max 1 level deep): row, columns, grid, stack, tabs.",
      "- \x7b \"kind\": \"columns\", \"columns\": 2, \"gap\": 16, \"children\": [...] \x7d",
      "- \x7b \"kind\": \"tabs\", \"tabLabels\": [\"Tab1\",\"Tab2\"], \"children\": [...] " ++
        "\x7d - children split evenly across tabs",
      "",
      "Leaves: heading, text, badge, divider, card, card_list, table, slider,",
      "text_input, select, toggle, button, progress_bar, meter, scoreable_item,",
      "argument_pair. The kind may also be given as \"type\".",
      "",
      "STATE KEYS: inputs bind to stateKey. Sliders write state[stateKey] = value.",
      "Composites write state[stateKey + \".\" + id]. Buttons and actions pass state",
      "to tools via toolArgsFromState prefixes.",
      "",
      "A spec with a new title starts a new problem and clears the user's inputs.",
      "Rendering the same title again keeps them."]
  | update => paragraph [
      "Update the current board by adding, removing, or modifying components.",
      "",
      "Operations:",
      "- \"add\": Append component nodes to the layout. Provide components.",
      "- \"remove\": Remove components by id. Provide ids.",
      "- \"patch\": Update fields of existing components by id. Provide patches of \x7bid, " ++
        "changes\x7d.",
      "",
      "User inputs on the board are kept across updates."]
  | conclude =>
      "Record a conclusion or verdict for the current analysis. Reference the factors the " ++
        "user weighted highest or interacted with most. The board shows it as a verdict panel."
  | apply => paragraph [
      "Apply a raw directive payload in any accepted shape.",
      "",
      "Accepts a spec, \x7bspec: ...\x7d (possibly nested or JSON text), an update",
      "\x7boperation, components/ids/patches\x7d, or a verdict. Unrecognized payloads",
      "are reported and change nothing."]
  | snapshot => paragraph [
      "Draw the current board.",
      "",
      "Use agent_mode=true for compact refs (@e1, @e2) on interactive controls.",
      "Use refs in forge_set_state, forge_click, forge_dismiss and friends.",
      "Use include_image=true to also get a PNG preview."]
  | diff =>
      "Show what changed on the board since the previous forge_snapshot: controls that " ++
        "appeared, disappeared, or changed value."
  | setState =>
      "Set the value of an input control (slider, select, toggle, text_input, scored item, " ++
        "argument strength). Target is a ref (@e3), a node id, or a raw state key."
  | selectTab =>
      "Switch a tabs container to the tab at index (0-based)."
  | expand =>
      "Show or hide the detail of a card or scored item."
  | click =>
      "Click a button or a bottom action (action:<index>). Clicking a text_input submits its " ++
        "current value."
  | dismiss =>
      "Dismiss a card, scored item, or argument. It disappears from the board."
  | submit =>
      "Submit text through the board's \"What am I missing?\" footer."
  | messages =>
      "Drain follow-up messages and notices produced by board interactions."
  | save =>
      "Save the current board, user inputs, and verdict. Returns the session id."
  | load =>
      "Restore a saved session by id."
  | sessions =>
      "List your saved sessions, most recently updated first."
  | connect =>
      "Register a connected tool server reachable over HTTP JSON-RPC."
  | connectedCall =>
      "Call a tool on a connected server and return its raw result."

/-- The arguments of a tool. -/
def parameters : Tool → List Parameter
  | view => [
      ⟨"spec", .any, "The board spec (object, or JSON text)", true⟩,
      ⟨"analysis", .string, "2-3 sentence text analysis for the conversation", false⟩]
  | update => [
      ⟨"operation", .choice ["add", "remove", "patch"], "What kind of update", true⟩,
      ⟨"components", .any, "For 'add': array of component nodes", false⟩,
      ⟨"ids", .stringList, "For 'remove': component ids to remove", false⟩,
      ⟨"patches", .any, "For 'patch': array of \x7bid, changes\x7d", false⟩,
      ⟨"commentary", .string, "Brief commentary about this update", false⟩]
  | conclude => [
      ⟨"winner", .string, "The recommended option, decision, or top priority", true⟩,
      ⟨"confidence", .number 1 100, "Confidence percentage", true⟩,
      ⟨"reasoning", .string, "3-4 sentence personalized recommendation", true⟩,
      ⟨"next_steps", .stringList, "Concrete next steps", false⟩]
  | apply => [
      ⟨"payload", .any, "Directive payload (object or JSON text)", true⟩]
  | snapshot => [
      ⟨"agent_mode", .boolean true, "Compact refs (@e1, @e2) for interactive controls.", false⟩,
      ⟨"include_image", .boolean false, "Also return a PNG preview of the board.", false⟩]
  | diff => []
  | setState => [
      ⟨"target", .string, "Ref, node id, or state key", true⟩,
      ⟨"value", .any, "New value", true⟩]
  | selectTab => [
      ⟨"target", .string, "Ref or id of the tabs container", true⟩,
      ⟨"index", .integer, "Tab index", true⟩]
  | expand => [
      ⟨"target", .string, "Ref or id of the card", true⟩]
  | click => [
      ⟨"target", .string, "Ref, id, or action:<index>", true⟩]
  | dismiss => [
      ⟨"target", .string, "Ref or id", true⟩,
      ⟨"notify", .boolean true, "Send a follow-up message about the dismissal.", false⟩]
  | submit => [
      ⟨"text", .string, "The consideration to add", true⟩,
      ⟨"notify", .boolean false, "Also ask the agent to incorporate it.", false⟩]
  | messages => []
  | save => []
  | load => [
      ⟨"session_id", .string, "Session id from forge_save", true⟩]
  | sessions => [
      ⟨"limit", .integer, "Max sessions to list", false⟩]
  | connect => [
      ⟨"name", .string, "Name to register the server under", true⟩,
      ⟨"url", .string, "JSON-RPC endpoint URL", true⟩]
  | connectedCall => [
      ⟨"name", .string, "Connected server name", true⟩,
      ⟨"tool", .string, "Tool to call", true⟩,
      ⟨"arguments", .object, "Tool arguments", false⟩]

/-- The schema of a tool's arguments. -/
def inputSchema (tool : Tool) : Json :=
  .obj [("type", .str "object"),
    ("properties", .obj (tool.parameters.map fun p =>
      (p.name, .obj (p.type.schema ++ [("description", .str p.description)])))),
    ("required", .arr ((tool.parameters.filter (·.required)).map fun p => .str p.name))]

end Tool

end DecisionBoard
