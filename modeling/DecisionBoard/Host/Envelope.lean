import DecisionBoard.Attachment
import DecisionBoard.Host.Catalogue

/-!
# Envelopes

Three tools carry directives as their arguments; an envelope puts the arguments into the shape that
a directive has. A request for a verdict is put into words instead, with the inputs that a button
passed.
-/

namespace DecisionBoard.Envelope

/-- The tools that carry directives. -/
def directiveTools : List Tool := [.view, .update, .conclude]

/-- The tool of a name that carries directives. -/
def directiveTool? (name : String) : Option Tool := directiveTools.find? (·.name == name)

/-- Some arguments under their own names, null for those that are missing. -/
def copies (args : Arguments) (names : List String) : Fields :=
  names.map fun name => (name, args.get name)

/-- The directive payload of a tool's arguments. -/
def payload (name : String) (args : Arguments) : Checked Json :=
  match directiveTool? name with
  | some .view => .ok (.obj (("action", .str "render") :: copies args ["spec"]))
  | some .update =>
    .ok (.obj (("action", .str "update")
      :: copies args ["operation", "components", "ids", "patches"]))
  | some .conclude =>
    .ok (.obj [("action", .str "conclude"), ("verdict", .obj [
      ("winner", args.getOr "winner" (.str "")),
      ("confidence", args.getOr "confidence" (.int 50)),
      ("reasoning", args.getOr "reasoning" (.str "")),
      ("next_steps", args.getOr "next_steps" (.arr []))])])
  | _ => .error (.notDirective name)

/-- The summary of what a call carries along. -/
def inputSummary : Attachment → Checked String
  | .state s => s.summary
  | .json (.obj fs) => (WidgetState.ofFields fs).summary
  | .json v => .error (.noMember v.typeName "items")

/-- The words that ask an agent for a verdict. -/
def verdictRequest (args : Arguments) : Checked String := do
  let carried := ["_stateArgs", "_widgetState"].filterMap fun name =>
    (Entries.get? args name).filter Attachment.truthy
  let summary ← inputSummary (carried.head?.getD (.json (.obj [])))
  let text := "The user asked for a verdict. Call forge_conclude with your recommendation."
  return if summary = "" then text else text ++ "\n\nUser inputs: " ++ summary

end DecisionBoard.Envelope
