import DecisionBoard.Json.Basic
import DecisionBoard.Text.Blank

/-!
# Callers

Who calls a tool: the user named in the context of the call, else the configured one, else nobody.
-/

namespace DecisionBoard.Caller

/-- A user's name without the blanks around it; blank texts and other values name nobody. -/
def name? (v : Json) : Option String :=
  match v with
  | .str s => if Text.trim s = "" then none else some (Text.trim s)
  | _ => none

/-- The caller of a tool. -/
def user? (context default : Json) : Option String :=
  let named := match context with
    | .obj fs => name? (Fields.get fs "user_id")
    | _ => none
  named.or (name? default)

end DecisionBoard.Caller
