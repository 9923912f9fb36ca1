import DecisionBoard.Json.Basic
import DecisionBoard.Number.Decimal
import DecisionBoard.Text.Quoted

/-!
# JSON values in messages

The text of a value inside labels and messages. `quoted` shows every value so that its type can
be told, strings in quotes; `text` shows a string as it stands and all else like `quoted`.
-/

namespace DecisionBoard.Json

/-- Items separated by commas. -/
def commas (items : List String) : String := ", ".intercalate items

mutual

/-- A value with its strings in quotes. -/
def quoted : Json → String
  | null => "None"
  | bool b => if b then "True" else "False"
  | int n => toString n
  | float x => x.toText
  | str s => Text.quoted s
  | arr xs => "[" ++ commas (quotedList xs) ++ "]"
  | obj fs => "\x7b" ++ commas (quotedFields fs) ++ "\x7d"

def quotedList : List Json → List String
  | [] => []
  | x :: xs => quoted x :: quotedList xs

def quotedFields : List (String × Json) → List String
  | [] => []
  | (k, v) :: fs => (Text.quoted k ++ ": " ++ quoted v) :: quotedFields fs

end

/-- A string as it stands, any other value as `quoted`. -/
def text : Json → String
  | str s => s
  | v => quoted v

@[simp] theorem text_str (s : String) : text (str s) = s := rfl

end DecisionBoard.Json
