import DecisionBoard.Entries
import DecisionBoard.Number.Double

/-!
# JSON values

Whole numbers of any size are kept apart from doubles, and objects keep the order in which their
keys came in.
-/

namespace DecisionBoard

/-- A JSON value. -/
inductive Json where
  | null
  | bool (value : Bool)
  | int (value : Int)
  | float (value : Double)
  | str (value : String)
  | arr (items : List Json)
  | obj (fields : List (String × Json))

instance : Inhabited Json := ⟨.null⟩

/-- The fields of an object. -/
abbrev Fields := Entries String Json

namespace Json

/-- The name of a value's type, as messages give it. -/
def typeName : Json → String
  | null => "NoneType"
  | bool _ => "bool"
  | int _ => "int"
  | float _ => "float"
  | str _ => "str"
  | arr _ => "list"
  | obj _ => "dict"

/-- Whether a value counts as given: not null, false, zero or empty. -/
def truthy : Json → Bool
  | null => false
  | bool b => b
  | int n => n ≠ 0
  | float x => !x.isZero
  | str s => s ≠ ""
  | arr xs => !xs.isEmpty
  | obj fs => !fs.isEmpty

/-- The value itself if it counts as given, else another. -/
def orElse (v other : Json) : Json := if v.truthy then v else other

def isObj : Json → Bool
  | obj _ => true
  | _ => false

def isNull : Json → Bool
  | null => true
  | _ => false

def fields? : Json → Option Fields
  | obj fs => some fs
  | _ => none

def items? : Json → Option (List Json)
  | arr xs => some xs
  | _ => none

def string? : Json → Option String
  | str s => some s
  | _ => none

mutual

/-- How deep the lists and objects in a value are nested. -/
def depth : Json → Nat
  | arr xs => depthList xs + 1
  | obj fs => depthFields fs + 1
  | _ => 0

def depthList : List Json → Nat
  | [] => 0
  | x :: xs => max (depth x) (depthList xs)

def depthFields : List (String × Json) → Nat
  | [] => 0
  | (_, v) :: fs => max (depth v) (depthFields fs)

end

end Json

namespace Fields

/-- The value of a field, null if it is missing. -/
def get (fs : Fields) (name : String) : Json := (Entries.get? fs name).getD .null

/-- The value of a field, or a stated one if it is missing. -/
def getOr (fs : Fields) (name : String) (missing : Json) : Json :=
  (Entries.get? fs name).getD missing

end Fields

end DecisionBoard
