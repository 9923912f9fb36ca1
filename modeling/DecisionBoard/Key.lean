import DecisionBoard.Json.Access

/-!
# Keys

Widget state, pending tools and saved sessions are looked up by values that specs supply. Any
scalar can be a key; two keys are one if their values are equal, so `1`, `1.0` and `true` are the
same key.
-/

namespace DecisionBoard

/-- A scalar that can be a key. -/
inductive Key where
  | null
  | bool (value : Bool)
  | int (value : Int)
  | float (value : Double)
  | str (value : String)

namespace Key

def toJson : Key → Json
  | null => .null
  | bool b => .bool b
  | int n => .int n
  | float x => .float x
  | str s => .str s

/-- The key that a value makes: lists and objects make none. -/
def ofJson : Json → Checked Key
  | .null => .ok null
  | .bool b => .ok (bool b)
  | .int n => .ok (int n)
  | .float x => .ok (float x)
  | .str s => .ok (str s)
  | v => .error (.unhashable v.typeName)

instance : BEq Key := ⟨fun a b => a.toJson.agrees b.toJson⟩

/-- The key as a field name of a JSON object. -/
def fieldName : Key → String
  | null => "null"
  | bool b => if b then "true" else "false"
  | int n => toString n
  | float .nan => "NaN"
  | float (.infinite negative) => if negative then "-Infinity" else "Infinity"
  | float x => x.toText
  | str s => s

/-- The key as messages show it. -/
def text (k : Key) : String := k.toJson.text

theorem beq_def (a b : Key) : (a == b) = a.toJson.agrees b.toJson := rfl

@[simp] theorem str_beq (s : String) (k : Key) : (str s == k) = true ↔ k = str s := by
  cases k <;> simp [beq_def, toJson, Json.agrees, Json.string?]

@[simp] theorem beq_str (s : String) (k : Key) : (k == str s) = true ↔ k = str s := by
  cases k with
  | str t =>
    simp only [beq_def, toJson, Json.agrees, Json.string?, beq_iff_eq, Option.some.injEq,
      str.injEq]
    exact eq_comm
  | _ => simp [beq_def, toJson, Json.agrees, Json.quantity?, Json.isNull]

theorem beq_of_str (a b : String) : (str a == str b) = (a == b) := by
  rw [Bool.eq_iff_iff, str_beq, beq_iff_eq, str.injEq]
  exact eq_comm

theorem toJson_of_ofJson {v : Json} {k : Key} (h : ofJson v = .ok k) : k.toJson = v := by
  cases v with
  | arr xs => cases h
  | obj fs => cases h
  | _ =>
    cases h
    rfl

theorem ofJson_eq_str {v : Json} {name : String} (h : ofJson v = .ok (.str name)) :
    v = .str name := by
  cases v with
  | str name' =>
    cases h
    rfl
  | _ => cases h

end Key

end DecisionBoard
