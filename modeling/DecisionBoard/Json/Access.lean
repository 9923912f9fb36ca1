import DecisionBoard.Fault
import DecisionBoard.Json.Equality

/-!
# Reading values of unknown shape

Specs and arguments may hold any value in any place. These readers ask a value for a field, its
items or a number, and say what is wrong if it has none.
-/

namespace DecisionBoard

/-- What an access yields, or why it is refused. -/
abbrev Checked := Except Fault

namespace Json

/-- The fields of a value that must be an object. -/
def members : Json → Checked Fields
  | obj fs => .ok fs
  | v => .error (.noMember v.typeName "get")

/-- A field of a value that must be an object, null if it is missing. -/
def member (v : Json) (name : String) : Checked Json := v.members.map (·.get name)

/-- What a value yields when it is gone through: the items of a list, the characters of a text,
the field names of an object. -/
def elements : Json → Checked (List Json)
  | arr xs => .ok xs
  | str s => .ok (s.toList.map fun c => .str (String.ofList [c]))
  | obj fs => .ok (fs.map fun (k, _) => .str k)
  | v => .error (.notIterable v.typeName)

/-- A number or the text of one, as a double. -/
def toDouble : Json → Checked Double
  | bool b => .ok (if b then 1 else 0)
  | int n =>
    let x := Double.ofInt n
    if x.isFinite then .ok x else .error .intTooLarge
  | float x => .ok x
  | str s =>
    match Numeral.realNumber? s with
    | some x => .ok x
    | none => .error (.badReal s)
  | v => .error (.notNumeric v.typeName)

/-- The whole part of a double. -/
def wholePart : Double → Checked Int
  | .nan => .error .nanToInteger
  | .infinite _ => .error .infinityToInteger
  | x => .ok x.truncate

/-- A number without its fraction, or the text of a whole number. -/
def toWhole : Json → Checked Int
  | bool b => .ok (if b then 1 else 0)
  | int n => .ok n
  | float x => wholePart x
  | str s =>
    match Numeral.wholeNumber? s with
    | .ok n => .ok n
    | .error .malformed => .error (.badWhole s)
    | .error (.tooLong count) => .error (.tooManyDigits count)
  | v => .error (.notWhole v.typeName)

end Json

namespace Json

mutual

/-- Whether every number in a value can be written in plain JSON, which has no words for those that
are not finite. -/
def isPlain : Json → Bool
  | float x => x.isFinite
  | arr xs => isPlainList xs
  | obj fs => isPlainFields fs
  | _ => true

def isPlainList : List Json → Bool
  | [] => true
  | x :: xs => isPlain x && isPlainList xs

def isPlainFields : List (String × Json) → Bool
  | [] => true
  | (_, v) :: fs => isPlain v && isPlainFields fs

end

/-- A value, if it can be written in plain JSON. -/
def plain? (v : Json) : Option Json := if v.isPlain then some v else none

end Json

/-- A whole number as text. -/
def wholeText (n : Int) : Checked String :=
  let digits := toString n.natAbs
  if Numeral.digitLimit < digits.length then .error .tooLongToShow
  else .ok (if n < 0 then "-" ++ digits else digits)

/-- How deep lists and objects may be nested in a value that is copied. -/
def Json.copyLimit : Nat := 490

/-- Whether a value can be copied. -/
def Json.isCopyable (v : Json) : Bool := v.depth ≤ Json.copyLimit

/-- A copy of what has the shape of some value. -/
def copyAs {α : Type} (shape : α → Json) (a : α) : Checked α :=
  if (shape a).isCopyable then .ok a else .error .tooDeepToCopy

/-- The value that a text holds, if it is a JSON text; one that is nested too deep is refused. -/
def Json.held? (s : String) : Checked (Option Json) :=
  match Json.read s with
  | .ok v => .ok (some v)
  | .error e =>
    match e.problem with
    | .tooDeep _ => .error (.badJson e)
    | _ => .ok none

/-- The whole number nearest to a double, a half going to the even one. -/
def Double.round : Double → Checked Int
  | .nan => .error .nanToInteger
  | .infinite _ => .error .infinityToInteger
  | x => .ok x.roundHalfEven

end DecisionBoard
