import DecisionBoard.Json.Basic
import DecisionBoard.Number.Quantity

/-!
# Equality of JSON values

Numbers are compared by value: `1`, `1.0` and `true` are equal. Objects are compared as tables,
whatever the order of their fields. NaN differs from itself when the two values compared are
numbers, and agrees with itself inside a list or an object.
-/

namespace DecisionBoard

namespace Json

/-- The number that a value is; truth values count as zero and one. -/
def quantity? : Json → Option Quantity
  | bool b => some (.whole (if b then 1 else 0))
  | int n => some (.whole n)
  | float x => some (.real x)
  | _ => none

mutual

/-- Agreement of two values, NaN agreeing with itself. -/
def agrees : Json → Json → Bool
  | null, w => w.isNull
  | str s, w => w.string? == some s
  | arr xs, w =>
    match w with
    | arr ys => agreesList xs ys
    | _ => false
  | obj fs, w =>
    match w with
    | obj gs => fs.length == gs.length && agreesFields fs gs
    | _ => false
  | v, w =>
    match v.quantity?, w.quantity? with
    | some p, some q => p.agrees q
    | _, _ => false

/-- Agreement item by item. -/
def agreesList : List Json → List Json → Bool
  | [], ys => ys.isEmpty
  | x :: xs, ys =>
    match ys with
    | y :: ys => agrees x y && agreesList xs ys
    | [] => false

/-- Whether every field agrees with the field of the same name of another object. -/
def agreesFields : List (String × Json) → List (String × Json) → Bool
  | [], _ => true
  | (k, v) :: fs, gs =>
    match Entries.get? gs k with
    | some w => agrees v w && agreesFields fs gs
    | none => false

end

/-- Equality of two values, NaN differing from itself. -/
def equals (v w : Json) : Bool :=
  match v, w with
  | float x, float y => x.eqv y
  | _, _ => agrees v w

theorem equals_str (s : String) (v : Json) : equals (str s) v = (v.string? == some s) := by
  cases v <;> simp [equals, agrees, string?]

end Json

/-- A quantity as a JSON value. -/
def Quantity.toJson : Quantity → Json
  | whole n => .int n
  | real x => .float x

end DecisionBoard
