import DecisionBoard.Json.Access

/-!
# Order of JSON values

Numbers are ordered by size, texts by code points, and lists by their first items that differ, the
shorter list coming first if there are none. Other pairs of values have no order: to compare them
is refused, with the names of their types.
-/

namespace DecisionBoard.Json

/-- The two strict comparisons. -/
inductive Comparison where
  | less | greater
  deriving DecidableEq, Repr

namespace Comparison

def sign : Comparison → String
  | less => "<"
  | greater => ">"

/-- A comparison by means of a strict order. -/
def through {α : Type} (c : Comparison) (lt : α → α → Bool) (a b : α) : Bool :=
  match c with
  | less => lt a b
  | greater => lt b a

/-- The refusal to compare two values. -/
def refuse (c : Comparison) (v w : Json) : Checked Bool :=
  .error (.notOrdered c.sign v.typeName w.typeName)

end Comparison

mutual

/-- Whether a comparison holds between two values. -/
def compares (c : Comparison) : Json → Json → Checked Bool
  | str a, w =>
    match w with
    | str b => .ok (c.through (fun a b => a < b) a b)
    | w => c.refuse (str a) w
  | arr xs, w =>
    match w with
    | arr ys => comparesList c xs ys
    | w => c.refuse (arr xs) w
  | v, w =>
    match v.quantity?, w.quantity? with
    | some p, some q => .ok (c.through Quantity.lt p q)
    | _, _ => c.refuse v w

/-- Whether a comparison holds between two lists. -/
def comparesList (c : Comparison) : List Json → List Json → Checked Bool
  | [], ys => .ok (c = .less && !ys.isEmpty)
  | x :: xs, ys =>
    match ys with
    | [] => .ok (c = .greater)
    | y :: ys => if agrees x y then comparesList c xs ys else compares c x y

end

end DecisionBoard.Json
