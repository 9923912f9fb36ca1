import DecisionBoard.Number.Decimal

/-!
# Quantities

A number that is either whole, of any size, or a double; the two kinds are kept apart because they
are written differently, and compared by value.
-/

namespace DecisionBoard

/-- A number: whole, or a double. -/
inductive Quantity where
  | whole (n : Int)
  | real (x : Double)

namespace Quantity

/-- Equal in value, or both NaN. -/
def agrees : Quantity → Quantity → Bool
  | whole m, whole n => m = n
  | whole m, real x => x.eqvInt m
  | real x, whole n => x.eqvInt n
  | real x, real y => x.eqv y || x.isNaN && y.isNaN

/-- Strict order by value: false as soon as one side is NaN. -/
def lt : Quantity → Quantity → Bool
  | whole m, whole n => m < n
  | whole _, real (.infinite negative) => !negative
  | real (.infinite negative), whole _ => negative
  | whole m, real x => x.rank?.any (m * Double.unitsPerOne < ·)
  | real x, whole n => x.rank?.any (· < n * Double.unitsPerOne)
  | real x, real y => x.lt y

/-- The number after this one. -/
def next : Quantity → Quantity
  | whole n => whole (n + 1)
  | real x => real (x + 1)

/-- A quantity as text, so that its kind can be told. -/
def text : Quantity → String
  | whole n => toString n
  | real x => x.toText

end Quantity

end DecisionBoard
