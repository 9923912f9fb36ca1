import DecisionBoard.Number.Double

/-!
# Decimal text of doubles

A decimal numeral is a coefficient and a power of ten. This file reads one to the nearest double
(`Decimal.toDouble`), chooses the fewest digits that read back to a given double (`shortest`) or
a fixed count of significant digits (`significant`), and writes the chosen digits in one of two
layouts (`Layout.shortest`, `Layout.general`).
-/

namespace DecisionBoard

/-- The number `± coefficient · 10 ^ exponent`. -/
structure Decimal where
  negative : Bool
  coefficient : Nat
  exponent : Int
  deriving DecidableEq, Repr

namespace Decimal

/-! ## Reading -/

/-- The double nearest to a decimal numeral. A coefficient `c` that is not zero lies between one and
`2 ^ (c.log2 + 1)`, so exponents far outside the range are settled by their size. -/
def toDouble (d : Decimal) : Double :=
  if d.coefficient = 0 then Double.zero d.negative
  else if 400 < d.exponent then .infinite d.negative
  else if 400 + d.coefficient.log2 < -d.exponent then Double.zero d.negative
  else
    let units := d.coefficient * Double.unitsPerOne
    if 0 ≤ d.exponent then Double.nearest d.negative (units * Nat.pow 10 d.exponent.toNat) 1
    else Double.nearest d.negative units (Nat.pow 10 (-d.exponent).toNat)

/-! ## Choosing digits -/

/-- The number of decimal digits of a natural number, one for zero. -/
def digitCount (n : Nat) : Nat := (Nat.toDigits 10 n).length

/-- The least `k` from `k` on with `num · 10 ^ k ≥ den`, searched for at most `fuel` steps. -/
def raiseTo (num den : Nat) : Nat → Nat → Nat
  | 0, k => k
  | fuel + 1, k => if den ≤ num * Nat.pow 10 k then k else raiseTo num den fuel (k + 1)

/-- The power of ten of the leading digit of a positive count of units. -/
def leadingExponent (units : Nat) : Int :=
  if Double.unitsPerOne ≤ units then (digitCount (units / Double.unitsPerOne) : Int) - 1
  else -(raiseTo units Double.unitsPerOne 324 1 : Int)

/-- `units` as a fraction of `10 ^ exponent`: numerator and denominator. -/
def gridRatio (units : Nat) (exponent : Int) : Nat × Nat :=
  if 0 ≤ exponent then (units, Double.unitsPerOne * Nat.pow 10 exponent.toNat)
  else (units * Nat.pow 10 (-exponent).toNat, Double.unitsPerOne)

/-- Moves factors of ten from the coefficient to the exponent. -/
def stripZeros (coefficient : Nat) (exponent : Int) : Nat → Nat × Int
  | 0 => (coefficient, exponent)
  | fuel + 1 =>
    if coefficient ≠ 0 ∧ coefficient % 10 = 0 then stripZeros (coefficient / 10) (exponent + 1) fuel
    else (coefficient, exponent)

/-- True if a coefficient and exponent read back to this count of units. -/
def readsBack (units coefficient : Nat) (exponent : Int) : Bool :=
  match toDouble ⟨false, coefficient, exponent⟩ with
  | .finite _ u _ => u = units
  | _ => false

/-- Of the two multiples of `10 ^ exponent` around `units`, the nearer one that reads back, an
exact tie going to the even multiple. -/
def onGrid? (units : Nat) (exponent : Int) : Option Nat :=
  let (num, den) := gridRatio units exponent
  let near := Double.divHalfEven num den
  let far := if near = num / den then near + 1 else near - 1
  if readsBack units near exponent then some near
  else if readsBack units far exponent then some far
  else none

/-- Tries grids of more and more digits, from the power of ten `top` down. -/
def searchGrids (units : Nat) (top : Int) : Nat → Option (Nat × Int)
  | 0 => none
  | steps + 1 =>
    match onGrid? units top with
    | some c => some (stripZeros c top 17)
    | none => searchGrids units (top - 1) steps

/-- The fewest digits that read back to a positive count of units, and of those the nearest.
Seventeen always suffice; the exact expansion stands behind them so that the result reads back
by construction. -/
def shortest (units : Nat) : Nat × Int :=
  match searchGrids units (leadingExponent units) 17 with
  | some found => found
  | none => (units * Nat.pow 5 1074, -1074)

/-- The nearest decimal of at most `digits` significant digits, without trailing zeros. -/
def significant (digits : Nat) (units : Nat) : Nat × Int :=
  let exponent := leadingExponent units - (digits - 1 : Nat)
  let (num, den) := gridRatio units exponent
  stripZeros (Double.divHalfEven num den) exponent (digits + 1)

/-! ## Layout -/

/-- How chosen digits are laid out: from the power of ten `plainFrom` up to but not including
`plainBelow` with a point, outside with an exponent of two digits or more. -/
structure Layout where
  plainFrom : Int
  plainBelow : Int
  /-- Whether a whole number is written with `.0`. -/
  keepsPoint : Bool

/-- Round-trip text: `8.0`, `0.1`, `1e+16`, `1e-07`. -/
def Layout.shortest : Layout := ⟨-4, 16, true⟩

/-- Compact text of six significant digits: `8`, `0.1`, `1e+06`, `1e-07`. -/
def Layout.general : Layout := ⟨-4, 6, false⟩

/-- An exponent: its sign, and two digits or more. -/
def exponentText (e : Int) : String :=
  let digits := toString e.natAbs
  (if e < 0 then "e-" else "e+") ++ (if digits.length < 2 then "0" ++ digits else digits)

/-- A run of zeros. -/
def zeros (n : Nat) : String := String.ofList (List.replicate n '0')

/-- The text of `coefficient · 10 ^ exponent` without its sign. -/
def Layout.write (layout : Layout) (coefficient : Nat) (exponent : Int) : String :=
  let digits := Nat.toDigits 10 coefficient
  let lead := exponent + digits.length - 1
  if layout.plainFrom ≤ lead ∧ lead < layout.plainBelow then
    if lead < 0 then
      "0." ++ zeros ((-lead).toNat - 1) ++ String.ofList digits
    else
      let whole := lead.toNat + 1
      if digits.length ≤ whole then
        String.ofList digits ++ zeros (whole - digits.length)
          ++ (if layout.keepsPoint then ".0" else "")
      else
        String.ofList (digits.take whole) ++ "." ++ String.ofList (digits.drop whole)
  else
    match digits with
    | [d] => String.ofList [d] ++ exponentText lead
    | d :: rest => String.ofList (d :: '.' :: rest) ++ exponentText lead
    | [] => ""

end Decimal

namespace Double

/-- What stands before the digits of a number. -/
def signText (negative : Bool) : String := if negative then "-" else ""

/-- The text of a double in a layout, with the digits that `choose` chooses. -/
def writeWith (layout : Decimal.Layout) (choose : Nat → Nat × Int) : Double → String
  | nan => "nan"
  | infinite negative => signText negative ++ "inf"
  | finite negative units _ =>
    let (coefficient, exponent) := if units = 0 then (0, 0) else choose units
    signText negative ++ layout.write coefficient exponent

/-- The text with the fewest digits that reads back to the same double. -/
def toText : Double → String := writeWith .shortest Decimal.shortest

/-- The text with at most six significant digits. -/
def toCompactText : Double → String := writeWith .general (Decimal.significant 6)

end Double

end DecisionBoard
