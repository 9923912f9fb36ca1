import DecisionBoard.Number.Decimal
import DecisionBoard.Text.Blank
import DecisionBoard.Text.Digit

/-!
# Numerals typed by people

The grammar of numbers given as text: decimal digits of any script, single underscores between
digits, a sign, blanks around the whole. `wholeNumber?` reads integers, `realNumber?` doubles,
which may also be `inf`, `infinity` or `nan` in any case.
-/

namespace DecisionBoard.Numeral

/-- Blanks around a numeral: all but the information separators. -/
def isPadding (c : Char) : Bool :=
  Text.isBlank c && !(0x1C ≤ c.toNat && c.toNat ≤ 0x1F)

/-- A digit of any script as its ASCII digit; other characters as they are. -/
def plainDigit (c : Char) : Char :=
  match Text.digitValue? c with
  | some v => Char.ofNat (0x30 + v)
  | none => c

/-- A numeral's characters without the blanks around it, its digits in ASCII. -/
def plain (s : String) : List Char := (Text.trimWhere isPadding s.toList).map plainDigit

/-- Drops the underscores, each of which must stand between two digits. -/
def joinDigits? (previousIsDigit : Bool) : List Char → Option (List Char)
  | [] => some []
  | '_' :: c :: rest =>
    if previousIsDigit && c.isDigit then (joinDigits? true rest).map (c :: ·) else none
  | c :: rest => if c = '_' then none else (joinDigits? c.isDigit rest).map (c :: ·)

/-- A leading sign, true for minus, and what follows it. -/
def splitSign : List Char → Bool × List Char
  | '-' :: rest => (true, rest)
  | '+' :: rest => (false, rest)
  | cs => (false, cs)

/-- The value of ASCII digits. -/
def digitsValue (ds : List Char) : Nat := ds.foldl (fun n c => 10 * n + (c.toNat - 0x30)) 0

/-- The longest run of ASCII digits in front, and the rest. -/
def spanDigits (cs : List Char) : List Char × List Char :=
  (cs.takeWhile Char.isDigit, cs.dropWhile Char.isDigit)

/-- The exponent part at the end of a numeral, zero if there is none. -/
def exponentPart? : List Char → Option Int
  | [] => some 0
  | c :: rest =>
    if c = 'e' || c = 'E' then
      let (negative, ds) := splitSign rest
      if ds.isEmpty || !ds.all Char.isDigit then none
      else some (if negative then -(digitsValue ds : Int) else digitsValue ds)
    else none

/-- The decimal written by a fixed-point part, which may lack the digits on one side of its
point, and an exponent part. -/
def decimal? (negative : Bool) (cs : List Char) : Option Decimal :=
  let (whole, rest) := spanDigits cs
  let (fraction, rest) := match rest with
    | '.' :: rest => spanDigits rest
    | _ => ([], rest)
  if whole.isEmpty && fraction.isEmpty then none
  else (exponentPart? rest).map fun e =>
    ⟨negative, digitsValue (whole ++ fraction), e - fraction.length⟩

/-- The names of the numbers without digits. -/
def named? (negative : Bool) (cs : List Char) : Option Double :=
  let name := String.ofList (cs.map Char.toLower)
  if name = "inf" || name = "infinity" then some (.infinite negative)
  else if name = "nan" then some .nan
  else none

/-- The double that a text denotes. -/
def realNumber? (s : String) : Option Double := do
  let cs ← joinDigits? false (plain s)
  let (negative, body) := splitSign cs
  match named? negative body with
  | some x => some x
  | none => (decimal? negative body).map Decimal.toDouble

/-- Why a text denotes no integer. -/
inductive Problem where
  | malformed
  | tooLong (digits : Nat)
  deriving DecidableEq, Repr

/-- The most digits an integer numeral may have. -/
def digitLimit : Nat := 4300

/-- The integer that a text denotes. The digits in front are counted before what follows them is
looked at. -/
def wholeNumber? (s : String) : Except Problem Int :=
  let (negative, body) := splitSign (plain s)
  let inNumeral (c : Char) : Bool := c.isDigit || c = '_'
  match joinDigits? false (body.takeWhile inNumeral) with
  | none => .error .malformed
  | some ds =>
    if digitLimit < ds.length then .error (.tooLong ds.length)
    else if ds.isEmpty || !(body.dropWhile inNumeral).isEmpty then .error .malformed
    else .ok (if negative then -(digitsValue ds : Int) else digitsValue ds)

end DecisionBoard.Numeral
