/-!
# Double-precision numbers

The numbers of the IEEE 754 binary64 format, as exact integers: every finite double is a whole
number of *units*, one unit being the smallest positive double, `2 ^ -1074`. So

* a finite double is a sign and a count of units that fits in 53 significant bits (`Fits`);
* comparing two doubles is comparing two integers (`rank?`);
* an operation computes its exact result and rounds it once, to the nearest double, a half going
  to the even neighbour (`nearest`).
-/

namespace DecisionBoard

namespace Double

-- powers are written `Nat.pow`, since what `^` stands for depends on the instances in scope

/-- The number one, in units of `2 ^ -1074`. -/
def unitsPerOne : Nat := Nat.pow 2 1074

/-- The first count of units beyond the largest finite double. -/
def unitsLimit : Nat := Nat.pow 2 2098

/-- A count of units that a double can hold: below the overflow limit, and with no more than 53
significant bits. -/
def Fits (units : Nat) : Prop :=
  units < unitsLimit ∧ units % Nat.pow 2 (units.log2 - 52) = 0

instance (units : Nat) : Decidable (Fits units) :=
  inferInstanceAs (Decidable (_ ∧ _))

end Double

/-- A double-precision number. All NaNs are one value; the two zeros differ in their sign. -/
inductive Double where
  | nan
  | infinite (negative : Bool)
  | finite (negative : Bool) (units : Nat) (fits : Double.Fits units)
  deriving DecidableEq

namespace Double

/-! ## Rounding -/

/-- The integer nearest to `num / den`, a half going to the even neighbour. -/
def divHalfEven (num den : Nat) : Nat :=
  let q := num / den
  let r := num % den
  if 2 * r < den then q else if den < 2 * r then q + 1 else q + q % 2

/-- The number of 53 significant bits nearest to `num / den`; its last bit may be worth more
than one. -/
def roundSignificant (num den : Nat) : Nat :=
  let step := Nat.pow 2 ((num / den).log2 - 52)
  divHalfEven num (den * step) * step

/-- The double with this sign and count of units, an infinity if there is none. -/
def ofUnits (negative : Bool) (units : Nat) : Double :=
  if fits : Fits units then .finite negative units fits else .infinite negative

/-- The double nearest to `num / den` units. -/
def nearest (negative : Bool) (num den : Nat) : Double :=
  ofUnits negative (roundSignificant num den)

/-- The zero with a given sign. -/
def zero (negative : Bool) : Double := ofUnits negative 0

/-- The double nearest to an integer, an infinity beyond the finite range. -/
def ofInt (n : Int) : Double := nearest (n < 0) (n.natAbs * unitsPerOne) 1

instance (n : Nat) : OfNat Double n := ⟨ofInt n⟩

instance : Inhabited Double := ⟨0⟩

theorem ofUnits_of_fits {negative : Bool} {units : Nat} (h : Fits units) :
    ofUnits negative units = .finite negative units h := by
  simp [ofUnits, h]

/-! ## Order -/

/-- The signed count of units of a finite double. -/
def signedUnits (negative : Bool) (units : Nat) : Int :=
  if negative then -(units : Int) else units

/-- The place of a double on the number line, in units; the infinities stand just outside the
finite range and NaN has no place. -/
def rank? : Double → Option Int
  | nan => none
  | infinite negative => some (signedUnits negative unitsLimit)
  | finite negative units _ => some (signedUnits negative units)

/-- Strict order: false as soon as one side is NaN. -/
def lt (x y : Double) : Bool :=
  match x.rank?, y.rank? with
  | some a, some b => a < b
  | _, _ => false

/-- Weak order: false as soon as one side is NaN. -/
def le (x y : Double) : Bool :=
  match x.rank?, y.rank? with
  | some a, some b => a ≤ b
  | _, _ => false

/-- Numeric equality: the two zeros are equal and NaN equals nothing. -/
def eqv (x y : Double) : Bool :=
  match x.rank?, y.rank? with
  | some a, some b => a = b
  | _, _ => false

/-- A double equals an integer when its value is exactly that integer. -/
def eqvInt : Double → Int → Bool
  | finite negative units _, n => signedUnits negative units = n * unitsPerOne
  | _, _ => false

/-- The larger of two, the first one unless the second is greater: a NaN on the right is
ignored. -/
def maxKeepFirst (x y : Double) : Double := if lt x y then y else x

/-- The smaller of two, the first one unless the second is smaller: a NaN on the right is
ignored. -/
def minKeepFirst (x y : Double) : Double := if lt y x then y else x

/-- The nearest point of the interval from `low` to `high`; NaN goes to `low`. -/
def clamp (low high x : Double) : Double := minKeepFirst high (maxKeepFirst low x)

def isNaN : Double → Bool
  | nan => true
  | _ => false

def isFinite : Double → Bool
  | finite .. => true
  | _ => false

def isZero : Double → Bool
  | finite _ units _ => units = 0
  | _ => false

/-! ## Arithmetic -/

def neg : Double → Double
  | nan => nan
  | infinite s => infinite !s
  | finite s u h => finite (!s) u h

/-- The sum, rounded once. A zero sum is positive unless both zeros added are negative. -/
def add : Double → Double → Double
  | nan, _ | _, nan => nan
  | infinite s, infinite t => if s = t then infinite s else nan
  | infinite s, _ => infinite s
  | _, infinite t => infinite t
  | finite s u _, finite t v _ =>
    let sum := signedUnits s u + signedUnits t v
    if sum = 0 then zero (s && t) else nearest (sum < 0) sum.natAbs 1

def sub (x y : Double) : Double := add x (neg y)

/-- The product, rounded once. -/
def mul : Double → Double → Double
  | nan, _ | _, nan => nan
  | infinite s, infinite t => infinite (s != t)
  | infinite s, finite t v _ => if v = 0 then nan else infinite (s != t)
  | finite s u _, infinite t => if u = 0 then nan else infinite (s != t)
  | finite s u _, finite t v _ => nearest (s != t) (u * v) unitsPerOne

/-- The quotient, rounded once. -/
def div : Double → Double → Double
  | nan, _ | _, nan => nan
  | infinite _, infinite _ => nan
  | infinite s, finite t _ _ => infinite (s != t)
  | finite s _ _, infinite t => zero (s != t)
  | finite s u _, finite t v _ =>
    if v = 0 then (if u = 0 then nan else infinite (s != t))
    else nearest (s != t) (u * unitsPerOne) v

instance : Neg Double := ⟨neg⟩
instance : Add Double := ⟨add⟩
instance : Sub Double := ⟨sub⟩
instance : Mul Double := ⟨mul⟩
instance : Div Double := ⟨div⟩

/-! ## Integers -/

/-- True of the finite doubles without a fractional part. -/
def isInteger : Double → Bool
  | finite _ units _ => units % unitsPerOne = 0
  | _ => false

/-- The integer part, toward zero; zero for NaN and the infinities. -/
def truncate : Double → Int
  | finite negative units _ => signedUnits negative (units / unitsPerOne)
  | _ => 0

/-- The nearest integer, a half going to the even neighbour; zero for NaN and the infinities. -/
def roundHalfEven : Double → Int
  | finite negative units _ => signedUnits negative (divHalfEven units unitsPerOne)
  | _ => 0

end Double

end DecisionBoard
