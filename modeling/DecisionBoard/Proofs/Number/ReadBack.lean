import DecisionBoard.Proofs.Number.Digits
import Mathlib.Tactic.Ring
import Mathlib.Tactic.NormNum

/-!
# Doubles are read back from their text

The digits that are chosen for a double read back to that double. Rounding sees only the ratio of
two numbers, so factors of ten may move between coefficient and exponent, and what a search found
to read back still does once its zeros are dropped. Where the search finds nothing, the exact
expansion stands, which is read back because a double rounds to itself.
-/

namespace DecisionBoard

/-! ## Rounding -/

namespace Double

/-- A common factor of numerator and denominator does not matter. -/
theorem divHalfEven_mul_right (num den : Nat) {k : Nat} (hk : 0 < k) :
    divHalfEven (num * k) (den * k) = divHalfEven num den := by
  have hdiv : num * k / (den * k) = num / den := Nat.mul_div_mul_right num den hk
  have hmod : num * k % (den * k) = num % den * k := Nat.mul_mod_mul_right k num den
  have hlt : 2 * (num % den * k) < den * k ↔ 2 * (num % den) < den := by
    rw [← Nat.mul_assoc, Nat.mul_lt_mul_right hk]
  have hgt : den * k < 2 * (num % den * k) ↔ den < 2 * (num % den) := by
    rw [← Nat.mul_assoc, Nat.mul_lt_mul_right hk]
  simp only [divHalfEven, hdiv, hmod, hlt, hgt]

theorem divHalfEven_of_dvd {num den : Nat} (hden : 0 < den) (h : den ∣ num) :
    divHalfEven num den = num / den := by
  have hmod : num % den = 0 := Nat.mod_eq_zero_of_dvd h
  simp [divHalfEven, hmod, hden]

theorem roundSignificant_mul_right (num den : Nat) {k : Nat} (hk : 0 < k) :
    roundSignificant (num * k) (den * k) = roundSignificant num den := by
  have hdiv : num * k / (den * k) = num / den := Nat.mul_div_mul_right num den hk
  simp only [roundSignificant, hdiv]
  rw [Nat.mul_right_comm den k, divHalfEven_mul_right _ _ hk]

theorem nearest_mul_right (negative : Bool) (num den : Nat) {k : Nat} (hk : 0 < k) :
    nearest negative (num * k) (den * k) = nearest negative num den := by
  rw [nearest, roundSignificant_mul_right num den hk, nearest]

theorem roundSignificant_of_fits {units : Nat} (h : Fits units) :
    roundSignificant units 1 = units := by
  have hstep : 0 < Nat.pow 2 (units.log2 - 52) := Nat.two_pow_pos _
  have hdvd : Nat.pow 2 (units.log2 - 52) ∣ units := Nat.dvd_of_mod_eq_zero h.2
  simp only [roundSignificant, Nat.div_one, Nat.one_mul]
  rw [divHalfEven_of_dvd hstep hdvd, Nat.div_mul_cancel hdvd]

/-- A double rounds to itself. -/
theorem nearest_of_fits (negative : Bool) {units : Nat} (h : Fits units) :
    nearest negative units 1 = .finite negative units h := by
  rw [nearest, roundSignificant_of_fits h, ofUnits_of_fits h]

theorem unitsLimit_pos : 0 < unitsLimit := by
  unfold unitsLimit
  -- the power itself is never to be computed
  generalize 2098 = k
  exact Nat.two_pow_pos k

theorem fits_zero : Fits 0 := ⟨unitsLimit_pos, Nat.zero_mod _⟩

theorem zero_eq (negative : Bool) : zero negative = .finite negative 0 fits_zero :=
  ofUnits_of_fits fits_zero

theorem ofUnits_limit (negative : Bool) : ofUnits negative unitsLimit = .infinite negative := by
  have hnot : ¬ Fits unitsLimit := fun h => Nat.lt_irrefl _ h.1
  rw [ofUnits, dif_neg hnot]

end Double

namespace Decimal

open Double

/-! ## Moving factors of ten -/

/-- The double nearest to a coefficient times a power of ten, however far out that is. -/
def scaled (negative : Bool) (coefficient : Nat) (exponent : Int) : Double :=
  if 0 ≤ exponent then
    nearest negative (coefficient * unitsPerOne * Nat.pow 10 exponent.toNat) 1
  else nearest negative (coefficient * unitsPerOne) (Nat.pow 10 (-exponent).toNat)

theorem scaled_eq (negative : Bool) (coefficient : Nat) {exponent : Int} {up down : Nat}
    (h : exponent = up - down) :
    scaled negative coefficient exponent
      = nearest negative (coefficient * unitsPerOne * 10 ^ up) (10 ^ down) := by
  rw [scaled]
  split
  · have hup : up = exponent.toNat + down := by omega
    have hpos : 0 < 10 ^ down := Nat.pow_pos (by decide)
    calc nearest negative (coefficient * unitsPerOne * Nat.pow 10 exponent.toNat) 1
        = nearest negative (coefficient * unitsPerOne * 10 ^ exponent.toNat * 10 ^ down)
            (1 * 10 ^ down) := (nearest_mul_right negative _ 1 hpos).symm
      _ = nearest negative (coefficient * unitsPerOne * 10 ^ up) (10 ^ down) := by
          rw [hup, Nat.pow_add, Nat.one_mul, ← Nat.mul_assoc]
  · have hdown : down = (-exponent).toNat + up := by omega
    have hpos : 0 < 10 ^ up := Nat.pow_pos (by decide)
    calc nearest negative (coefficient * unitsPerOne) (Nat.pow 10 (-exponent).toNat)
        = nearest negative (coefficient * unitsPerOne * 10 ^ up)
            (10 ^ (-exponent).toNat * 10 ^ up) := (nearest_mul_right negative _ _ hpos).symm
      _ = nearest negative (coefficient * unitsPerOne * 10 ^ up) (10 ^ down) := by
          rw [hdown, Nat.pow_add]

theorem scaled_mul_pow (negative : Bool) (coefficient : Nat) (exponent : Int) (k : Nat) :
    scaled negative (coefficient * 10 ^ k) exponent
      = scaled negative coefficient (exponent + k) := by
  have hlow : exponent = (exponent.toNat : Int) - ((-exponent).toNat : Nat) := by omega
  have hhigh : exponent + k = ((exponent.toNat + k : Nat) : Int) - ((-exponent).toNat : Nat) := by
    omega
  have hsame : coefficient * 10 ^ k * unitsPerOne * 10 ^ exponent.toNat
      = coefficient * unitsPerOne * 10 ^ (exponent.toNat + k) := by
    rw [Nat.pow_add]
    generalize unitsPerOne = one
    ring
  rw [scaled_eq negative _ hlow, scaled_eq negative _ hhigh, hsame]

/-- Within a moderate range, no exponent is settled by its size alone. -/
theorem toDouble_eq_scaled {d : Decimal} (hc : d.coefficient ≠ 0) (hhigh : d.exponent ≤ 400)
    (hlow : -d.exponent ≤ 400 + d.coefficient.log2) :
    d.toDouble = scaled d.negative d.coefficient d.exponent := by
  have hle : ¬ 400 < d.exponent := by omega
  have hge : ¬ 400 + (d.coefficient.log2 : Int) < -d.exponent := by omega
  by_cases hsign : 0 ≤ d.exponent
  · rw [toDouble, if_neg hc, if_neg hle, if_neg hge, if_pos hsign, scaled, if_pos hsign]
  · rw [toDouble, if_neg hc, if_neg hle, if_neg hge, if_neg hsign, scaled, if_neg hsign]

/-- The same number with other zeros is read to the same double. -/
theorem toDouble_mul_pow (negative : Bool) {coefficient k : Nat} {exponent : Int}
    (hc : coefficient ≠ 0) (hlow : -400 ≤ exponent) (hhigh : exponent + k ≤ 400) :
    toDouble ⟨negative, coefficient * 10 ^ k, exponent⟩
      = toDouble ⟨negative, coefficient, exponent + k⟩ := by
  have hpos : coefficient * 10 ^ k ≠ 0 :=
    Nat.mul_ne_zero hc (Nat.pos_iff_ne_zero.mp (Nat.pow_pos (by decide)))
  have hfirst : toDouble ⟨negative, coefficient * 10 ^ k, exponent⟩
      = scaled negative (coefficient * 10 ^ k) exponent :=
    toDouble_eq_scaled hpos (by dsimp only; omega) (by dsimp only; omega)
  have hsecond : toDouble ⟨negative, coefficient, exponent + k⟩
      = scaled negative coefficient (exponent + k) :=
    toDouble_eq_scaled hc (by dsimp only; omega) (by dsimp only; omega)
  rw [hfirst, hsecond, scaled_mul_pow]

/-! ## What a search finds -/

/-- The sign has no part in the size that is read. -/
theorem exists_units (coefficient : Nat) (exponent : Int) :
    ∃ units, ∀ negative, toDouble ⟨negative, coefficient, exponent⟩ = ofUnits negative units := by
  by_cases hc : coefficient = 0
  · exact ⟨0, fun negative => by rw [toDouble, if_pos hc, zero]⟩
  by_cases hhigh : 400 < exponent
  · exact ⟨unitsLimit, fun negative => by
      rw [toDouble, if_neg hc, if_pos hhigh, ofUnits_limit]⟩
  by_cases hlow : 400 + coefficient.log2 < -exponent
  · exact ⟨0, fun negative => by rw [toDouble, if_neg hc, if_neg hhigh, if_pos hlow, zero]⟩
  by_cases hsign : 0 ≤ exponent
  · refine ⟨roundSignificant (coefficient * unitsPerOne * Nat.pow 10 exponent.toNat) 1,
      fun negative => ?_⟩
    rw [toDouble, if_neg hc, if_neg hhigh, if_neg hlow, if_pos hsign, nearest]
  · refine ⟨roundSignificant (coefficient * unitsPerOne) (Nat.pow 10 (-exponent).toNat),
      fun negative => ?_⟩
    rw [toDouble, if_neg hc, if_neg hhigh, if_neg hlow, if_neg hsign, nearest]

theorem toDouble_of_readsBack {units coefficient : Nat} {exponent : Int}
    (h : readsBack units coefficient exponent = true) (hfits : Fits units) (negative : Bool) :
    toDouble ⟨negative, coefficient, exponent⟩ = .finite negative units hfits := by
  obtain ⟨found, hfound⟩ := exists_units coefficient exponent
  rw [readsBack, hfound false, ofUnits] at h
  split at h
  · rename_i negative' units' fits' heq
    have hunits : units' = units := by simpa using h
    by_cases hf : Fits found
    · rw [dif_pos hf] at heq
      cases heq
      subst hunits
      rw [hfound negative, ofUnits_of_fits hfits]
    · rw [dif_neg hf] at heq
      cases heq
  · cases h

theorem readsBack_ne_zero {units coefficient : Nat} {exponent : Int} (hunits : units ≠ 0)
    (h : readsBack units coefficient exponent = true) : coefficient ≠ 0 := by
  rintro rfl
  have hzero : toDouble ⟨false, 0, exponent⟩ = .finite false 0 fits_zero := by
    rw [toDouble, if_pos rfl, zero_eq]
  rw [readsBack, hzero] at h
  have h0 : 0 = units := by simpa using h
  exact hunits h0.symm

/-- Only factors of ten are moved out. -/
theorem stripZeros_spec (coefficient : Nat) (exponent : Int) (fuel : Nat) :
    ∃ k ≤ fuel, coefficient = (stripZeros coefficient exponent fuel).1 * 10 ^ k ∧
      (stripZeros coefficient exponent fuel).2 = exponent + k := by
  induction fuel generalizing coefficient exponent with
  | zero => exact ⟨0, Nat.le_refl 0, by simp [stripZeros], by simp [stripZeros]⟩
  | succ fuel ih =>
    rw [stripZeros]
    split
    · rename_i hzero
      obtain ⟨k, hk, hc, he⟩ := ih (coefficient / 10) (exponent + 1)
      have hten : coefficient = coefficient / 10 * 10 := by omega
      refine ⟨k + 1, by omega, ?_, by rw [he]; push_cast; ring⟩
      rw [Nat.pow_succ, ← Nat.mul_assoc, ← hc]
      exact hten
    · exact ⟨0, Nat.zero_le _, by simp, by simp⟩

theorem onGrid?_readsBack {units found : Nat} {exponent : Int}
    (h : onGrid? units exponent = some found) : readsBack units found exponent = true := by
  simp only [onGrid?] at h
  generalize divHalfEven (gridRatio units exponent).1 (gridRatio units exponent).2 = near at h
  generalize (if near = _ then near + 1 else near - 1) = far at h
  by_cases hnear : readsBack units near exponent = true
  · rw [if_pos hnear] at h
    cases h
    exact hnear
  · rw [if_neg hnear] at h
    by_cases hfar : readsBack units far exponent = true
    · rw [if_pos hfar] at h
      cases h
      exact hfar
    · rw [if_neg hfar] at h
      cases h

/-- What a search finds is on one of its grids, without its zeros. -/
theorem searchGrids_spec {units steps : Nat} {top : Int} {found : Nat × Int}
    (h : searchGrids units top steps = some found) :
    ∃ coefficient exponent, readsBack units coefficient exponent = true ∧
      top - steps < exponent ∧ exponent ≤ top ∧
      ∃ k : Nat, k ≤ 17 ∧ coefficient = found.1 * 10 ^ k ∧ found.2 = exponent + k := by
  induction steps generalizing top with
  | zero => cases h
  | succ steps ih =>
    rw [searchGrids] at h
    split at h
    · rename_i c hc
      cases h
      exact ⟨c, top, onGrid?_readsBack hc, by omega, Int.le_refl top, stripZeros_spec c top 17⟩
    · obtain ⟨c, e, hread, hlow, hhigh, hstrip⟩ := ih h
      exact ⟨c, e, hread, by omega, by omega, hstrip⟩

/-! ## The range of the leading digit -/

theorem raiseTo_le (num den fuel k : Nat) : raiseTo num den fuel k ≤ k + fuel := by
  induction fuel generalizing k with
  | zero => exact Nat.le_refl k
  | succ fuel ih =>
    rw [raiseTo]
    split
    · omega
    · have hnext := ih (k + 1)
      omega

theorem unitsLimit_eq : unitsLimit = 2 ^ 1024 * unitsPerOne := by
  unfold unitsLimit unitsPerOne
  rw [show 2098 = 1024 + 1074 from rfl]
  generalize 1074 = k
  exact Nat.pow_add 2 1024 k

theorem two_pow_lt_ten_pow : 2 ^ 1024 < 10 ^ 309 := by decide +kernel

theorem leadingExponent_bounds {units : Nat} (h : units < unitsLimit) :
    -325 ≤ leadingExponent units ∧ leadingExponent units ≤ 308 := by
  rw [leadingExponent]
  split
  · have hpos : 0 < digitCount (units / unitsPerOne) := Nat.length_toDigits_pos
    have hquotient : units / unitsPerOne < 10 ^ 309 := by
      have hlt : units / unitsPerOne < 2 ^ 1024 :=
        Nat.div_lt_of_lt_mul (by rw [Nat.mul_comm, ← unitsLimit_eq]; exact h)
      exact Nat.lt_trans hlt two_pow_lt_ten_pow
    have hcount : digitCount (units / unitsPerOne) ≤ 309 :=
      (Nat.length_toDigits_le_iff (by decide) (by decide)).mpr hquotient
    omega
  · have hraise := raiseTo_le units unitsPerOne 324 1
    omega

/-! ## The chosen digits -/

theorem pow_five_mul_unitsPerOne : Nat.pow 5 1074 * unitsPerOne = Nat.pow 10 1074 := by
  unfold unitsPerOne
  generalize 1074 = k
  exact (Nat.mul_pow 5 2 k).symm

theorem log2_exact {units : Nat} (hunits : units ≠ 0) (k : Nat) :
    k ≤ (units * Nat.pow 5 k).log2 := by
  have hpos : 0 < Nat.pow 5 k := Nat.pow_pos (by decide)
  rw [Nat.le_log2 (Nat.mul_ne_zero hunits (Nat.pos_iff_ne_zero.mp hpos))]
  calc 2 ^ k ≤ 5 ^ k := Nat.pow_le_pow_left (by decide) k
    _ ≤ units * 5 ^ k := Nat.le_mul_of_pos_left _ (Nat.pos_iff_ne_zero.mpr hunits)

/-- The exact expansion of a double is not zero, and reads back. -/
theorem toDouble_expansion {units k : Nat} {e : Int} (he : e = -k)
    (hten : Nat.pow 5 k * unitsPerOne = Nat.pow 10 k) (hk : k ≤ 1074) (hfits : Fits units)
    (hunits : units ≠ 0) :
    units * Nat.pow 5 k ≠ 0 ∧ ∀ negative,
      toDouble ⟨negative, units * Nat.pow 5 k, e⟩ = .finite negative units hfits := by
  subst he
  have hfive : 0 < Nat.pow 5 k := Nat.pow_pos (by decide)
  have hpow : 0 < Nat.pow 10 k := Nat.pow_pos (by decide)
  have hc : units * Nat.pow 5 k ≠ 0 := Nat.mul_ne_zero hunits (Nat.pos_iff_ne_zero.mp hfive)
  have hlog : k ≤ (units * Nat.pow 5 k).log2 := log2_exact hunits k
  refine ⟨hc, fun negative => ?_⟩
  have hscaled : toDouble ⟨negative, units * Nat.pow 5 k, -k⟩
      = scaled negative (units * Nat.pow 5 k) (-k) :=
    toDouble_eq_scaled hc (by dsimp only; omega) (by dsimp only; omega)
  have hratio : scaled negative (units * Nat.pow 5 k) (-k)
      = nearest negative (units * Nat.pow 5 k * unitsPerOne * 10 ^ 0) (10 ^ k) :=
    scaled_eq negative _ (by omega)
  rw [hscaled, hratio, Nat.mul_assoc units, hten, Nat.pow_zero, Nat.mul_one]
  calc nearest negative (units * Nat.pow 10 k) (10 ^ k)
      = nearest negative (units * 10 ^ k) (1 * 10 ^ k) := by rw [Nat.one_mul]; rfl
    _ = nearest negative units 1 := nearest_mul_right negative units 1 hpow
    _ = .finite negative units hfits := nearest_of_fits negative hfits

/-- When no grid reads back, the exact expansion is chosen. The power is named rather than written
out, since a literal power that large is evaluated wherever it is met. -/
theorem shortest_of_none {units : Nat}
    (h : searchGrids units (leadingExponent units) 17 = none) :
    ∃ k : Nat, k ≤ 1074 ∧ Nat.pow 5 k * unitsPerOne = Nat.pow 10 k ∧
      shortest units = (units * Nat.pow 5 k, -(k : Int)) := by
  have hshort : shortest units = (units * Nat.pow 5 1074, -1074) := by
    delta shortest
    simp only [h]
  have hcast : (-1074 : Int) = -((1074 : Nat) : Int) := rfl
  have hten := pow_five_mul_unitsPerOne
  rw [hcast] at hshort
  generalize 1074 = k at hshort hten
  exact ⟨k, Nat.le_refl k, hten, hshort⟩

/-- The digits chosen for a double read back to it. -/
theorem toDouble_shortest {units : Nat} (hfits : Fits units) (hunits : units ≠ 0) :
    (shortest units).1 ≠ 0 ∧ ∀ negative,
      toDouble ⟨negative, (shortest units).1, (shortest units).2⟩ = .finite negative units hfits := by
  cases hsearch : searchGrids units (leadingExponent units) 17 with
  | some found =>
    have hshort : shortest units = found := by
      delta shortest
      simp only [hsearch]
    rw [hshort]
    obtain ⟨c, e, hread, hlow, hhigh, k, hk, hc, he⟩ := searchGrids_spec hsearch
    obtain ⟨hlead, hlead'⟩ := leadingExponent_bounds hfits.1
    have hfirst : found.1 ≠ 0 := by
      intro hzero
      apply readsBack_ne_zero hunits hread
      rw [hc, hzero, Nat.zero_mul]
    refine ⟨hfirst, fun negative => ?_⟩
    rw [he, ← toDouble_mul_pow negative hfirst (by omega) (by omega), ← hc]
    exact toDouble_of_readsBack hread hfits negative
  | none =>
    obtain ⟨k, hk, hten, hshort⟩ := shortest_of_none hsearch
    rw [hshort]
    exact toDouble_expansion rfl hten hk hfits hunits

end Decimal
end DecisionBoard
