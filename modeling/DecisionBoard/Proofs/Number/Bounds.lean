import DecisionBoard.Host.Input
import DecisionBoard.Proofs.Number.Rounding

/-!
# Numbers within bounds

An input with bounds takes the number between them that is nearest to the one it is given, a whole
one as a whole number. Here all of that is said of the rational numbers that finite doubles are:
comparing, keeping within bounds, and what is stored. A number that is stored reads as itself, and
is within bounds already when it is given again.
-/

namespace DecisionBoard
namespace Double

/-! ## Comparing finite doubles -/

theorem exists_rank {x : Double} (h : x.isFinite = true) :
    ∃ a : ℤ, x.rank? = some a ∧ x.value = a / unitsPerOne ∧ a.natAbs < unitsLimit := by
  cases x with
  | finite negative units fits =>
    refine ⟨_, rfl, rfl, ?_⟩
    have hlt := fits.1
    generalize unitsLimit = limit at hlt
    cases negative <;> simpa [signedUnits] using hlt
  | nan => cases h
  | infinite negative => cases h

theorem unitsPerOne_pos_rat : (0 : ℚ) < unitsPerOne := by exact_mod_cast unitsPerOne_pos

theorem lt_iff {x y : Double} (hx : x.isFinite = true) (hy : y.isFinite = true) :
    x.lt y = true ↔ x.value < y.value := by
  obtain ⟨a, ha, hxa, -⟩ := exists_rank hx
  obtain ⟨b, hb, hyb, -⟩ := exists_rank hy
  rw [hxa, hyb, div_lt_div_iff_of_pos_right unitsPerOne_pos_rat, Int.cast_lt, lt, ha, hb]
  exact decide_eq_true_iff

theorem le_iff {x y : Double} (hx : x.isFinite = true) (hy : y.isFinite = true) :
    x.le y = true ↔ x.value ≤ y.value := by
  obtain ⟨a, ha, hxa, -⟩ := exists_rank hx
  obtain ⟨b, hb, hyb, -⟩ := exists_rank hy
  rw [hxa, hyb, div_le_div_iff_of_pos_right unitsPerOne_pos_rat, Int.cast_le, le, ha, hb]
  exact decide_eq_true_iff

theorem eqv_iff_value {x y : Double} (hx : x.isFinite = true) (hy : y.isFinite = true) :
    x.eqv y = true ↔ x.value = y.value := by
  obtain ⟨a, ha, hxa, -⟩ := exists_rank hx
  obtain ⟨b, hb, hyb, -⟩ := exists_rank hy
  rw [hxa, hyb, div_left_inj' unitsPerOne_pos_rat.ne', Int.cast_inj, eqv, ha, hb]
  exact decide_eq_true_iff

/-- The positive infinity is above every finite double, the negative one below. -/
theorem lt_infinite {x : Double} (hx : x.isFinite = true) (negative : Bool) :
    x.lt (infinite negative) = !negative ∧ (infinite negative).lt x = negative := by
  obtain ⟨a, ha, -, hlt⟩ := exists_rank hx
  unfold lt
  rw [ha, rank?]
  generalize unitsLimit = limit at hlt
  cases negative <;> simp only [signedUnits, if_true, Bool.false_eq_true, if_false,
    decide_eq_true_eq, decide_eq_false_iff_not, Bool.not_true, Bool.not_false] <;> omega

/-! ## Keeping within bounds -/

theorem maxKeepFirst_finite {x y : Double} (hx : x.isFinite = true) (hy : y.isFinite = true) :
    (maxKeepFirst x y).isFinite = true ∧ (maxKeepFirst x y).value = max x.value y.value := by
  rw [maxKeepFirst]
  split
  · rename_i h
    exact ⟨hy, (max_eq_right ((lt_iff hx hy).mp h).le).symm⟩
  · rename_i h
    exact ⟨hx, (max_eq_left (not_lt.mp (mt (lt_iff hx hy).mpr h))).symm⟩

theorem minKeepFirst_finite {x y : Double} (hx : x.isFinite = true) (hy : y.isFinite = true) :
    (minKeepFirst x y).isFinite = true ∧ (minKeepFirst x y).value = min x.value y.value := by
  rw [minKeepFirst]
  split
  · rename_i h
    exact ⟨hy, (min_eq_right ((lt_iff hy hx).mp h).le).symm⟩
  · rename_i h
    exact ⟨hx, (min_eq_left (not_lt.mp (mt (lt_iff hy hx).mpr h))).symm⟩

/-- The number from `low` to `high` that is nearest to a double; `low` for NaN. -/
def nearestWithin (low high : ℚ) : Double → ℚ
  | nan => low
  | infinite negative => if negative then low else high
  | x => min high (max low x.value)

theorem nearestWithin_of_finite (low high : ℚ) {x : Double} (h : x.isFinite = true) :
    nearestWithin low high x = min high (max low x.value) := by
  cases x with
  | finite negative units fits => rfl
  | nan => cases h
  | infinite negative => cases h

section
variable {low high : Double}

/-- Bounds that are numbers are kept even if they are the wrong way round: then it is the upper one
that is taken. -/
theorem clamp_finite (hlow : low.isFinite = true) (hhigh : high.isFinite = true) (x : Double) :
    (clamp low high x).isFinite = true ∧
      (clamp low high x).value = min high.value (nearestWithin low.value high.value x) := by
  have hfinite : ∀ {y}, y.isFinite = true → (clamp low high y).isFinite = true ∧
      (clamp low high y).value = min high.value (max low.value y.value) := by
    intro y hy
    obtain ⟨hmax, hvalue⟩ := maxKeepFirst_finite hlow hy
    obtain ⟨hmin, hvalue'⟩ := minKeepFirst_finite hhigh hmax
    exact ⟨hmin, hvalue'.trans (by rw [hvalue])⟩
  have hbound : ∀ {y}, (maxKeepFirst low y) = low → (clamp low high y).isFinite = true ∧
      (clamp low high y).value = min high.value low.value := by
    intro y hy
    rw [clamp, hy]
    exact minKeepFirst_finite hhigh hlow
  cases x with
  | nan =>
    refine hbound ?_
    obtain ⟨a, ha, -, -⟩ := exists_rank hlow
    rw [maxKeepFirst, lt, ha]
    rfl
  | infinite negative =>
    obtain ⟨hbelow, -⟩ := lt_infinite hlow negative
    obtain ⟨-, habove⟩ := lt_infinite hhigh negative
    cases negative with
    | true =>
      refine hbound ?_
      rw [maxKeepFirst, hbelow]
      rfl
    | false =>
      have hclamp : clamp low high (infinite false) = high := by
        rw [clamp, maxKeepFirst, hbelow]
        show minKeepFirst high (infinite false) = high
        rw [minKeepFirst, habove]
        rfl
      rw [hclamp]
      exact ⟨hhigh, (min_self _).symm⟩
  | finite negative units fits =>
    obtain ⟨hclamp, hvalue⟩ := hfinite (y := finite negative units fits) rfl
    refine ⟨hclamp, hvalue.trans ?_⟩
    rw [nearestWithin_of_finite _ _ rfl, ← min_assoc, min_self]

theorem nearestWithin_le {low high : ℚ} (hle : low ≤ high) (x : Double) :
    low ≤ nearestWithin low high x ∧ nearestWithin low high x ≤ high := by
  cases x with
  | nan => exact ⟨le_rfl, hle⟩
  | infinite negative =>
    cases negative with
    | true => exact ⟨le_rfl, hle⟩
    | false => exact ⟨hle, le_rfl⟩
  | finite negative units fits => exact ⟨le_min hle (le_max_left _ _), min_le_left _ _⟩

end

/-! ## Whole numbers -/

theorem value_of_isInteger {x : Double} (h : x.isInteger = true) : x.value = x.truncate := by
  cases x with
  | finite negative units fits =>
    have hunits : units = units / unitsPerOne * unitsPerOne :=
      (Nat.div_mul_cancel (Nat.dvd_of_mod_eq_zero (by simpa [isInteger] using h))).symm
    rw [value, truncate, div_eq_iff unitsPerOne_pos_rat.ne']
    generalize units / unitsPerOne = whole at hunits ⊢
    rw [hunits]
    generalize unitsPerOne = one
    cases negative <;> simp [signedUnits]
  | nan => cases h
  | infinite negative => cases h

theorem isInteger_of_value {x : Double} (hx : x.isFinite = true) {n : ℤ} (h : x.value = n) :
    x.isInteger = true := by
  cases x with
  | finite negative units fits =>
    rw [value, div_eq_iff unitsPerOne_pos_rat.ne'] at h
    have hrank : signedUnits negative units = n * unitsPerOne := by exact_mod_cast h
    have hdvd : (unitsPerOne : ℤ) ∣ signedUnits negative units := ⟨n, by rw [hrank, mul_comm]⟩
    have hunits : (unitsPerOne : ℤ) ∣ units := by
      cases negative with
      | false => exact hdvd
      | true => exact (dvd_neg).mp hdvd
    rw [isInteger, decide_eq_true_iff]
    exact Nat.mod_eq_zero_of_dvd (Int.natCast_dvd_natCast.mp hunits)
  | nan => cases hx
  | infinite negative => cases hx

/-- Two doubles that are one number are the same, unless they are zeros. -/
theorem eq_of_value {x y : Double} (hx : x.isFinite = true) (hy : y.isFinite = true)
    (h : x.value = y.value) (hne : x.value ≠ 0) : x = y := by
  cases x with
  | finite negative units fits =>
    cases y with
    | finite negative' units' fits' =>
      simp only [value] at h hne
      rw [div_left_inj' unitsPerOne_pos_rat.ne', Int.cast_inj] at h
      have hrank : signedUnits negative units ≠ 0 := by
        intro hzero
        rw [hzero, Int.cast_zero, zero_div] at hne
        exact hne rfl
      have hsame : negative = negative' ∧ units = units' := by
        cases negative <;> cases negative' <;> simp [signedUnits] at h hrank ⊢ <;> omega
      obtain ⟨rfl, rfl⟩ := hsame
      rfl
    | nan => cases hy
    | infinite negative => cases hy
  | nan => cases hx
  | infinite negative => cases hx

/-- A double that is a whole number is the double of that number, up to the sign of zero. -/
theorem ofInt_truncate {x : Double} (h : x.isInteger = true) :
    (ofInt x.truncate).isFinite = true ∧ (ofInt x.truncate).value = x.value := by
  cases x with
  | finite negative units fits =>
    have hdvd : unitsPerOne ∣ units :=
      Nat.dvd_of_mod_eq_zero (by simpa [isInteger] using h)
    have hunits : (signedUnits negative (units / unitsPerOne)).natAbs * unitsPerOne = units := by
      have habs : ∀ whole : ℕ, (signedUnits negative whole).natAbs = whole := by
        intro whole
        cases negative <;> simp [signedUnits]
      rw [habs, Nat.div_mul_cancel hdvd]
    have hfits : Fits ((signedUnits negative (units / unitsPerOne)).natAbs * unitsPerOne) := by
      rw [hunits]
      exact fits
    have hofInt : ofInt (truncate (finite negative units fits)) = _ :=
      nearest_of_fits (decide (signedUnits negative (units / unitsPerOne) < 0)) hfits
    refine ⟨by rw [hofInt, isFinite], ?_⟩
    rw [value_of_isInteger h, hofInt, value, truncate]
    rw [div_eq_iff unitsPerOne_pos_rat.ne']
    generalize signedUnits negative (units / unitsPerOne) = n
    generalize unitsPerOne = one
    by_cases hneg : n < 0
    · rw [decide_eq_true hneg, signedUnits, if_pos rfl]
      push_cast
      rw [abs_of_neg (by exact_mod_cast hneg)]
      ring
    · rw [decide_eq_false hneg, signedUnits, if_neg Bool.false_ne_true]
      push_cast
      rw [abs_of_nonneg (by exact_mod_cast not_lt.mp hneg)]
  | nan => cases h
  | infinite negative => cases h

end Double

/-! ## What is stored -/

namespace Json

/-- The number that a value is, if it is a finite one. -/
def amount? : Json → Option ℚ
  | int n => some n
  | float x => if x.isFinite then some x.value else none
  | _ => none

/-- The same value, or an equal one. -/
def Same (v w : Json) : Prop := v = w ∨ v.equals w = true

end Json

open Double

theorem amount_wholeIfIntegral {x : Double} (h : x.isFinite = true) :
    (wholeIfIntegral x).amount? = some x.value := by
  rw [wholeIfIntegral]
  split
  · rename_i hwhole
    rw [value_of_isInteger hwhole]
    rfl
  · exact if_pos h

/-- A whole number is stored as one, and nothing else is. -/
theorem wholeIfIntegral_eq_int {x : Double} (h : x.isFinite = true) :
    (∃ n, wholeIfIntegral x = .int n) ↔ ∃ n : ℤ, x.value = n := by
  rw [wholeIfIntegral]
  split
  · rename_i hwhole
    exact iff_of_true ⟨_, rfl⟩ ⟨_, value_of_isInteger hwhole⟩
  · rename_i hwhole
    refine iff_of_false (fun ⟨_, hint⟩ => nomatch hint) fun ⟨n, hn⟩ => ?_
    exact hwhole (isInteger_of_value h hn)

theorem wholeIfIntegral_congr {x y : Double} (hx : x.isFinite = true) (hy : y.isFinite = true)
    (h : x.value = y.value) : wholeIfIntegral x = wholeIfIntegral y := by
  by_cases hwhole : x.isInteger = true
  · have hwhole' : y.isInteger = true :=
      isInteger_of_value hy (h ▸ value_of_isInteger hwhole)
    have hsame : (x.truncate : ℚ) = y.truncate := by
      rw [← value_of_isInteger hwhole, ← value_of_isInteger hwhole', h]
    rw [wholeIfIntegral, wholeIfIntegral, if_pos hwhole, if_pos hwhole', Int.cast_inj.mp hsame]
  · have hne : x.value ≠ 0 := by
      intro hzero
      exact hwhole (isInteger_of_value hx (hzero.trans Int.cast_zero.symm))
    rw [eq_of_value hx hy h hne]

/-- What is stored reads as the number that it is. -/
theorem toDouble_wholeIfIntegral {x : Double} (h : x.isFinite = true) :
    ∃ y, (wholeIfIntegral x).toDouble = .ok y ∧ y.isFinite = true ∧ y.value = x.value := by
  rw [wholeIfIntegral]
  split
  · rename_i hwhole
    obtain ⟨hfinite, hvalue⟩ := ofInt_truncate hwhole
    refine ⟨ofInt x.truncate, ?_, hfinite, hvalue⟩
    rw [Json.toDouble, if_pos hfinite]
  · exact ⟨x, rfl, h, rfl⟩

theorem eqvInt_of_value {x : Double} (hx : x.isFinite = true) {n : ℤ} (h : x.value = n) :
    x.eqvInt n = true := by
  cases x with
  | finite negative units fits =>
    rw [value, div_eq_iff unitsPerOne_pos_rat.ne'] at h
    exact decide_eq_true (by exact_mod_cast h)
  | nan => cases hx
  | infinite negative => cases hx

/-- A double equals what is stored for the same number. -/
theorem same_wholeIfIntegral {x y : Double} (hx : x.isFinite = true) (hy : y.isFinite = true)
    (h : y.value = x.value) : (Json.float y).Same (wholeIfIntegral x) := by
  refine .inr ?_
  rw [wholeIfIntegral]
  split
  · rename_i hwhole
    exact eqvInt_of_value hy (h.trans (value_of_isInteger hwhole))
  · exact (eqv_iff_value hy hx).mpr h

namespace Control

variable {label : String} {low high : Double} {v w : Json}

theorem boundedValue_eq_ok (h : boundedValue label (low, high) v = .ok w) :
    ∃ x, v.toDouble = .ok x ∧ w = wholeIfIntegral (clamp low high x) := by
  rw [boundedValue] at h
  split at h
  · rename_i x hx
    cases h
    exact ⟨x, hx, rfl⟩
  · cases h
  · cases h

/-- A number within the bounds is taken as it was stored. -/
theorem boundedValue_of_within (label : String) (hlow : low.isFinite = true)
    (hhigh : high.isFinite = true) {x : Double} (hx : x.isFinite = true)
    (hle : low.value ≤ x.value) (hle' : x.value ≤ high.value) :
    boundedValue label (low, high) (wholeIfIntegral x) = .ok (wholeIfIntegral x) := by
  obtain ⟨y, hread, hy, hvalue⟩ := toDouble_wholeIfIntegral hx
  obtain ⟨hclamp, hclamped⟩ := clamp_finite hlow hhigh y
  have hsame : (clamp low high y).value = x.value := by
    rw [hclamped, nearestWithin_of_finite _ _ hy, hvalue, max_eq_right hle, min_eq_right hle',
      min_eq_right hle']
  simp only [boundedValue, hread]
  rw [wholeIfIntegral_congr hclamp hx hsame]

/-- What is stored for a value with a number: the number within the bounds that is nearest to it,
whole if that is whole, and given again it is stored as it is. -/
theorem boundedValue_spec (hlow : low.isFinite = true) (hhigh : high.isFinite = true)
    (hle : low.le high = true) (h : boundedValue label (low, high) v = .ok w) :
    ∃ x q, v.toDouble = .ok x ∧ w.amount? = some q ∧ q = nearestWithin low.value high.value x ∧
      low.value ≤ q ∧ q ≤ high.value ∧ ((∃ n, w = .int n) ↔ ∃ n : ℤ, q = n) ∧
      boundedValue label (low, high) w = .ok w := by
  obtain ⟨x, hread, rfl⟩ := boundedValue_eq_ok h
  obtain ⟨hclamp, hclamped⟩ := clamp_finite hlow hhigh x
  obtain ⟨hbelow, habove⟩ := nearestWithin_le ((le_iff hlow hhigh).mp hle) x
  rw [min_eq_right habove] at hclamped
  refine ⟨x, _, hread, amount_wholeIfIntegral hclamp, hclamped, hclamped ▸ hbelow,
    hclamped ▸ habove, wholeIfIntegral_eq_int hclamp, ?_⟩
  exact boundedValue_of_within label hlow hhigh hclamp (hclamped ▸ hbelow) (hclamped ▸ habove)

end Control
end DecisionBoard
