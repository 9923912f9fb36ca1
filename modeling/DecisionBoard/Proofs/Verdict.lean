import DecisionBoard.Proofs.Json.Equality
import DecisionBoard.Proofs.Number.ReadBack
import DecisionBoard.Verdict

/-!
# Verdicts are taken as they were written

Taking a verdict rounds its confidence, keeps it within bounds and turns its fields into text. A
verdict that was taken before and written out again goes through all that unchanged.
-/

namespace DecisionBoard

namespace Double

theorem two_pow_dvd_shifted {m : Nat} (h : m < 2 ^ 53) (e : Nat) :
    2 ^ ((m * 2 ^ e).log2 - 52) ∣ m * 2 ^ e := by
  rcases Nat.eq_zero_or_pos m with rfl | hm
  · simp
  · have hpos : m * 2 ^ e ≠ 0 := (Nat.mul_pos hm (Nat.two_pow_pos e)).ne'
    have hlt : m * 2 ^ e < 2 ^ (53 + e) := by
      rw [Nat.pow_add]
      exact Nat.mul_lt_mul_of_pos_right h (Nat.two_pow_pos e)
    have hlog : (m * 2 ^ e).log2 < 53 + e := (Nat.log2_lt hpos).mpr hlt
    exact Dvd.dvd.mul_left (Nat.pow_dvd_pow 2 (by omega)) m

theorem shifted_lt {m : Nat} (h : m < 2 ^ 53) {e limit : Nat} (hlimit : 53 + e ≤ limit) :
    m * 2 ^ e < 2 ^ limit :=
  calc m * 2 ^ e < 2 ^ 53 * 2 ^ e := Nat.mul_lt_mul_of_pos_right h (Nat.two_pow_pos e)
    _ = 2 ^ (53 + e) := (Nat.pow_add 2 53 e).symm
    _ ≤ 2 ^ limit := Nat.pow_le_pow_right (by decide) hlimit

/-- Whole numbers of up to 53 bits are doubles. -/
theorem fits_whole {m : Nat} (h : m < 2 ^ 53) : Fits (m * unitsPerOne) := by
  have hlimit : 53 + 1074 ≤ 2098 := by decide
  unfold Fits unitsPerOne unitsLimit
  -- the powers themselves are never to be computed
  generalize 1074 = e at hlimit ⊢
  generalize 2098 = limit at hlimit ⊢
  exact ⟨shifted_lt h hlimit, Nat.mod_eq_zero_of_dvd (two_pow_dvd_shifted h e)⟩

theorem ofInt_whole {n : Int} (h : n.natAbs < 2 ^ 53) :
    ofInt n = .finite (n < 0) (n.natAbs * unitsPerOne) (fits_whole h) :=
  nearest_of_fits _ (fits_whole h)

theorem signedUnits_natAbs (n : Int) : signedUnits (n < 0) n.natAbs = n := by
  by_cases hneg : n < 0
  · rw [decide_eq_true hneg]
    show -(n.natAbs : Int) = n
    omega
  · rw [decide_eq_false hneg]
    show (n.natAbs : Int) = n
    omega

theorem roundHalfEven_ofInt {n : Int} (h : n.natAbs < 2 ^ 53) : (ofInt n).roundHalfEven = n := by
  have hone : 0 < unitsPerOne := unitsPerOne_pos_nat
  rw [ofInt_whole h, roundHalfEven, divHalfEven_of_dvd hone (Nat.dvd_mul_left _ _),
    Nat.mul_div_cancel _ hone, signedUnits_natAbs]

theorem round_ofInt {n : Int} (h : n.natAbs < 2 ^ 53) : (ofInt n).round = .ok n := by
  have hround := roundHalfEven_ofInt h
  rw [ofInt_whole h] at hround ⊢
  exact congrArg Except.ok hround

end Double

namespace Verdict

theorem wholeConfidence_of_round {stated : Json} {x : Double} {n : Int}
    (hdouble : stated.toDouble = .ok x) (hround : x.round = .ok n) :
    wholeConfidence stated = .ok n := by
  have hwhole : stated.toDouble >>= Double.round = .ok n := by
    rw [hdouble]
    exact hround
  simp only [wholeConfidence, hwhole]

theorem wholeConfidence_int {n : Int} (h : n.natAbs < 2 ^ 53) :
    wholeConfidence (.int n) = .ok n := by
  have hfinite : (Double.ofInt n).isFinite = true := by rw [Double.ofInt_whole h, Double.isFinite]
  have hdouble : (Json.int n).toDouble = .ok (Double.ofInt n) := by
    rw [Json.toDouble]
    -- the double itself is never to be computed
    generalize Double.ofInt n = x at hfinite
    exact if_pos hfinite
  exact wholeConfidence_of_round hdouble (Double.round_ofInt h)

theorem clampConfidence_of_bounds {n : Int} (hlow : 1 ≤ n) (hhigh : n ≤ 100) :
    clampConfidence n = n := by
  unfold clampConfidence
  omega

theorem map_text_steps (steps : List String) :
    (Verdict.steps (.arr (steps.map .str))).map Json.text = steps := by
  cases steps with
  | nil => rfl
  | cons step steps => simp [Verdict.steps, Json.truthy, Json.text, Function.comp_def]

/-- A verdict with a confidence within bounds is read back from its fields. -/
theorem ofFields_toFields {v : Verdict} (hlow : 1 ≤ v.confidence) (hhigh : v.confidence ≤ 100) :
    ofFields v.toFields = .ok v := by
  have hconfidence : v.toFields.getOr "confidence" (.int defaultConfidence)
      = .int v.confidence := rfl
  have hsteps : v.toFields.get "next_steps" = .arr (v.nextSteps.map .str) := rfl
  rw [ofFields, hconfidence, hsteps, wholeConfidence_int (by omega)]
  simp only [bind, Except.bind, pure, Except.pure, clampConfidence_of_bounds hlow hhigh,
    map_text_steps]
  rfl

end Verdict
end DecisionBoard
