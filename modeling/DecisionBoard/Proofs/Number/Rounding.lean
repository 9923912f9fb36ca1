import DecisionBoard.Proofs.Verdict
import Mathlib.Algebra.Order.Field.Basic
import Mathlib.Algebra.Order.Ring.Abs
import Mathlib.Data.Rat.Cast.Order
import Mathlib.Tactic.FieldSimp
import Mathlib.Tactic.Linarith

/-!
# Rounding to whole numbers, and whole numbers that are doubles

A finite double is a rational number (`value`), and rounding it takes the whole number nearest to it
(`nearestWhole_roundHalfEven`). A whole number becomes a double with 53 significant bits: it stays
finite as long as it is less than half a step beyond the largest double (`isFinite_ofInt_iff`), and
one that is rounded on the way stays large (`large_ofInt`).
-/

namespace DecisionBoard
namespace Double

/-! ## Rounding to whole numbers -/

/-- The number that a finite double is; zero for NaN and the infinities. -/
def value : Double → ℚ
  | finite negative units _ => (signedUnits negative units : ℚ) / unitsPerOne
  | _ => 0

/-- A whole number is nearest to a number; of two that are, it is the even one. -/
structure NearestWhole (q : ℚ) (n : ℤ) : Prop where
  near : |q - n| ≤ 1 / 2
  even : |q - n| = 1 / 2 → Even n

theorem NearestWhole.neg {q : ℚ} {n : ℤ} (h : NearestWhole q n) : NearestWhole (-q) (-n) := by
  have hdist : |(-q) - ((-n : ℤ) : ℚ)| = |q - n| := by
    rw [← abs_neg]
    push_cast
    congr 1
    ring
  exact ⟨hdist.trans_le h.near, fun hhalf => (h.even (hdist.symm.trans hhalf)).neg⟩

theorem nearestWhole_divHalfEven (num : ℕ) {den : ℕ} (hden : 0 < den) :
    NearestWhole ((num : ℚ) / den) (divHalfEven num den : ℕ) := by
  have hden' : (0 : ℚ) < den := by exact_mod_cast hden
  have hsplit : (num : ℚ) = den * (num / den : ℕ) + (num % den : ℕ) := by
    exact_mod_cast (Nat.div_add_mod num den).symm
  have hquotient : (num : ℚ) / den = (num / den : ℕ) + (num % den : ℕ) / (den : ℚ) := by
    rw [hsplit]
    field_simp
  have hlt : num % den < den := Nat.mod_lt num hden
  rw [hquotient, divHalfEven]
  generalize num / den = q
  generalize num % den = r at hlt
  rcases Nat.lt_trichotomy (2 * r) den with hless | hhalf | hmore
  · have hr : (r : ℚ) / den < 1 / 2 := by
      rw [div_lt_div_iff₀ hden' two_pos]
      exact_mod_cast (by omega : r * 2 < 1 * den)
    have hr₀ : (0 : ℚ) ≤ r / den := by positivity
    rw [if_pos hless]
    constructor <;> simp only [Int.cast_natCast, add_sub_cancel_left, abs_of_nonneg hr₀]
    · exact hr.le
    · exact fun h => absurd h hr.ne
  · have hr : (r : ℚ) / den = 1 / 2 := by
      rw [div_eq_div_iff hden'.ne' two_ne_zero]
      exact_mod_cast (by omega : r * 2 = 1 * den)
    rw [if_neg (by omega), if_neg (by omega), hr]
    have heven : Even ((q + q % 2 : ℕ) : ℤ) := by
      rw [Int.even_coe_nat, Nat.even_iff]
      omega
    refine ⟨?_, fun _ => heven⟩
    rcases Nat.mod_two_eq_zero_or_one q with h | h <;> rw [h] <;> push_cast
    · rw [show (q : ℚ) + 1 / 2 - (q + 0) = 1 / 2 by ring, abs_of_pos one_half_pos]
    · rw [show (q : ℚ) + 1 / 2 - (q + 1) = -(1 / 2) by ring, abs_neg, abs_of_pos one_half_pos]
  · have hr : 1 / 2 < (r : ℚ) / den := by
      rw [div_lt_div_iff₀ two_pos hden']
      exact_mod_cast (by omega : 1 * den < r * 2)
    have hr₁ : (r : ℚ) / den < 1 := by
      rw [div_lt_one hden']
      exact_mod_cast hlt
    rw [if_neg (by omega), if_pos hmore]
    push_cast
    have hdist : |(q : ℚ) + r / den - (q + 1)| = 1 - r / den := by
      rw [show (q : ℚ) + r / den - (q + 1) = -(1 - r / den) by ring, abs_neg,
        abs_of_pos (by linarith)]
    constructor <;> push_cast <;> rw [hdist]
    · linarith
    · exact fun h => absurd h (by linarith)

/-- Rounding takes the nearest whole number, of two the even one. -/
theorem nearestWhole_roundHalfEven {x : Double} (h : x.isFinite = true) :
    NearestWhole x.value x.roundHalfEven := by
  cases x with
  | finite negative units fits =>
    have hone : 0 < unitsPerOne := unitsPerOne_pos_nat
    have hnear := nearestWhole_divHalfEven units hone
    simp only [value, roundHalfEven]
    cases negative with
    | false => exact hnear
    | true =>
      have hneg := hnear.neg
      rw [← neg_div] at hneg
      simpa only [signedUnits, if_true, Int.cast_neg, Int.cast_natCast] using hneg
  | nan => cases h
  | infinite negative => cases h

/-! ## Whole numbers as doubles -/

/-- One step of the last of 53 bits: a count of units is rounded to whole steps, of which there are
at least `2 ^ 52` and at most `2 ^ 53`, or it is held as it is. -/
theorem roundSignificant_one (m : ℕ) :
    (m < 2 ^ 53 ∧ roundSignificant m 1 = m) ∨
    ∃ k, 2 ^ (k + 53) ≤ m ∧ m < 2 ^ (k + 54) ∧
      roundSignificant m 1 = divHalfEven m (2 ^ (k + 1)) * 2 ^ (k + 1) := by
  have hround : roundSignificant m 1 = divHalfEven m (2 ^ (m.log2 - 52)) * 2 ^ (m.log2 - 52) := by
    simp only [roundSignificant, Nat.div_one, Nat.one_mul, Nat.pow_eq]
  rcases Nat.lt_or_ge m (2 ^ 53) with hsmall | hlarge
  · refine .inl ⟨hsmall, ?_⟩
    have hlog : m.log2 ≤ 52 := by
      rcases Nat.eq_zero_or_pos m with rfl | hpos
      · decide
      · exact Nat.le_of_lt_succ ((Nat.log2_lt hpos.ne').mpr hsmall)
    rw [hround, Nat.sub_eq_zero_of_le hlog, Nat.pow_zero, Nat.mul_one,
      divHalfEven_of_dvd Nat.one_pos (Nat.one_dvd m), Nat.div_one]
  · have hne : m ≠ 0 := by
      have hpow : 0 < 2 ^ 53 := Nat.two_pow_pos 53
      omega
    have hlog : 53 ≤ m.log2 := (Nat.le_log2 hne).mpr hlarge
    obtain ⟨k, hk⟩ : ∃ k, m.log2 = k + 53 := ⟨m.log2 - 53, by omega⟩
    refine .inr ⟨k, hk ▸ Nat.log2_self_le hne, ?_, ?_⟩
    · have hlt := (Nat.log2_lt hne).mp (Nat.lt_succ_self m.log2)
      rwa [hk] at hlt
    · rw [hround, hk, show k + 53 - 52 = k + 1 by omega]

theorem div_le_divHalfEven (num den : ℕ) : num / den ≤ divHalfEven num den := by
  simp only [divHalfEven]
  split
  · exact Nat.le_refl _
  · split <;> omega

theorem divHalfEven_le (num den : ℕ) : divHalfEven num den ≤ num / den + 1 := by
  simp only [divHalfEven]
  split
  · exact Nat.le_succ _
  · split <;> omega

/-- A quotient is rounded below an even number if it is less than half below it; the half itself
goes up to the even number. -/
theorem divHalfEven_lt_iff {num den n : ℕ} (hden : 0 < den) :
    divHalfEven num den < 2 * (n + 1) ↔ 2 * num + den < 2 * (2 * (n + 1)) * den := by
  have hsplit : den * (num / den) + num % den = num := Nat.div_add_mod num den
  have hlt : num % den < den := Nat.mod_lt num hden
  simp only [divHalfEven]
  generalize num / den = q at hsplit ⊢
  generalize num % den = r at hsplit hlt ⊢
  subst hsplit
  -- one multiple of the denominator more or less decides, so both sides are compared by quotients
  have hmul : ∀ {a b : ℕ}, a ≤ b → den * a ≤ den * b := fun h => Nat.mul_le_mul_left den h
  have htop : 2 * (2 * (n + 1)) * den = 2 * (den * (2 * (n + 1))) := by ring
  have hlast : den * (2 * (n + 1)) = den * (2 * n + 1) + den := by ring
  rw [htop]
  rcases Nat.lt_trichotomy q (2 * n + 1) with hq | rfl | hq
  · have hle : den * (q + 1) ≤ den * (2 * n + 1) := hmul hq
    have hsucc : den * (q + 1) = den * q + den := by ring
    split
    · omega
    · split <;> omega
  · split
    · omega
    · split <;> omega
  · have hle : den * (2 * n + 1 + 1) ≤ den * q := hmul hq
    have hsucc : den * (2 * n + 1 + 1) = den * (2 * n + 1) + den := by ring
    split
    · omega
    · split <;> omega

/-- Up to `2 ^ 53` steps of any size make a double, if that is below the overflow limit. -/
theorem fits_steps {q e : ℕ} (hq : q ≤ 2 ^ 53) (hlimit : q * 2 ^ e < unitsLimit) :
    Fits (q * 2 ^ e) := by
  refine ⟨hlimit, Nat.mod_eq_zero_of_dvd ?_⟩
  rcases Nat.lt_or_eq_of_le hq with hlt | rfl
  · exact two_pow_dvd_shifted hlt e
  · have hhalf : 2 ^ 53 * 2 ^ e = 2 ^ 52 * 2 ^ (e + 1) := by
      rw [← Nat.pow_add, ← Nat.pow_add, show 53 + e = 52 + (e + 1) by omega]
    rw [hhalf]
    exact two_pow_dvd_shifted (Nat.pow_lt_pow_right (by decide) (by decide)) (e + 1)

theorem divHalfEven_le_of_le {num den k : ℕ} (hden : 0 < den) (h : num ≤ k * den) :
    divHalfEven num den ≤ k := by
  have hquotient : num / den ≤ k := Nat.div_le_of_le_mul (by rwa [Nat.mul_comm] at h)
  rcases Nat.lt_or_eq_of_le hquotient with hlt | heq
  · exact (divHalfEven_le num den).trans hlt
  · have hexact : num = k * den :=
      h.antisymm ((Nat.le_div_iff_mul_le hden).mp heq.ge)
    rw [hexact, divHalfEven_of_dvd hden (Nat.dvd_mul_left den k), Nat.mul_div_cancel k hden]

theorem le_divHalfEven_of_le {num den k : ℕ} (hden : 0 < den) (h : k * den ≤ num) :
    k ≤ divHalfEven num den :=
  ((Nat.le_div_iff_mul_le hden).mpr h).trans (div_le_divHalfEven num den)

/-- A quotient is not rounded beyond a number of 53 significant bits that is above it. -/
theorem roundSignificant_le {num den x : ℕ} (hden : 0 < den) (hx : 2 ^ (x.log2 - 52) ∣ x)
    (h : num ≤ x * den) : roundSignificant num den ≤ x := by
  have hquotient : num / den ≤ x := Nat.div_le_of_le_mul (by rwa [Nat.mul_comm] at h)
  have hlog : (num / den).log2 ≤ x.log2 := by
    rcases Nat.eq_zero_or_pos (num / den) with hzero | hpos
    · rw [hzero]
      exact Nat.zero_le _
    · exact (Nat.le_log2 (hpos.trans_le hquotient).ne').mpr
        ((Nat.log2_self_le hpos.ne').trans hquotient)
  have hstep : 0 < 2 ^ ((num / den).log2 - 52) := Nat.two_pow_pos _
  obtain ⟨k, hk⟩ := (Nat.pow_dvd_pow 2 (Nat.sub_le_sub_right hlog 52)).trans hx
  rw [roundSignificant, Nat.pow_eq]
  generalize (num / den).log2 - 52 = e at hstep hk ⊢
  have hle : divHalfEven num (den * 2 ^ e) ≤ k := by
    refine divHalfEven_le_of_le (Nat.mul_pos hden hstep) (h.trans_eq ?_)
    rw [hk]
    ring
  calc divHalfEven num (den * 2 ^ e) * 2 ^ e ≤ k * 2 ^ e := Nat.mul_le_mul_right _ hle
    _ = x := by rw [hk, Nat.mul_comm]

/-- Nor below one that is below it. -/
theorem le_roundSignificant {num den x : ℕ} (hden : 0 < den) (hx : 2 ^ (x.log2 - 52) ∣ x)
    (h : x * den ≤ num) : x ≤ roundSignificant num den := by
  have hstep : 0 < 2 ^ ((num / den).log2 - 52) := Nat.two_pow_pos _
  rw [roundSignificant, Nat.pow_eq]
  by_cases hdvd : 2 ^ ((num / den).log2 - 52) ∣ x
  · obtain ⟨k, hk⟩ := hdvd
    generalize (num / den).log2 - 52 = e at hstep hk ⊢
    have hle : k ≤ divHalfEven num (den * 2 ^ e) := by
      refine le_divHalfEven_of_le (Nat.mul_pos hden hstep) (Eq.trans_le ?_ h)
      rw [hk]
      ring
    calc x = k * 2 ^ e := by rw [hk, Nat.mul_comm]
      _ ≤ divHalfEven num (den * 2 ^ e) * 2 ^ e := Nat.mul_le_mul_right _ hle
  · -- the last bit of the quotient is worth more than that of `x`, so `x` has fewer bits
    have hlog : x.log2 - 52 < (num / den).log2 - 52 := by
      by_contra hle
      exact hdvd ((Nat.pow_dvd_pow 2 (Nat.not_lt.mp hle)).trans hx)
    have hne : num / den ≠ 0 := by
      intro hzero
      rw [hzero] at hlog
      exact Nat.not_lt_zero _ hlog
    obtain ⟨e, he⟩ : ∃ e, (num / den).log2 = 52 + e := ⟨(num / den).log2 - 52, by omega⟩
    have htop : 2 ^ 52 * 2 ^ e ≤ num / den := by
      rw [← Nat.pow_add, ← he]
      exact Nat.log2_self_le hne
    have hbelow : x ≤ 2 ^ 52 * 2 ^ e := by
      rw [← Nat.pow_add, ← he]
      exact Nat.lt_log2_self.le.trans (Nat.pow_le_pow_right (by decide) (by omega))
    rw [he, Nat.add_sub_cancel_left] at hstep ⊢
    have hle : 2 ^ 52 ≤ divHalfEven num (den * 2 ^ e) := by
      refine le_divHalfEven_of_le (Nat.mul_pos hden hstep) ?_
      calc 2 ^ 52 * (den * 2 ^ e) = 2 ^ 52 * 2 ^ e * den := by ring
        _ ≤ num := (Nat.le_div_iff_mul_le hden).mp htop
    exact hbelow.trans (Nat.mul_le_mul_right _ hle)

/-- What is rounded has no more than 53 significant bits. -/
theorem fits_roundSignificant {num den : ℕ}
    (hlimit : roundSignificant num den < unitsLimit) : Fits (roundSignificant num den) := by
  rw [roundSignificant, Nat.pow_eq] at hlimit ⊢
  refine fits_steps ((divHalfEven_le _ _).trans ?_) hlimit
  have hstep : 0 < 2 ^ ((num / den).log2 - 52) := Nat.two_pow_pos _
  rw [← Nat.div_div_eq_div_mul]
  refine Nat.succ_le_of_lt ((Nat.div_lt_iff_lt_mul hstep).mpr ?_)
  calc num / den < 2 ^ ((num / den).log2 + 1) := Nat.lt_log2_self
    _ ≤ 2 ^ (53 + ((num / den).log2 - 52)) := Nat.pow_le_pow_right (by decide) (by omega)
    _ = 2 ^ 53 * 2 ^ ((num / den).log2 - 52) := Nat.pow_add 2 53 _

/-- Rounding to a double keeps to one side of every double. -/
theorem nearest_le {num den x : ℕ} (hden : 0 < den) (hx : Fits x) (h : num ≤ x * den)
    (negative : Bool) : ∃ (q : ℕ) (hq : Fits q), q ≤ x ∧
      nearest negative num den = .finite negative q hq := by
  have hle := roundSignificant_le hden (Nat.dvd_of_mod_eq_zero hx.2) h
  exact ⟨_, fits_roundSignificant (hle.trans_lt hx.1), hle, ofUnits_of_fits _⟩

/-- Rounding does not take a count of units below a power of two. -/
theorem two_pow_le_roundSignificant {m e : ℕ} (h : 2 ^ (e + 53) ≤ m) :
    2 ^ (e + 53) ≤ roundSignificant m 1 := by
  refine le_roundSignificant Nat.one_pos ?_ (by rwa [Nat.mul_one])
  rw [Nat.log2_two_pow]
  exact Nat.pow_dvd_pow 2 (Nat.sub_le _ _)

theorem two_pow_steps (k : ℕ) : 2 ^ 53 * 2 ^ (k + 1) = 2 ^ (k + 54) := by
  rw [← Nat.pow_add, show 53 + (k + 1) = k + 54 by omega]

theorem divHalfEven_steps_le {m k : ℕ} (h : m < 2 ^ (k + 54)) :
    divHalfEven m (2 ^ (k + 1)) ≤ 2 ^ 53 := by
  refine (divHalfEven_le m _).trans (Nat.div_lt_of_lt_mul ?_)
  rw [Nat.mul_comm, two_pow_steps]
  exact h

/-- The last step below the overflow limit: what is rounded up to `2 ^ 53` steps is beyond it. -/
theorem fits_lastStep_iff {m l : ℕ} (hlimit : unitsLimit = 2 ^ (l + 54)) (h : m < 2 ^ (l + 54)) :
    Fits (divHalfEven m (2 ^ (l + 1)) * 2 ^ (l + 1)) ↔ m + 2 ^ l < unitsLimit := by
  have hstep : 0 < 2 ^ (l + 1) := Nat.two_pow_pos (l + 1)
  have hsteps := two_pow_steps l
  have hlt : divHalfEven m (2 ^ (l + 1)) < 2 * (2 ^ 52 - 1 + 1) ↔
      2 * m + 2 ^ (l + 1) < 2 * (2 * (2 ^ 52 - 1 + 1)) * 2 ^ (l + 1) :=
    divHalfEven_lt_iff hstep
  have heven : 2 * (2 ^ 52 - 1 + 1) = 2 ^ 53 := by decide
  have htwice : 2 ^ (l + 1) = 2 * 2 ^ l := by rw [Nat.pow_succ, Nat.mul_comm]
  rw [heven, Nat.mul_assoc, hsteps] at hlt
  rw [hlimit, ← hsteps]
  constructor
  · intro hfits
    have hmul : divHalfEven m (2 ^ (l + 1)) * 2 ^ (l + 1) < 2 ^ 53 * 2 ^ (l + 1) := by
      rw [hsteps, ← hlimit]
      exact hfits.1
    have hsum := hlt.mp (Nat.lt_of_mul_lt_mul_right hmul)
    rw [hsteps]
    omega
  · intro hsum
    rw [hsteps] at hsum
    have hq := hlt.mpr (by omega)
    refine fits_steps (divHalfEven_steps_le h) ?_
    rw [hlimit, ← hsteps]
    exact Nat.mul_lt_mul_of_pos_right hq hstep

/-- A count of units is rounded to a double if it is less than half a step, `2 ^ l` units, below the
overflow limit. -/
theorem fits_roundSignificant_iff {l : ℕ} (hlimit : unitsLimit = 2 ^ (l + 54)) (m : ℕ) :
    Fits (roundSignificant m 1) ↔ m + 2 ^ l < unitsLimit := by
  have hpow : ∀ {a b : ℕ}, a ≤ b → 2 ^ a ≤ 2 ^ b := fun h => Nat.pow_le_pow_right (by decide) h
  have htop : 2 ^ (l + 54) = 2 ^ (l + 53) + 2 ^ (l + 53) := by rw [Nat.pow_succ 2 (l + 53)]; omega
  have hhalf : 2 ^ l ≤ 2 ^ (l + 53) := hpow (Nat.le_add_right l 53)
  rcases roundSignificant_one m with ⟨hsmall, hround⟩ | ⟨k, hlow, hhigh, hround⟩
  · have hle : 2 ^ 53 ≤ 2 ^ (l + 53) := hpow (Nat.le_add_left 53 l)
    rw [hround]
    have hfits : Fits (m * 2 ^ 0) := fits_steps hsmall.le (by rw [hlimit]; omega)
    rw [Nat.pow_zero, Nat.mul_one] at hfits
    exact iff_of_true hfits (by omega)
  · have hle := divHalfEven_steps_le hhigh
    rw [hround]
    rcases Nat.lt_trichotomy k l with hk | rfl | hk
    · have hbelow : 2 ^ (k + 54) ≤ 2 ^ (l + 53) := hpow (by omega)
      have hupper := Nat.mul_le_mul_right (2 ^ (k + 1)) hle
      have hpos : 0 < 2 ^ (l + 53) := Nat.two_pow_pos _
      rw [two_pow_steps] at hupper
      exact iff_of_true (fits_steps hle (by omega)) (by omega)
    · exact fits_lastStep_iff hlimit hhigh
    · have habove : unitsLimit ≤ 2 ^ (k + 53) := by
        rw [hlimit]
        exact hpow (by omega)
      have hbeyond := two_pow_le_roundSignificant hlow
      rw [hround] at hbeyond
      refine iff_of_false (fun hfits => ?_) (fun hsum => ?_)
      · exact (habove.trans hbeyond).not_gt hfits.1
      · exact (habove.trans hlow).not_gt ((Nat.le_add_right m _).trans_lt hsum)

theorem isFinite_ofUnits (negative : Bool) (units : ℕ) :
    (ofUnits negative units).isFinite = true ↔ Fits units := by
  by_cases h : Fits units
  · rw [ofUnits_of_fits h]
    exact iff_of_true rfl h
  · rw [ofUnits, dif_neg h]
    exact iff_of_false Bool.false_ne_true h

theorem exists_unitsPerOne : ∃ e, unitsPerOne = 2 ^ e := by
  unfold unitsPerOne
  generalize 1074 = e
  exact ⟨e, rfl⟩

/-- Half of the last step below the overflow limit. -/
theorem exists_halfStep : ∃ l, unitsLimit = 2 ^ (l + 54) ∧ 2 ^ l = 2 ^ 970 * unitsPerOne := by
  unfold unitsLimit unitsPerOne
  rw [show 2098 = 970 + 1074 + 54 from rfl]
  -- the powers themselves are never to be computed
  generalize 1074 = e
  generalize 970 = half
  exact ⟨half + e, rfl, Nat.pow_add 2 half e⟩

/-- A whole number has a finite double if it is less than half of the last step, which is
`2 ^ 971`, away from the finite doubles. -/
theorem isFinite_ofInt_iff (n : ℤ) :
    (ofInt n).isFinite = true ↔ n.natAbs + 2 ^ 970 < 2 ^ 1024 := by
  obtain ⟨l, hlimit, hhalf⟩ := exists_halfStep
  have hpos : 0 < unitsPerOne := unitsPerOne_pos_nat
  rw [ofInt, nearest, isFinite_ofUnits, fits_roundSignificant_iff hlimit, hhalf,
    Decimal.unitsLimit_eq, ← Nat.add_mul]
  exact Nat.mul_lt_mul_right hpos

/-- A whole number beyond 53 bits is rounded to one that is beyond them too. -/
theorem large_ofInt {n : ℤ} (hlarge : 2 ^ 53 ≤ n.natAbs) (hfinite : (ofInt n).isFinite = true) :
    ∃ r, 2 ^ 53 ≤ r ∧ (ofInt n).roundHalfEven = signedUnits (n < 0) r := by
  obtain ⟨e, hone⟩ := exists_unitsPerOne
  have hpos : 0 < unitsPerOne := unitsPerOne_pos_nat
  have hunits : 2 ^ (e + 53) = 2 ^ 53 * unitsPerOne := by rw [hone, Nat.pow_add, Nat.mul_comm]
  have hle : 2 ^ (e + 53) ≤ n.natAbs * unitsPerOne := by
    rw [hunits]
    exact Nat.mul_le_mul_right _ hlarge
  rw [ofInt, nearest, isFinite_ofUnits] at hfinite
  refine ⟨divHalfEven (roundSignificant (n.natAbs * unitsPerOne) 1) unitsPerOne, ?_, ?_⟩
  · refine le_trans ?_ (div_le_divHalfEven _ _)
    rw [Nat.le_div_iff_mul_le hpos, ← hunits]
    exact two_pow_le_roundSignificant hle
  · rw [ofInt, nearest, ofUnits_of_fits hfinite, roundHalfEven]

end Double
end DecisionBoard
