import DecisionBoard.Proofs.Number.Bounds

/-!
# Parts of a whole

Two quantities and their sum. If they are not of opposite signs, each is a part of the sum, and its
quotient by the sum lies between zero and one, however large or small they are: each step is
rounded, but never beyond a double that the exact result keeps to. Sums beyond the doubles leave
nothing of a part, and infinite quantities have no quotient at all.
-/

namespace DecisionBoard
namespace Double

/-! ## Operations on finite doubles -/

section
variable {s t : Bool} {u v : ℕ} (hu : Fits u) (hv : Fits v)

theorem finite_mul : finite s u hu * finite t v hv = nearest (s != t) (u * v) unitsPerOne := by
  change mul (finite s u hu) (finite t v hv) = _
  rw [mul]

theorem finite_div (h : v ≠ 0) :
    finite s u hu / finite t v hv = nearest (s != t) (u * unitsPerOne) v := by
  change div (finite s u hu) (finite t v hv) = _
  rw [div, if_neg h]

theorem finite_add : finite s u hu + finite t v hv =
    if signedUnits s u + signedUnits t v = 0 then zero (s && t) else
      nearest (signedUnits s u + signedUnits t v < 0)
        (signedUnits s u + signedUnits t v).natAbs 1 := by
  change add (finite s u hu) (finite t v hv) = _
  rw [add]

end

theorem ofInt_natCast {n : ℕ} (hn : n < 2 ^ 53) :
    ofInt n = finite false (n * unitsPerOne) (fits_whole hn) := by
  rw [ofInt, Int.natAbs_natCast, decide_eq_false (Int.not_lt.mpr (Int.natCast_nonneg n))]
  exact nearest_of_fits false (fits_whole hn)

theorem zero_def : (0 : Double) = finite false (0 * unitsPerOne) (fits_whole (by decide)) :=
  ofInt_natCast (n := 0) (by decide)

theorem one_def : (1 : Double) = finite false (1 * unitsPerOne) (fits_whole (by decide)) :=
  ofInt_natCast (n := 1) (by decide)

/-! ## Operations on other doubles -/

theorem nan_div (y : Double) : nan / y = nan := by
  change div nan y = nan
  rw [div]

theorem div_nan (x : Double) : x / nan = nan := by
  change div x nan = nan
  cases x <;> rw [div] <;> simp

theorem nan_add (y : Double) : nan + y = nan := by
  change add nan y = nan
  rw [add]

theorem nan_mul (y : Double) : nan * y = nan := by
  change mul nan y = nan
  rw [mul]

theorem finite_div_infinite {s t : Bool} {u : ℕ} (hu : Fits u) :
    finite s u hu / infinite t = finite (s != t) 0 fits_zero := by
  change div (finite s u hu) (infinite t) = _
  rw [div, zero_eq]

theorem infinite_div_infinite (s t : Bool) : infinite s / infinite t = nan := by
  change div (infinite s) (infinite t) = nan
  rw [div]

/-- What is added to an infinite quantity changes nothing, or leaves nothing that counts. -/
theorem infinite_add (s : Bool) (y : Double) :
    infinite s + y = infinite s ∨ infinite s + y = nan := by
  change add (infinite s) y = _ ∨ add (infinite s) y = _
  cases y with
  | nan => exact .inr (by rw [add]; simp)
  | infinite t =>
    rw [add]
    split
    · exact .inl rfl
    · exact .inr rfl
  | finite t v hv => exact .inl (by rw [add] <;> simp)

/-! ## Parts -/

/-- A double is a part of another one: of its sign, or nothing, and no larger. -/
inductive PartOf : Double → Double → Prop
  | intro {s t : Bool} {u v : ℕ} {hu : Fits u} {hv : Fits v} (hle : u ≤ v) (hpos : 0 < v)
      (hsign : u = 0 ∨ s = t) : PartOf (finite s u hu) (finite t v hv)

/-- So many times a double of at most one is that many at most, rounded. -/
theorem round_mul_ofInt (negative : Bool) {q : ℕ} (hq : Fits q) (hle : q ≤ unitsPerOne) {n : ℕ}
    (hn : n < 2 ^ 53) : ∃ m ≤ n, (q = 0 → m = 0) ∧
      (finite negative q hq * ofInt n).round = .ok (signedUnits negative m) := by
  have hone : 0 < unitsPerOne := unitsPerOne_pos_nat
  have hmul : finite negative q hq * ofInt n
      = nearest negative (q * (n * unitsPerOne)) unitsPerOne := by
    rw [ofInt_natCast hn, finite_mul, Bool.bne_false]
  -- a bound that is itself a double bounds the product, and then its nearest whole number
  have hbound : ∀ {k : ℕ}, Fits (k * unitsPerOne) → q * n ≤ k * unitsPerOne →
      ∃ m ≤ k, (finite negative q hq * ofInt n).round = .ok (signedUnits negative m) := by
    intro k hfits hk
    have hproduct : q * (n * unitsPerOne) ≤ k * unitsPerOne * unitsPerOne := by
      rw [← Nat.mul_assoc]
      exact Nat.mul_le_mul_right _ hk
    obtain ⟨r, hr, hrle, hnearest⟩ := nearest_le hone hfits hproduct negative
    rw [hmul, hnearest]
    exact ⟨divHalfEven r unitsPerOne, divHalfEven_le_of_le hone hrle, rfl⟩
  rcases Nat.eq_zero_or_pos q with rfl | hpos
  · obtain ⟨m, hm, hround⟩ := hbound (k := 0) (by rw [Nat.zero_mul]; exact fits_zero) (by simp)
    exact ⟨m, hm.trans (Nat.zero_le n), fun _ => Nat.le_zero.mp hm, hround⟩
  · obtain ⟨m, hm, hround⟩ := hbound (fits_whole hn)
      ((Nat.mul_comm q n).trans_le (Nat.mul_le_mul_left n hle))
    exact ⟨m, hm, fun hzero => (hpos.ne' hzero).elim, hround⟩

/-- So many times the quotient of a part and its whole is from zero to that many, rounded. -/
theorem round_part {x total : Double} (h : x.PartOf total) {n : ℕ} (hn : n < 2 ^ 53) :
    ∃ m : ℕ, m ≤ n ∧ (x / total * ofInt n).round = .ok (m : ℤ) := by
  obtain ⟨hle, hpos, hsign⟩ := h
  rename_i s t u v hu hv
  rw [finite_div hu hv hpos.ne']
  rcases hsign with rfl | rfl
  · have hzero : 0 * unitsPerOne ≤ 0 * v := (Nat.zero_mul _).trans_le (Nat.zero_le _)
    obtain ⟨q, hq, hqle, hnearest⟩ := nearest_le hpos fits_zero hzero (s != t)
    obtain ⟨m, -, hnone, hround⟩ := round_mul_ofInt _ hq (hqle.trans (Nat.zero_le _)) hn
    rw [hnearest, hround, hnone (Nat.le_zero.mp hqle)]
    exact ⟨0, Nat.zero_le n, by cases s != t <;> rfl⟩
  · have hone : Fits unitsPerOne := by
      have hwhole := fits_whole (m := 1) (by decide)
      rwa [Nat.one_mul] at hwhole
    obtain ⟨q, hq, hqle, hnearest⟩ := nearest_le hpos hone
      ((Nat.mul_comm u _).trans_le (Nat.mul_le_mul_left _ hle)) (s != s)
    obtain ⟨m, hm, -, hround⟩ := round_mul_ofInt _ hq hqle hn
    rw [hnearest, hround, bne_self_eq_false]
    exact ⟨m, hm, rfl⟩

/-! ## Signs -/

theorem rank?_zero : (0 : Double).rank? = some 0 := by
  rw [zero_def, rank?, Nat.zero_mul]
  rfl

section
variable {s : Bool} {u : ℕ} (hu : Fits u)

theorem finite_lt_zero : (finite s u hu).lt 0 = (s && decide (0 < u)) := by
  rw [lt, rank?_zero, rank?]
  cases s <;> simp [signedUnits]

theorem zero_lt_finite : lt 0 (finite s u hu) = (!s && decide (0 < u)) := by
  rw [lt, rank?_zero, rank?]
  cases s <;> simp [signedUnits]

end

theorem nearest_not_below (num den : ℕ) : (nearest false num den).lt 0 = false := by
  rw [nearest, ofUnits]
  split
  · rw [finite_lt_zero, Bool.false_and]
  · rw [lt, rank?_zero, rank?]
    exact decide_eq_false (Int.not_lt.mpr (Int.natCast_nonneg unitsLimit))

/-- A sum of quantities that are not below zero is not below zero. -/
theorem add_not_below {x y : Double} (hx : x.lt 0 = false) (hy : y.lt 0 = false) :
    (x + y).lt 0 = false := by
  cases x with
  | nan =>
    rw [nan_add]
    rfl
  | infinite s =>
    rcases infinite_add s y with h | h
    · rw [h, hx]
    · rw [h]
      rfl
  | finite s u hu =>
    cases y with
    | nan => rfl
    | infinite t => exact hy
    | finite t v hv =>
      rw [lt, rank?_zero, rank?, decide_eq_false_iff_not, Int.not_lt] at hx hy
      have hsum : ¬ signedUnits s u + signedUnits t v < 0 := Int.not_lt.mpr (Int.add_nonneg hx hy)
      rw [finite_add, decide_eq_false hsum]
      split
      · rw [zero_eq, finite_lt_zero, decide_eq_false (Nat.lt_irrefl 0), Bool.and_false]
      · exact nearest_not_below _ _

/-- Of opposite signs. -/
def Opposed (x y : Double) : Prop :=
  (x.lt 0 = true ∧ lt 0 y = true) ∨ (lt 0 x = true ∧ y.lt 0 = true)

/-- Finite doubles that are not of opposite signs have the same sign, or one of them is zero. -/
theorem not_opposed_finite {s t : Bool} {u v : ℕ} (hu : Fits u) (hv : Fits v)
    (h : ¬ Opposed (finite s u hu) (finite t v hv)) :
    u = 0 ∨ v = 0 ∨ s = t := by
  rw [Opposed, finite_lt_zero, finite_lt_zero, zero_lt_finite, zero_lt_finite] at h
  cases s <;> cases t <;> simp at h ⊢ <;> omega

/-! ## Wholes -/

/-- The whole of two quantities, one if they are nothing at all. -/
def whole (left right : Double) : Double := if (left + right).isZero then 1 else left + right

/-- Of two quantities that are not of opposite signs each is a part of the whole, unless that is
beyond the doubles. -/
theorem partOf_whole {s t : Bool} {u v : ℕ} (hu : Fits u) (hv : Fits v)
    (h : ¬ Opposed (finite s u hu) (finite t v hv)) :
    (finite s u hu).PartOf (whole (finite s u hu) (finite t v hv)) ∨
      ∃ negative, whole (finite s u hu) (finite t v hv) = infinite negative := by
  have hone : 0 < unitsPerOne := unitsPerOne_pos_nat
  have hsign := not_opposed_finite hu hv h
  -- so the counts of units add up
  have hsum : (signedUnits s u + signedUnits t v).natAbs = u + v := by
    rcases hsign with rfl | rfl | rfl
    · cases s <;> cases t <;> simp [signedUnits]
    · cases s <;> cases t <;> simp [signedUnits]
    · cases s <;> simp [signedUnits] <;> omega
  rw [whole, finite_add, hsum]
  by_cases hzero : signedUnits s u + signedUnits t v = 0
  · have hnone : u = 0 := by omega
    rw [if_pos hzero, zero_eq, isZero, if_pos (decide_eq_true rfl), one_def]
    refine .inl ⟨?_, by rwa [Nat.one_mul], .inl hnone⟩
    rw [hnone]
    exact Nat.zero_le _
  · have hpos : 0 < u + v := by omega
    rw [if_neg hzero, nearest]
    have hpart : u ≤ roundSignificant (u + v) 1 :=
      le_roundSignificant Nat.one_pos (Nat.dvd_of_mod_eq_zero hu.2) (by omega)
    have hsome : 1 ≤ roundSignificant (u + v) 1 :=
      le_roundSignificant Nat.one_pos (Nat.one_dvd 1) (by omega)
    generalize roundSignificant (u + v) 1 = w at hpart hsome ⊢
    by_cases hw : Fits w
    · rw [ofUnits_of_fits hw, isZero, if_neg (by simp; omega)]
      refine .inl ⟨hpart, hsome, ?_⟩
      rcases hsign with hnone | rfl | rfl
      · exact .inl hnone
      · cases s <;> cases t <;> simp [signedUnits] at hzero ⊢ <;> omega
      · cases s <;> simp [signedUnits] at hzero ⊢ <;> omega
    · rw [ofUnits, dif_neg hw]
      exact .inr ⟨_, rfl⟩

theorem whole_infinite (s : Bool) (right : Double) :
    whole (infinite s) right = infinite s ∨ whole (infinite s) right = nan := by
  unfold whole
  rcases infinite_add s right with h | h <;> rw [h]
  · exact .inl rfl
  · exact .inr rfl

/-- A quantity by the whole of it and another one of no opposite sign. -/
theorem div_whole {left right : Double} (h : ¬ Opposed left right) :
    left.PartOf (whole left right) ∨
      (∃ negative, left / whole left right = finite negative 0 fits_zero) ∨
        left / whole left right = nan := by
  cases left with
  | nan => exact .inr (.inr (nan_div _))
  | infinite s =>
    rcases whole_infinite s right with hwhole | hwhole
    · exact .inr (.inr (by rw [hwhole, infinite_div_infinite]))
    · exact .inr (.inr (by rw [hwhole, div_nan]))
  | finite s u hu =>
    cases right with
    | finite t v hv =>
      rcases partOf_whole hu hv h with hpart | ⟨negative, hwhole⟩
      · exact .inl hpart
      · exact .inr (.inl ⟨s != negative, by rw [hwhole, finite_div_infinite]⟩)
    | nan =>
      have hwhole : whole (finite s u hu) nan = nan := rfl
      exact .inr (.inr (by rw [hwhole, div_nan]))
    | infinite t =>
      have hwhole : whole (finite s u hu) (infinite t) = infinite t := rfl
      exact .inr (.inl ⟨s != t, by rw [hwhole, finite_div_infinite]⟩)

end Double
end DecisionBoard
