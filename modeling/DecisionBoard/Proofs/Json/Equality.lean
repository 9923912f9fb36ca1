import DecisionBoard.Json.Equality

/-!
# Equality of JSON values is transitive

`equals` is no equivalence: NaN differs from itself. It is transitive all the same, because a
number that equals another is not NaN, and because doubles are compared with whole numbers by
their exact value and not by rounding either side.
-/

namespace DecisionBoard

/-! ## Numbers -/

namespace Double

theorem unitsPerOne_pos : (0 : Int) < unitsPerOne := by
  unfold unitsPerOne
  -- the power itself is never to be computed
  generalize 1074 = k
  exact Int.natCast_pos.mpr (Nat.two_pow_pos k)

theorem unitsPerOne_pos_nat : 0 < unitsPerOne := Int.natCast_pos.mp unitsPerOne_pos

theorem eqv_iff {x y : Double} : x.eqv y = true ↔ ∃ a, x.rank? = some a ∧ y.rank? = some a := by
  unfold eqv
  split
  · rename_i a b ha hb
    simp [ha, hb, eq_comm]
  · rename_i h
    constructor
    · intro hf; cases hf
    · rintro ⟨a, hx, hy⟩
      exact (h a a hx hy).elim

theorem eqv_trans {x y z : Double} (hxy : x.eqv y = true) (hyz : y.eqv z = true) :
    x.eqv z = true := by
  obtain ⟨a, hx, hy⟩ := eqv_iff.mp hxy
  obtain ⟨b, hy', hz⟩ := eqv_iff.mp hyz
  have hab : a = b := Option.some.inj (hy.symm.trans hy')
  exact eqv_iff.mpr ⟨a, hx, hab ▸ hz⟩

/-- The count of units of a finite double stays inside the range that the infinities bound. -/
theorem signedUnits_ne_limit {negative negative' : Bool} {units : Nat} (h : Fits units) :
    signedUnits negative units ≠ signedUnits negative' unitsLimit := by
  have hlt : units < unitsLimit := h.1
  -- only the bound matters, and the limit must stay a variable
  generalize unitsLimit = limit at hlt ⊢
  cases negative <;> cases negative' <;> simp only [signedUnits, Bool.false_eq_true, if_true,
    if_false] <;> omega

/-- A double that equals a finite one is finite and has the same rank. -/
theorem eqv_finite {negative : Bool} {units : Nat} {fits : Fits units} {y : Double}
    (h : (finite negative units fits).eqv y = true) :
    ∃ negative' units' fits', y = finite negative' units' fits' ∧
      signedUnits negative units = signedUnits negative' units' := by
  obtain ⟨a, hx, hy⟩ := eqv_iff.mp h
  have ha : signedUnits negative units = a := Option.some.inj hx
  cases y with
  | nan => cases hy
  | infinite negative' =>
    have hb : signedUnits negative' unitsLimit = a := Option.some.inj hy
    exact (signedUnits_ne_limit fits (ha.trans hb.symm)).elim
  | finite negative' units' fits' =>
    exact ⟨negative', units', fits', rfl, ha.trans (Option.some.inj hy).symm⟩

theorem eqvInt_iff {x : Double} {n : Int} : x.eqvInt n = true ↔
    ∃ negative units fits, x = finite negative units fits ∧
      signedUnits negative units = n * unitsPerOne := by
  cases x with
  | nan =>
    constructor
    · intro h
      cases h
    · rintro ⟨_, _, _, hx, -⟩
      cases hx
  | infinite negative =>
    constructor
    · intro h
      cases h
    · rintro ⟨_, _, _, hx, -⟩
      cases hx
  | finite negative units fits =>
    simp only [eqvInt, decide_eq_true_eq]
    constructor
    · intro h
      exact ⟨negative, units, fits, rfl, h⟩
    · rintro ⟨negative', units', fits', hx, h⟩
      cases hx
      exact h

theorem eqvInt_of_eqv {x y : Double} {n : Int} (hx : x.eqvInt n = true) (hxy : x.eqv y = true) :
    y.eqvInt n = true := by
  obtain ⟨negative, units, fits, rfl, hn⟩ := eqvInt_iff.mp hx
  obtain ⟨negative', units', fits', rfl, hu⟩ := eqv_finite hxy
  exact eqvInt_iff.mpr ⟨negative', units', fits', rfl, hu ▸ hn⟩

theorem eqv_comm {x y : Double} (h : x.eqv y = true) : y.eqv x = true := by
  obtain ⟨a, hx, hy⟩ := eqv_iff.mp h
  exact eqv_iff.mpr ⟨a, hy, hx⟩

/-- Two doubles of one whole value are equal. -/
theorem eqv_of_eqvInt {x y : Double} {n : Int} (hx : x.eqvInt n = true) (hy : y.eqvInt n = true) :
    x.eqv y = true := by
  obtain ⟨negative, units, fits, rfl, hn⟩ := eqvInt_iff.mp hx
  obtain ⟨negative', units', fits', rfl, hn'⟩ := eqvInt_iff.mp hy
  exact eqv_iff.mpr ⟨n * unitsPerOne, congrArg some hn, congrArg some hn'⟩

/-- A double has at most one whole value. -/
theorem eqvInt_unique {x : Double} {m n : Int} (hm : x.eqvInt m = true) (hn : x.eqvInt n = true) :
    m = n := by
  obtain ⟨negative, units, fits, rfl, hm'⟩ := eqvInt_iff.mp hm
  obtain ⟨negative', units', fits', hx, hn'⟩ := eqvInt_iff.mp hn
  cases hx
  exact Int.eq_of_mul_eq_mul_right (Int.ne_of_gt unitsPerOne_pos) (hm'.symm.trans hn')

end Double

namespace Quantity

theorem agrees_real_iff {x y : Double} :
    (real x).agrees (real y) = true ↔ x.eqv y = true ∨ x = .nan ∧ y = .nan := by
  cases x <;> cases y <;> simp [agrees, Double.isNaN]

theorem agrees_symm {p q : Quantity} (h : p.agrees q = true) : q.agrees p = true := by
  cases p with
  | whole m =>
    cases q with
    | whole n =>
      have hmn : m = n := by simpa [agrees] using h
      simp [agrees, hmn]
    | real y => exact h
  | real x =>
    cases q with
    | whole n => exact h
    | real y =>
      rcases agrees_real_iff.mp h with hxy | ⟨hx, hy⟩
      · exact agrees_real_iff.mpr (.inl (Double.eqv_comm hxy))
      · exact agrees_real_iff.mpr (.inr ⟨hy, hx⟩)

/-- Agreement is transitive: whole numbers stand between doubles by their exact value. -/
theorem agrees_trans {p q r : Quantity} (hpq : p.agrees q = true) (hqr : q.agrees r = true) :
    p.agrees r = true := by
  cases p with
  | whole m =>
    cases q with
    | whole n =>
      have hmn : m = n := by simpa [agrees] using hpq
      exact hmn ▸ hqr
    | real x =>
      have hx : x.eqvInt m = true := hpq
      cases r with
      | whole k =>
        have hk : x.eqvInt k = true := hqr
        simpa [agrees] using Double.eqvInt_unique hx hk
      | real y =>
        rcases agrees_real_iff.mp hqr with hxy | ⟨rfl, -⟩
        · exact Double.eqvInt_of_eqv hx hxy
        · cases hx
  | real x =>
    cases q with
    | whole n =>
      have hx : x.eqvInt n = true := hpq
      cases r with
      | whole k =>
        have hnk : n = k := by simpa [agrees] using hqr
        exact hnk ▸ hx
      | real y =>
        have hy : y.eqvInt n = true := hqr
        exact agrees_real_iff.mpr (.inl (Double.eqv_of_eqvInt hx hy))
    | real y =>
      cases r with
      | whole k =>
        have hy : y.eqvInt k = true := hqr
        rcases agrees_real_iff.mp hpq with hxy | ⟨-, rfl⟩
        · exact Double.eqvInt_of_eqv hy (Double.eqv_comm hxy)
        · cases hy
      | real z =>
        rcases agrees_real_iff.mp hpq with hxy | ⟨rfl, rfl⟩
        · rcases agrees_real_iff.mp hqr with hyz | ⟨rfl, -⟩
          · exact agrees_real_iff.mpr (.inl (Double.eqv_trans hxy hyz))
          · obtain ⟨a, -, hy⟩ := Double.eqv_iff.mp hxy
            cases hy
        · exact hqr

end Quantity

/-! ## Values -/

namespace Json

/-- Values that are compared as numbers agree when their numbers do. -/
theorem agrees_of_quantity {v w : Json} {p : Quantity} (hv : v.quantity? = some p) :
    agrees v w = true ↔ ∃ q, w.quantity? = some q ∧ p.agrees q = true := by
  have hvw : agrees v w = (w.quantity?.map p.agrees).getD false := by
    cases v <;> simp only [quantity?, Option.some.injEq, reduceCtorEq] at hv <;>
      subst hv <;> cases w <;> rfl
  rw [hvw]
  cases hw : w.quantity? <;> simp

theorem agreesFields_get? {gs hs : Fields} {k : String} {w : Json}
    (h : agreesFields gs hs = true) (hw : Entries.get? gs k = some w) :
    ∃ u, Entries.get? hs k = some u ∧ agrees w u = true := by
  induction gs with
  | nil => cases hw
  | cons g gs ih =>
    obtain ⟨k', v⟩ := g
    simp only [agreesFields] at h
    split at h
    · rename_i u hu
      simp only [Bool.and_eq_true] at h
      by_cases hk : k = k'
      · subst hk
        have hv : v = w := by simpa [Entries.get?] using hw
        exact ⟨u, hu, hv ▸ h.1⟩
      · exact ih h.2 (by simpa [Entries.get?, hk] using hw)
    · cases h

mutual

theorem agrees_trans {u v w : Json} (huv : agrees u v = true) (hvw : agrees v w = true) :
    agrees u w = true := by
  -- the recursion is on the first value; the others have its shape, or there is nothing to show
  match u with
  | .null =>
    cases v with
    | null => exact hvw
    | _ => simp [agrees, isNull] at huv
  | .str s =>
    cases v with
    | str t =>
      have hst : t = s := by simpa [agrees, string?] using huv
      exact hst ▸ hvw
    | _ => simp [agrees, string?] at huv
  | .bool _ | .int _ | .float _ =>
    obtain ⟨q, hq, hpq⟩ := (agrees_of_quantity rfl).mp huv
    obtain ⟨r, hr, hqr⟩ := (agrees_of_quantity hq).mp hvw
    exact (agrees_of_quantity rfl).mpr ⟨r, hr, Quantity.agrees_trans hpq hqr⟩
  | .arr xs =>
    cases v with
    | arr ys =>
      cases w with
      | arr zs =>
        simp only [agrees] at huv hvw ⊢
        exact agreesList_trans huv hvw
      | _ => simp [agrees] at hvw
    | _ => simp [agrees] at huv
  | .obj fs =>
    cases v with
    | obj gs =>
      cases w with
      | obj hs =>
        simp only [agrees, Bool.and_eq_true, beq_iff_eq] at huv hvw ⊢
        exact ⟨huv.1.trans hvw.1, agreesFields_trans huv.2 hvw.2⟩
      | _ => simp [agrees] at hvw
    | _ => simp [agrees] at huv

theorem agreesList_trans {xs ys zs : List Json} (hxy : agreesList xs ys = true)
    (hyz : agreesList ys zs = true) : agreesList xs zs = true := by
  match xs with
  | [] =>
    cases ys with
    | nil => exact hyz
    | cons => simp [agreesList] at hxy
  | x :: xs =>
    cases ys with
    | nil => simp [agreesList] at hxy
    | cons y ys =>
      cases zs with
      | nil => simp [agreesList] at hyz
      | cons z zs =>
        simp only [agreesList, Bool.and_eq_true] at hxy hyz ⊢
        exact ⟨agrees_trans hxy.1 hyz.1, agreesList_trans hxy.2 hyz.2⟩

theorem agreesFields_trans {fs gs hs : List (String × Json)} (hfg : agreesFields fs gs = true)
    (hgh : agreesFields gs hs = true) : agreesFields fs hs = true := by
  match fs with
  | [] => rfl
  | (k, v) :: fs =>
    simp only [agreesFields] at hfg ⊢
    split at hfg
    · rename_i w hw
      simp only [Bool.and_eq_true] at hfg
      -- objects are compared by looking names up, so the value found in the second leads on
      obtain ⟨u, hu, hwu⟩ := agreesFields_get? hgh hw
      simp only [hu, Bool.and_eq_true]
      exact ⟨agrees_trans hfg.1 hwu, agreesFields_trans hfg.2 hgh⟩
    · cases hfg

end

theorem agrees_of_equals {v w : Json} (h : equals v w = true) : agrees v w = true := by
  cases v <;> cases w <;> simp_all [equals, agrees, quantity?, Quantity.agrees]

/-- Agreeing values are equal unless the first is the number NaN. -/
theorem equals_of_agrees {v w : Json} (hv : ∀ x, v = .float x → x ≠ .nan)
    (h : agrees v w = true) : equals v w = true := by
  cases v with
  | float x =>
    cases w with
    | float y =>
      rcases Quantity.agrees_real_iff.mp (by simpa [agrees, quantity?] using h) with h | ⟨hx, -⟩
      · exact h
      · exact (hv x rfl hx).elim
    | _ => exact h
  | _ => exact h

/-- What equals something is not the number NaN. -/
theorem ne_nan_of_equals {v w : Json} (h : equals v w = true) (x : Double) (hv : v = .float x) :
    x ≠ .nan := by
  subst hv
  rintro rfl
  cases w <;> simp_all [equals, agrees, quantity?, Quantity.agrees, Double.eqv, Double.rank?,
    Double.eqvInt]

theorem equals_trans {u v w : Json} (huv : equals u v = true) (hvw : equals v w = true) :
    equals u w = true :=
  equals_of_agrees (ne_nan_of_equals huv)
    (agrees_trans (agrees_of_equals huv) (agrees_of_equals hvw))

end Json
end DecisionBoard
