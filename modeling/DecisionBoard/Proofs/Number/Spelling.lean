import DecisionBoard.Proofs.Number.ReadBack

/-!
# Spellings of doubles

The text of a double is digits, digits behind a point, and a power of ten, of which it has all or
some. It denotes the decimal that its parts denote, and that decimal reads back to the double.
-/

namespace DecisionBoard

namespace Decimal

open Numeral

/-- The parts of a number's text. -/
structure Spelling where
  whole : List Char
  fraction : List Char
  power : Option Int

namespace Spelling

/-- The point with the digits behind it, if there are any. -/
def fractionText (s : Spelling) : List Char :=
  if s.fraction = [] then [] else '.' :: s.fraction

/-- The power of ten, if there is one. -/
def powerText (s : Spelling) : List Char :=
  match s.power with
  | none => []
  | some e => (exponentText e).toList

def text (s : Spelling) : List Char := s.whole ++ (s.fractionText ++ s.powerText)

/-- The number that is spelled. -/
def decimal (s : Spelling) (negative : Bool) : Decimal :=
  ⟨negative, digitsValue (s.whole ++ s.fraction), s.power.getD 0 - s.fraction.length⟩

/-- A spelling that is read as a double: it has a fraction or a power. -/
structure Proper (s : Spelling) : Prop where
  whole : IsWhole s.whole
  fraction : AreDigits s.fraction
  pointed : s.fraction ≠ [] ∨ s.power ≠ none

end Spelling

/-! ## Exponents -/

/-- An exponent is its sign and the digits of its size. -/
theorem exponentText_spec (e : Int) :
    ∃ ds, AreDigits ds ∧ ds ≠ [] ∧ digitsValue ds = e.natAbs ∧
      (exponentText e).toList = 'e' :: (if e < 0 then '-' else '+') :: ds := by
  have hdigits : (toString e.natAbs).toList = Nat.toDigits 10 e.natAbs := Nat.toList_repr
  have hsign : (if e < 0 then "e-" else "e+" : String).toList
      = ['e', if e < 0 then '-' else '+'] := by split <;> rfl
  by_cases hshort : (toString e.natAbs).length < 2
  · refine ⟨'0' :: Nat.toDigits 10 e.natAbs, ?_, List.cons_ne_nil _ _, ?_, ?_⟩
    · exact (areDigits_zeros 1).append (areDigits_toDigits _)
    · have hzero := digitsValue_zeros_append 1 (Nat.toDigits 10 e.natAbs)
      rw [digitsValue_toDigits] at hzero
      exact hzero
    · simp only [exponentText, if_pos hshort, String.toList_append, hdigits, hsign]
      rfl
  · refine ⟨Nat.toDigits 10 e.natAbs, areDigits_toDigits _, Nat.toDigits_ne_nil,
      digitsValue_toDigits _, ?_⟩
    simp only [exponentText, if_neg hshort, String.toList_append, hdigits, hsign]
    rfl

/-! ## The layout of round-trip text -/

theorem toList_zeros (n : Nat) : (zeros n).toList = List.replicate n '0' := String.toList_ofList

/-- A spelling stands for a decimal: its text is the one that the layout writes, and its number is
the same up to zeros at the end. -/
structure Spelling.Spells (s : Spelling) (coefficient : Nat) (exponent : Int) : Prop where
  proper : s.Proper
  text : (Layout.shortest.write coefficient exponent).toList = s.text
  value : ∀ negative, toDouble (s.decimal negative) = toDouble ⟨negative, coefficient, exponent⟩

/-- The power of ten of the leading digit. -/
def lead (c : Nat) (e : Int) : Int := e + (Nat.toDigits 10 c).length - 1

variable {c : Nat} {e : Int}

/-- Below one: the digits stand behind the point, after some zeros. -/
theorem spells_below_one (hlow : -4 ≤ lead c e) (hneg : lead c e < 0) :
    ∃ s : Spelling, s.Spells c e := by
  have hplain : Layout.shortest.plainFrom ≤ lead c e ∧ lead c e < Layout.shortest.plainBelow :=
    ⟨hlow, Int.lt_trans hneg (by decide)⟩
  have hwrite : Layout.shortest.write c e
      = "0." ++ zeros ((-lead c e).toNat - 1) ++ String.ofList (Nat.toDigits 10 c) :=
    (if_pos hplain).trans (if_pos hneg)
  have hlead : lead c e = e + (Nat.toDigits 10 c).length - 1 := rfl
  generalize hk : (-lead c e).toNat - 1 = k at hwrite
  have hne : List.replicate k '0' ++ Nat.toDigits 10 c ≠ [] :=
    List.append_ne_nil_of_right_ne_nil _ Nat.toDigits_ne_nil
  refine ⟨⟨['0'], List.replicate k '0' ++ Nat.toDigits 10 c, none⟩, ⟨?_, ?_, Or.inl hne⟩, ?_, ?_⟩
  · exact isWhole_zero
  · exact (areDigits_zeros k).append (areDigits_toDigits c)
  · simp only [hwrite, Spelling.text, Spelling.fractionText, Spelling.powerText, if_neg hne,
      String.toList_append, toList_zeros, String.toList_ofList, List.append_nil]
    rfl
  · intro negative
    have hvalue : digitsValue (['0'] ++ (List.replicate k '0' ++ Nat.toDigits 10 c)) = c := by
      have hzeros := digitsValue_zeros_append (k + 1) (Nat.toDigits 10 c)
      rw [digitsValue_toDigits] at hzeros
      exact hzeros
    have hexp : (0 : Int) - (List.replicate k '0' ++ Nat.toDigits 10 c).length = e := by
      rw [List.length_append, List.length_replicate]
      omega
    simp only [Spelling.decimal, hvalue, Option.getD_none, hexp]

/-- A whole number: zeros fill the places up to the point, and one stands behind it. -/
theorem spells_whole (hc : c ≠ 0 ∨ e = 0) (hlow : 0 ≤ lead c e) (hhigh : lead c e < 16)
    (hwhole : (Nat.toDigits 10 c).length ≤ (lead c e).toNat + 1) :
    ∃ s : Spelling, s.Spells c e := by
  have hplain : Layout.shortest.plainFrom ≤ lead c e ∧ lead c e < Layout.shortest.plainBelow :=
    ⟨Int.le_trans (by decide) hlow, hhigh⟩
  have hneg : ¬ lead c e < 0 := Int.not_lt.mpr hlow
  have hwrite : Layout.shortest.write c e = String.ofList (Nat.toDigits 10 c)
      ++ zeros ((lead c e).toNat + 1 - (Nat.toDigits 10 c).length) ++ ".0" :=
    ((if_pos hplain).trans (if_neg hneg)).trans (if_pos hwhole)
  have hpos : 0 < (Nat.toDigits 10 c).length := Nat.length_toDigits_pos
  have hlead : lead c e = e + (Nat.toDigits 10 c).length - 1 := rfl
  have hzeros : (lead c e).toNat + 1 - (Nat.toDigits 10 c).length = e.toNat := by omega
  have hexp : 0 ≤ e := by omega
  rw [hzeros] at hwrite
  refine ⟨⟨Nat.toDigits 10 c ++ List.replicate e.toNat '0', ['0'], none⟩,
    ⟨?_, areDigits_zeros 1, Or.inl (List.cons_ne_nil _ _)⟩, ?_, ?_⟩
  · rcases hc with hc | rfl
    · have happend : Nat.toDigits 10 c ++ List.replicate e.toNat '0' ++ []
          = Nat.toDigits 10 c ++ List.replicate e.toNat '0' := List.append_nil _
      refine isWhole_of_toDigits hc ?_ ?_ happend
      · exact (areDigits_toDigits c).append (areDigits_zeros _)
      · exact List.append_ne_nil_of_left_ne_nil Nat.toDigits_ne_nil _
    · rw [Int.toNat_zero, List.replicate_zero, List.append_nil]
      exact isWhole_toDigits c
  · simp only [hwrite, Spelling.text, Spelling.fractionText, Spelling.powerText,
      String.toList_append, toList_zeros, String.toList_ofList, List.append_nil]
    rfl
  · intro negative
    have hvalue : digitsValue ((Nat.toDigits 10 c ++ List.replicate e.toNat '0') ++ ['0'])
        = c * 10 ^ (e.toNat + 1) := by
      have happend := digitsValue_append_zeros (Nat.toDigits 10 c) (e.toNat + 1)
      rw [digitsValue_toDigits, List.replicate_succ', ← List.append_assoc] at happend
      exact happend
    have hshift : (-1 : Int) + ((e.toNat + 1 : Nat) : Int) = e := by omega
    have hdecimal : Spelling.decimal ⟨Nat.toDigits 10 c ++ List.replicate e.toNat '0', ['0'], none⟩
        negative = ⟨negative, c * 10 ^ (e.toNat + 1), -1⟩ := by
      simp only [Spelling.decimal, hvalue]
      rfl
    rw [hdecimal]
    by_cases hzero : c = 0
    · rw [hzero, Nat.zero_mul, toDouble, if_pos rfl, toDouble, if_pos rfl]
    · rw [toDouble_mul_pow negative hzero (by decide) (by omega), hshift]

/-- A number with a point among its digits. -/
theorem spells_pointed (hlow : 0 ≤ lead c e) (hhigh : lead c e < 16)
    (hpoint : (lead c e).toNat + 1 < (Nat.toDigits 10 c).length) :
    ∃ s : Spelling, s.Spells c e := by
  have hplain : Layout.shortest.plainFrom ≤ lead c e ∧ lead c e < Layout.shortest.plainBelow :=
    ⟨Int.le_trans (by decide) hlow, hhigh⟩
  have hneg : ¬ lead c e < 0 := Int.not_lt.mpr hlow
  have hwhole : ¬ (Nat.toDigits 10 c).length ≤ (lead c e).toNat + 1 := Nat.not_le.mpr hpoint
  have hwrite : Layout.shortest.write c e
      = String.ofList ((Nat.toDigits 10 c).take ((lead c e).toNat + 1)) ++ "."
        ++ String.ofList ((Nat.toDigits 10 c).drop ((lead c e).toNat + 1)) :=
    ((if_pos hplain).trans (if_neg hneg)).trans (if_neg hwhole)
  have hlead : lead c e = e + (Nat.toDigits 10 c).length - 1 := rfl
  have hc : c ≠ 0 := by
    rintro rfl
    rw [Nat.toDigits_zero] at hpoint
    exact absurd hpoint (by simp)
  generalize hk : (lead c e).toNat + 1 = k at hwrite hpoint
  have hdrop : (Nat.toDigits 10 c).drop k ≠ [] := by
    rw [ne_eq, List.drop_eq_nil_iff]
    omega
  have htake : (Nat.toDigits 10 c).take k ≠ [] := by
    rw [ne_eq, List.take_eq_nil_iff]
    rintro (hnil | hnil)
    · omega
    · exact Nat.toDigits_ne_nil hnil
  refine ⟨⟨(Nat.toDigits 10 c).take k, (Nat.toDigits 10 c).drop k, none⟩,
    ⟨?_, (areDigits_toDigits c).drop k, Or.inl hdrop⟩, ?_, ?_⟩
  · have happend : (Nat.toDigits 10 c).take k ++ (Nat.toDigits 10 c).drop k
        = Nat.toDigits 10 c ++ [] := by rw [List.take_append_drop, List.append_nil]
    exact isWhole_of_toDigits hc ((areDigits_toDigits c).take k) htake happend
  · simp only [hwrite, Spelling.text, Spelling.fractionText, Spelling.powerText, if_neg hdrop,
      String.toList_append, String.toList_ofList, List.append_nil, List.append_assoc]
    rfl
  · intro negative
    have hexp : (0 : Int) - ((Nat.toDigits 10 c).drop k).length = e := by
      rw [List.length_drop]
      omega
    simp only [Spelling.decimal, List.take_append_drop, digitsValue_toDigits, Option.getD_none,
      hexp]

/-- A number far from one: one digit in front of the point, and a power of ten. -/
theorem spells_power (hfar : ¬ (-4 ≤ lead c e ∧ lead c e < 16)) (hc : c ≠ 0) :
    ∃ s : Spelling, s.Spells c e := by
  have hfar' : ¬ (Layout.shortest.plainFrom ≤ lead c e ∧ lead c e < Layout.shortest.plainBelow) :=
    hfar
  have hlead : lead c e = e + (Nat.toDigits 10 c).length - 1 := rfl
  cases hdigits : Nat.toDigits 10 c with
  | nil => exact (Nat.toDigits_ne_nil hdigits).elim
  | cons d rest =>
    have hall := areDigits_toDigits c
    have hvalue := digitsValue_toDigits c
    rw [hdigits] at hlead hall hvalue
    have hone : AreDigits [d] := hall.take 1
    have happend : [d] ++ rest = Nat.toDigits 10 c ++ [] := by
      rw [hdigits, List.append_nil]
      rfl
    have hproper : IsWhole [d] := isWhole_of_toDigits hc hone (List.cons_ne_nil _ _) happend
    refine ⟨⟨[d], rest, some (lead c e)⟩, ⟨hproper, hall.drop 1, Or.inr nofun⟩, ?_, ?_⟩
    · cases rest with
      | nil =>
        have hwrite : Layout.shortest.write c e = String.ofList [d] ++ exponentText (lead c e) :=
          (if_neg hfar').trans (by rw [hdigits, ← hlead])
        rw [hwrite, String.toList_append, String.toList_ofList]
        rfl
      | cons d' rest =>
        have hwrite : Layout.shortest.write c e
            = String.ofList (d :: '.' :: d' :: rest) ++ exponentText (lead c e) :=
          (if_neg hfar').trans (by rw [hdigits, ← hlead])
        rw [hwrite, String.toList_append, String.toList_ofList]
        rfl
    · intro negative
      have hexp : lead c e - rest.length = e := by
        rw [hlead, List.length_cons]
        omega
      simp only [Spelling.decimal, List.singleton_append, hvalue, Option.getD_some, hexp]

/-- What the layout writes is a spelling, whatever the decimal. -/
theorem exists_spells (hc : c ≠ 0 ∨ e = 0) : ∃ s : Spelling, s.Spells c e := by
  by_cases hplain : -4 ≤ lead c e ∧ lead c e < 16
  · by_cases hneg : lead c e < 0
    · exact spells_below_one hplain.1 hneg
    · by_cases hwhole : (Nat.toDigits 10 c).length ≤ (lead c e).toNat + 1
      · exact spells_whole hc (Int.not_lt.mp hneg) hplain.2 hwhole
      · exact spells_pointed (Int.not_lt.mp hneg) hplain.2 (Nat.not_le.mp hwhole)
  · refine spells_power hplain ?_
    rcases hc with hc | rfl
    · exact hc
    · rintro rfl
      exact hplain (by decide)

end Decimal

namespace Double

open Decimal

/-- The text of a finite double is its sign and a spelling that is read back to it. -/
theorem toText_spelled (negative : Bool) {units : Nat} (hfits : Fits units) :
    ∃ s : Spelling, s.Proper ∧
      (finite negative units hfits).toText.toList = (signText negative).toList ++ s.text ∧
      (s.decimal negative).toDouble = finite negative units hfits := by
  by_cases hunits : units = 0
  · subst hunits
    obtain ⟨s, hproper, htext, hvalue⟩ := exists_spells (c := 0) (e := 0) (Or.inr rfl)
    refine ⟨s, hproper, ?_, ?_⟩
    · rw [← htext, ← String.toList_append]
      rfl
    · rw [hvalue negative, toDouble, if_pos rfl, zero_eq]
  · obtain ⟨hchosen, hread⟩ := toDouble_shortest hfits hunits
    obtain ⟨s, hproper, htext, hvalue⟩ :=
      exists_spells (c := (shortest units).1) (e := (shortest units).2) (Or.inl hchosen)
    refine ⟨s, hproper, ?_, ?_⟩
    · rw [← htext, ← String.toList_append, toText, writeWith, if_neg hunits]
    · rw [hvalue negative, hread negative]

end Double

end DecisionBoard
