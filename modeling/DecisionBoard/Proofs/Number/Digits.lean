import DecisionBoard.Number.Numeral
import Mathlib.Tactic.Ring

/-!
# Digits and their values

The digits that are written for a natural number are read back to it. Zeros in front of digits do
not count, zeros behind them multiply by ten, and a run of digits is cut off a text where the
first other character stands. A text that is nothing but digits is read as the whole number that
they stand for.
-/

namespace DecisionBoard.Numeral

/-! ## Values -/

/-- The value of digits is the one that the library gives to characters in base ten. -/
theorem digitsValue_eq (ds : List Char) : digitsValue ds = Nat.ofDigitChars 10 ds 0 := rfl

@[simp] theorem digitsValue_toDigits (n : Nat) : digitsValue (Nat.toDigits 10 n) = n := by
  rw [digitsValue_eq, Nat.ofDigitChars_ten_toDigits]

theorem digitsValue_append (ds es : List Char) :
    digitsValue (ds ++ es) = 10 ^ es.length * digitsValue ds + digitsValue es := by
  rw [digitsValue_eq, Nat.ofDigitChars_append, Nat.ofDigitChars_eq_ofDigitChars_zero]
  rfl

@[simp] theorem digitsValue_zeros (k : Nat) : digitsValue (List.replicate k '0') = 0 := by
  rw [digitsValue_eq, Nat.ofDigitChars_replicate_zero, Nat.mul_zero]

theorem digitsValue_zeros_append (k : Nat) (ds : List Char) :
    digitsValue (List.replicate k '0' ++ ds) = digitsValue ds := by
  rw [digitsValue_append, digitsValue_zeros, Nat.mul_zero, Nat.zero_add]

theorem digitsValue_append_zeros (ds : List Char) (k : Nat) :
    digitsValue (ds ++ List.replicate k '0') = digitsValue ds * 10 ^ k := by
  rw [digitsValue_append, digitsValue_zeros, List.length_replicate, Nat.add_zero, Nat.mul_comm]

/-! ## Runs of digits -/

/-- Nothing but digits. -/
def AreDigits (ds : List Char) : Prop := ∀ c ∈ ds, c.isDigit = true

theorem AreDigits.append {ds es : List Char} (hd : AreDigits ds) (he : AreDigits es) :
    AreDigits (ds ++ es) := by
  intro c hc
  rcases List.mem_append.mp hc with hc | hc
  · exact hd c hc
  · exact he c hc

theorem AreDigits.take {ds : List Char} (h : AreDigits ds) (k : Nat) : AreDigits (ds.take k) :=
  fun c hc => h c (List.mem_of_mem_take hc)

theorem AreDigits.drop {ds : List Char} (h : AreDigits ds) (k : Nat) : AreDigits (ds.drop k) :=
  fun c hc => h c (List.mem_of_mem_drop hc)

theorem areDigits_zeros (k : Nat) : AreDigits (List.replicate k '0') := by
  intro c hc
  rw [List.eq_of_mem_replicate hc]
  rfl

theorem areDigits_toDigits (n : Nat) : AreDigits (Nat.toDigits 10 n) :=
  fun _ hc => Nat.isDigit_of_mem_toDigits (by decide) (by decide) hc

/-- A text goes on with something that is no digit, or not at all. -/
def EndsDigits (rest : List Char) : Prop := ∀ c cs, rest = c :: cs → c.isDigit = false

theorem endsDigits_cons {c : Char} (h : c.isDigit = false) (cs : List Char) :
    EndsDigits (c :: cs) := by
  intro c' cs' heq
  cases heq
  exact h

/-- All digits in front are taken, and nothing else. -/
theorem spanDigits_append {ds rest : List Char} (hds : AreDigits ds) (hrest : EndsDigits rest) :
    spanDigits (ds ++ rest) = (ds, rest) := by
  have htake : rest.takeWhile Char.isDigit = [] := by
    cases rest with
    | nil => rfl
    | cons c cs => rw [List.takeWhile_cons, hrest c cs rfl]; rfl
  have hdrop : rest.dropWhile Char.isDigit = rest := by
    cases rest with
    | nil => rfl
    | cons c cs => rw [List.dropWhile_cons, hrest c cs rfl]; rfl
  rw [spanDigits, List.takeWhile_append_of_pos hds, List.dropWhile_append_of_pos hds, htake, hdrop,
    List.append_nil]

/-! ## Numbers as text -/

theorem toList_toString (n : Nat) : (toString n).toList = Nat.toDigits 10 n := by
  rw [Nat.toString_eq_ofList_toDigits, String.toList_ofList]

theorem toString_nat_injective : Function.Injective (toString : Nat → String) := by
  intro m n h
  have hdigits : digitsValue (toString m).toList = digitsValue (toString n).toList := by rw [h]
  rwa [toList_toString, toList_toString, digitsValue_toDigits, digitsValue_toDigits] at hdigits

/-- A natural number is written without a sign. -/
theorem toString_nat_ne_minus (n : Nat) (rest : String) : toString n ≠ "-" ++ rest := by
  intro h
  have hdigits := areDigits_toDigits n
  rw [← toList_toString, h, String.toList_append] at hdigits
  cases hdigits '-' List.mem_cons_self

theorem toString_int_injective : Function.Injective (toString : Int → String) := by
  intro m n h
  cases m with
  | ofNat m =>
    cases n with
    | ofNat n => exact congrArg Int.ofNat (toString_nat_injective h)
    | negSucc n => exact (toString_nat_ne_minus m _ h).elim
  | negSucc m =>
    cases n with
    | ofNat n => exact (toString_nat_ne_minus n _ h.symm).elim
    | negSucc n =>
      have hdigits := (String.append_right_inj "-").mp h
      exact congrArg Int.negSucc (Nat.succ.inj (toString_nat_injective hdigits))

/-! ## Whole parts -/

/-- Digits of a whole number: at least one, and no needless zero in front. -/
structure IsWhole (ds : List Char) : Prop where
  digits : AreDigits ds
  ne_nil : ds ≠ []
  lead : ∀ es, ds = '0' :: es → es = []

theorem isWhole_zero : IsWhole ['0'] where
  digits := areDigits_zeros 1
  ne_nil := List.cons_ne_nil _ _
  lead := by
    intro es h
    cases h
    rfl

/-- The digits of a positive number do not begin with a zero. -/
theorem toDigits_ne_zero_cons {n : Nat} (hn : n ≠ 0) (es : List Char) :
    Nat.toDigits 10 n ≠ '0' :: es := by
  induction n using Nat.strongRecOn generalizing es with
  | ind n ih =>
    rw [Nat.toDigits_eq_if (by decide)]
    split
    · rename_i hlt
      intro h
      have hdigit : n.digitChar = '0' := (List.cons.inj h).1
      exact hn (Nat.digitChar_eq_zero.mp hdigit)
    · rename_i hge
      have hdiv : n / 10 ≠ 0 := by omega
      have hfront := ih (n / 10) (by omega) hdiv
      intro h
      -- the leading digit is that of the quotient, whose digits are not missing
      cases hq : Nat.toDigits 10 (n / 10) with
      | nil => exact Nat.toDigits_ne_nil hq
      | cons d ds =>
        rw [hq] at h
        have hd : d = '0' := (List.cons.inj h).1
        exact hfront ds (by rw [hq, hd])

theorem isWhole_toDigits (n : Nat) : IsWhole (Nat.toDigits 10 n) where
  digits := areDigits_toDigits n
  ne_nil := Nat.toDigits_ne_nil
  lead := by
    intro es h
    by_cases hn : n = 0
    · subst hn
      rw [Nat.toDigits_zero] at h
      cases h
      rfl
    · exact (toDigits_ne_zero_cons hn es h).elim

/-- Digits that begin like those of a positive number are those of a whole number. -/
theorem isWhole_of_toDigits {n : Nat} (hn : n ≠ 0) {ds es fs : List Char} (hds : AreDigits ds)
    (hne : ds ≠ []) (h : ds ++ es = Nat.toDigits 10 n ++ fs) : IsWhole ds where
  digits := hds
  ne_nil := hne
  lead := by
    rintro gs rfl
    cases hq : Nat.toDigits 10 n with
    | nil => exact (Nat.toDigits_ne_nil hq).elim
    | cons d ds =>
      rw [hq, List.cons_append, List.cons_append] at h
      have hd : '0' = d := (List.cons.inj h).1
      subst hd
      exact (toDigits_ne_zero_cons hn ds hq).elim

/-! ## Digits as numerals -/

theorem toNat_of_isDigit {c : Char} (h : c.isDigit = true) : 48 ≤ c.toNat ∧ c.toNat ≤ 57 := by
  simp only [Char.isDigit, Bool.and_eq_true, decide_eq_true_eq] at h
  exact ⟨UInt32.le_iff_toNat_le.mp h.1, UInt32.le_iff_toNat_le.mp h.2⟩

theorem isPadding_of_isDigit {c : Char} (h : c.isDigit = true) : isPadding c = false := by
  obtain ⟨hlow, hhigh⟩ := toNat_of_isDigit h
  have hblank : Text.isBlank c = false := by
    simp only [Text.isBlank, Bool.or_eq_false_iff, Bool.and_eq_false_iff, decide_eq_false_iff_not,
      beq_eq_false_iff_ne]
    omega
  rw [isPadding, hblank, Bool.false_and]

theorem plainDigit_of_isDigit {c : Char} (h : c.isDigit = true) : plainDigit c = c := by
  obtain ⟨hlow, hhigh⟩ := toNat_of_isDigit h
  have hvalue : Text.digitValue? c = some (c.toNat - 0x30) := by
    rw [Text.digitValue?, if_pos (by omega), if_pos h]
  have hsum : 0x30 + (c.toNat - 0x30) = c.toNat := by omega
  rw [plainDigit, hvalue]
  dsimp only
  rw [hsum, Char.ofNat_toNat]

/-- Digits have nothing around them that a numeral drops, and are in ASCII already. -/
theorem plain_ofList {ds : List Char} (hds : AreDigits ds) : plain (String.ofList ds) = ds := by
  have hnone : ∀ es : List Char, AreDigits es → es.dropWhile isPadding = es := by
    intro es hes
    cases es with
    | nil => rfl
    | cons c cs =>
      have hc := isPadding_of_isDigit (hes c List.mem_cons_self)
      rw [List.dropWhile_cons, hc]
      rfl
  have hreverse : AreDigits ds.reverse := fun c hc => hds c (List.mem_reverse.mp hc)
  have hmap : ds.map plainDigit = ds := by
    rw [List.map_congr_left fun c hc => plainDigit_of_isDigit (hds c hc), List.map_id']
  rw [plain, String.toList_ofList, Text.trimWhere, hnone ds hds, hnone _ hreverse,
    List.reverse_reverse, hmap]

theorem splitSign_of_areDigits {ds : List Char} (hds : AreDigits ds) :
    splitSign ds = (false, ds) := by
  unfold splitSign
  split
  · have hminus := hds '-' List.mem_cons_self
    simp at hminus
  · have hplus := hds '+' List.mem_cons_self
    simp at hplus
  · rfl

theorem joinDigits?_of_areDigits {ds : List Char} (hds : AreDigits ds) (previous : Bool) :
    joinDigits? previous ds = some ds := by
  induction ds generalizing previous with
  | nil => rfl
  | cons c cs ih =>
    have hc : c.isDigit = true := hds c List.mem_cons_self
    have hne : c ≠ '_' := by
      rintro rfl
      simp at hc
    have hcs := ih (fun d hd => hds d (List.mem_cons_of_mem c hd)) c.isDigit
    rw [joinDigits?, if_neg hne, hcs]
    · rfl
    · intro _ _ heq
      cases heq
      exact fun _ => hne rfl

/-- Digits are read as their value unless there are too many of them. -/
theorem wholeNumber?_ofList {ds : List Char} (hds : AreDigits ds) (hne : ds ≠ []) :
    wholeNumber? (String.ofList ds) =
      if digitLimit < ds.length then .error (.tooLong ds.length) else .ok (digitsValue ds) := by
  have hall : ∀ c ∈ ds, (c.isDigit || decide (c = '_')) = true := by
    intro c hc
    rw [hds c hc, Bool.true_or]
  have hspan : ∀ p : Char → Bool, (∀ c ∈ ds, p c = true) →
      ds.takeWhile p = ds ∧ ds.dropWhile p = [] := by
    intro p hp
    have htake : (ds ++ []).takeWhile p = ds ++ [].takeWhile p := List.takeWhile_append_of_pos hp
    have hdrop : (ds ++ []).dropWhile p = [].dropWhile p := List.dropWhile_append_of_pos hp
    rw [List.append_nil] at htake hdrop
    exact ⟨by rw [htake, List.takeWhile_nil, List.append_nil], hdrop⟩
  obtain ⟨htake, hdrop⟩ := hspan _ hall
  rw [wholeNumber?, plain_ofList hds, splitSign_of_areDigits hds]
  simp only [htake, hdrop, joinDigits?_of_areDigits hds]
  cases ds with
  | nil => exact (hne rfl).elim
  | cons c cs => simp

end DecisionBoard.Numeral
