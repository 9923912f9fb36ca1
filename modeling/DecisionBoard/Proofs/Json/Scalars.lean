import DecisionBoard.Proofs.Json.Strings
import DecisionBoard.Proofs.Number.Spelling

/-!
# Numbers and words are read back from their text

A number is read to its end when what follows cannot go on with it, which holds behind every value
of a document. Whole numbers are read as integers, numbers with a fraction or a power of ten as
doubles.
-/

namespace DecisionBoard.Json

open Numeral Decimal

/-! ## What follows a value -/

/-- A text goes on with nothing that could be part of a number. -/
def EndsValue (rest : List Char) : Prop :=
  ∀ c cs, rest = c :: cs → c.isDigit = false ∧ c ≠ '.' ∧ c ≠ 'e' ∧ c ≠ 'E'

theorem endsValue_nil : EndsValue [] := fun _ _ h => nomatch h

theorem endsValue_cons {c : Char} (h : c.isDigit = false ∧ c ≠ '.' ∧ c ≠ 'e' ∧ c ≠ 'E')
    (cs : List Char) : EndsValue (c :: cs) := by
  intro c' cs' heq
  cases heq
  exact h

theorem EndsValue.endsDigits {rest : List Char} (h : EndsValue rest) : EndsDigits rest :=
  fun c cs hrest => (h c cs hrest).1

/-! ## The parts of a number -/

theorem spanWhole_append {ds rest : List Char} (hds : IsWhole ds) (hrest : EndsDigits rest) :
    spanWhole (ds ++ rest) = (ds, rest) := by
  cases hcs : ds with
  | nil => exact (hds.ne_nil hcs).elim
  | cons d es =>
    by_cases hzero : d = '0'
    · subst hzero
      rw [hds.lead es hcs]
      rfl
    · have hspan : spanDigits (d :: es ++ rest) = (d :: es, rest) := by
        rw [← hcs]
        exact spanDigits_append hds.digits hrest
      rw [List.cons_append, spanWhole, ← List.cons_append, hspan]
      rintro cs heq
      exact hzero (List.cons.inj heq).1

theorem spanFraction_of_endsValue {rest : List Char} (h : EndsValue rest) :
    spanFraction rest = ([], rest) := by
  rw [spanFraction]
  rintro cs rfl
  exact (h '.' cs rfl).2.1 rfl

theorem spanFraction_append {ds rest : List Char} (hds : AreDigits ds) (hne : ds ≠ [])
    (hrest : EndsDigits rest) : spanFraction ('.' :: (ds ++ rest)) = (ds, rest) := by
  rw [spanFraction, spanDigits_append hds hrest]
  cases ds with
  | nil => exact (hne rfl).elim
  | cons d ds => rfl

theorem spanExponent?_of_endsValue {rest : List Char} (h : EndsValue rest) :
    spanExponent? rest = none := by
  cases rest with
  | nil => rfl
  | cons c cs =>
    obtain ⟨-, -, hlower, hupper⟩ := h c cs rfl
    rw [spanExponent?, if_neg]
    simp [hlower, hupper]

theorem splitSign_exponent (e : Int) (ds : List Char) :
    splitSign ((if e < 0 then '-' else '+') :: ds) = (decide (e < 0), ds) := by
  split <;> simp_all [splitSign]

theorem spanExponent?_exponentText {rest : List Char} (e : Int) (hrest : EndsDigits rest) :
    ∃ width, spanExponent? ((exponentText e).toList ++ rest) = some (e, width, rest) := by
  obtain ⟨ds, hds, hne, hvalue, htext⟩ := exponentText_spec e
  have hsigned : (if decide (e < 0) = true then -((digitsValue ds : Nat) : Int)
      else (digitsValue ds : Nat)) = e := by
    rw [hvalue]
    by_cases he : e < 0
    · rw [if_pos (decide_eq_true he)]
      omega
    · rw [if_neg (by rw [decide_eq_true_eq]; exact he)]
      omega
  rw [htext, List.cons_append, List.cons_append, spanExponent?, if_pos (by decide)]
  simp only [splitSign_exponent, spanDigits_append hds hrest]
  cases ds with
  | nil => exact (hne rfl).elim
  | cons d ds =>
    simp only [hsigned]
    exact ⟨_, rfl⟩

/-- What stands behind a spelling's whole part does not go on with it. -/
theorem endsDigits_fractionText (s : Spelling) {rest : List Char} (hrest : EndsDigits rest) :
    EndsDigits (s.fractionText ++ (s.powerText ++ rest)) := by
  have hpower : EndsDigits (s.powerText ++ rest) := by
    cases hs : s.power with
    | none =>
      simp only [Spelling.powerText, hs]
      exact hrest
    | some e =>
      obtain ⟨ds, -, -, -, htext⟩ := exponentText_spec e
      simp only [Spelling.powerText, hs, htext]
      exact endsDigits_cons (by decide) _
  rw [Spelling.fractionText]
  split
  · exact hpower
  · exact endsDigits_cons (by decide) _

/-- The fraction of a spelling is cut off where its power or the rest begins. -/
theorem spanFraction_fractionText {s : Spelling} (hs : s.Proper) {rest : List Char}
    (hrest : EndsValue rest) :
    spanFraction (s.fractionText ++ (s.powerText ++ rest)) = (s.fraction, s.powerText ++ rest) := by
  by_cases hempty : s.fraction = []
  · have hpower : ∃ e, s.power = some e :=
      Option.ne_none_iff_exists'.mp (hs.pointed.resolve_left (not_not_intro hempty))
    obtain ⟨e, hpower⟩ := hpower
    obtain ⟨ds, -, -, -, htext⟩ := exponentText_spec e
    have htext' : s.powerText = 'e' :: (if e < 0 then '-' else '+') :: ds := by
      rw [Spelling.powerText, hpower, ← htext]
    rw [Spelling.fractionText, if_pos hempty, hempty, htext']
    rfl
  · have hends : EndsDigits (s.powerText ++ rest) := by
      have hshort := endsDigits_fractionText ⟨s.whole, [], s.power⟩ hrest.endsDigits
      exact hshort
    rw [Spelling.fractionText, if_neg hempty, List.cons_append]
    exact spanFraction_append hs.fraction hempty hends

/-! ## Numbers -/

/-- A spelling of a double is read as the double nearest to it. -/
theorem reads_spelling (start offset : Nat) (negative : Bool) {s : Spelling} {rest : List Char}
    (hs : s.Proper) (hrest : EndsValue rest) :
    Reads (scanUnsigned start negative ⟨s.text ++ rest, offset⟩)
      (.float (s.decimal negative).toDouble) rest := by
  have hwhole := spanWhole_append hs.whole (endsDigits_fractionText s hrest.endsDigits)
  have hne : ¬ s.whole.isEmpty = true := by
    rw [List.isEmpty_iff]
    exact hs.whole.ne_nil
  rw [Spelling.text, List.append_assoc, List.append_assoc, scanUnsigned]
  dsimp only
  rw [hwhole]
  dsimp only
  rw [if_neg hne, spanFraction_fractionText hs hrest]
  dsimp only
  cases hpower : s.power with
  | none =>
    have hpointed : (!s.fraction.isEmpty) = true := by
      rw [Bool.not_eq_true', List.isEmpty_eq_false_iff]
      exact hs.pointed.resolve_right (not_not_intro hpower)
    have hexponent : spanExponent? (s.powerText ++ rest) = none := by
      rw [Spelling.powerText, hpower]
      exact spanExponent?_of_endsValue hrest
    have hdecimal : s.decimal negative
        = ⟨negative, digitsValue (s.whole ++ s.fraction), -(s.fraction.length : Int)⟩ := by
      rw [Spelling.decimal, hpower, Option.getD_none, Int.zero_sub]
    rw [hexponent, hdecimal]
    dsimp only
    rw [if_pos hpointed, Spelling.powerText, hpower]
    exact ⟨_, rfl⟩
  | some e =>
    obtain ⟨width, hexponent⟩ := spanExponent?_exponentText e hrest.endsDigits
    have htext : s.powerText = (exponentText e).toList := by rw [Spelling.powerText, hpower]
    have hdecimal : s.decimal negative
        = ⟨negative, digitsValue (s.whole ++ s.fraction), e - s.fraction.length⟩ := by
      rw [Spelling.decimal, hpower, Option.getD_some]
    rw [htext, hexponent, hdecimal]
    exact ⟨_, rfl⟩

/-- Digits alone are read as an integer, if there are not too many. -/
theorem reads_digits (start offset : Nat) (negative : Bool) {ds rest : List Char}
    (hds : IsWhole ds) (hlimit : ds.length ≤ digitLimit) (hrest : EndsValue rest) :
    Reads (scanUnsigned start negative ⟨ds ++ rest, offset⟩)
      (.int (if negative then -(digitsValue ds : Int) else digitsValue ds)) rest := by
  have hwhole := spanWhole_append hds hrest.endsDigits
  have hne : ¬ ds.isEmpty = true := by
    rw [List.isEmpty_iff]
    exact hds.ne_nil
  rw [scanUnsigned]
  dsimp only
  rw [hwhole]
  dsimp only
  rw [if_neg hne, spanFraction_of_endsValue hrest]
  dsimp only
  rw [spanExponent?_of_endsValue hrest]
  dsimp only
  rw [if_neg (by decide), if_neg (Nat.not_lt.mpr hlimit)]
  exact ⟨_, rfl⟩

/-! ## Scalars -/

/-- A text that begins with a digit, behind a minus sign or not, begins with no word. -/
theorem words_of_digit {d : Char} (hd : d.isDigit = true) (cs : List Char) :
    words.find? (fun (word, _) => word.isPrefixOf (d :: cs)) = none ∧
      words.find? (fun (word, _) => word.isPrefixOf ('-' :: d :: cs)) = none := by
  have hother : ∀ c : Char, c.isDigit = false → ¬ c = d := by
    rintro c hc rfl
    rw [hc] at hd
    cases hd
  have hletters : ¬ 'n' = d ∧ ¬ 't' = d ∧ ¬ 'f' = d ∧ ¬ 'N' = d ∧ ¬ 'I' = d ∧ ¬ '-' = d :=
    ⟨hother _ rfl, hother _ rfl, hother _ rfl, hother _ rfl, hother _ rfl, hother _ rfl⟩
  constructor <;> simp [words, hletters]

/-- A number is scanned by its digits, whatever its sign. -/
theorem scanScalar_number (negative : Bool) {ds : List Char} (hds : IsWhole ds) (rest : List Char)
    (offset : Nat) :
    ∃ offset', scanScalar ⟨(Double.signText negative).toList ++ (ds ++ rest), offset⟩
      = scanUnsigned offset negative ⟨ds ++ rest, offset'⟩ := by
  cases hcs : ds with
  | nil => exact (hds.ne_nil hcs).elim
  | cons d es =>
    have hd : d.isDigit = true := hds.digits d (by rw [hcs]; exact List.mem_cons_self)
    obtain ⟨hplain, hsigned⟩ := words_of_digit hd (es ++ rest)
    have hminus : d ≠ '-' := by
      rintro rfl
      cases hd
    cases negative with
    | true =>
      have htext : (Double.signText true).toList ++ (d :: es ++ rest) = '-' :: d :: (es ++ rest) := rfl
      rw [htext, scanScalar]
      dsimp only
      rw [hsigned]
      exact ⟨offset + 1, rfl⟩
    | false =>
      have htext : (Double.signText false).toList ++ (d :: es ++ rest) = d :: (es ++ rest) := rfl
      rw [htext, scanScalar]
      dsimp only
      rw [hplain]
      dsimp only
      split
      · rename_i heq
        exact absurd (List.cons.inj heq).1 hminus
      · exact ⟨offset, rfl⟩

theorem toList_toString_int (n : Int) :
    (toString n).toList = (Double.signText (n < 0)).toList ++ Nat.toDigits 10 n.natAbs := by
  rw [Int.toString_eq_repr, Int.repr_eq_if]
  by_cases hn : n < 0
  · have hsize : (-n).toNat = n.natAbs := by omega
    rw [if_neg (Int.not_le.mpr hn), String.toList_append, Nat.toList_repr, hsize, decide_eq_true hn]
    rfl
  · have hsize : n.toNat = n.natAbs := by omega
    rw [if_pos (Int.not_lt.mp hn), Nat.toList_repr, hsize, decide_eq_false hn]
    rfl

/-- An integer is read back from its text, if that does not have too many digits. -/
theorem reads_int {n : Int} (hlength : (Nat.toDigits 10 n.natAbs).length ≤ digitLimit)
    (offset : Nat) {rest : List Char} (hrest : EndsValue rest) :
    Reads (scanScalar ⟨(toString n).toList ++ rest, offset⟩) (.int n) rest := by
  obtain ⟨offset', hscan⟩ := scanScalar_number (n < 0) (isWhole_toDigits n.natAbs) rest offset
  have hread := reads_digits offset offset' (n < 0) (isWhole_toDigits n.natAbs) hlength hrest
  have hvalue : (if decide (n < 0) = true then -((n.natAbs : Nat) : Int) else (n.natAbs : Nat)) = n := by
    by_cases hn : n < 0
    · rw [if_pos (decide_eq_true hn)]
      omega
    · rw [if_neg (by rw [decide_eq_true_eq]; exact hn)]
      omega
  rw [digitsValue_toDigits, hvalue] at hread
  rw [toList_toString_int, List.append_assoc, hscan]
  exact hread

/-- A double is read back from its text. -/
theorem reads_double (x : Double) (offset : Nat) {rest : List Char} (hrest : EndsValue rest) :
    Reads (scanScalar ⟨writeDouble x ++ rest, offset⟩) (.float x) rest := by
  cases x with
  | nan => exact ⟨offset + 3, rfl⟩
  | infinite negative =>
    cases negative with
    | true => exact ⟨offset + 9, rfl⟩
    | false => exact ⟨offset + 8, rfl⟩
  | finite negative units hfits =>
    obtain ⟨s, hproper, htext, hvalue⟩ := Double.toText_spelled negative hfits
    have hwritten : writeDouble (.finite negative units hfits) ++ rest
        = (Double.signText negative).toList ++
          (s.whole ++ (s.fractionText ++ s.powerText ++ rest)) := by
      have hword : writeDouble (.finite negative units hfits)
          = (Double.finite negative units hfits).toText.toList := rfl
      rw [hword, htext, Spelling.text]
      simp only [List.append_assoc]
    obtain ⟨offset', hscan⟩ := scanScalar_number negative hproper.whole
      (s.fractionText ++ s.powerText ++ rest) offset
    have hread := reads_spelling offset offset' negative hproper hrest
    rw [hvalue, Spelling.text, List.append_assoc] at hread
    rw [hwritten, hscan]
    exact hread

end DecisionBoard.Json
