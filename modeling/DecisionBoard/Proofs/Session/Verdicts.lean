import DecisionBoard.Proofs.Number.Rounding
import DecisionBoard.Proofs.Session.Reachable

/-!
# Verdicts whatever their confidence is

A confidence may be any value. What it comes to is the whole number nearest to the number that it
states, kept within bounds, or the default if it states none (`Confidence`). The one exception are
numbers without a nearest whole number or beyond the doubles: rounding them is refused
(`Unbounded`), and the verdict with them.
-/

namespace DecisionBoard

namespace Verdict

/-! ## What a confidence states -/

/-- The number that a value is, or is the text of. -/
inductive States : Json → ℚ → Prop where
  | truth (b : Bool) : States (.bool b) (if b then 1 else 0)
  | whole (n : ℤ) : States (.int n) n
  | real {x : Double} (h : x.isFinite = true) : States (.float x) x.value
  | text {s : String} {x : Double} (h : Numeral.realNumber? s = some x)
      (hfinite : x.isFinite = true) : States (.str s) x.value

/-- A value that is no number, nor the text of one. -/
inductive NoNumber : Json → Prop where
  | null : NoNumber .null
  | nan : NoNumber (.float .nan)
  | list (xs : List Json) : NoNumber (.arr xs)
  | object (fs : Fields) : NoNumber (.obj fs)
  | nanText {s : String} (h : Numeral.realNumber? s = some .nan) : NoNumber (.str s)
  | text {s : String} (h : Numeral.realNumber? s = none) : NoNumber (.str s)

/-- A number that cannot be rounded, and why: an infinity, or a whole number at least half of the
last step, which is `2 ^ 971`, beyond the largest double. -/
inductive Unbounded : Json → Fault → Prop where
  | infinite (negative : Bool) : Unbounded (.float (.infinite negative)) .infinityToInteger
  | text {s : String} {negative : Bool} (h : Numeral.realNumber? s = some (.infinite negative)) :
      Unbounded (.str s) .infinityToInteger
  | whole {n : ℤ} (h : 2 ^ 1024 ≤ n.natAbs + 2 ^ 970) : Unbounded (.int n) .intTooLarge

theorem Unbounded.unique {stated : Json} {fault fault' : Fault} (h : Unbounded stated fault)
    (h' : Unbounded stated fault') : fault = fault' := by
  cases h <;> cases h' <;> rfl

/-- What a stated confidence comes to. -/
inductive Confidence (stated : Json) : ℤ → Prop where
  | rounded {q : ℚ} {n : ℤ} (h : States stated q) (hnear : Double.NearestWhole q n) :
      Confidence stated (clampConfidence n)
  | noNumber (h : NoNumber stated) : Confidence stated 50

theorem States.unique {stated : Json} {q r : ℚ} (hq : States stated q) (hr : States stated r) :
    q = r := by
  cases hq <;> cases hr <;> simp_all

theorem States.not_noNumber {stated : Json} {q : ℚ} (h : States stated q) : ¬ NoNumber stated := by
  intro hno
  cases h with
  | truth b => cases hno
  | whole n => cases hno
  | real hfinite =>
    cases hno
    cases hfinite
  | text hread hfinite =>
    cases hno with
    | nanText hnan =>
      cases hread.symm.trans hnan
      cases hfinite
    | text hnone => cases hread.symm.trans hnone

/-! ## Rounding and clamping -/

/-- A number above the bounds comes to the upper one, a number below them to the lower one. -/
theorem clampConfidence_of_nearest {q : ℚ} {n : ℤ} (h : Double.NearestWhole q n) :
    (100 < q → clampConfidence n = 100) ∧ (q < 1 → clampConfidence n = 1) := by
  obtain ⟨hlow, hhigh⟩ := abs_le.mp h.near
  constructor
  · intro hq
    have hn : (99 : ℚ) < n := by linarith
    have hn' : 99 < n := by exact_mod_cast hn
    unfold clampConfidence
    omega
  · intro hq
    have hn : (n : ℚ) < 2 := by linarith
    have hn' : n < 2 := by exact_mod_cast hn
    unfold clampConfidence
    omega

/-- A stated number above the bounds comes to the upper one, one below them to the lower one. -/
theorem Confidence.bound {stated : Json} {q : ℚ} {confidence : ℤ} (h : Confidence stated confidence)
    (hq : States stated q) :
    (100 < q → confidence = 100) ∧ (q < 1 → confidence = 1) := by
  cases h with
  | rounded hr hnear =>
    rw [hq.unique hr]
    exact clampConfidence_of_nearest hnear
  | noNumber hno => exact absurd hno hq.not_noNumber

theorem nearestWhole_self (n : ℤ) : Double.NearestWhole n n := by
  have hzero : |(n : ℚ) - n| = 0 := by rw [sub_self, abs_zero]
  exact ⟨hzero.trans_le one_half_pos.le, fun h => absurd (hzero.symm.trans h) one_half_pos.ne⟩

/-- A whole number that is rounded to a double on the way comes to the same. -/
theorem clampConfidence_ofInt {n : ℤ} (h : (Double.ofInt n).isFinite = true) :
    clampConfidence (Double.ofInt n).roundHalfEven = clampConfidence n := by
  rcases Nat.lt_or_ge n.natAbs (2 ^ 53) with hsmall | hlarge
  · rw [Double.roundHalfEven_ofInt hsmall]
  · obtain ⟨r, hr, hround⟩ := Double.large_ofInt hlarge h
    rw [hround]
    by_cases hneg : n < 0
    · rw [decide_eq_true hneg, Double.signedUnits, if_pos rfl]
      unfold clampConfidence
      omega
    · rw [decide_eq_false hneg, Double.signedUnits, if_neg Bool.false_ne_true]
      unfold clampConfidence
      omega

/-! ## Taking a confidence -/

section
variable {stated : Json}

theorem wholeConfidence_of_finite {x : Double} (hdouble : stated.toDouble = .ok x)
    (h : x.isFinite = true) : wholeConfidence stated = .ok x.roundHalfEven := by
  cases x with
  | finite negative units fits => exact wholeConfidence_of_round hdouble rfl
  | nan => cases h
  | infinite negative => cases h

theorem wholeConfidence_of_infinite {negative : Bool}
    (hdouble : stated.toDouble = .ok (.infinite negative)) :
    wholeConfidence stated = .error .infinityToInteger := by
  have hround : stated.toDouble >>= Double.round = .error .infinityToInteger := by
    rw [hdouble]
    rfl
  simp only [wholeConfidence, hround]

theorem wholeConfidence_of_nan (hdouble : stated.toDouble = .ok .nan) :
    wholeConfidence stated = .ok 50 := by
  have hround : stated.toDouble >>= Double.round = .error .nanToInteger := by
    rw [hdouble]
    rfl
  simp only [wholeConfidence, hround, defaultConfidence]

theorem wholeConfidence_of_tooLarge (hdouble : stated.toDouble = .error .intTooLarge) :
    wholeConfidence stated = .error .intTooLarge := by
  have hround : stated.toDouble >>= Double.round = .error .intTooLarge := by
    rw [hdouble]
    rfl
  simp only [wholeConfidence, hround]

end

theorem wholeConfidence_of_unreadable {s : String} (h : Numeral.realNumber? s = none) :
    wholeConfidence (.str s) = .ok 50 := by
  have hround : (Json.str s).toDouble >>= Double.round = .error (.badReal s) := by
    rw [Json.toDouble, h]
    rfl
  simp only [wholeConfidence, hround, defaultConfidence]

theorem toDouble_text {s : String} {x : Double} (h : Numeral.realNumber? s = some x) :
    (Json.str s).toDouble = .ok x := by
  simp only [Json.toDouble, h]

theorem toDouble_truth (b : Bool) :
    (Json.bool b).toDouble = .ok (Double.ofInt (if b then 1 else 0)) := by
  -- stated of all numerals, so that neither double is computed
  have hnumeral : ∀ n : ℕ, (OfNat.ofNat n : Double) = Double.ofInt n := fun _ => rfl
  rw [Json.toDouble]
  cases b with
  | false => rw [if_neg Bool.false_ne_true, if_neg Bool.false_ne_true, hnumeral 0, Nat.cast_zero]
  | true => rw [if_pos rfl, if_pos rfl, hnumeral 1, Nat.cast_one]

/-- What becomes of a stated confidence: it is refused if it cannot be rounded, and comes to a
number within bounds otherwise. -/
inductive Taken (stated : Json) : Checked ℤ → Prop where
  | refused {fault : Fault} (h : Unbounded stated fault) : Taken stated (.error fault)
  | taken {n : ℤ} (hbounded : ∀ fault, ¬ Unbounded stated fault)
      (h : Confidence stated (clampConfidence n)) : Taken stated (.ok n)

theorem Taken.noNumber {stated : Json} (h : NoNumber stated) : Taken stated (.ok 50) := by
  refine .taken (fun fault hunbounded => ?_) (.noNumber h)
  -- a text is read to one double at most
  cases h <;> cases hunbounded <;> simp_all

theorem taken_whole (n : ℤ) : Taken (.int n) (wholeConfidence (.int n)) := by
  by_cases h : (Double.ofInt n).isFinite = true
  · rw [wholeConfidence_of_finite (by rw [Json.toDouble, if_pos h]) h]
    refine .taken ?_ ?_
    · rintro _ (_ | _ | hlarge)
      exact hlarge.not_gt ((Double.isFinite_ofInt_iff n).mp h)
    · rw [clampConfidence_ofInt h]
      exact .rounded (.whole n) (nearestWhole_self n)
  · rw [wholeConfidence_of_tooLarge (by rw [Json.toDouble, if_neg h])]
    exact .refused (.whole (Nat.le_of_not_lt (mt (Double.isFinite_ofInt_iff n).mpr h)))

theorem taken_real (x : Double) : Taken (.float x) (wholeConfidence (.float x)) := by
  cases x with
  | nan =>
    rw [wholeConfidence_of_nan rfl]
    exact .noNumber .nan
  | infinite negative =>
    rw [wholeConfidence_of_infinite rfl]
    exact .refused (.infinite negative)
  | finite negative units fits =>
    rw [wholeConfidence_of_finite rfl rfl]
    exact .taken (fun _ h => nomatch h)
      (.rounded (.real rfl) (Double.nearestWhole_roundHalfEven rfl))

theorem taken_text (s : String) : Taken (.str s) (wholeConfidence (.str s)) := by
  cases hread : Numeral.realNumber? s with
  | none =>
    rw [wholeConfidence_of_unreadable hread]
    exact .noNumber (.text hread)
  | some x =>
    have hdouble := toDouble_text hread
    cases x with
    | nan =>
      rw [wholeConfidence_of_nan hdouble]
      exact .noNumber (.nanText hread)
    | infinite negative =>
      rw [wholeConfidence_of_infinite hdouble]
      exact .refused (.text hread)
    | finite negative units fits =>
      rw [wholeConfidence_of_finite hdouble rfl]
      refine .taken ?_ (.rounded (.text hread rfl) (Double.nearestWhole_roundHalfEven rfl))
      rintro _ (_ | hinfinite | _)
      rw [hread] at hinfinite
      cases hinfinite

theorem taken_truth (b : Bool) : Taken (.bool b) (wholeConfidence (.bool b)) := by
  have hround : wholeConfidence (.bool b) = .ok (if b then 1 else 0) :=
    wholeConfidence_of_round (toDouble_truth b) (Double.round_ofInt (by cases b <;> decide))
  have hnear := nearestWhole_self (if b then 1 else 0)
  rw [hround]
  exact .taken (fun _ h => nomatch h)
    (.rounded (.truth b) (by cases b <;> exact_mod_cast hnear))

theorem taken_wholeConfidence (stated : Json) : Taken stated (wholeConfidence stated) := by
  cases stated with
  | null => exact .noNumber .null
  | bool b => exact taken_truth b
  | int n => exact taken_whole n
  | float x => exact taken_real x
  | str s => exact taken_text s
  | arr xs => exact .noNumber (.list xs)
  | obj fs => exact .noNumber (.object fs)

theorem ofFields_eq (fs : Fields) : ofFields fs =
    (wholeConfidence (fs.getOr "confidence" (.int 50))).map fun n =>
      { winner := (fs.getOr "winner" (.str "")).text
        confidence := clampConfidence n
        reasoning := (fs.getOr "reasoning" (.str "")).text
        nextSteps := (steps (fs.get "next_steps")).map Json.text } := by
  rw [ofFields, defaultConfidence]
  cases wholeConfidence (fs.getOr "confidence" (.int 50)) <;> rfl

/-- Nothing but a confidence that cannot be rounded is refused. -/
theorem unbounded_of_refused {fs : Fields} {fault : Fault} (h : ofFields fs = .error fault) :
    Unbounded (fs.getOr "confidence" (.int 50)) fault := by
  have htaken := taken_wholeConfidence (fs.getOr "confidence" (.int 50))
  rw [ofFields_eq] at h
  generalize wholeConfidence (fs.getOr "confidence" (.int 50)) = whole at h htaken
  cases htaken with
  | refused hunbounded =>
    cases h
    exact hunbounded
  | taken hbounded hconfidence => cases h

end Verdict

namespace Session

/-! ## Taking a verdict -/

/-- A verdict is taken whatever its confidence is, unless that is a number that cannot be rounded:
then it is refused, and only the tool that sent it is settled. The confidence that is kept is the
whole number nearest to the stated one, or the bound that this is beyond, or 50 if none is
stated. -/
theorem conclude_taken (s : Session) {payload : Json} {fields : Fields} (source : Option Key)
    (h : classify payload = .ok (.conclude fields)) :
    let stated := fields.getOr "confidence" (.int 50)
    (∀ fault, Verdict.Unbounded stated fault →
      s.apply payload source = (.error fault, s.settleSource source)) ∧
    ((∀ fault, ¬ Verdict.Unbounded stated fault) → ∃ verdict,
      (s.apply payload source).1 = .ok ⟨"conclude", true, "verdict set", false⟩ ∧
      (s.apply payload source).2 = (s.settleSource source).applyVerdict verdict ∧
      (s.apply payload source).2.verdict = some verdict ∧
      1 ≤ verdict.confidence ∧ verdict.confidence ≤ 100 ∧
      Verdict.Confidence stated verdict.confidence ∧
      ∀ q, Verdict.States stated q →
        (100 < q → verdict.confidence = 100) ∧ (q < 1 → verdict.confidence = 1)) := by
  intro stated
  have hclass : classify payload >>= (s.settleSource source).receive
      = (s.settleSource source).receive (.conclude fields) := by
    rw [h]
    rfl
  have hfields := Verdict.ofFields_eq fields
  have htaken : Verdict.Taken stated (Verdict.wholeConfidence stated) :=
    Verdict.taken_wholeConfidence stated
  rw [apply_eq, hclass]
  generalize Verdict.wholeConfidence stated = whole at hfields htaken
  simp only [receive, hfields]
  cases htaken with
  | refused hunbounded =>
    refine ⟨fun fault hfault => ?_, fun hbounded => absurd hunbounded (hbounded _)⟩
    rw [hunbounded.unique hfault]
    rfl
  | taken hbounded hconfidence =>
    refine ⟨fun fault hfault => absurd hfault (hbounded fault), fun _ => ⟨_, rfl, rfl, rfl, ?_⟩⟩
    obtain ⟨hlow, hhigh⟩ := Verdict.clampConfidence_bounds _
    exact ⟨hlow, hhigh, hconfidence, fun q => hconfidence.bound⟩

/-- A verdict that is certain beyond all numbers. -/
def boundless : Fields :=
  [("winner", .str "A"), ("reasoning", .str "r"), ("confidence", .float (.infinite false))]

theorem boundless_refused :
    classify (.obj boundless) = .ok (.conclude boundless) ∧
    ({} : Session).apply (.obj boundless) = (.error .infinityToInteger, {}) := by
  have hclass : classify (.obj boundless) = .ok (.conclude boundless) := rfl
  exact ⟨hclass, (conclude_taken {} none hclass).1 _ (.infinite false)⟩

end Session
end DecisionBoard
