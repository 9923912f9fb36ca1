import DecisionBoard.Proofs.Board.Composed
import DecisionBoard.Proofs.Board.Shown
import DecisionBoard.Proofs.Checked
import DecisionBoard.Proofs.Number.Parts

/-!
# Split bars

Meters and argument pairs show two quantities as percentages and as a bar that is split between
them. The percentages are whole and make one hundred. As long as the quantities are not of opposite
signs, neither percentage is below zero and the bar has twenty cells, whatever the quantities are.
Those of opposite signs may leave these bounds, since nothing clamps them; then the bar is too
long, never too short.
-/

namespace DecisionBoard

namespace Bar

open Double

/-! ## Percentages -/

theorem percentages_eq (left right : Double) : percentages left right =
    ((left / whole left right * ofInt (100 : ℕ)).round).map fun percent =>
      (percent, 100 - percent) := by
  have hhundred : (100 : Double) = ofInt (100 : ℕ) := rfl
  rw [percentages, hhundred]
  show (left / whole left right * ofInt (100 : ℕ)).round >>= _ = _
  cases (left / whole left right * ofInt (100 : ℕ)).round <;> rfl

/-- The percentages of two quantities make one hundred. -/
theorem round_of_percentages {left right : Double} {p q : ℤ}
    (hok : percentages left right = .ok (p, q)) :
    (left / whole left right * ofInt (100 : ℕ)).round = .ok p ∧ q = 100 - p := by
  rw [percentages_eq] at hok
  cases hround : (left / whole left right * ofInt (100 : ℕ)).round with
  | error fault =>
    rw [hround] at hok
    cases hok
  | ok percent =>
    rw [hround] at hok
    cases hok
    exact ⟨rfl, rfl⟩

/-- Two quantities that are not of opposite signs have percentages within bounds. -/
theorem percentages_bounds {left right : Double} (h : ¬ Opposed left right) {p q : ℤ}
    (hok : percentages left right = .ok (p, q)) : 0 ≤ p ∧ p ≤ 100 := by
  obtain ⟨hround, -⟩ := round_of_percentages hok
  rcases div_whole h with hpart | ⟨negative, hnothing⟩ | hnan
  · obtain ⟨m, hm, hparts⟩ := round_part hpart (n := 100) (by decide)
    cases hparts.symm.trans hround
    exact ⟨Int.natCast_nonneg m, by exact_mod_cast hm⟩
  · obtain ⟨m, -, hnone, hzero⟩ := round_mul_ofInt negative fits_zero
      (Nat.zero_le _) (n := 100) (by decide)
    rw [hnothing, hzero, hnone rfl] at hround
    cases hround
    cases negative <;> decide
  · rw [hnan, nan_mul] at hround
    cases hround

/-! ## Cells -/

/-- A run of a character has as many as there are to draw. -/
theorem run_eq_replicate {c : Char} {count : ℤ} {cells : List Char}
    (hok : run c count = .ok cells) : cells = List.replicate count.toNat c := by
  unfold run at hok
  split at hok
  · cases hok
  · exact (Except.ok.inj hok).symm

theorem partOf_hundred {m : ℕ} (hm : m ≤ 100) : (ofInt (m : ℤ)).PartOf (ofInt (100 : ℕ)) := by
  have hone : 0 < unitsPerOne := unitsPerOne_pos_nat
  have hhundred : 0 < 100 * unitsPerOne := Nat.mul_pos (Nat.succ_pos 99) hone
  have hm' : m < 2 ^ 53 := by omega
  have htotal : ofInt (100 : ℕ) = _ := ofInt_natCast (n := 100) (by decide)
  rw [ofInt_natCast hm', htotal]
  exact ⟨Nat.mul_le_mul_right _ hm, hhundred, .inr rfl⟩

/-- A percentage within bounds fills some of the twenty cells. -/
theorem filledCells_bounds {p left : ℤ} (hp : 0 ≤ p ∧ p ≤ 100)
    (hok : filledCells (ofInt p) (2 * width) = .ok left) : 0 ≤ left ∧ left ≤ 20 := by
  obtain ⟨m, rfl⟩ := Int.eq_ofNat_of_zero_le hp.1
  have hm : m ≤ 100 := by exact_mod_cast hp.2
  obtain ⟨cells, hcells, hround⟩ := round_part (partOf_hundred hm) (n := 20) (by decide)
  have hsame : filledCells (ofInt m) (2 * width)
      = (ofInt m / ofInt (100 : ℕ) * ofInt (20 : ℕ)).round := rfl
  rw [hsame, hround] at hok
  cases hok
  exact ⟨Int.natCast_nonneg cells, by exact_mod_cast hcells⟩

/-- A bar with so many cells of the left side, and so many of the right. -/
def ofCells (lefts rights : ℕ) : String :=
  String.ofList ('|' :: List.replicate lefts '<' ++ List.replicate rights '>' ++ ['|'])

/-- The bar that is split at a percentage has twenty cells at least, and twenty if the percentage
is within bounds. -/
theorem split_cells {p : ℤ} {bar : String} (hok : split p = .ok bar) :
    ∃ lefts rights : ℕ, bar = ofCells lefts rights ∧ 20 ≤ lefts + rights ∧
      (0 ≤ p ∧ p ≤ 100 → lefts + rights = 20) := by
  obtain ⟨left, hleft, hok⟩ := Checked.bind_eq_ok hok
  obtain ⟨lefts, hlefts, hok⟩ := Checked.bind_eq_ok hok
  obtain ⟨rights, hrights, hok⟩ := Checked.bind_eq_ok hok
  cases hok
  have hwidth : ((2 : ℕ) : ℤ) * (width : ℕ) = 20 := rfl
  refine ⟨left.toNat, (20 - left).toNat, ?_, by omega, fun hp => ?_⟩
  · rw [run_eq_replicate hlefts, run_eq_replicate hrights]
    rfl
  · have hleft := filledCells_bounds hp hleft
    omega

end Bar

namespace Leaf

/-- A sum that is not below zero stays so when strengths are added that are not below zero. -/
theorem foldl_strength_not_below {arguments : List Argument} {sum : Double}
    (hsum : sum.lt 0 = false) (h : ∀ a ∈ arguments, a.strength.lt 0 = false) :
    (arguments.foldl (fun sum a => sum + a.strength) sum).lt 0 = false := by
  induction arguments generalizing sum with
  | nil => exact hsum
  | cons a arguments ih =>
    rw [List.forall_mem_cons] at h
    exact ih (Double.add_not_below hsum h.1) h.2

/-- The strengths of a side that are not below zero add up to what is not. -/
theorem Side.total_not_below {s : Side} (h : ∀ a ∈ s.arguments, a.strength.lt 0 = false) :
    s.total.lt 0 = false :=
  foldl_strength_not_below (by decide +kernel) h

/-! ## Lines -/

/-- A line that shows two quantities: whole percentages of them that make one hundred, and a bar
between the two that has twenty cells, or more if the percentages are out of bounds. They are
within bounds if the quantities are not of opposite signs. -/
def SplitBetween (leftLabel rightLabel : String) (left right : Double) (line : String) : Prop :=
  ∃ (percent : ℤ) (lefts rights : ℕ),
    Bar.percentages left right = .ok (percent, 100 - percent) ∧
    line = s!"{leftLabel} {percent}% {Bar.ofCells lefts rights} {100 - percent}% {rightLabel}" ∧
    20 ≤ lefts + rights ∧ (0 ≤ percent ∧ percent ≤ 100 → lefts + rights = 20) ∧
    (¬ left.Opposed right → 0 ≤ percent ∧ percent ≤ 100)

theorem splitBetween_of_splitLine {leftLabel rightLabel line : String} {left right : Double}
    (hok : splitLine leftLabel rightLabel left right = .ok line) :
    SplitBetween leftLabel rightLabel left right line := by
  obtain ⟨⟨p, q⟩, hpercentages, hok⟩ := Checked.bind_eq_ok hok
  obtain ⟨bar, hbar, hok⟩ := Checked.bind_eq_ok hok
  cases hok
  obtain ⟨-, rfl⟩ := Bar.round_of_percentages hpercentages
  obtain ⟨lefts, rights, rfl, hleast, hexact⟩ := Bar.split_cells hbar
  exact ⟨p, lefts, rights, hpercentages, rfl, hleast, hexact,
    fun h => Bar.percentages_bounds h hpercentages⟩

variable {session : Session} {node : Fields}

theorem run_meter {key : String} {c c' : Canvas} {lines : List String}
    (h : (meter session node key).run c = (.ok lines, c')) :
    ∃ left right line, Bar.number (node.get "leftValue") 0 = .ok left ∧
      Bar.number (node.get "rightValue") 0 = .ok right ∧ lines = [line] ∧
      SplitBetween (textOf node "leftLabel") (textOf node "rightLabel") left right line := by
  have hok := congrArg Prod.fst h
  obtain ⟨left, hleft, hok⟩ := Checked.bind_eq_ok hok
  obtain ⟨right, hright, hok⟩ := Checked.bind_eq_ok hok
  obtain ⟨line, hline, hok⟩ := Checked.bind_eq_ok hok
  cases hok
  exact ⟨left, right, line, hleft, hright, rfl, splitBetween_of_splitLine hline⟩

theorem run_argumentPair {key : String} {c c' : Canvas} {lines : List String}
    (h : (argumentPair session node key).run c = (.ok lines, c')) :
    ∃ a b, side session node "a" "sideA" "Side A" = .ok a ∧
      side session node "b" "sideB" "Side B" = .ok b ∧
      (node.getOr "showMeter" (.bool true) = .bool false ∨ ∃ line below, lines = line :: below ∧
        SplitBetween a.label b.label a.total b.total line) := by
  obtain ⟨a, _, ha, h⟩ := Draw.run_bind_eq_ok h
  obtain ⟨b, _, hb, h⟩ := Draw.run_bind_eq_ok h
  refine ⟨a, b, congrArg Prod.fst ha, congrArg Prod.fst hb, ?_⟩
  dsimp only at h
  split at h
  · rename_i hhidden
    exact .inl hhidden
  · obtain ⟨line, _, hline, h⟩ := Draw.run_bind_eq_ok h
    obtain ⟨head, _, hhead, h⟩ := Draw.run_bind_eq_ok h
    obtain ⟨linesA, _, -, h⟩ := Draw.run_bind_eq_ok h
    obtain ⟨linesB, _, -, hlines⟩ := Draw.run_bind_eq_ok h
    cases hhead
    cases hlines
    exact .inr ⟨line, linesA ++ linesB, rfl, splitBetween_of_splitLine (congrArg Prod.fst hline)⟩

/-- A meter that is drawn without being refused is the line of its two values. An argument pair
begins with the line of the totals of its sides, unless it has no meter; totals of strengths that
are not below zero are not of opposite signs. -/
theorem split_bars_drawn {path : String} {c drawn : Canvas} {lines : List String}
    (hrun : (draw session node path).run c = (.ok lines, drawn))
    (hdone : drawn.failures = c.failures) :
    (LeafKind.ofName? (Node.kindOf node) = some .meter →
      ∃ left right line, Bar.number (node.get "leftValue") 0 = .ok left ∧
        Bar.number (node.get "rightValue") 0 = .ok right ∧ lines = [line] ∧
        SplitBetween (textOf node "leftLabel") (textOf node "rightLabel") left right line) ∧
    (LeafKind.ofName? (Node.kindOf node) = some .argumentPair →
      ∃ a b, side session node "a" "sideA" "Side A" = .ok a ∧
        side session node "b" "sideB" "Side B" = .ok b ∧
        (node.getOr "showMeter" (.bool true) = .bool false ∨ ∃ line below, lines = line :: below ∧
          SplitBetween a.label b.label a.total b.total line) ∧
        ((∀ x ∈ a.arguments ++ b.arguments, x.strength.lt 0 = false) →
          ¬ a.total.Opposed b.total)) := by
  refine ⟨fun hkind => ?_, fun hkind => ?_⟩
  · have hmeter : (meter session node (Leaf.key node path)).run c = (.ok lines, drawn) :=
      run_drawing_of_done hkind hrun hdone
    exact run_meter hmeter
  have hpair : (argumentPair session node (Leaf.key node path)).run c = (.ok lines, drawn) :=
    run_drawing_of_done hkind hrun hdone
  obtain ⟨a, b, ha, hb, hlines⟩ := run_argumentPair hpair
  refine ⟨a, b, ha, hb, hlines, fun hstrengths => ?_⟩
  have htotalA := Side.total_not_below fun x hx => hstrengths x (List.mem_append_left _ hx)
  have htotalB := Side.total_not_below fun x hx => hstrengths x (List.mem_append_right _ hx)
  rintro (⟨hbelow, -⟩ | ⟨-, hbelow⟩)
  · cases htotalA.symm.trans hbelow
  · cases htotalB.symm.trans hbelow

/-- A meter of three to one. -/
def majority : Fields := [("kind", .str "meter"), ("leftValue", .int 3), ("rightValue", .int 1)]

theorem majority_drawn :
    ((draw {} majority "0").run {}).1 = .ok [" 75% |<<<<<<<<<<<<<<<>>>>>| 25% "] ∧
      ((draw {} majority "0").run {}).2.failures = [] ∧
      ∃ left right line, " 75% |<<<<<<<<<<<<<<<>>>>>| 25% " = line ∧
        SplitBetween "" "" left right line := by
  have hlines : ((draw {} majority "0").run {}).1
      = .ok [" 75% |<<<<<<<<<<<<<<<>>>>>| 25% "] :=
    eq_ok_of_toOption (by decide +kernel)
  have hdone : ((draw {} majority "0").run {}).2.failures = [] := by decide +kernel
  have hrun : (draw {} majority "0").run {}
      = (.ok [" 75% |<<<<<<<<<<<<<<<>>>>>| 25% "], ((draw {} majority "0").run {}).2) := by
    rw [← hlines, Prod.mk.eta]
  obtain ⟨left, right, line, -, -, hline, hsplit⟩ := (split_bars_drawn hrun hdone).1 rfl
  exact ⟨hlines, hdone, left, right, line, List.head_eq_of_cons_eq hline, hsplit⟩

/-- A meter of minus one to three. -/
def overdraft : Fields := [("kind", .str "meter"), ("leftValue", .int (-1)), ("rightValue", .int 3)]

/-- Quantities of opposite signs leave the bounds. -/
theorem overdraft_drawn :
    ((draw {} overdraft "0").run {}).1 = .ok [" -50% |>>>>>>>>>>>>>>>>>>>>>>>>>>>>>>| 150% "] :=
  eq_ok_of_toOption (by decide +kernel)

end Leaf
end DecisionBoard
