import DecisionBoard.Sorting
import Mathlib.Data.List.Chain

/-!
# What sorting gives

With comparisons that come from an order and are never refused, sorting gives the same items in
ascending order, or in descending order when turned round. Which items are compared depends on the
results of comparisons alone, so sorting commutes with every function that comparisons see through.
-/

namespace DecisionBoard.Sorting

/-! ## Sorting by way of another type -/

section Naturality

variable {α β : Type} (g : α → β) (precedes : β → β → Checked Bool)

/-- Comparison of what a function gives. -/
abbrev through (a b : α) : Checked Bool := precedes (g a) (g b)

theorem extendRun_map (descending : Bool) (last : α) (xs : List α) :
    extendRun precedes descending (g last) (xs.map g)
      = (extendRun (through g precedes) descending last xs).map
          (Prod.map (List.map g) (List.map g)) := by
  induction xs generalizing last with
  | nil => rfl
  | cons x xs ih =>
    simp only [List.map_cons, extendRun, through, bind, Except.bind]
    cases precedes (g x) (g last) with
    | error fault => rfl
    | ok found =>
      by_cases hfound : found = descending
      · simp only [hfound, if_true, ih]
        cases extendRun (through g precedes) descending x xs <;> rfl
      · simp only [hfound, if_false]
        rfl

theorem firstRun_map (xs : List α) :
    firstRun precedes (xs.map g)
      = (firstRun (through g precedes) xs).map (Prod.map (List.map g) (List.map g)) := by
  cases xs with
  | nil => rfl
  | cons x xs =>
    cases xs with
    | nil => rfl
    | cons y rest =>
      simp only [List.map_cons, firstRun, through, bind, Except.bind]
      cases precedes (g y) (g x) with
      | error fault => rfl
      | ok descending =>
        simp only [extendRun_map]
        cases extendRun (through g precedes) descending y rest with
        | error fault => rfl
        | ok found =>
          obtain ⟨run, rest⟩ := found
          cases descending <;> simp [Except.map, pure, Except.pure]

theorem place_map (sorted : List α) (x : α) (low high : Nat) :
    place precedes (sorted.map g) (g x) low high
      = place (through g precedes) sorted x low high := by
  induction low, high using place.induct sorted with
  | case1 low high hlt middle hnone =>
    have hnone' : (sorted.map g)[(low + high) / 2]? = none := by
      rw [List.getElem?_map, hnone, Option.map_none]
    rw [place, if_pos hlt, place, if_pos hlt]
    simp only [hnone', show sorted[(low + high) / 2]? = none from hnone]
  | case2 low high hlt middle y hsome ihlow ihhigh =>
    have hsome' : (sorted.map g)[(low + high) / 2]? = some (g y) := by
      rw [List.getElem?_map, hsome, Option.map_some]
    have hlow : place precedes (sorted.map g) (g x) low ((low + high) / 2) = _ := ihlow
    have hhigh : place precedes (sorted.map g) (g x) ((low + high) / 2 + 1) high = _ := ihhigh
    rw [place, if_pos hlt, place, if_pos hlt]
    simp only [hsome', show sorted[(low + high) / 2]? = some y from hsome, hlow, hhigh]
    rfl
  | case3 low high hlt => rw [place, if_neg hlt, place, if_neg hlt]

theorem insert_map (sorted : List α) (x : α) :
    insert precedes (sorted.map g) (g x)
      = (insert (through g precedes) sorted x).map (List.map g) := by
  simp only [insert, List.length_map, place_map, bind, Except.bind]
  cases place (through g precedes) sorted x 0 sorted.length with
  | error fault => rfl
  | ok p => simp [Except.map, pure, Except.pure]

theorem foldlM_insert_map (sorted xs : List α) :
    (xs.map g).foldlM (insert precedes) (sorted.map g)
      = (xs.foldlM (insert (through g precedes)) sorted).map (List.map g) := by
  induction xs generalizing sorted with
  | nil => rfl
  | cons x xs ih =>
    simp only [List.map_cons, List.foldlM_cons, insert_map, bind, Except.bind]
    cases insert (through g precedes) sorted x with
    | error fault => rfl
    | ok sorted' => exact ih sorted'

theorem sort_map (xs : List α) :
    sort precedes (xs.map g) = (sort (through g precedes) xs).map (List.map g) := by
  simp only [sort, firstRun_map, bind, Except.bind]
  cases firstRun (through g precedes) xs with
  | error fault => rfl
  | ok found => exact foldlM_insert_map g precedes found.1 found.2

/-- Sorting what a function gives is sorting through that function. -/
theorem sortDescending_map (xs : List α) :
    sortDescending precedes (xs.map g)
      = (sortDescending (through g precedes) xs).map (List.map g) := by
  rw [sortDescending, ← List.map_reverse, sort_map, sortDescending]
  cases sort (through g precedes) xs.reverse with
  | error fault => rfl
  | ok sorted => simp [Except.map]

end Naturality

/-! ## Sorting by an order -/

section Order

variable {α : Type} {lt : α → α → Bool}

/-- Comparisons by an order in which two items may be level. -/
structure IsOrder (lt : α → α → Bool) : Prop where
  asymm : ∀ {a b}, lt a b = true → lt b a = false
  trans : ∀ {a b c}, lt b a = false → lt c b = false → lt c a = false

theorem IsOrder.trans_lt (h : IsOrder lt) {a b c : α} (hab : lt b a = true) (hbc : lt c b = true) :
    lt c a = true := by
  by_contra hca
  -- were `a` not above `c`, it would not be above `b` either
  have hac : lt c a = false := Bool.eq_false_iff.mpr hca
  have hbc' : lt b c = false := h.asymm hbc
  have hba : lt b a = false := h.trans hac hbc'
  rw [hab] at hba
  cases hba

/-- Comparisons that are never refused. -/
abbrev ofOrder (lt : α → α → Bool) (a b : α) : Checked Bool := .ok (lt a b)

/-- No item stands behind one that it precedes. -/
def Ascending (lt : α → α → Bool) (xs : List α) : Prop := xs.Pairwise fun a b => lt b a = false

theorem extendRun_spec (descending : Bool) (last : α) (xs : List α) :
    ∃ run rest, extendRun (ofOrder lt) descending last xs = .ok (run, rest) ∧ xs = run ++ rest ∧
      (last :: run).IsChain fun a b => lt b a = descending := by
  induction xs generalizing last with
  | nil => exact ⟨[], [], rfl, rfl, .singleton last⟩
  | cons x xs ih =>
    by_cases hfound : lt x last = descending
    · obtain ⟨run, rest, hrun, hsplit, hchain⟩ := ih x
      refine ⟨x :: run, rest, ?_, ?_, ?_⟩
      · simp only [extendRun, bind, Except.bind, hfound, if_true]
        rw [hrun]
        rfl
      · rw [hsplit, List.cons_append]
      · exact .cons_cons hfound hchain
    · refine ⟨[], x :: xs, ?_, rfl, .singleton last⟩
      simp only [extendRun, bind, Except.bind, hfound, if_false]
      rfl

/-- The run in front is ascending, and nothing is lost. -/
theorem firstRun_spec (h : IsOrder lt) (xs : List α) :
    ∃ run rest, firstRun (ofOrder lt) xs = .ok (run, rest) ∧ (run ++ rest).Perm xs ∧
      Ascending lt run := by
  match xs with
  | [] => exact ⟨[], [], rfl, .nil, .nil⟩
  | [x] => exact ⟨[x], [], rfl, .refl _, List.pairwise_singleton _ x⟩
  | x :: y :: rest =>
    obtain ⟨run, rest', hrun, hsplit, hchain⟩ := extendRun_spec (lt y x) y rest
    have hfull : (x :: y :: run).IsChain fun a b => lt b a = lt y x := .cons_cons rfl hchain
    have hfirst : firstRun (ofOrder lt) (x :: y :: rest)
        = .ok (if lt y x then (x :: y :: run).reverse else x :: y :: run, rest') := by
      simp only [firstRun, bind, Except.bind, hrun]
      rfl
    refine ⟨_, rest', hfirst, ?_, ?_⟩
    · rw [hsplit]
      split
      · exact (List.reverse_perm _).append_right rest'
      · exact .refl _
    · cases hdescending : lt y x with
      | false =>
        rw [hdescending] at hfull
        have : IsTrans α fun a b => lt b a = false := ⟨fun _ _ _ => h.trans⟩
        exact hfull.pairwise
      | true =>
        rw [hdescending] at hfull
        have : IsTrans α fun a b => lt b a = true := ⟨fun _ _ _ => h.trans_lt⟩
        have hstrict : (x :: y :: run).Pairwise fun a b => lt b a = true := hfull.pairwise
        have hturned : (x :: y :: run).reverse.Pairwise fun a b => lt a b = true :=
          List.pairwise_reverse.mpr hstrict
        exact hturned.imp fun hab => h.asymm hab

theorem Ascending.getElem? {sorted : List α} (hsorted : Ascending lt sorted) {i j : Nat} {a b : α}
    (hij : i < j) (ha : sorted[i]? = some a) (hb : sorted[j]? = some b) : lt b a = false := by
  obtain ⟨hi, rfl⟩ := List.getElem?_eq_some_iff.mp ha
  obtain ⟨hj, rfl⟩ := List.getElem?_eq_some_iff.mp hb
  exact List.pairwise_iff_getElem.mp hsorted i j hi hj hij

/-- What an item precedes somewhere, it precedes from there on. -/
theorem Ascending.precedes_from {sorted : List α} (hsorted : Ascending lt sorted) (h : IsOrder lt)
    {m i : Nat} {x y z : α} (hy : sorted[m]? = some y) (hxy : lt x y = true) (hmi : m ≤ i)
    (hz : sorted[i]? = some z) : lt x z = true := by
  rcases Nat.eq_or_lt_of_le hmi with rfl | hmi
  · rw [hy] at hz
    cases hz
    exact hxy
  · by_contra hxz
    have hcontra := h.trans (hsorted.getElem? hmi hy hz) (Bool.eq_false_iff.mpr hxz)
    rw [hxy] at hcontra
    cases hcontra

/-- What an item does not precede somewhere, it does not precede up to there. -/
theorem Ascending.not_precedes_upto {sorted : List α} (hsorted : Ascending lt sorted)
    (h : IsOrder lt) {m i : Nat} {x y z : α} (hy : sorted[m]? = some y) (hxy : lt x y = false)
    (him : i ≤ m) (hz : sorted[i]? = some z) : lt x z = false := by
  rcases Nat.eq_or_lt_of_le him with rfl | him
  · rw [hy] at hz
    cases hz
    exact hxy
  · exact h.trans (hsorted.getElem? him hz hy) hxy

/-- The place of an item is behind all that it does not precede and before all that it does. -/
theorem place_spec {sorted : List α} (hsorted : Ascending lt sorted) (h : IsOrder lt) (x : α)
    (low high : Nat) (hle : low ≤ high) (hhigh : high ≤ sorted.length)
    (hbelow : ∀ i y, i < low → sorted[i]? = some y → lt x y = false)
    (habove : ∀ i y, high ≤ i → sorted[i]? = some y → lt x y = true) :
    ∃ p, place (ofOrder lt) sorted x low high = .ok p ∧
      (∀ i y, i < p → sorted[i]? = some y → lt x y = false) ∧
      (∀ i y, p ≤ i → sorted[i]? = some y → lt x y = true) := by
  induction low, high using place.induct sorted with
  | case1 low high hlt middle hnone =>
    have hin : middle < sorted.length := by
      have hmiddle : middle = (low + high) / 2 := rfl
      omega
    rw [List.getElem?_eq_getElem hin] at hnone
    cases hnone
  | case2 low high hlt middle y hsome ihlow ihhigh =>
    have hmiddle : middle = (low + high) / 2 := rfl
    have hstep : place (ofOrder lt) sorted x low high
        = if lt x y then place (ofOrder lt) sorted x low middle
          else place (ofOrder lt) sorted x (middle + 1) high := by
      rw [place, if_pos hlt]
      simp only [show sorted[(low + high) / 2]? = some y from hsome]
      rfl
    rw [hstep]
    cases hxy : lt x y with
    | true =>
      rw [if_pos rfl]
      exact ihlow (by omega) (by omega) hbelow
        fun _ _ hi hz => hsorted.precedes_from h hsome hxy hi hz
    | false =>
      exact ihhigh (by omega) (by omega)
        (fun _ _ hi hz => hsorted.not_precedes_upto h hsome hxy (Nat.le_of_lt_succ hi) hz) habove
  | case3 low high hlt =>
    have heq : low = high := by omega
    subst heq
    exact ⟨low, by rw [place, if_neg hlt], hbelow, habove⟩

theorem insert_spec {sorted : List α} (hsorted : Ascending lt sorted) (h : IsOrder lt) (x : α) :
    ∃ ys, insert (ofOrder lt) sorted x = .ok ys ∧ Ascending lt ys := by
  obtain ⟨p, hplace, hbelow, habove⟩ := place_spec hsorted h x 0 sorted.length (Nat.zero_le _)
    (Nat.le_refl _) (fun i y hi => absurd hi (Nat.not_lt_zero i)) (by
      intro i y hi hy
      rw [List.getElem?_eq_none hi] at hy
      cases hy)
  refine ⟨sorted.take p ++ x :: sorted.drop p, ?_, ?_⟩
  · simp only [insert, bind, Except.bind, hplace]
    rfl
  · have htake : ∀ y ∈ sorted.take p, lt x y = false := by
      intro y hy
      obtain ⟨i, hi⟩ := List.mem_iff_getElem?.mp hy
      rw [List.getElem?_take] at hi
      split at hi
      · rename_i hip
        exact hbelow i y hip hi
      · cases hi
    have hdrop : ∀ y ∈ sorted.drop p, lt x y = true := by
      intro y hy
      obtain ⟨i, hi⟩ := List.mem_iff_getElem?.mp hy
      rw [List.getElem?_drop] at hi
      exact habove (p + i) y (Nat.le_add_right p i) hi
    have hparts : Ascending lt (sorted.take p ++ sorted.drop p) := by
      rw [List.take_append_drop]
      exact hsorted
    rw [Ascending, List.pairwise_append] at hparts
    rw [Ascending, List.pairwise_append, List.pairwise_cons]
    refine ⟨hparts.1, ⟨fun y hy => h.asymm (hdrop y hy), hparts.2.1⟩, ?_⟩
    intro y hy z hz
    rcases List.mem_cons.mp hz with rfl | hz
    · exact htake y hy
    · exact hparts.2.2 y hy z hz

theorem foldlM_insert_spec (h : IsOrder lt) {sorted : List α} (hsorted : Ascending lt sorted)
    (xs : List α) :
    ∃ ys, xs.foldlM (insert (ofOrder lt)) sorted = .ok ys ∧ ys.Perm (sorted ++ xs) ∧
      Ascending lt ys := by
  induction xs generalizing sorted with
  | nil => exact ⟨sorted, rfl, by rw [List.append_nil], hsorted⟩
  | cons x xs ih =>
    obtain ⟨sorted', hinsert, hsorted'⟩ := insert_spec hsorted h x
    obtain ⟨ys, hfold, hperm, hys⟩ := ih hsorted'
    have hmoved : (sorted' ++ xs).Perm (sorted ++ x :: xs) :=
      ((perm_of_insert hinsert).append_right xs).trans List.perm_middle.symm
    refine ⟨ys, ?_, hperm.trans hmoved, hys⟩
    rw [List.foldlM_cons, hinsert]
    exact hfold

/-- Sorting in descending order gives the same items, none of them behind one that it exceeds. -/
theorem sortDescending_spec (h : IsOrder lt) (xs : List α) :
    ∃ ys, sortDescending (ofOrder lt) xs = .ok ys ∧ ys.Perm xs ∧
      ys.Pairwise fun a b => lt a b = false := by
  obtain ⟨run, rest, hrun, hperm, hascending⟩ := firstRun_spec h xs.reverse
  obtain ⟨ys, hfold, hperm', hys⟩ := foldlM_insert_spec h hascending rest
  refine ⟨ys.reverse, ?_, ?_, List.pairwise_reverse.mpr hys⟩
  · simp only [sortDescending, sort, bind, Except.bind, hrun, hfold]
    rfl
  · exact (List.reverse_perm ys).trans ((hperm'.trans hperm).trans (List.reverse_perm xs))

end Order

end DecisionBoard.Sorting
