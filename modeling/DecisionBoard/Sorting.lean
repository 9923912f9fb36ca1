import DecisionBoard.Json.Access

/-!
# Stable sorting with comparisons that may be refused

The run in front that ascends or strictly descends is taken as it comes, a descending one being
turned round. Every later item is put in by halving, behind all that it does not precede. Which
items are compared, and in which order, is fixed by this; it shows where a comparison is refused,
and in the result where the comparisons do not agree with any order.
-/

namespace DecisionBoard.Sorting

variable {α : Type}

/-- The items that go on with a run, and the rest: each precedes the one before it, or else none
does. -/
def extendRun (precedes : α → α → Checked Bool) (descending : Bool) (last : α) :
    List α → Checked (List α × List α)
  | [] => .ok ([], [])
  | x :: xs => do
    if (← precedes x last) = descending then
      let (run, rest) ← extendRun precedes descending x xs
      return (x :: run, rest)
    else return ([], x :: xs)

/-- The run in front, ascending, and the rest. -/
def firstRun (precedes : α → α → Checked Bool) : List α → Checked (List α × List α)
  | x :: y :: rest => do
    let descending ← precedes y x
    let (run, rest) ← extendRun precedes descending y rest
    let run := x :: y :: run
    return (if descending then run.reverse else run, rest)
  | xs => .ok (xs, [])

/-- The place of an item among sorted ones, between two places. -/
def place (precedes : α → α → Checked Bool) (sorted : List α) (x : α) (low high : Nat) :
    Checked Nat :=
  if low < high then do
    let middle := (low + high) / 2
    match sorted[middle]? with
    | none => return low
    | some y =>
      if ← precedes x y then place precedes sorted x low middle
      else place precedes sorted x (middle + 1) high
  else .ok low
termination_by high - low

/-- Puts an item in its place among sorted ones. -/
def insert (precedes : α → α → Checked Bool) (sorted : List α) (x : α) : Checked (List α) := do
  let p ← place precedes sorted x 0 sorted.length
  return sorted.take p ++ x :: sorted.drop p

/-- The items in ascending order. -/
def sort (precedes : α → α → Checked Bool) (xs : List α) : Checked (List α) := do
  let (run, rest) ← firstRun precedes xs
  rest.foldlM (insert precedes) run

/-- The items in descending order, those that are equal in the order in which they come. -/
def sortDescending (precedes : α → α → Checked Bool) (xs : List α) : Checked (List α) :=
  (sort precedes xs.reverse).map List.reverse

/-- An insertion adds the item and nothing else. -/
theorem perm_of_insert {precedes : α → α → Checked Bool} {sorted ys : List α} {x : α}
    (h : insert precedes sorted x = .ok ys) : ys.Perm (x :: sorted) := by
  unfold insert at h
  cases hp : place precedes sorted x 0 sorted.length with
  | error e => simp [hp, bind, Except.bind] at h
  | ok p =>
    simp only [hp, bind, Except.bind, pure, Except.pure, Except.ok.injEq] at h
    subst h
    have moved : (sorted.take p ++ x :: sorted.drop p).Perm (x :: (sorted.take p ++ sorted.drop p)) :=
      List.perm_middle
    simpa using moved

end DecisionBoard.Sorting
