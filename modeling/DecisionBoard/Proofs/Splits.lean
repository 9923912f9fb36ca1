import Mathlib.Data.List.Basic

/-!
# Places in a list that grows

What is said of the past is often said of a place in it: something was done there, with this before
it and that after it. One step more adds one place, and a last element behind each other one.
-/

namespace DecisionBoard

variable {α : Type} {past before after : List α} {last a : α}

/-- A place in a list with one more element is the new one, or a place before it. -/
theorem concat_eq_append_cons : past ++ [last] = before ++ a :: after ↔
    (before = past ∧ a = last ∧ after = []) ∨
      ∃ between, after = between ++ [last] ∧ past = before ++ a :: between := by
  constructor
  · intro h
    rcases List.eq_nil_or_concat' after with rfl | ⟨between, last', rfl⟩
    · obtain ⟨rfl, hlast⟩ := List.append_inj' h rfl
      exact .inl ⟨rfl, (List.cons.inj hlast).1.symm, rfl⟩
    · rw [← List.cons_append, ← List.append_assoc] at h
      obtain ⟨rfl, hlast⟩ := List.append_inj' h rfl
      cases hlast
      exact .inr ⟨between, rfl, rfl⟩
  · rintro (⟨rfl, rfl, rfl⟩ | ⟨between, rfl, rfl⟩)
    · rfl
    · rw [List.append_assoc, List.cons_append]

theorem nil_ne_append_cons : [] ≠ before ++ a :: after :=
  (List.append_ne_nil_of_right_ne_nil before (List.cons_ne_nil a after)).symm

end DecisionBoard
