import DecisionBoard.Proofs.Number.Digits
import DecisionBoard.Refs
import Mathlib.Data.List.Basic

/-!
# Refs by number

A key keeps its ref when further refs are given out, and when those are taken back. A target that
is the ref with a number stands for the key with that number, or for nothing.
-/

namespace DecisionBoard
namespace Refs

/-! ## Giving out refs -/

theorem assign_eq (refs : Refs) (key : String) : (refs.assign key).2 =
    ⟨if key ∈ refs.keys then refs.keys else refs.keys ++ [key]⟩ := by
  by_cases hmem : key ∈ refs.keys
  · obtain ⟨i, hi⟩ : ∃ i, refs.keys.idxOf? key = some i := by
      rw [← Option.isSome_iff_exists, List.isSome_idxOf?]
      exact hmem
    rw [if_pos hmem, assign, lookup, number?, hi]
    rfl
  · have hnone : refs.keys.idxOf? key = none := List.idxOf?_eq_none_iff.mpr hmem
    rw [if_neg hmem, assign, lookup, number?, hnone]
    rfl

section
variable {refs : Refs} {key : String}

theorem lookup_of_mem (h : key ∈ refs.keys) :
    refs.lookup key = some (name (refs.keys.idxOf key + 1)) := by
  obtain ⟨i, hi⟩ : ∃ i, refs.keys.idxOf? key = some i := by
    rw [← Option.isSome_iff_exists, List.isSome_idxOf?]
    exact h
  rw [lookup, number?, List.idxOf_eq_getD_idxOf?, hi]
  rfl

theorem lookup_of_not_mem (h : key ∉ refs.keys) : refs.lookup key = none := by
  rw [lookup, number?, List.idxOf?_eq_none_iff.mpr h]
  rfl

/-- The key with a number has the ref with that number. -/
theorem lookup_of_getElem? (hdistinct : refs.keys.Nodup) {n : Nat}
    (h : refs.keys[n]? = some key) : refs.lookup key = some (name (n + 1)) := by
  obtain ⟨hn, rfl⟩ := List.getElem?_eq_some_iff.mp h
  rw [lookup_of_mem (List.getElem_mem hn), hdistinct.idxOf_getElem n hn]

theorem lookup_append (h : key ∈ refs.keys) (more : List String) :
    (⟨refs.keys ++ more⟩ : Refs).lookup key = refs.lookup key := by
  rw [lookup_of_mem h, lookup_of_mem (List.mem_append_left more h), List.idxOf_append_of_mem h]

/-- Keys that have a ref keep it. -/
theorem lookup_assign_of_mem (h : key ∈ refs.keys) (other : String) :
    (refs.assign other).2.lookup key = refs.lookup key := by
  rw [assign_eq]
  split
  · rfl
  · exact lookup_append h [other]

theorem mem_keys_assign (refs : Refs) (key : String) : key ∈ (refs.assign key).2.keys := by
  rw [assign_eq]
  split
  · assumption
  · exact List.mem_append_right _ List.mem_cons_self

theorem lookup_assign_self (refs : Refs) (key : String) :
    (refs.assign key).2.lookup key = some (refs.assign key).1 := by
  by_cases h : key ∈ refs.keys
  · rw [lookup_assign_of_mem h, assign, lookup_of_mem h]
  · rw [lookup_of_mem (mem_keys_assign refs key), assign_eq, if_neg h, assign, lookup_of_not_mem h,
      List.idxOf_append_of_notMem h, List.idxOf_cons_self]
    rfl

/-- Refs given out after a mark are taken back. -/
theorem rollback_append (refs : Refs) (more : List String) :
    (⟨refs.keys ++ more⟩ : Refs).rollback refs.size = refs := by
  have hmark : ¬ ((refs.size : Int) < 0) := Int.not_lt.mpr (Int.natCast_nonneg _)
  rw [rollback, if_neg hmark, Int.toNat_natCast, size, List.take_left]

end

/-! ## Reading refs -/

theorem toList_name (n : Nat) : (name n).toList = '@' :: 'e' :: Nat.toDigits 10 n := by
  rw [name, String.toList_append, Numeral.toList_toString]
  rfl

/-- The ref with a number is resolved by the number, if that has no more digits than are read. -/
theorem resolve_name (refs : Refs) (n : Nat) : refs.resolve (name n) =
    if Numeral.digitLimit < (Nat.toDigits 10 n).length then
      .error (.tooManyDigits (Nat.toDigits 10 n).length)
    else if n = 0 then .error (.unknownRef (name n))
    else (refs.keys[n - 1]?).elim (.error (.unknownRef (name n))) .ok := by
  have hdigits := Numeral.areDigits_toDigits n
  have hne : Nat.toDigits 10 n ≠ [] := Nat.toDigits_ne_nil
  have hprefix : sigil.toList.isPrefixOf (name n).toList = true := by
    rw [toList_name]
    rfl
  have hdrop : (name n).toList.drop sigil.length = Nat.toDigits 10 n := by
    rw [toList_name]
    rfl
  have hlike : (Nat.toDigits 10 n).all Text.isDigitLike = true := by
    rw [List.all_eq_true]
    intro c hc
    refine Text.isDigitLike_of_isDecimalDigit ?_
    have hlow := Numeral.toNat_of_isDigit (hdigits c hc)
    rw [Text.isDecimalDigit, Text.digitValue?, if_pos (by omega), if_pos (hdigits c hc)]
    rfl
  have hread := Numeral.wholeNumber?_ofList hdigits hne
  have hempty : (Nat.toDigits 10 n).isEmpty = false := by
    rw [List.isEmpty_eq_false_iff]
    exact hne
  simp only [resolve, hprefix, hdrop, hlike, hempty, Bool.not_true, Bool.or_false,
    Bool.false_eq_true, if_false, Json.toWhole, hread]
  by_cases hlimit : Numeral.digitLimit < (Nat.toDigits 10 n).length
  · rw [if_pos hlimit, if_pos hlimit]
    rfl
  · rw [if_neg hlimit, if_neg hlimit]
    simp only [Numeral.digitsValue_toDigits, bind, Except.bind]
    by_cases hzero : n = 0
    · subst hzero
      rfl
    · have hpos : (0 : Int) < n := by omega
      rw [if_neg hzero, if_pos hpos, Int.toNat_natCast]
      cases refs.keys[n - 1]? <;> rfl

section
variable {refs : Refs} {n : Nat}

/-- The ref of a place stands for the key that is there, if its number can be read. -/
theorem resolve_name_of_getElem? {key : String} (hkey : refs.keys[n]? = some key)
    (hdigits : (Nat.toDigits 10 (n + 1)).length ≤ Numeral.digitLimit) :
    refs.resolve (name (n + 1)) = .ok key := by
  rw [resolve_name, if_neg (Nat.not_lt.mpr hdigits), if_neg (Nat.succ_ne_zero n),
    Nat.add_sub_cancel, hkey]
  rfl

/-- The ref of a place beyond the keys is refused. -/
theorem resolve_name_of_none (hnone : refs.keys[n]? = none) :
    ∃ fault, refs.resolve (name (n + 1)) = .error fault := by
  rw [resolve_name]
  split
  · exact ⟨_, rfl⟩
  · rw [if_neg (Nat.succ_ne_zero n), Nat.add_sub_cancel, hnone]
    exact ⟨_, rfl⟩

end

end Refs
end DecisionBoard
