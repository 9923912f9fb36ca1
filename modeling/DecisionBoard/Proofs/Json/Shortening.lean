import DecisionBoard.Json.Access

/-!
# A text that holds a text is longer

The quotes around a string are not part of it, and every character of the string takes at least
one in the text. So a text inside a text inside a text comes to an end, however it was made.
-/

namespace DecisionBoard
namespace Json

/-- A scan that goes on to give something else has given what that is made of. -/
theorem eq_ok_of_map {α β : Type} {f : α → β} {scan : Scan α} {b : β} {after : Cursor}
    (h : scan.map (fun (a, c) => (f a, c)) = .ok (b, after)) :
    ∃ a, scan = .ok (a, after) ∧ f a = b := by
  cases scan with
  | error e => cases h
  | ok found =>
    cases h
    exact ⟨found.1, rfl, rfl⟩

/-- Every code takes a character, and the closing quote takes one more. -/
theorem length_lt_of_scanCodes {start : Nat} {cs : List Char} {offset : Nat} {codes : List Nat}
    {after : Cursor} (h : scanCodes start cs offset = .ok (codes, after)) :
    codes.length < cs.length := by
  fun_induction scanCodes start cs offset generalizing codes after with
  | case2 rest offset =>
    cases h
    exact Nat.succ_pos _
  -- a code is put in front of those of a rest that is shorter
  | case4 a b c d offset next rest code hread ih =>
    obtain ⟨found, hfound, rfl⟩ := eq_ok_of_map h
    have hshorter := ih hfound
    simp only [List.length_cons] at hshorter ⊢
    omega
  | case7 c rest offset _ _ e _ ih =>
    obtain ⟨found, hfound, rfl⟩ := eq_ok_of_map h
    have hshorter := ih hfound
    simp only [List.length_cons]
    omega
  | case10 c rest offset _ _ _ _ _ ih =>
    obtain ⟨found, hfound, rfl⟩ := eq_ok_of_map h
    exact Nat.succ_lt_succ (ih hfound)
  | case1 => cases h
  | case3 => cases h
  | case5 => cases h
  | case6 => cases h
  | case8 => cases h
  | case9 => cases h

/-- The two halves of a pair make one character. -/
theorem length_ofCodes_le (codes : List Nat) : (ofCodes codes).length ≤ codes.length := by
  fun_induction ofCodes codes with
  | case1 => exact Nat.le_refl 0
  | case2 code => exact Nat.le_refl 1
  | case3 code code' rest hpair ih =>
    simp only [List.length_cons]
    omega
  | case4 code code' rest hpair ih =>
    simp only [List.length_cons] at ih ⊢
    omega

theorem length_lt_of_scanString {start : Nat} {rest : List Char} {t : String} {after : Cursor}
    (h : scanString start rest = .ok (t, after)) : t.length < rest.length := by
  unfold scanString at h
  obtain ⟨codes, hcodes, rfl⟩ := eq_ok_of_map (f := fun codes => String.ofList (ofCodes codes)) h
  rw [String.length_ofList]
  exact Nat.lt_of_le_of_lt (length_ofCodes_le codes) (length_lt_of_scanCodes hcodes)

/-- Neither a number nor a word is a string. -/
theorem scanUnsigned_ne_str (start : Nat) (negative : Bool) (c : Cursor) (t : String)
    (after : Cursor) : scanUnsigned start negative c ≠ .ok (.str t, after) := by
  intro h
  unfold scanUnsigned at h
  dsimp only at h
  split at h
  · cases h
  · split at h
    · cases h
    · split at h
      · cases h
      · split at h <;> cases h

theorem scanScalar_ne_str (c : Cursor) (t : String) (after : Cursor) :
    scanScalar c ≠ .ok (.str t, after) := by
  have hwords : ∀ word ∈ words, word.2.string? = none := by decide
  intro h
  unfold scanScalar at h
  split at h
  · rename_i word v hfound
    cases h
    have hnone := hwords _ (List.mem_of_find?_eq_some hfound)
    cases hnone
  · split at h
    · exact scanUnsigned_ne_str _ _ _ t after h
    · exact scanUnsigned_ne_str _ _ _ t after h

/-- A string is scanned from a text that begins with a quote and goes on longer than it. -/
theorem length_lt_of_scanValue {fuel room : Nat} {c : Cursor} {t : String} {after : Cursor}
    (h : scanValue fuel room c = .ok (.str t, after)) : t.length < c.rest.length := by
  cases fuel with
  | zero => cases h
  | succ fuel =>
    rw [scanValue] at h
    split at h
    · rename_i rest hrest
      obtain ⟨t', hscan, heq⟩ := eq_ok_of_map h
      cases heq
      rw [hrest, List.length_cons]
      exact Nat.lt_succ_of_lt (length_lt_of_scanString hscan)
    · split at h
      · cases h
      · dsimp only at h
        split at h
        · cases h
        · obtain ⟨_, _, heq⟩ := eq_ok_of_map h
          cases heq
    · split at h
      · cases h
      · dsimp only at h
        split at h
        · cases h
        · obtain ⟨_, _, heq⟩ := eq_ok_of_map (f := fun fs => Json.obj (Entries.ofPairs fs)) h
          cases heq
    · exact (scanScalar_ne_str c t after h).elim

/-- A value that is read is scanned from behind the white space in front. -/
theorem exists_scan_of_read {s : String} {v : Json} (h : read s = .ok v) : ∃ after,
    scanValue (2 * s.toList.length + 2) nestingLimit (Cursor.skipSpacing ⟨s.toList, 0⟩)
      = .ok (v, after) := by
  have hdocument : scanDocument s.toList = .ok v := by
    unfold read at h
    dsimp only at h
    split at h
    · cases h
    · cases hscan : scanDocument s.toList with
      | error e =>
        rw [hscan] at h
        cases h
      | ok v =>
        rw [hscan] at h
        cases h
        rfl
  unfold scanDocument at hdocument
  split at hdocument
  · cases hdocument
  · rename_i v' after hscan
    dsimp only at hdocument
    split at hdocument
    · cases hdocument
      exact ⟨after, hscan⟩
    · cases hdocument

/-- A text that holds a text is longer than that. -/
theorem length_lt_of_read {s t : String} (h : read s = .ok (.str t)) : t.length < s.length := by
  obtain ⟨after, hscan⟩ := exists_scan_of_read h
  have hspacing : (s.toList.dropWhile isSpacing).length ≤ s.toList.length :=
    (List.dropWhile_suffix isSpacing).length_le
  rw [← String.length_toList]
  exact Nat.lt_of_lt_of_le (length_lt_of_scanValue hscan) hspacing

/-- No value is read from an empty text. -/
theorem length_pos_of_read {s : String} {v : Json} (h : read s = .ok v) : 0 < s.length := by
  rw [Nat.pos_iff_ne_zero]
  intro hempty
  rw [String.length_eq_zero_iff.mp hempty] at h
  cases h

theorem held?_of_read {s : String} {v : Json} (h : read s = .ok v) : held? s = .ok (some v) := by
  rw [held?, h]

theorem read_of_held? {s : String} {v : Json} (h : held? s = .ok (some v)) : read s = .ok v := by
  rw [held?] at h
  split at h
  · rename_i v' hread
    cases h
    exact hread
  · split at h <;> cases h

end Json
end DecisionBoard
