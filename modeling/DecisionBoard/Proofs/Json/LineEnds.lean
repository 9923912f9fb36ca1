import DecisionBoard.Proofs.Json.RoundTrip
import DecisionBoard.Store

/-!
# Line ends in written values

Inside a string a carriage return is escaped, and nothing else that is written holds one. So the
text of a value is the same after its line ends were unified, as they are when a file is read.
-/

namespace DecisionBoard

namespace Json

variable {style : Style}

theorem return_not_mem_digits {ds : List Char} (h : Numeral.AreDigits ds) : '\r' ∉ ds := by
  intro hmem
  have hdigit := h '\r' hmem
  cases hdigit

theorem return_not_mem_signText (negative : Bool) : '\r' ∉ (Double.signText negative).toList := by
  cases negative <;> decide

theorem return_not_mem_spelling {s : Decimal.Spelling} (h : s.Proper) : '\r' ∉ s.text := by
  have hfraction : '\r' ∉ s.fractionText := by
    rw [Decimal.Spelling.fractionText]
    split
    · exact List.not_mem_nil
    · rw [List.mem_cons, not_or]
      exact ⟨by decide, return_not_mem_digits h.fraction⟩
  have hpower : '\r' ∉ s.powerText := by
    rw [Decimal.Spelling.powerText]
    split
    · exact List.not_mem_nil
    · rename_i e _
      obtain ⟨ds, hds, -, -, htext⟩ := Decimal.exponentText_spec e
      rw [htext, List.mem_cons, List.mem_cons, not_or, not_or]
      refine ⟨by decide, ?_, return_not_mem_digits hds⟩
      split <;> decide
  rw [Decimal.Spelling.text, List.mem_append, List.mem_append, not_or, not_or]
  exact ⟨return_not_mem_digits h.whole.digits, hfraction, hpower⟩

theorem return_not_mem_int (n : Int) : '\r' ∉ (toString n).toList := by
  rw [toList_toString_int, List.mem_append, not_or]
  exact ⟨return_not_mem_signText _, return_not_mem_digits (Numeral.areDigits_toDigits _)⟩

theorem return_not_mem_double (x : Double) : '\r' ∉ writeDouble x := by
  cases x with
  | nan => decide
  | infinite negative => cases negative <;> decide
  | finite negative units hfits =>
    obtain ⟨s, hproper, htext, -⟩ := Double.toText_spelled negative hfits
    have hword : writeDouble (.finite negative units hfits)
        = (Double.finite negative units hfits).toText.toList := rfl
    rw [hword, htext, List.mem_append, not_or]
    exact ⟨return_not_mem_signText _, return_not_mem_spelling hproper⟩

theorem digitChar_ne_return : ∀ d < 16, d.digitChar ≠ '\r' := by decide

theorem return_not_mem_codeEscape {n : Nat} (hn : n < 0x10000) : '\r' ∉ codeEscape n := by
  have hdigit : ∀ d < 16, '\r' ≠ d.digitChar := fun d hd => (digitChar_ne_return d hd).symm
  rw [codeEscape, hexDigits_four hn]
  simp only [List.mem_cons, List.not_mem_nil, or_false, not_or]
  exact ⟨by decide, by decide, hdigit _ (by omega), hdigit _ (by omega), hdigit _ (by omega),
    hdigit _ (by omega)⟩

/-- A carriage return is written as an escape. -/
theorem return_not_mem_stringChar (c : Char) : '\r' ∉ stringChar c := by
  have hescape : ∀ letter : Char, '\r' ≠ letter → '\r' ∉ ['\\', letter] := by
    intro letter hletter
    simp [hletter]
  have hvalid := toNat_lt c
  rw [stringChar]
  split
  · exact hescape '"' (by decide)
  split
  · exact hescape '\\' (by decide)
  split
  · exact hescape 'n' (by decide)
  split
  · exact hescape 'r' (by decide)
  split
  · exact hescape 't' (by decide)
  split
  · exact hescape 'f' (by decide)
  split
  · exact hescape 'b' (by decide)
  split
  · rename_i hplain
    rw [List.mem_singleton]
    rintro rfl
    exact absurd hplain.1 (by decide)
  split
  · rename_i hsmall
    exact return_not_mem_codeEscape hsmall
  · rw [List.mem_append, not_or]
    exact ⟨return_not_mem_codeEscape (by omega), return_not_mem_codeEscape (by omega)⟩

theorem return_not_mem_string (s : String) : '\r' ∉ writeString s := by
  rw [writeString, List.cons_append, List.mem_cons, not_or, List.mem_append, not_or]
  refine ⟨by decide, ?_, by decide⟩
  rw [List.mem_flatMap]
  rintro ⟨c, -, hc⟩
  exact return_not_mem_stringChar c hc

/-- A style that ends lines with line feeds alone. -/
structure Style.Plain (style : Style) : Prop where
  breaks : ∀ depth, '\r' ∉ style.breakAt depth
  comma : '\r' ∉ style.comma
  colon : '\r' ∉ style.colon

theorem Style.plain_indented : Style.indented.Plain where
  breaks := by
    intro depth hmem
    rcases List.mem_cons.mp hmem with h | h
    · cases h
    · exact absurd (List.eq_of_mem_replicate h) (by decide)
  comma := by decide
  colon := by decide

theorem return_not_mem_writeItems (hstyle : style.Plain) {xs : List Json}
    (h : ∀ v ∈ xs, ∀ depth, '\r' ∉ writeAt style depth v) (depth : Nat) :
    '\r' ∉ writeItems style depth xs := by
  induction xs with
  | nil => exact List.not_mem_nil
  | cons x xs ih =>
    have hx := h x List.mem_cons_self depth
    have hxs := ih fun v hv => h v (List.mem_cons_of_mem x hv)
    simp only [writeItems, List.mem_append, not_or]
    exact ⟨⟨⟨hstyle.comma, hstyle.breaks depth⟩, hx⟩, hxs⟩

theorem return_not_mem_writeFields (hstyle : style.Plain) {fs : Fields}
    (h : ∀ f ∈ fs, ∀ depth, '\r' ∉ writeAt style depth f.2) (depth : Nat) :
    '\r' ∉ writeFields style depth fs := by
  induction fs with
  | nil => exact List.not_mem_nil
  | cons f fs ih =>
    have hf := h f List.mem_cons_self depth
    have hfs := ih fun g hg => h g (List.mem_cons_of_mem f hg)
    simp only [writeFields, List.mem_append, not_or]
    exact ⟨⟨⟨⟨⟨hstyle.comma, hstyle.breaks depth⟩, return_not_mem_string f.1⟩, hstyle.colon⟩, hf⟩,
      hfs⟩

/-- No text of a value holds a carriage return. -/
theorem return_not_mem_writeAt (hstyle : style.Plain) (depth : Nat) (v : Json) :
    '\r' ∉ writeAt style depth v := by
  induction v using induct generalizing depth with
  | null =>
    rw [writeAt]
    decide
  | bool b =>
    rw [writeAt]
    cases b <;> decide
  | int n => exact return_not_mem_int n
  | float x => exact return_not_mem_double x
  | str s => exact return_not_mem_string s
  | arr xs ih =>
    cases xs with
    | nil =>
      rw [writeAt]
      decide
    | cons x xs =>
      have hx := fun depth => ih x List.mem_cons_self depth
      have hxs := return_not_mem_writeItems hstyle
        (fun v hv depth => ih v (List.mem_cons_of_mem x hv) depth) (depth + 1)
      simp only [writeAt, List.cons_append, List.mem_cons, List.mem_append, not_or]
      exact ⟨by decide, ⟨⟨⟨hstyle.breaks _, hx _⟩, hxs⟩, hstyle.breaks _⟩, by decide⟩
  | obj fs ih =>
    cases fs with
    | nil =>
      rw [writeAt]
      decide
    | cons f fs =>
      have hf := fun depth => ih f List.mem_cons_self depth
      have hfs := return_not_mem_writeFields hstyle
        (fun g hg depth => ih g (List.mem_cons_of_mem f hg) depth) (depth + 1)
      simp only [writeAt, List.cons_append, List.mem_cons, List.mem_append, not_or]
      exact ⟨by decide, ⟨⟨⟨⟨⟨hstyle.breaks _, return_not_mem_string f.1⟩, hstyle.colon⟩, hf _⟩, hfs⟩,
        hstyle.breaks _⟩, by decide⟩

end Json

namespace Store

theorem go_of_not_mem {cs : List Char} (h : '\r' ∉ cs) : plainLineEnds.go cs = cs := by
  induction cs with
  | nil => rfl
  | cons c cs ih =>
    rw [List.mem_cons, not_or] at h
    have hc : c ≠ '\r' := fun heq => h.1 heq.symm
    rw [plainLineEnds.go, ih h.2]
    · intro _ heq
      exact absurd heq hc
    · exact hc

/-- The text of a value over several lines has plain line ends. -/
theorem plainLineEnds_writeIndented (v : Json) :
    plainLineEnds v.writeIndented = v.writeIndented := by
  rw [plainLineEnds, Json.writeIndented, String.toList_ofList,
    go_of_not_mem (Json.return_not_mem_writeAt Json.Style.plain_indented 0 v)]

end Store

end DecisionBoard
