import DecisionBoard.Json.Reader
import DecisionBoard.Json.Writer

/-!
# Strings are read back from their text

Every character is written so that the codes which are scanned for it are its own: one code within
the basic plane, the two halves of a surrogate pair beyond. Codes so formed are joined back to the
characters that they came from.
-/

namespace DecisionBoard

namespace Json

/-- A scan gives a value and leaves the rest of the text. -/
def Reads {α : Type} (scan : Scan α) (value : α) (rest : List Char) : Prop :=
  ∃ offset, scan = .ok (value, ⟨rest, offset⟩)

theorem Reads.map {α β : Type} {scan : Scan α} {value : α} {rest : List Char} (f : α → β)
    (h : Reads scan value rest) : Reads (scan.map fun (a, c) => (f a, c)) (f value) rest := by
  obtain ⟨offset, hscan⟩ := h
  exact ⟨offset, by rw [hscan]; rfl⟩

/-! ## Hexadecimal digits -/

theorem hexValue?_digitChar : ∀ d < 16, hexValue? d.digitChar = some d := by decide

/-- The last hexadecimal digit stands behind those of the quotient, padding included. -/
theorem hexDigits_succ {width : Nat} (hwidth : width ≠ 0) (n : Nat) :
    Text.hexDigits (width + 1) n = Text.hexDigits width (n / 16) ++ [(n % 16).digitChar] := by
  by_cases hn : n < 16
  · have hquotient : n / 16 = 0 := Nat.div_eq_of_lt hn
    have hdigit : Nat.toDigits 16 n = [n.digitChar] := Nat.toDigits_of_lt_base hn
    have hpad : width + 1 - 1 = width - 1 + 1 := by omega
    rw [Text.hexDigits, hdigit, Text.hexDigits, hquotient, Nat.toDigits_zero, Nat.mod_eq_of_lt hn]
    simp only [List.length_cons, List.length_nil, Nat.zero_add]
    rw [hpad, List.replicate_succ']
  · have hdigits : Nat.toDigits 16 n = Nat.toDigits 16 (n / 16) ++ [(n % 16).digitChar] := by
      rw [Nat.toDigits_eq_if (by decide), if_neg hn]
    have hpad : width + 1 - ((Nat.toDigits 16 (n / 16)).length + 1)
        = width - (Nat.toDigits 16 (n / 16)).length := by omega
    rw [Text.hexDigits, hdigits, Text.hexDigits]
    simp only [List.length_append, List.length_cons, List.length_nil, Nat.zero_add, hpad,
      List.append_assoc]

theorem hexDigits_four {n : Nat} (hn : n < 0x10000) :
    Text.hexDigits 4 n = [(n / 16 / 16 / 16).digitChar, (n / 16 / 16 % 16).digitChar,
      (n / 16 % 16).digitChar, (n % 16).digitChar] := by
  have hfirst : n / 16 / 16 / 16 < 16 := by omega
  have hone : Text.hexDigits 1 (n / 16 / 16 / 16) = [(n / 16 / 16 / 16).digitChar] := by
    rw [Text.hexDigits, Nat.toDigits_of_lt_base hfirst]
    rfl
  rw [hexDigits_succ (by decide), hexDigits_succ (by decide), hexDigits_succ (by decide), hone]
  rfl

/-! ## Codes -/

theorem toNat_lt (c : Char) : c.toNat < 0x110000 := by
  have hvalid : c.toNat.isValidChar := c.valid
  rcases hvalid with h | h <;> omega

/-- The codes that a character is spelled with. -/
def charCodes (c : Char) : List Nat :=
  if c.toNat < 0x10000 then [c.toNat]
  else [0xD800 + (c.toNat - 0x10000) / 0x400, 0xDC00 + (c.toNat - 0x10000) % 0x400]

theorem charCodes_small {c : Char} (h : c.toNat < 0x10000) : charCodes c = [c.toNat] := if_pos h

/-- An escaped code is scanned as that code. Something must follow it. -/
theorem scanCodes_codeEscape {n : Nat} (hn : n < 0x10000) (start offset : Nat) {rest : List Char}
    (hrest : rest ≠ []) :
    scanCodes start (codeEscape n ++ rest) offset
      = (scanCodes start rest (offset + 6)).map fun (codes, c) => (n :: codes, c) := by
  have hcode : hexCode? (n / 16 / 16 / 16).digitChar (n / 16 / 16 % 16).digitChar
      (n / 16 % 16).digitChar (n % 16).digitChar = some n := by
    have hsum : ((n / 16 / 16 / 16 * 16 + n / 16 / 16 % 16) * 16 + n / 16 % 16) * 16 + n % 16 = n := by
      omega
    rw [hexCode?, hexValue?_digitChar _ (by omega), hexValue?_digitChar _ (by omega),
      hexValue?_digitChar _ (by omega), hexValue?_digitChar _ (by omega)]
    exact congrArg some hsum
  rw [codeEscape, hexDigits_four hn]
  cases rest with
  | nil => exact (hrest rfl).elim
  | cons r rest =>
    simp only [List.cons_append, List.nil_append]
    rw [scanCodes]
    exact hcode

/-- A backslash and a letter are scanned as the code of what they stand for. -/
theorem scanCodes_escaped {letter c : Char} (hletter : letter ≠ 'u')
    (h : escaped? letter = some c) (start offset : Nat) (rest : List Char) :
    scanCodes start ('\\' :: letter :: rest) offset
      = (scanCodes start rest (offset + 2)).map fun (codes, cursor) => (c.toNat :: codes, cursor) := by
  rw [scanCodes, if_neg hletter, h]
  intro a b d e rest' hu
  exact absurd hu hletter

/-- A character that needs no escape is scanned as its own code. -/
theorem scanCodes_plain {c : Char} (hquote : c ≠ '"') (hslash : c ≠ '\\') (hcontrol : 0x20 ≤ c.toNat)
    (start offset : Nat) (rest : List Char) :
    scanCodes start (c :: rest) offset
      = (scanCodes start rest (offset + 1)).map fun (codes, cursor) => (c.toNat :: codes, cursor) := by
  rw [scanCodes, if_neg (Nat.not_lt.mpr hcontrol)] <;> simp_all

/-- A character that is written is scanned as its codes. -/
theorem scanCodes_stringChar (c : Char) (start offset : Nat) {rest : List Char} (hrest : rest ≠ []) :
    ∃ offset', scanCodes start (stringChar c ++ rest) offset
      = (scanCodes start rest offset').map fun (codes, cursor) => (charCodes c ++ codes, cursor) := by
  -- a letter behind a backslash: the character is one of seven, whose codes are below the limit
  have hescape : ∀ letter : Char, letter ≠ 'u' → escaped? letter = some c →
      charCodes c = [c.toNat] → stringChar c = ['\\', letter] →
      ∃ offset', scanCodes start (stringChar c ++ rest) offset
        = (scanCodes start rest offset').map
            fun (codes, cursor) => (charCodes c ++ codes, cursor) := by
    intro letter hletter hescaped hcodes hwritten
    rw [hwritten, hcodes]
    exact ⟨offset + 2, scanCodes_escaped hletter hescaped start offset rest⟩
  by_cases hquote : c = '"'
  · subst hquote
    exact hescape '"' (by decide) rfl rfl rfl
  by_cases hslash : c = '\\'
  · subst hslash
    exact hescape '\\' (by decide) rfl rfl rfl
  by_cases hfeed : c = '\n'
  · subst hfeed
    exact hescape 'n' (by decide) rfl rfl rfl
  by_cases hreturn : c = '\r'
  · subst hreturn
    exact hescape 'r' (by decide) rfl rfl rfl
  by_cases htab : c = '\t'
  · subst htab
    exact hescape 't' (by decide) rfl rfl rfl
  by_cases hform : c = '\x0c'
  · subst hform
    exact hescape 'f' (by decide) rfl rfl rfl
  by_cases hback : c = '\x08'
  · subst hback
    exact hescape 'b' (by decide) rfl rfl rfl
  have hwritten : stringChar c
      = if 0x20 ≤ c.toNat ∧ c.toNat < 0x7F then [c]
        else if c.toNat < 0x10000 then codeEscape c.toNat
        else codeEscape (0xD800 + (c.toNat - 0x10000) / 0x400)
          ++ codeEscape (0xDC00 + (c.toNat - 0x10000) % 0x400) := by
    rw [stringChar, if_neg hquote, if_neg hslash, if_neg hfeed, if_neg hreturn, if_neg htab,
      if_neg hform, if_neg hback]
  by_cases hplain : 0x20 ≤ c.toNat ∧ c.toNat < 0x7F
  · have hsmall : c.toNat < 0x10000 := by omega
    rw [hwritten, if_pos hplain, charCodes_small hsmall]
    exact ⟨offset + 1, scanCodes_plain hquote hslash hplain.1 start offset rest⟩
  by_cases hsmall : c.toNat < 0x10000
  · rw [hwritten, if_neg hplain, if_pos hsmall, charCodes_small hsmall]
    exact ⟨offset + 6, scanCodes_codeEscape hsmall start offset hrest⟩
  · have hvalid := toNat_lt c
    have hhigh : 0xD800 + (c.toNat - 0x10000) / 0x400 < 0x10000 := by omega
    have hlow : 0xDC00 + (c.toNat - 0x10000) % 0x400 < 0x10000 := by omega
    have hnext : codeEscape (0xDC00 + (c.toNat - 0x10000) % 0x400) ++ rest ≠ [] :=
      List.append_ne_nil_of_right_ne_nil _ hrest
    refine ⟨offset + 6 + 6, ?_⟩
    rw [hwritten, if_neg hplain, if_neg hsmall, List.append_assoc,
      scanCodes_codeEscape hhigh start offset hnext, scanCodes_codeEscape hlow start _ hrest,
      charCodes, if_neg hsmall]
    cases scanCodes start rest (offset + 6 + 6) <;> rfl

/-- The characters of a string are scanned as their codes, up to the closing quote. -/
theorem reads_codes (start : Nat) (cs rest : List Char) (offset : Nat) :
    Reads (scanCodes start (cs.flatMap stringChar ++ '"' :: rest) offset) (cs.flatMap charCodes)
      rest := by
  induction cs generalizing offset with
  | nil => exact ⟨offset + 1, rfl⟩
  | cons c cs ih =>
    have hnext : cs.flatMap stringChar ++ '"' :: rest ≠ [] :=
      List.append_ne_nil_of_right_ne_nil _ (List.cons_ne_nil _ _)
    obtain ⟨offset', hchar⟩ := scanCodes_stringChar c start offset hnext
    rw [List.flatMap_cons, List.append_assoc, hchar, List.flatMap_cons]
    exact (ih offset').map _

/-! ## Characters -/

theorem codeChar_toNat (c : Char) : codeChar c.toNat = c := by
  have hvalid : c.toNat.isValidChar := c.valid
  have hhalf : (isHighSurrogate c.toNat || isLowSurrogate c.toNat) = false := by
    simp only [isHighSurrogate, isLowSurrogate, Bool.or_eq_false_iff, Bool.and_eq_false_iff,
      decide_eq_false_iff_not]
    rcases hvalid with h | h <;> omega
  rw [codeChar, hhalf]
  exact Char.ofNat_toNat c

/-- The code of a character within the basic plane is no half of a pair. -/
theorem isHighSurrogate_toNat (c : Char) : isHighSurrogate c.toNat = false := by
  have hvalid : c.toNat.isValidChar := c.valid
  simp only [isHighSurrogate, Bool.and_eq_false_iff, decide_eq_false_iff_not]
  rcases hvalid with h | h <;> omega

theorem joinSurrogates_halves {c : Char} (h : ¬ c.toNat < 0x10000) :
    joinSurrogates (0xD800 + (c.toNat - 0x10000) / 0x400) (0xDC00 + (c.toNat - 0x10000) % 0x400)
      = c := by
  have hsum : 0x10000 + (0xD800 + (c.toNat - 0x10000) / 0x400 - 0xD800) * 0x400
      + (0xDC00 + (c.toNat - 0x10000) % 0x400 - 0xDC00) = c.toNat := by omega
  rw [joinSurrogates, hsum, Char.ofNat_toNat]

theorem ofCodes_charCodes (c : Char) (codes : List Nat) :
    ofCodes (charCodes c ++ codes) = c :: ofCodes codes := by
  by_cases hsmall : c.toNat < 0x10000
  · rw [charCodes_small hsmall, List.singleton_append]
    cases codes with
    | nil => exact congrArg (fun d => [d]) (codeChar_toNat c)
    | cons code codes =>
      rw [ofCodes, isHighSurrogate_toNat, codeChar_toNat]
      rfl
  · have hvalid := toNat_lt c
    have hpair : (isHighSurrogate (0xD800 + (c.toNat - 0x10000) / 0x400)
        && isLowSurrogate (0xDC00 + (c.toNat - 0x10000) % 0x400)) = true := by
      simp only [isHighSurrogate, isLowSurrogate, Bool.and_eq_true, decide_eq_true_eq]
      omega
    rw [charCodes, if_neg hsmall, List.cons_append, List.cons_append, List.nil_append, ofCodes,
      if_pos hpair, joinSurrogates_halves hsmall]

theorem ofCodes_flatMap (cs : List Char) : ofCodes (cs.flatMap charCodes) = cs := by
  induction cs with
  | nil => rfl
  | cons c cs ih => rw [List.flatMap_cons, ofCodes_charCodes, ih]

/-- A string is read back from its text, whatever follows. -/
theorem reads_string (start : Nat) (s : String) (rest : List Char) :
    Reads (scanString start (s.toList.flatMap stringChar ++ '"' :: rest)) s rest := by
  have hcodes := (reads_codes start s.toList rest (start + 1)).map
    fun codes => String.ofList (ofCodes codes)
  rw [ofCodes_flatMap, String.ofList_toList] at hcodes
  exact hcodes

end Json

end DecisionBoard
