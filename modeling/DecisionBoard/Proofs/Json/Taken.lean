import DecisionBoard.Proofs.Json.RoundTrip
import DecisionBoard.Proofs.Json.Shortening
import DecisionBoard.Text.Blank

/-!
# What is taken for a string or a number

A scan that gives something has taken the characters of that and has looked no further: in front of
any other rest it would have given the same, unless the rest goes on with a number. What it takes
holds no control characters but white space, and ends in no blank.
-/

namespace DecisionBoard
namespace Json

open Numeral (AreDigits EndsDigits IsWhole spanDigits spanDigits_append splitSign)

/-- A character that a text may hold as it is: white space, or none of the control characters. -/
def IsVisible (c : Char) : Prop := 0x20 ≤ c.toNat ∨ isSpacing c = true

/-- The last character is not blank. -/
def Closed (cs : List Char) : Prop := ∃ body last, cs = body ++ [last] ∧ Text.isBlank last = false

/-- A scan takes some characters for what it gives: in front of any rest that ends it, given fuel for
what is taken. -/
structure Takes {α : Type} (scan : Nat → Cursor → Scan α) (ends : List Char → Prop) (a : α)
    (taken : List Char) : Prop where
  visible : ∀ c ∈ taken, IsVisible c
  closed : Closed taken
  reads : ∀ fuel, 2 * taken.length ≤ fuel → ∀ offset rest, ends rest →
    Reads (scan fuel ⟨taken ++ rest, offset⟩) a rest

/-! ## Characters -/

theorem isVisible_of_le {c : Char} (h : 0x20 ≤ c.toNat) : IsVisible c := .inl h

theorem isBlank_ascii {c : Char} (hlow : 0x20 < c.toNat) (hhigh : c.toNat < 0x85) :
    Text.isBlank c = false := by
  simp only [Text.isBlank, Bool.or_eq_false_iff, Bool.and_eq_false_iff, decide_eq_false_iff_not,
    beq_eq_false_iff_ne]
  omega

theorem isBlank_of_isDigit {c : Char} (h : c.isDigit = true) : Text.isBlank c = false := by
  have hbounds := Numeral.toNat_of_isDigit h
  exact isBlank_ascii (by omega) (by omega)

theorem closed_append {cs : List Char} (front : List Char) (h : Closed cs) : Closed (front ++ cs) := by
  obtain ⟨body, last, rfl, hlast⟩ := h
  exact ⟨front ++ body, last, (List.append_assoc _ _ _).symm, hlast⟩

theorem closed_singleton {c : Char} (h : Text.isBlank c = false) : Closed [c] := ⟨[], c, rfl, h⟩

theorem closed_digits {ds : List Char} (hds : AreDigits ds) (hne : ds ≠ []) : Closed ds :=
  ⟨ds.dropLast, ds.getLast hne, (List.dropLast_concat_getLast hne).symm,
    isBlank_of_isDigit (hds _ (List.getLast_mem hne))⟩

theorem Closed.ne_nil {cs : List Char} (h : Closed cs) : cs ≠ [] := by
  obtain ⟨body, last, rfl, -⟩ := h
  simp

theorem visible_of_isDigit {c : Char} (h : c.isDigit = true) : IsVisible c :=
  isVisible_of_le (by have := Numeral.toNat_of_isDigit h; omega)

theorem visible_digits {ds : List Char} (hds : AreDigits ds) : ∀ c ∈ ds, IsVisible c :=
  fun c hc => visible_of_isDigit (hds c hc)

theorem visible_gap {gap : List Char} (hgap : IsGap gap) : ∀ c ∈ gap, IsVisible c :=
  fun c hc => .inr (hgap c hc)

theorem visible_append {cs ds : List Char} (hcs : ∀ c ∈ cs, IsVisible c) (hds : ∀ c ∈ ds, IsVisible c) :
    ∀ c ∈ cs ++ ds, IsVisible c :=
  fun c hc => (List.mem_append.mp hc).elim (hcs c) (hds c)

theorem visible_cons {c : Char} {cs : List Char} (hc : IsVisible c) (hcs : ∀ d ∈ cs, IsVisible d) :
    ∀ d ∈ c :: cs, IsVisible d :=
  List.forall_mem_cons.mpr ⟨hc, hcs⟩

/-! ## Strings -/

theorem visible_of_hexValue? {c : Char} {n : Nat} (h : hexValue? c = some n) : IsVisible c := by
  have hle : ∀ d : Char, d ≤ c → d.toNat ≤ c.toNat := fun d h => h
  rw [hexValue?] at h
  refine isVisible_of_le ?_
  split at h
  · rename_i hdigit
    exact Nat.le_trans (by decide) (hle '0' hdigit.1)
  · split at h
    · rename_i hlower
      exact Nat.le_trans (by decide) (hle 'a' hlower.1)
    · split at h
      · rename_i hupper
        exact Nat.le_trans (by decide) (hle 'A' hupper.1)
      · cases h

theorem visible_of_hexCode? {a b c d : Char} {n : Nat} (h : hexCode? a b c d = some n) :
    IsVisible a ∧ IsVisible b ∧ IsVisible c ∧ IsVisible d := by
  simp only [hexCode?, bind, Option.bind_eq_some_iff, pure, Option.some.injEq] at h
  obtain ⟨_, ha, _, hb, _, hc, _, hd, -⟩ := h
  exact ⟨visible_of_hexValue? ha, visible_of_hexValue? hb, visible_of_hexValue? hc,
    visible_of_hexValue? hd⟩

theorem visible_of_escaped? {c e : Char} (h : escaped? c = some e) : IsVisible c := by
  refine isVisible_of_le ?_
  unfold escaped? at h
  split at h
  all_goals first | decide | cases h

/-- Four hexadecimal digits are scanned as the code they spell. Something must follow them. -/
theorem scanCodes_hex {a b c d : Char} {code : Nat} (h : hexCode? a b c d = some code)
    (start offset : Nat) {rest : List Char} (hrest : rest ≠ []) :
    scanCodes start ('\\' :: 'u' :: a :: b :: c :: d :: rest) offset
      = (scanCodes start rest (offset + 6)).map fun (codes, c) => (code :: codes, c) := by
  obtain ⟨r, rs, rfl⟩ := List.exists_cons_of_ne_nil hrest
  rw [scanCodes]
  exact h

/-- The codes of a string take its characters up to the closing quote. -/
theorem takes_codes {start : Nat} {cs : List Char} {offset : Nat} {codes : List Nat} {after : Cursor}
    (h : scanCodes start cs offset = .ok (codes, after)) : ∃ taken, cs = taken ++ after.rest ∧
      ∀ start, Takes (fun _ c => scanCodes start c.rest c.offset) (fun _ => True) codes taken := by
  fun_induction scanCodes start cs offset generalizing codes after with
  | case2 rest offset =>
    cases h
    refine ⟨['"'], rfl, fun start => ⟨?_, closed_singleton (by decide), ?_⟩⟩
    · exact visible_cons (isVisible_of_le (by decide)) (List.forall_mem_nil _)
    · exact fun _ _ offset rest _ => ⟨_, by rw [List.singleton_append, scanCodes]⟩
  | case4 a b c d offset first next code hread ih =>
    obtain ⟨found, hfound, rfl⟩ := eq_ok_of_map h
    obtain ⟨taken, hsplit, htakes⟩ := ih hfound
    obtain ⟨ha, hb, hc, hd⟩ := visible_of_hexCode? hread
    refine ⟨'\\' :: 'u' :: a :: b :: c :: d :: taken, by rw [hsplit]; rfl, fun start => ⟨?_, ?_, ?_⟩⟩
    · exact visible_cons (isVisible_of_le (by decide)) (visible_cons (isVisible_of_le (by decide))
        (visible_cons ha (visible_cons hb (visible_cons hc (visible_cons hd (htakes start).visible)))))
    · exact closed_append ['\\', 'u', a, b, c, d] (htakes start).closed
    · intro fuel _ offset rest _
      have hmore := (htakes start).reads _ (Nat.le_refl _) (offset + 6) rest trivial
      have hne : taken ++ rest ≠ [] := List.append_ne_nil_of_left_ne_nil (htakes start).closed.ne_nil _
      show Reads (scanCodes start ('\\' :: 'u' :: a :: b :: c :: d :: (taken ++ rest)) offset) _ rest
      rw [scanCodes_hex hread start offset hne]
      exact hmore.map (code :: ·)
  | case7 c rest offset _ _ e hescaped ih =>
    obtain ⟨found, hfound, rfl⟩ := eq_ok_of_map h
    obtain ⟨taken, hsplit, htakes⟩ := ih hfound
    refine ⟨'\\' :: c :: taken, by rw [hsplit]; rfl, fun start => ⟨?_, ?_, ?_⟩⟩
    · exact visible_cons (isVisible_of_le (by decide))
        (visible_cons (visible_of_escaped? hescaped) (htakes start).visible)
    · exact closed_append ['\\', c] (htakes start).closed
    · intro fuel _ offset rest _
      have hmore := (htakes start).reads _ (Nat.le_refl _) (offset + 2) rest trivial
      show Reads (scanCodes start ('\\' :: c :: (taken ++ rest)) offset) _ rest
      rw [scanCodes_escaped ‹_› hescaped start offset]
      exact hmore.map (e.toNat :: ·)
  | case10 c rest offset hquote halone _ hpair hcontrol ih =>
    obtain ⟨found, hfound, rfl⟩ := eq_ok_of_map h
    obtain ⟨taken, hsplit, htakes⟩ := ih hfound
    refine ⟨c :: taken, by rw [hsplit]; rfl, fun start => ⟨?_, ?_, ?_⟩⟩
    · exact visible_cons (isVisible_of_le (Nat.not_lt.mp hcontrol)) (htakes start).visible
    · exact closed_append [c] (htakes start).closed
    · intro fuel _ offset more _
      have hmore := (htakes start).reads _ (Nat.le_refl _) (offset + 1) more trivial
      have hslash : c ≠ '\\' := by
        intro hc
        cases rest with
        | nil => exact halone hc rfl
        | cons d ds => exact hpair d ds hc rfl
      show Reads (scanCodes start (c :: (taken ++ more)) offset) _ more
      rw [scanCodes_plain hquote hslash (Nat.not_lt.mp hcontrol) start offset]
      exact hmore.map (c.toNat :: ·)
  | case1 => cases h
  | case3 => cases h
  | case5 => cases h
  | case6 => cases h
  | case8 => cases h
  | case9 => cases h

theorem takes_string {start : Nat} {cs : List Char} {s : String} {after : Cursor}
    (h : scanString start cs = .ok (s, after)) : ∃ taken, cs = taken ++ after.rest ∧
      (∀ c ∈ taken, IsVisible c) ∧ Closed taken ∧
      ∀ start rest, Reads (scanString start (taken ++ rest)) s rest := by
  unfold scanString at h
  obtain ⟨codes, hcodes, rfl⟩ := eq_ok_of_map (f := fun codes => String.ofList (ofCodes codes)) h
  obtain ⟨taken, hsplit, htakes⟩ := takes_codes hcodes
  refine ⟨taken, hsplit, (htakes start).visible, (htakes start).closed, fun start rest => ?_⟩
  exact ((htakes start).reads _ (Nat.le_refl _) (start + 1) rest trivial).map
    fun codes => String.ofList (ofCodes codes)

/-! ## Numbers -/

theorem spanDigits_spec (cs : List Char) : cs = (spanDigits cs).1 ++ (spanDigits cs).2 ∧
    AreDigits (spanDigits cs).1 :=
  ⟨List.takeWhile_append_dropWhile.symm, List.all_eq_true.mp List.all_takeWhile⟩

/-- The whole part of a number has no zero in front of other digits. -/
theorem spanWhole_spec {cs whole rest : List Char} (h : spanWhole cs = (whole, rest))
    (hne : whole ≠ []) : cs = whole ++ rest ∧ IsWhole whole := by
  unfold spanWhole at h
  split at h
  · cases h
    exact ⟨rfl, Numeral.isWhole_zero⟩
  · rename_i hzero
    obtain ⟨hsplit, hdigits⟩ := spanDigits_spec cs
    rw [h] at hsplit hdigits
    refine ⟨hsplit, hdigits, hne, fun es hes => ?_⟩
    exact (hzero (es ++ rest) (by rw [hsplit, hes]; rfl)).elim

/-- The characters of a fraction. -/
def pointed (fraction : List Char) : List Char := if fraction = [] then [] else '.' :: fraction

theorem spanFraction_spec {cs fraction rest : List Char} (h : spanFraction cs = (fraction, rest)) :
    cs = pointed fraction ++ rest ∧ AreDigits fraction := by
  unfold spanFraction at h
  split at h
  · rename_i cs
    obtain ⟨hsplit, hdigits⟩ := spanDigits_spec cs
    split at h
    · cases h
      exact ⟨rfl, nofun⟩
    · rename_i ds rest' hne hspan
      cases h
      rw [hspan] at hsplit hdigits
      refine ⟨?_, hdigits⟩
      rw [pointed, if_neg hne, hsplit]
      rfl
  · cases h
    exact ⟨rfl, nofun⟩

/-- A sign is split off whatever digits follow it. -/
theorem splitSign_spec (cs : List Char) : ∃ sign, cs = sign ++ (splitSign cs).2 ∧
    (∀ c ∈ sign, IsVisible c) ∧ ∀ rest, Begins Char.isDigit rest →
      splitSign (sign ++ rest) = ((splitSign cs).1, rest) := by
  unfold splitSign
  split
  · exact ⟨['-'], rfl, visible_cons (isVisible_of_le (by decide)) nofun, fun _ _ => rfl⟩
  · exact ⟨['+'], rfl, visible_cons (isVisible_of_le (by decide)) nofun, fun _ _ => rfl⟩
  · refine ⟨[], rfl, nofun, ?_⟩
    rintro rest ⟨d, ds, rfl, hd⟩
    rw [List.nil_append]
    split
    · rename_i heq
      rw [(List.cons.inj heq).1] at hd
      cases hd
    · rename_i heq
      rw [(List.cons.inj heq).1] at hd
      cases hd
    · rfl

/-- The exponent of a number takes characters that begin with the letter for it. -/
theorem spanExponent?_spec {cs rest : List Char} {e : Int} {width : Nat}
    (h : spanExponent? cs = some (e, width, rest)) : ∃ c tail, (c = 'e' ∨ c = 'E') ∧
      cs = c :: tail ++ rest ∧ (∀ d ∈ c :: tail, IsVisible d) ∧ Closed (c :: tail) ∧
      ∀ rest, EndsDigits rest → ∃ width, spanExponent? (c :: tail ++ rest) = some (e, width, rest) := by
  unfold spanExponent? at h
  split at h
  · rename_i c cs
    split at h
    · rename_i hletter
      obtain ⟨sign, hsign, hvisible, hsplits⟩ := splitSign_spec cs
      obtain ⟨hspan, hdigits⟩ := spanDigits_spec (splitSign cs).2
      dsimp only at h
      split at h
      · cases h
      · rename_i ds rest' hne hfound
        cases h
        rw [hfound] at hspan hdigits
        have hletter' : c = 'e' ∨ c = 'E' := by simpa using hletter
        have hvisible' : IsVisible c := by
          rcases hletter' with rfl | rfl <;> exact isVisible_of_le (by decide)
        refine ⟨c, sign ++ ds, hletter', ?_, ?_, ?_, ?_⟩
        · rw [hsign, hspan, List.cons_append, List.append_assoc]
        · exact visible_cons hvisible' (visible_append hvisible (visible_digits hdigits))
        · exact closed_append (c :: sign) (closed_digits hdigits hne)
        · intro rest hrest
          obtain ⟨d, es, rfl⟩ := List.exists_cons_of_ne_nil hne
          have hbegins : Begins Char.isDigit (d :: es ++ rest) :=
            ⟨d, es ++ rest, rfl, hdigits d List.mem_cons_self⟩
          rw [List.cons_append, spanExponent?, if_pos hletter, List.append_assoc]
          dsimp only
          rw [hsplits _ hbegins, spanDigits_append hdigits hrest]
          exact ⟨_, rfl⟩
    · cases h
  · cases h

/-- A text goes on with nothing that could be part of the digits of a number. -/
def EndsFraction (rest : List Char) : Prop := ∀ c cs, rest = c :: cs → c.isDigit = false ∧ c ≠ '.'

theorem EndsValue.endsFraction {rest : List Char} (h : EndsValue rest) : EndsFraction rest :=
  fun c cs hrest => ⟨(h c cs hrest).1, (h c cs hrest).2.1⟩

theorem spanFraction_pointed {fraction rest : List Char} (hfraction : AreDigits fraction)
    (hrest : EndsFraction rest) : spanFraction (pointed fraction ++ rest) = (fraction, rest) := by
  by_cases hnil : fraction = []
  · rw [pointed, if_pos hnil, hnil, List.nil_append, spanFraction]
    rintro cs rfl
    exact (hrest '.' cs rfl).2 rfl
  · rw [pointed, if_neg hnil, List.cons_append]
    exact spanFraction_append hfraction hnil fun c cs h => (hrest c cs h).1

theorem endsDigits_pointed (fraction : List Char) {rest : List Char} (hrest : EndsFraction rest) :
    EndsDigits (pointed fraction ++ rest) := by
  rw [pointed]
  split
  · exact fun c cs h => (hrest c cs h).1
  · exact Numeral.endsDigits_cons (by decide) _

theorem visible_pointed {fraction : List Char} (h : AreDigits fraction) :
    ∀ c ∈ pointed fraction, IsVisible c := by
  rw [pointed]
  split
  · exact nofun
  · exact visible_cons (isVisible_of_le (by decide)) (visible_digits h)

theorem closed_pointed {whole fraction : List Char} (hwhole : IsWhole whole)
    (hfraction : AreDigits fraction) : Closed (whole ++ pointed fraction) := by
  by_cases hnil : fraction = []
  · rw [pointed, if_pos hnil, List.append_nil]
    exact closed_digits hwhole.digits hwhole.ne_nil
  · rw [pointed, if_neg hnil]
    exact closed_append whole (closed_append ['.'] (closed_digits hfraction hnil))

section

variable {whole fraction rest rest' : List Char}

/-- A number with an exponent is read up to the end of that. -/
theorem reads_exponent (start offset : Nat) (negative : Bool) (hwhole : IsWhole whole)
    (hfraction : AreDigits fraction) (hrest : EndsFraction rest) {e : Int} {width : Nat}
    (hexponent : spanExponent? rest = some (e, width, rest')) :
    Reads (scanUnsigned start negative ⟨whole ++ (pointed fraction ++ rest), offset⟩)
      (.float (Decimal.toDouble ⟨negative, Numeral.digitsValue (whole ++ fraction),
        e - fraction.length⟩)) rest' := by
  have hne : ¬ whole.isEmpty = true := by
    rw [List.isEmpty_iff]
    exact hwhole.ne_nil
  rw [scanUnsigned]
  dsimp only
  rw [spanWhole_append hwhole (endsDigits_pointed fraction hrest)]
  dsimp only
  rw [if_neg hne, spanFraction_pointed hfraction hrest]
  dsimp only
  rw [hexponent]
  exact ⟨_, rfl⟩

/-- A number with a fraction and no exponent is read up to the end of the fraction. -/
theorem reads_fraction (start offset : Nat) (negative : Bool) (hwhole : IsWhole whole)
    (hfraction : AreDigits fraction) (hne : fraction ≠ []) (hrest : EndsValue rest) :
    Reads (scanUnsigned start negative ⟨whole ++ (pointed fraction ++ rest), offset⟩)
      (.float (Decimal.toDouble ⟨negative, Numeral.digitsValue (whole ++ fraction),
        -(fraction.length : Int)⟩)) rest := by
  have hwhole' : ¬ whole.isEmpty = true := by
    rw [List.isEmpty_iff]
    exact hwhole.ne_nil
  have hfraction' : (!fraction.isEmpty) = true := by
    rw [Bool.not_eq_true', List.isEmpty_eq_false_iff]
    exact hne
  rw [scanUnsigned]
  dsimp only
  rw [spanWhole_append hwhole (endsDigits_pointed fraction hrest.endsFraction)]
  dsimp only
  rw [if_neg hwhole', spanFraction_pointed hfraction hrest.endsFraction]
  dsimp only
  rw [spanExponent?_of_endsValue hrest]
  dsimp only
  rw [if_pos hfraction']
  exact ⟨_, rfl⟩

end

/-- A number takes its digits, and its fraction and its exponent if it has them. -/
theorem takes_unsigned {start : Nat} {negative : Bool} {c after : Cursor} {v : Json}
    (h : scanUnsigned start negative c = .ok (v, after)) : ∃ whole more, IsWhole whole ∧
      c.rest = whole ++ more ++ after.rest ∧ ∀ start,
        Takes (fun _ c => scanUnsigned start negative c) EndsValue v (whole ++ more) := by
  obtain ⟨whole, rest₁, hspan⟩ : ∃ whole rest, spanWhole c.rest = (whole, rest) := ⟨_, _, rfl⟩
  obtain ⟨fraction, rest₂, hpoint⟩ : ∃ fraction rest, spanFraction rest₁ = (fraction, rest) :=
    ⟨_, _, rfl⟩
  unfold scanUnsigned at h
  dsimp only at h
  rw [hspan] at h
  dsimp only at h
  rw [hpoint] at h
  dsimp only at h
  split at h
  · cases h
  rename_i hempty
  obtain ⟨hsplit, hwhole⟩ := spanWhole_spec hspan (by simpa using hempty)
  obtain ⟨hsplit', hfraction⟩ := spanFraction_spec hpoint
  have hvisible := visible_append (visible_digits hwhole.digits) (visible_pointed hfraction)
  split at h
  · rename_i e width rest₃ hexponent
    cases h
    obtain ⟨letter, tail, hletter, hsplit'', hshown, hclosed, hagain⟩ := spanExponent?_spec hexponent
    refine ⟨whole, pointed fraction ++ (letter :: tail), hwhole, ?_, fun start => ⟨?_, ?_, ?_⟩⟩
    · rw [hsplit, hsplit', hsplit'']
      simp only [List.append_assoc]
    · rw [← List.append_assoc]
      exact visible_append hvisible hshown
    · rw [← List.append_assoc]
      exact closed_append _ hclosed
    · intro _ _ offset rest hrest
      have hletter' : letter.isDigit = false ∧ letter ≠ '.' := by
        rcases hletter with rfl | rfl <;> decide
      have hends : EndsFraction (letter :: tail ++ rest) := by
        intro d ds heq
        rw [← (List.cons.inj heq).1]
        exact hletter'
      obtain ⟨width, hexponent⟩ := hagain rest hrest.endsDigits
      rw [List.append_assoc, List.append_assoc]
      exact reads_exponent start offset negative hwhole hfraction hends hexponent
  · split at h
    · rename_i hfraction'
      cases h
      have hne : fraction ≠ [] := by simpa using hfraction'
      refine ⟨whole, pointed fraction, hwhole, ?_, fun start => ⟨hvisible, ?_, ?_⟩⟩
      · rw [hsplit, hsplit', List.append_assoc]
      · exact closed_pointed hwhole hfraction
      · intro _ _ offset rest hrest
        rw [List.append_assoc]
        exact reads_fraction start offset negative hwhole hfraction hne hrest
    · split at h
      · cases h
      · rename_i hfraction' hlimit
        cases h
        have hnil : fraction = [] := by simpa using hfraction'
        refine ⟨whole, [], hwhole, ?_, fun start => ⟨?_, ?_, ?_⟩⟩
        · rw [hsplit, hsplit', hnil, List.append_nil]
          rfl
        · rw [List.append_nil]
          exact visible_digits hwhole.digits
        · rw [List.append_nil]
          exact closed_digits hwhole.digits hwhole.ne_nil
        · intro _ _ offset rest hrest
          rw [List.append_nil]
          exact reads_digits start offset negative hwhole (Nat.not_lt.mp hlimit) hrest

/-! ## Scalars -/

/-- A word that is a value is taken whole, whatever follows it. -/
theorem takes_word {word : List Char × Json} (hword : word ∈ words) :
    Begins opensScalar word.1 ∧ Takes (fun _ c => scanScalar c) EndsValue word.2 word.1 := by
  have hletters : words.all (fun word => word.1.all fun c => 0x20 ≤ c.toNat) = true := by decide
  have hvisible : ∀ c ∈ word.1, IsVisible c := fun c hc =>
    .inl (of_decide_eq_true (List.all_eq_true.mp (List.all_eq_true.mp hletters word hword) c hc))
  simp only [words, List.mem_cons, List.not_mem_nil, or_false] at hword
  rcases hword with rfl | rfl | rfl | rfl | rfl | rfl
  · exact ⟨⟨'n', _, rfl, rfl⟩, hvisible, ⟨"nul".toList, 'l', rfl, rfl⟩,
      fun _ _ offset _ _ => ⟨offset + 4, rfl⟩⟩
  · exact ⟨⟨'t', _, rfl, rfl⟩, hvisible, ⟨"tru".toList, 'e', rfl, rfl⟩,
      fun _ _ offset _ _ => ⟨offset + 4, rfl⟩⟩
  · exact ⟨⟨'f', _, rfl, rfl⟩, hvisible, ⟨"fals".toList, 'e', rfl, rfl⟩,
      fun _ _ offset _ _ => ⟨offset + 5, rfl⟩⟩
  · exact ⟨⟨'N', _, rfl, rfl⟩, hvisible, ⟨"Na".toList, 'N', rfl, rfl⟩,
      fun _ _ offset _ _ => ⟨offset + 3, rfl⟩⟩
  · exact ⟨⟨'I', _, rfl, rfl⟩, hvisible, ⟨"Infinit".toList, 'y', rfl, rfl⟩,
      fun _ _ offset _ _ => ⟨offset + 8, rfl⟩⟩
  · exact ⟨⟨'-', _, rfl, rfl⟩, hvisible, ⟨"-Infinit".toList, 'y', rfl, rfl⟩,
      fun _ _ offset _ _ => ⟨offset + 9, rfl⟩⟩

/-- A number takes its sign, too. -/
theorem takes_number (negative : Bool) {whole more : List Char} {v : Json} (hwhole : IsWhole whole)
    (htakes : ∀ start, Takes (fun _ c => scanUnsigned start negative c) EndsValue v (whole ++ more)) :
    Takes (fun _ c => scanScalar c) EndsValue v
      ((Double.signText negative).toList ++ (whole ++ more)) := by
  have hsign : ∀ c ∈ (Double.signText negative).toList, IsVisible c := by
    cases negative with
    | true => exact visible_cons (isVisible_of_le (by decide)) nofun
    | false => exact nofun
  refine ⟨visible_append hsign (htakes 0).visible, closed_append _ (htakes 0).closed, ?_⟩
  intro _ _ offset rest hrest
  rw [List.append_assoc, List.append_assoc]
  obtain ⟨offset', hscan⟩ := scanScalar_number negative hwhole (more ++ rest) offset
  have hread := (htakes offset).reads _ (Nat.le_refl _) offset' rest hrest
  rw [List.append_assoc] at hread
  rw [hscan]
  exact hread

/-- A word or a number takes what it is spelled with. -/
theorem takes_scalar {c after : Cursor} {v : Json} (h : scanScalar c = .ok (v, after)) :
    ∃ taken, c.rest = taken ++ after.rest ∧ Begins opensScalar taken ∧
      Takes (fun _ c => scanScalar c) EndsValue v taken := by
  unfold scanScalar at h
  split at h
  · rename_i word v' hfound
    cases h
    have hprefix := List.find?_some hfound
    obtain ⟨rest, hsplit⟩ := List.isPrefixOf_iff_prefix.mp hprefix
    obtain ⟨hbegins, htakes⟩ := takes_word (List.mem_of_find?_eq_some hfound)
    refine ⟨word, ?_, hbegins, htakes⟩
    dsimp only
    rw [← hsplit, List.drop_left]
  · split at h
    · rename_i hminus
      obtain ⟨whole, more, hwhole, hsplit, htakes⟩ := takes_unsigned h
      refine ⟨'-' :: (whole ++ more), ?_, ⟨'-', _, rfl, rfl⟩, takes_number true hwhole htakes⟩
      rw [hminus]
      exact congrArg ('-' :: ·) hsplit
    · obtain ⟨whole, more, hwhole, hsplit, htakes⟩ := takes_unsigned h
      exact ⟨whole ++ more, hsplit, begins_number false hwhole more,
        takes_number false hwhole htakes⟩

end Json
end DecisionBoard
