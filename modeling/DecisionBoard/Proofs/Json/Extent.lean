import DecisionBoard.Proofs.Json.Taken

/-!
# What is taken for a value

A value takes what it is made of, and the white space and the signs between the parts. So a text
that is read is one value with white space around it, and reads the same without that white space;
and no text that is read goes on with anything else.
-/

namespace DecisionBoard
namespace Json

/-! ## Values, items and fields -/

theorem isSpacing_of_quote (c : Char) (h : (c == '"') = true) : isSpacing c = false := by
  rw [beq_iff_eq.mp h]
  rfl

/-- What is skipped is white space. -/
theorem exists_gap (c : Cursor) : ∃ gap, IsGap gap ∧ c.rest = gap ++ c.skipSpacing.rest :=
  ⟨c.rest.takeWhile isSpacing, List.all_eq_true.mp List.all_takeWhile,
    List.takeWhile_append_dropWhile.symm⟩

/-- White space in front of what begins otherwise is skipped. -/
theorem skipSpacing_begins {opens : Char → Bool} (hopens : ∀ c, opens c = true → isSpacing c = false)
    {gap taken : List Char} (hgap : IsGap gap) (htaken : Begins opens taken) (rest : List Char)
    (offset : Nat) : ∃ c cs offset', opens c = true ∧ taken ++ rest = c :: cs ∧
      Cursor.skipSpacing ⟨gap ++ (taken ++ rest), offset⟩ = ⟨c :: cs, offset'⟩ := by
  obtain ⟨c, cs, rfl, hc⟩ := htaken
  obtain ⟨offset', hskip⟩ := skipSpacing_append hgap (hopens c hc) (cs ++ rest) offset
  exact ⟨c, cs ++ rest, offset', hc, rfl, hskip⟩

/-- A bracket that ends a list or an object. -/
def IsClosing (c : Char) : Prop := c = ']' ∨ c = '\x7d'

namespace IsClosing

variable {c : Char} (h : IsClosing c)
include h

theorem not_spacing : isSpacing c = false := by
  rcases h with rfl | rfl <;> decide

theorem isVisible : IsVisible c := by
  rcases h with rfl | rfl <;> exact isVisible_of_le (by decide)

theorem closed : Closed [c] := by
  rcases h with rfl | rfl <;> exact closed_singleton (by decide)

theorem endsValue : c.isDigit = false ∧ c ≠ '.' ∧ c ≠ 'e' ∧ c ≠ 'E' := by
  rcases h with rfl | rfl <;> decide

theorem ne_comma : ',' ≠ c := by
  rcases h with rfl | rfl <;> decide

end IsClosing

/-- What stands in brackets takes the opening bracket and the white space behind it, too. -/
theorem takes_bracketed {α : Type} {scan : Nat → Cursor → Scan α} {room : Nat} {bracket : Char}
    {f : α → Json} {opens : Char → Bool} (hopens : ∀ c, opens c = true → isSpacing c = false)
    (hvisible : IsVisible bracket)
    (hscan : ∀ fuel cs offset c cs' offset', opens c = true →
      Cursor.skipSpacing ⟨cs, offset + 1⟩ = ⟨c :: cs', offset'⟩ →
      scanValue (fuel + 1) room ⟨bracket :: cs, offset⟩
        = (scan fuel ⟨c :: cs', offset'⟩).map fun (a, c) => (f a, c))
    {gap taken : List Char} {a : α} (hgap : IsGap gap) (hbegins : Begins opens taken)
    (htakes : Takes scan (fun _ => True) a taken) :
    Takes (fun fuel => scanValue fuel room) EndsValue (f a) (bracket :: (gap ++ taken)) := by
  refine ⟨visible_cons hvisible (visible_append (visible_gap hgap) htakes.visible),
    closed_append (bracket :: gap) htakes.closed, ?_⟩
  intro fuel hfuel offset rest _
  rw [List.length_cons, List.length_append] at hfuel
  obtain ⟨fuel, rfl⟩ : ∃ n, fuel = n + 1 := ⟨fuel - 1, by omega⟩
  obtain ⟨c, cs, offset', hc, htext, hskip⟩ := skipSpacing_begins hopens hgap hbegins rest (offset + 1)
  rw [List.cons_append, List.append_assoc, hscan fuel _ offset c cs offset' hc hskip, ← htext]
  exact (htakes.reads fuel (by omega) offset' rest trivial).map f

/-- An empty list or object takes its brackets and the white space between them. -/
theorem takes_empty {room : Nat} {bracket closing : Char} {v : Json} {gap : List Char}
    (hvisible : IsVisible bracket) (hclosing : IsClosing closing) (hgap : IsGap gap)
    (hscan : ∀ fuel cs offset cs' offset',
      Cursor.skipSpacing ⟨cs, offset + 1⟩ = ⟨closing :: cs', offset'⟩ →
      scanValue (fuel + 1) room ⟨bracket :: cs, offset⟩ = .ok (v, ⟨cs', offset' + 1⟩)) :
    Takes (fun fuel => scanValue fuel room) EndsValue v (bracket :: (gap ++ [closing])) := by
  refine ⟨visible_cons hvisible (visible_append (visible_gap hgap)
    (visible_cons hclosing.isVisible nofun)), closed_append (bracket :: gap) hclosing.closed, ?_⟩
  intro fuel hfuel offset rest _
  rw [List.length_cons] at hfuel
  obtain ⟨fuel, rfl⟩ : ∃ n, fuel = n + 1 := ⟨fuel - 1, by omega⟩
  obtain ⟨offset', hskip⟩ := skipSpacing_append hgap hclosing.not_spacing rest (offset + 1)
  rw [List.cons_append, List.append_assoc, List.singleton_append,
    hscan fuel _ offset rest offset' hskip]
  exact ⟨_, rfl⟩

/-- Whatever a scan of some kind gives with some fuel, it takes characters for that begin as that
kind does. -/
def TakesWhenever {α : Type} (scan : Nat → Nat → Cursor → Scan α) (opens : Char → Bool)
    (ends : List Char → Prop) (fuel : Nat) : Prop :=
  ∀ room c a after, scan fuel room c = .ok (a, after) → ∃ taken, c.rest = taken ++ after.rest ∧
    Begins opens taken ∧ Takes (fun fuel => scan fuel room) ends a taken

/-! ### Series of elements -/

/-- An element and what follows it: the closing bracket, or a comma and more elements. -/
def series {α : Type} (closing : Char) (element : Cursor → Scan α) (more : Cursor → Scan (List α))
    (c : Cursor) : Scan (List α) :=
  match element c with
  | .error e => .error e
  | .ok (a, c) =>
    let c := c.skipSpacing
    match c.rest with
    | [] => .error (.expectingComma, c.offset)
    | d :: rest =>
      if d = closing then .ok ([a], ⟨rest, c.offset + 1⟩)
      else if d = ',' then
        (more (Cursor.skipSpacing ⟨rest, c.offset + 1⟩)).map fun (as, c') => (a :: as, c')
      else .error (.expectingComma, c.offset)

/-- A name, a colon and a value. -/
def scanField (fuel room : Nat) (c : Cursor) : Scan (String × Json) :=
  match c.rest with
  | '"' :: rest =>
    match scanString c.offset rest with
    | .error e => .error e
    | .ok (k, c) =>
      let c := c.skipSpacing
      match c.rest with
      | ':' :: rest =>
        (scanValue fuel room (Cursor.skipSpacing ⟨rest, c.offset + 1⟩)).map fun (v, c) => ((k, v), c)
      | _ => .error (.expectingColon, c.offset)
  | _ => .error (.expectingName, c.offset)

theorem scanItems_succ (fuel room : Nat) (c : Cursor) : scanItems (fuel + 1) room c
    = series ']' (scanValue fuel room) (scanItems fuel room) c := by
  rw [scanItems, series]
  cases scanValue fuel room c with
  | error e => rfl
  | ok found =>
    obtain ⟨v, c'⟩ := found
    dsimp only
    cases c'.skipSpacing.rest with
    | nil => rfl
    | cons d rest =>
      dsimp only
      split <;> simp_all

theorem scanFields_succ (fuel room : Nat) (c : Cursor) : scanFields (fuel + 1) room c
    = series '\x7d' (scanField fuel room) (scanFields fuel room) c := by
  rw [scanFields, series]
  unfold scanField
  rcases c.rest with _ | ⟨d, rest⟩
  · rfl
  by_cases hquote : d = '"'
  · subst hquote
    simp only
    cases scanString c.offset rest with
    | error e => rfl
    | ok found =>
      obtain ⟨k, c'⟩ := found
      dsimp only
      rcases c'.skipSpacing.rest with _ | ⟨d', rest'⟩
      · rfl
      by_cases hcolon : d' = ':'
      · subst hcolon
        simp only
        cases scanValue fuel room (Cursor.skipSpacing ⟨rest', c'.skipSpacing.offset + 1⟩) with
        | error e => rfl
        | ok found =>
          obtain ⟨v, c''⟩ := found
          dsimp only [Except.map]
          cases c''.skipSpacing.rest with
          | nil => rfl
          | cons d'' rest'' =>
            dsimp only
            split <;> simp_all
      · simp [hcolon]
  · simp [hquote]

section

variable {α : Type} {closing : Char} {opens : Char → Bool} {element : Nat → Nat → Cursor → Scan α}
  {scan : Nat → Nat → Cursor → Scan (List α)} {fuel : Nat}

/-- The last element of a series takes the white space behind it and the bracket, too. -/
theorem takes_last (hclosing : IsClosing closing)
    (hscan : ∀ fuel room c,
      scan (fuel + 1) room c = series closing (element fuel room) (scan fuel room) c)
    {room : Nat} {a : α} {taken gap : List Char} (hgap : IsGap gap)
    (htakes : Takes (fun fuel => element fuel room) EndsValue a taken) :
    Takes (fun fuel => scan fuel room) (fun _ => True) [a] (taken ++ (gap ++ [closing])) := by
  refine ⟨?_, closed_append _ (closed_append _ hclosing.closed), ?_⟩
  · exact visible_append htakes.visible (visible_append (visible_gap hgap)
      (visible_cons hclosing.isVisible nofun))
  · intro fuel hfuel offset rest _
    simp only [List.length_append, List.length_cons, List.length_nil] at hfuel
    obtain ⟨fuel, rfl⟩ : ∃ n, fuel = n + 1 := ⟨fuel - 1, by omega⟩
    obtain ⟨offset₁, hread⟩ := htakes.reads fuel (by omega) offset (gap ++ closing :: rest)
      (endsValue_gap hgap hclosing.endsValue rest)
    obtain ⟨offset₂, hskip⟩ := skipSpacing_append hgap hclosing.not_spacing rest offset₁
    simp only [List.append_assoc, List.singleton_append]
    rw [hscan, series, hread]
    dsimp only
    rw [hskip]
    dsimp only
    rw [if_pos rfl]
    exact ⟨_, rfl⟩

/-- An element in front of more takes the comma between them and the white space around it. -/
theorem takes_more (hclosing : IsClosing closing)
    (hopens : ∀ c, opens c = true → isSpacing c = false)
    (hscan : ∀ fuel room c,
      scan (fuel + 1) room c = series closing (element fuel room) (scan fuel room) c)
    {room : Nat} {a : α} {as : List α} {taken gap gap' more : List Char} (hgap : IsGap gap)
    (hgap' : IsGap gap') (hbegins : Begins opens more)
    (htakes : Takes (fun fuel => element fuel room) EndsValue a taken)
    (hmore : Takes (fun fuel => scan fuel room) (fun _ => True) as more) :
    Takes (fun fuel => scan fuel room) (fun _ => True) (a :: as)
      (taken ++ (gap ++ ',' :: (gap' ++ more))) := by
  refine ⟨?_, ?_, ?_⟩
  · exact visible_append htakes.visible (visible_append (visible_gap hgap)
      (visible_cons (isVisible_of_le (by decide))
        (visible_append (visible_gap hgap') hmore.visible)))
  · exact closed_append _ (closed_append _ (closed_append [','] (closed_append _ hmore.closed)))
  · intro fuel hfuel offset rest _
    simp only [List.length_append, List.length_cons] at hfuel
    obtain ⟨fuel, rfl⟩ : ∃ n, fuel = n + 1 := ⟨fuel - 1, by omega⟩
    obtain ⟨offset₁, hread⟩ := htakes.reads fuel (by omega) offset
      (gap ++ ',' :: (gap' ++ (more ++ rest))) (endsValue_gap hgap (by decide) _)
    obtain ⟨offset₂, hskip⟩ := skipSpacing_append (c := ',') hgap rfl (gap' ++ (more ++ rest))
      offset₁
    obtain ⟨d, ds, offset₃, -, htext, hskip'⟩ := skipSpacing_begins hopens hgap' hbegins rest
      (offset₂ + 1)
    simp only [List.cons_append, List.append_assoc]
    rw [hscan, series, hread]
    dsimp only
    rw [hskip]
    dsimp only
    rw [if_neg hclosing.ne_comma, if_pos rfl, hskip', ← htext]
    exact (hmore.reads fuel (by omega) offset₃ rest trivial).map (a :: ·)

/-- A series takes its elements, the white space and the commas between them, and its bracket. -/
theorem takes_series (hclosing : IsClosing closing)
    (hopens : ∀ c, opens c = true → isSpacing c = false)
    (hscan : ∀ fuel room c,
      scan (fuel + 1) room c = series closing (element fuel room) (scan fuel room) c)
    (helement : TakesWhenever element opens EndsValue fuel)
    (hmore : TakesWhenever scan opens (fun _ => True) fuel) :
    TakesWhenever scan opens (fun _ => True) (fuel + 1) := by
  intro room c xs after hfound
  rw [hscan, series] at hfound
  split at hfound
  · cases hfound
  rename_i a c' ha
  obtain ⟨taken, hsplit, hbegins, htakes⟩ := helement _ _ _ _ ha
  obtain ⟨gap, hgap, hskip⟩ := exists_gap c'
  dsimp only at hfound
  split at hfound
  · cases hfound
  rename_i d rest hrest
  split at hfound
  · -- the element is the last one
    rename_i hd
    cases hfound
    refine ⟨taken ++ (gap ++ [closing]), ?_, hbegins.append _,
      takes_last hclosing hscan hgap htakes⟩
    rw [hsplit, hskip, hrest, hd]
    simp only [List.append_assoc, List.singleton_append]
  split at hfound
  · -- a comma stands before more elements
    rename_i hcomma
    subst hcomma
    obtain ⟨ys, hys, rfl⟩ := eq_ok_of_map hfound
    obtain ⟨gap', hgap', hskip'⟩ := exists_gap ⟨rest, c'.skipSpacing.offset + 1⟩
    obtain ⟨more, hsplit', hbegins', htakes'⟩ := hmore _ _ _ _ hys
    refine ⟨taken ++ (gap ++ ',' :: (gap' ++ more)), ?_, hbegins.append _,
      takes_more hclosing hopens hscan hgap hgap' hbegins' htakes htakes'⟩
    dsimp only at hskip'
    rw [hsplit, hskip, hrest, hskip', hsplit']
    simp only [List.cons_append, List.append_assoc]
  · cases hfound

/-- A field takes its name, the colon and its value. -/
theorem takes_field (hvalue : TakesWhenever scanValue opensValue EndsValue fuel) :
    TakesWhenever scanField (· == '"') EndsValue fuel := by
  intro room c f after hfound
  unfold scanField at hfound
  split at hfound
  · rename_i rest hquote
    split at hfound
    · cases hfound
    rename_i k c' hname
    obtain ⟨name, hsplit, hvisible, -, hreads⟩ := takes_string hname
    obtain ⟨gap, hgap, hskip⟩ := exists_gap c'
    dsimp only at hfound
    split at hfound
    · rename_i rest' hcolon
      obtain ⟨v, hv, rfl⟩ := eq_ok_of_map hfound
      obtain ⟨gap', hgap', hskip'⟩ := exists_gap ⟨rest', c'.skipSpacing.offset + 1⟩
      obtain ⟨taken, hsplit', hbegins, htakes⟩ := hvalue _ _ _ _ hv
      refine ⟨'"' :: (name ++ (gap ++ ':' :: (gap' ++ taken))), ?_, ⟨'"', _, rfl, rfl⟩, ?_, ?_, ?_⟩
      · dsimp only at hskip'
        rw [hquote, hsplit, hskip, hcolon, hskip', hsplit']
        simp only [List.cons_append, List.append_assoc]
      · exact visible_cons (isVisible_of_le (by decide)) (visible_append hvisible
          (visible_append (visible_gap hgap) (visible_cons (isVisible_of_le (by decide))
            (visible_append (visible_gap hgap') htakes.visible))))
      · exact closed_append ['"'] (closed_append _ (closed_append _
          (closed_append [':'] (closed_append _ htakes.closed))))
      · intro fuel hfuel offset rest hrest
        simp only [List.length_append, List.length_cons] at hfuel
        obtain ⟨offset₁, hread⟩ := hreads offset (gap ++ ':' :: (gap' ++ (taken ++ rest)))
        obtain ⟨offset₂, hskip⟩ := skipSpacing_append (c := ':') hgap rfl (gap' ++ (taken ++ rest))
          offset₁
        obtain ⟨d, ds, offset₃, -, htext, hskip'⟩ := skipSpacing_begins
          (fun c => isSpacing_of_opensValue) hgap' hbegins rest (offset₂ + 1)
        simp only [scanField, List.cons_append, List.append_assoc, hread, hskip, hskip', ← htext]
        exact (htakes.reads fuel (by omega) offset₃ rest hrest).map fun v => (k, v)
    · cases hfound
  · cases hfound

end

/-! ### Values -/

/-- What the scanner gives with some fuel takes characters: values, the items of lists, and the
fields of objects. -/
structure ScansTake (fuel : Nat) : Prop where
  value : TakesWhenever scanValue opensValue EndsValue fuel
  items : TakesWhenever scanItems opensValue (fun _ => True) fuel
  fields : TakesWhenever scanFields (· == '"') (fun _ => True) fuel

/-- A string takes its quotes and what stands between them. -/
theorem takes_str {room : Nat} {s : String} {taken : List Char}
    (hvisible : ∀ c ∈ taken, IsVisible c) (hclosed : Closed taken)
    (hreads : ∀ start rest, Reads (scanString start (taken ++ rest)) s rest) :
    Takes (fun fuel => scanValue fuel room) EndsValue (.str s) ('"' :: taken) := by
  refine ⟨visible_cons (isVisible_of_le (by decide)) hvisible, closed_append ['"'] hclosed, ?_⟩
  intro fuel hfuel offset rest _
  rw [List.length_cons] at hfuel
  obtain ⟨fuel, rfl⟩ : ∃ n, fuel = n + 1 := ⟨fuel - 1, by omega⟩
  rw [List.cons_append, scanValue]
  exact (hreads offset rest).map Json.str

/-- A word or a number takes as a value what it takes by itself. -/
theorem takes_of_scalar {room : Nat} {v : Json} {taken : List Char}
    (hbegins : Begins opensScalar taken)
    (htakes : Takes (fun _ c => scanScalar c) EndsValue v taken) :
    Takes (fun fuel => scanValue fuel room) EndsValue v taken := by
  obtain ⟨d, ds, hcons, hd⟩ := hbegins
  refine ⟨htakes.visible, htakes.closed, ?_⟩
  intro fuel hfuel offset rest hrest
  obtain ⟨fuel, rfl⟩ : ∃ n, fuel = n + 1 :=
    ⟨fuel - 1, by rw [hcons, List.length_cons] at hfuel; omega⟩
  rw [scanValue_scalar (Begins.append ⟨d, ds, hcons, hd⟩ rest)]
  exact htakes.reads _ (Nat.le_refl _) offset rest hrest

namespace ScansTake

variable {fuel : Nat}

theorem value_succ (h : ScansTake fuel) : TakesWhenever scanValue opensValue EndsValue (fuel + 1) := by
  intro room c v after hscan
  rw [scanValue] at hscan
  split at hscan
  · rename_i rest hrest
    obtain ⟨s, hstring, rfl⟩ := eq_ok_of_map hscan
    obtain ⟨taken, hsplit, hvisible, hclosed, hreads⟩ := takes_string hstring
    exact ⟨'"' :: taken, by rw [hrest, hsplit]; rfl, ⟨'"', taken, rfl, rfl⟩,
      takes_str hvisible hclosed hreads⟩
  · rename_i rest hrest
    split at hscan
    · cases hscan
    rename_i hroom
    obtain ⟨room, rfl⟩ : ∃ n, room = n + 1 := ⟨room - 1, by omega⟩
    obtain ⟨gap, hgap, hskip⟩ := exists_gap ⟨rest, c.offset + 1⟩
    dsimp only at hscan hskip
    split at hscan
    · rename_i rest' hrest'
      cases hscan
      refine ⟨'[' :: (gap ++ [']']), ?_, ⟨'[', _, rfl, rfl⟩, takes_empty (isVisible_of_le (by decide))
        (.inl rfl) hgap ?_⟩
      · rw [hrest, hskip, hrest']
        simp only [List.cons_append, List.append_assoc, List.nil_append]
      · intro fuel cs offset cs' offset' hskip
        rw [scanValue]
        simp only [hskip, Nat.succ_ne_zero, if_false]
    · obtain ⟨xs, hitems, rfl⟩ := eq_ok_of_map hscan
      obtain ⟨taken, hsplit, hbegins, htakes⟩ := h.items _ _ _ _ hitems
      refine ⟨'[' :: (gap ++ taken), ?_, ⟨'[', _, rfl, rfl⟩, takes_bracketed
        (fun c => isSpacing_of_opensValue) (isVisible_of_le (by decide)) ?_ hgap hbegins htakes⟩
      · rw [hrest, hskip, hsplit]
        simp only [List.cons_append, List.append_assoc]
      · intro fuel cs offset c cs' offset' hc hskip
        exact scanValue_list hskip (ne_of_opensValue hc rfl) fuel room
  · rename_i rest hrest
    split at hscan
    · cases hscan
    rename_i hroom
    obtain ⟨room, rfl⟩ : ∃ n, room = n + 1 := ⟨room - 1, by omega⟩
    obtain ⟨gap, hgap, hskip⟩ := exists_gap ⟨rest, c.offset + 1⟩
    dsimp only at hscan hskip
    split at hscan
    · rename_i rest' hrest'
      cases hscan
      refine ⟨'\x7b' :: (gap ++ ['\x7d']), ?_, ⟨'\x7b', _, rfl, rfl⟩,
        takes_empty (isVisible_of_le (by decide)) (.inr rfl) hgap ?_⟩
      · rw [hrest, hskip, hrest']
        simp only [List.cons_append, List.append_assoc, List.nil_append]
      · intro fuel cs offset cs' offset' hskip
        rw [scanValue]
        simp only [hskip, Nat.succ_ne_zero, if_false]
    · obtain ⟨fs, hfields, rfl⟩ :=
        eq_ok_of_map (f := fun fs => Json.obj (Entries.ofPairs fs)) hscan
      obtain ⟨taken, hsplit, hbegins, htakes⟩ := h.fields _ _ _ _ hfields
      refine ⟨'\x7b' :: (gap ++ taken), ?_, ⟨'\x7b', _, rfl, rfl⟩,
        takes_bracketed (f := fun fs => Json.obj (Entries.ofPairs fs)) isSpacing_of_quote
          (isVisible_of_le (by decide)) ?_ hgap hbegins htakes⟩
      · rw [hrest, hskip, hsplit]
        simp only [List.cons_append, List.append_assoc]
      · intro fuel cs offset c cs' offset' hc hskip
        rw [beq_iff_eq.mp hc] at hskip
        rw [beq_iff_eq.mp hc]
        exact scanValue_object hskip (by decide) fuel room
  · obtain ⟨taken, hsplit, hbegins, htakes⟩ := takes_scalar hscan
    obtain ⟨d, ds, hcons, hd⟩ := hbegins
    exact ⟨taken, hsplit, ⟨d, ds, hcons, opensValue_of_scalar hd⟩,
      takes_of_scalar ⟨d, ds, hcons, hd⟩ htakes⟩

end ScansTake

theorem scansTake (fuel : Nat) : ScansTake fuel := by
  -- the three scanners call each other with less fuel, so one induction carries them all
  induction fuel with
  | zero => exact ⟨nofun, nofun, nofun⟩
  | succ fuel ih =>
    refine ⟨ih.value_succ, ?_, ?_⟩
    · exact takes_series (.inl rfl) (fun c => isSpacing_of_opensValue) scanItems_succ ih.value ih.items
    · exact takes_series (.inr rfl) isSpacing_of_quote scanFields_succ (takes_field ih.value) ih.fields

/-! ## Documents -/

/-- White space does not go on with a number, nor does what stands behind it. -/
theorem endsValue_append {gap rest : List Char} (hgap : IsGap gap) (hrest : EndsValue rest) :
    EndsValue (gap ++ rest) := by
  cases rest with
  | nil =>
    intro c cs heq
    have hlonger : gap ++ [' '] = c :: (cs ++ [' ']) := by
      rw [← List.cons_append, ← heq, List.append_nil]
    exact endsValue_gap hgap (by decide) [] c (cs ++ [' ']) hlonger
  | cons d ds => exact endsValue_gap hgap (hrest d ds rfl) ds

theorem endsValue_of_gap {gap : List Char} (hgap : IsGap gap) : EndsValue gap := by
  rw [← List.append_nil gap]
  exact endsValue_append hgap endsValue_nil

/-- A document is one value with white space around it. -/
theorem scanDocument_eq_ok {cs : List Char} {v : Json} : scanDocument cs = .ok v ↔
    ∃ front taken back, IsGap front ∧ IsGap back ∧ cs = front ++ (taken ++ back) ∧
      Begins opensValue taken ∧
      Takes (fun fuel => scanValue fuel nestingLimit) EndsValue v taken := by
  constructor
  · intro h
    unfold scanDocument at h
    split at h
    · cases h
    rename_i v' after hscan
    dsimp only at h
    split at h
    · rename_i hend
      cases h
      obtain ⟨front, hfront, hskip⟩ := exists_gap ⟨cs, 0⟩
      obtain ⟨taken, hsplit, hbegins, htakes⟩ := (scansTake _).value _ _ _ _ hscan
      obtain ⟨back, hback, hskip'⟩ := exists_gap after
      rw [List.isEmpty_iff.mp hend, List.append_nil] at hskip'
      refine ⟨front, taken, back, hfront, hback, ?_, hbegins, htakes⟩
      rw [← hskip', ← hsplit]
      exact hskip
    · cases h
  · rintro ⟨front, taken, back, hfront, hback, rfl, hbegins, htakes⟩
    obtain ⟨c, cs, offset, -, htext, hskip⟩ := skipSpacing_begins (fun c => isSpacing_of_opensValue)
      hfront hbegins back 0
    obtain ⟨offset', hread⟩ := htakes.reads (2 * (front ++ (taken ++ back)).length + 2)
      (by simp only [List.length_append]; omega) offset back (endsValue_of_gap hback)
    have hdrop : back.dropWhile isSpacing = [] := by
      have happend : (back ++ []).dropWhile isSpacing = [] := List.dropWhile_append_of_pos hback
      rwa [List.append_nil] at happend
    rw [scanDocument, hskip, ← htext, hread]
    dsimp only [Cursor.skipSpacing]
    rw [hdrop]
    rfl

/-- A text is read as the document that it is, unless a byte order mark stands in front. -/
theorem read_eq_ok {s : String} {v : Json} : read s = .ok v ↔
    (∀ cs, s.toList ≠ '\uFEFF' :: cs) ∧ scanDocument s.toList = .ok v := by
  unfold read
  dsimp only
  split
  · rename_i cs heq
    constructor
    · exact nofun
    · exact fun h => (h.1 cs heq).elim
  · rename_i hmark
    cases scanDocument s.toList with
    | error e => simp [Except.mapError]
    | ok w =>
      constructor
      · intro h
        cases h
        exact ⟨hmark, rfl⟩
      · rintro ⟨-, hscan⟩
        cases hscan
        rfl

/-- A document in front of more that does not go on with a number is a document only if that is
white space. -/
theorem gap_of_scanDocument_append {cs more : List Char} {v w : Json} (hmore : EndsValue more)
    (h : scanDocument cs = .ok v) (hwhole : scanDocument (cs ++ more) = .ok w) : IsGap more := by
  obtain ⟨front, taken, back, hfront, hback, rfl, hbegins, htakes⟩ := scanDocument_eq_ok.mp h
  obtain ⟨front', taken', back', hfront', hback', hsplit, hbegins', htakes'⟩ :=
    scanDocument_eq_ok.mp hwhole
  have hskips : ∀ {gap taken rest : List Char}, IsGap gap → Begins opensValue taken →
      (gap ++ (taken ++ rest)).dropWhile isSpacing = taken ++ rest := by
    rintro gap - rest hgap ⟨c, cs, rfl, hc⟩
    rw [List.dropWhile_append_of_pos hgap, List.cons_append, List.dropWhile_cons,
      isSpacing_of_opensValue hc]
    rfl
  have hsame : taken ++ (back ++ more) = taken' ++ back' := by
    have hdrop := congrArg (List.dropWhile isSpacing) hsplit
    rw [List.append_assoc, List.append_assoc, hskips hfront hbegins, hskips hfront' hbegins'] at hdrop
    exact hdrop
  -- the same characters are scanned with enough fuel for both
  have hfuel : 2 * taken.length ≤ 2 * (taken.length + taken'.length) := by omega
  have hfuel' : 2 * taken'.length ≤ 2 * (taken.length + taken'.length) := by omega
  obtain ⟨offset, hread⟩ := htakes.reads _ hfuel 0 (back ++ more) (endsValue_append hback hmore)
  obtain ⟨offset', hread'⟩ := htakes'.reads _ hfuel' 0 back' (endsValue_of_gap hback')
  rw [hsame, hread'] at hread
  cases hread
  exact fun c hc => hback' c (List.mem_append_right back hc)

theorem isBlank_of_isSpacing {c : Char} (h : isSpacing c = true) : Text.isBlank c = true := by
  simp only [isSpacing, Bool.or_eq_true, beq_iff_eq] at h
  rcases h with ((rfl | rfl) | rfl) | rfl <;> decide

theorem isBlank_append_gap {blanks gap : List Char} (hblanks : ∀ c ∈ blanks, Text.isBlank c = true)
    (hgap : IsGap gap) : ∀ c ∈ blanks ++ gap, Text.isBlank c = true :=
  List.forall_mem_append.mpr ⟨hblanks, fun c hc => isBlank_of_isSpacing (hgap c hc)⟩

theorem isBlank_of_opensValue {c : Char} (h : opensValue c = true) : Text.isBlank c = false := by
  simp only [opensValue, opensScalar, Bool.or_eq_true, List.contains_iff_mem, List.mem_cons,
    List.not_mem_nil, or_false] at h
  rcases h with (hdigit | rfl | rfl | rfl | rfl | rfl | rfl) | rfl | rfl | rfl
  · exact isBlank_of_isDigit hdigit
  all_goals decide

/-- Blanks go on with no number. -/
theorem endsValue_blanks {blanks rest : List Char} (hblanks : ∀ c ∈ blanks, Text.isBlank c = true)
    (hrest : EndsValue rest) : EndsValue (blanks ++ rest) := by
  cases blanks with
  | nil => exact hrest
  | cons c cs =>
    have hc : Text.isBlank c = true := hblanks c List.mem_cons_self
    refine endsValue_cons ⟨?_, ?_, ?_, ?_⟩ _
    · rw [← Bool.not_eq_true]
      intro hdigit
      rw [isBlank_of_isDigit hdigit] at hc
      cases hc
    all_goals
      rintro rfl
      cases hc

/-- The blanks behind a text are cut off. -/
theorem exists_trimmed (cs : List Char) : ∃ back, (∀ c ∈ back, Text.isBlank c = true) ∧
    cs = (cs.reverse.dropWhile Text.isBlank).reverse ++ back := by
  refine ⟨(cs.reverse.takeWhile Text.isBlank).reverse, ?_, ?_⟩
  · intro c hc
    exact List.all_eq_true.mp List.all_takeWhile c (List.mem_reverse.mp hc)
  · rw [← List.reverse_append, List.takeWhile_append_dropWhile, List.reverse_reverse]

/-- Blanks around a text are cut off its ends. -/
theorem trimWhere_append {front taken back : List Char} (hfront : ∀ c ∈ front, Text.isBlank c = true)
    (hback : ∀ c ∈ back, Text.isBlank c = true) (hbegins : Begins opensValue taken)
    (hclosed : Closed taken) : Text.trimWhere Text.isBlank (front ++ (taken ++ back)) = taken := by
  obtain ⟨c, cs, hcons, hc⟩ := hbegins
  obtain ⟨body, last, hlast, hblank⟩ := hclosed
  have hdrop : (front ++ (taken ++ back)).dropWhile Text.isBlank = taken ++ back := by
    rw [List.dropWhile_append_of_pos hfront, hcons, List.cons_append, List.dropWhile_cons,
      isBlank_of_opensValue hc]
    rfl
  have hreverse : ∀ c ∈ back.reverse, Text.isBlank c = true :=
    fun c hc => hback c (List.mem_reverse.mp hc)
  rw [Text.trimWhere, hdrop, List.reverse_append, List.dropWhile_append_of_pos hreverse, hlast,
    List.reverse_append, List.reverse_singleton, List.singleton_append, List.dropWhile_cons, hblank]
  simp only [Bool.false_eq_true, if_false, List.reverse_cons, List.reverse_reverse]

/-- Behind blanks and without the blanks at its ends a document denotes the same. -/
theorem scanDocument_trim {cs blanks : List Char} {v : Json}
    (hblanks : ∀ c ∈ blanks, Text.isBlank c = true) (h : scanDocument cs = .ok v) :
    Begins opensValue (Text.trimWhere Text.isBlank (blanks ++ cs)) ∧
      scanDocument (Text.trimWhere Text.isBlank (blanks ++ cs)) = .ok v := by
  obtain ⟨front, taken, back, hfront, hback, rfl, hbegins, htakes⟩ := scanDocument_eq_ok.mp h
  rw [← List.append_assoc, trimWhere_append (isBlank_append_gap hblanks hfront)
    (fun c hc => isBlank_of_isSpacing (hback c hc)) hbegins htakes.closed]
  refine ⟨hbegins, scanDocument_eq_ok.mpr ⟨[], taken, [], isGap_nil, isGap_nil, ?_, hbegins, htakes⟩⟩
  rw [List.append_nil, List.nil_append]

/-- What stands in a document in front of a blank that is no white space is no document by itself,
without the blanks at its ends. -/
theorem not_scanDocument_cut {before after blanks : List Char} {c : Char} {v : Json}
    (hblanks : ∀ c ∈ blanks, Text.isBlank c = true) (hblank : Text.isBlank c = true)
    (hspacing : isSpacing c = false) (h : scanDocument (before ++ c :: after) = .ok v) :
    Text.trimWhere Text.isBlank (blanks ++ before) ≠ [] ∧
      ∀ w, scanDocument (Text.trimWhere Text.isBlank (blanks ++ before)) ≠ .ok w := by
  obtain ⟨front, taken, back, hfront, hback, hsplit, ⟨d, ds, rfl, hd⟩, htakes⟩ :=
    scanDocument_eq_ok.mp h
  have hfirst : ∀ cs, d :: ds ++ back ≠ c :: cs := by
    intro cs heq
    rw [(List.cons.inj heq).1] at hd
    rw [isBlank_of_opensValue hd] at hblank
    cases hblank
  -- the character stands behind the white space in front, and behind where the value begins
  obtain ⟨inner, rfl, hinner⟩ : ∃ inner, before = front ++ d :: inner ∧
      d :: ds ++ back = d :: inner ++ c :: after := by
    rcases List.append_eq_append_iff.mp hsplit with ⟨more, hfront', hmore⟩ | ⟨more, rfl, hmore⟩
    · cases more with
      | nil => exact (hfirst _ hmore.symm).elim
      | cons c' more =>
        obtain ⟨rfl, -⟩ := List.cons.inj hmore
        have hgap := hfront c (by rw [hfront']; exact List.mem_append_right _ List.mem_cons_self)
        rw [hspacing] at hgap
        cases hgap
    · cases more with
      | nil => exact (hfirst _ hmore).elim
      | cons d' more =>
        obtain ⟨rfl, -⟩ := List.cons.inj hmore
        exact ⟨more, rfl, hmore⟩
  obtain ⟨trail, htrail, hcut⟩ := exists_trimmed (d :: inner)
  have htrim : Text.trimWhere Text.isBlank (blanks ++ (front ++ d :: inner))
      = ((d :: inner).reverse.dropWhile Text.isBlank).reverse := by
    rw [Text.trimWhere, ← List.append_assoc,
      List.dropWhile_append_of_pos (isBlank_append_gap hblanks hfront), List.dropWhile_cons,
      isBlank_of_opensValue hd]
    rfl
  rw [htrim]
  generalize ((d :: inner).reverse.dropWhile Text.isBlank).reverse = data at hcut ⊢
  constructor
  · -- the value begins in front of the cut, with a character that is not trimmed
    rintro rfl
    have hblank := htrail d (by rw [List.nil_append] at hcut; rw [← hcut]; exact List.mem_cons_self)
    rw [isBlank_of_opensValue hd] at hblank
    cases hblank
  · -- a document in front of the cut would make white space of all that follows, and the
    -- character at the cut is none
    intro w hdata
    have hwhole : scanDocument (data ++ (trail ++ c :: after)) = .ok v := by
      rw [← List.append_assoc, ← hcut, ← hinner]
      exact scanDocument_eq_ok.mpr ⟨[], d :: ds, back, isGap_nil, hback, rfl, ⟨d, ds, rfl, hd⟩, htakes⟩
    have hends : EndsValue (c :: after) := by
      have hsingle : ∀ d ∈ [c], Text.isBlank d = true := List.forall_mem_singleton.mpr hblank
      exact endsValue_cons (endsValue_blanks hsingle endsValue_nil c [] rfl) after
    have hgap := gap_of_scanDocument_append (endsValue_blanks htrail hends) hdata hwhole
    have hc := hgap c (List.mem_append_right trail List.mem_cons_self)
    rw [hspacing] at hc
    cases hc

end Json
end DecisionBoard
